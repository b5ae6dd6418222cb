import DanbyteOutpost.Snmp.ContextLists
import DanbyteOutpost.Snmp.DefaultRead
import DanbyteOutpost.Snmp.Mib

/-!
# Where the VLANs of a read end

Every VLAN that contexts are planned for is on one of the lists of VLANs at the end, and no other
is. That a read says it is complete is another matter: it looks at the problems only, and a VLAN
over the cap, or one whose gate was found too late, is skipped without one.

## The proof

`vids_eq_of_reaches` says where the VLANs are at any moment; at the end nobody waits and nobody is
under way, so they are on the lists. That the three lists have none in common is in the same
equation.

For the second half, a VLAN that failed leaves a problem (`none_failed_of_contextProblems`), and
as long as nothing is cut and the contexts are not given up a VLAN is skipped by a late gate only,
or for being over the cap in the plan. `complete_over_cap` and `complete_in_cap` are one read on
either side.
-/

namespace Snmp

open Coop

variable {rd : MacRead} {fuel : ℕ} {allowed : Allowed (net Outcome)} {cap : ℕ}
  {crew crew' : ContextCrew}

/-- A context that fails leaves its failure, and a problem stays a problem. -/
structure Failed (problems : List String) (crew : ContextCrew) : Prop where
  /-- It is known why. -/
  failures : ∀ vid ∈ crew.world.st.report.vlans.failed,
    vid ∈ crew.world.st.contexts.failures.keys
  /-- No complaint is taken back. -/
  problems : problems <+: crew.world.st.problems

theorem Failed.step {problems : List String} (h : Failed problems crew)
    (hstep : Crew.Step (rd.contextCourse fuel allowed) cap crew crew') : Failed problems crew' := by
  cases hstep with
  | start => exact ⟨h.failures, h.problems⟩
  | @step l l' queue flight w w' hstep =>
    have hframe := MacRead.ContextStep.frame hstep
    have hcontexts : w'.st.contexts = w.st.contexts := hframe.contexts
    have hvlans : w'.st.report.vlans = w.st.report.vlans := hframe.vlans
    refine ⟨?_, h.problems.trans hframe.problems⟩
    show ∀ vid ∈ w'.st.report.vlans.failed, vid ∈ w'.st.contexts.failures.keys
    rw [hcontexts, hvlans]
    exact h.failures
  | @stop l queue flight w w' hstop =>
    cases hstop with
    | stopped | late => exact ⟨h.failures, h.problems⟩
    | settled vid ok rows failure w =>
      show Failed problems ⟨queue, flight, ⟨MacRead.settle vid ok rows failure w.st, w.log⟩⟩
      rw [MacRead.settle]
      split
      · exact ⟨h.failures, h.problems⟩
      · split
        · exact ⟨h.failures, h.problems⟩
        · refine ⟨fun vid' hvid' ↦ Dict.mem_keys_set.2 ?_, h.problems⟩
          rcases List.mem_append.1 hvid' with hold | hnew
          · exact .inr (h.failures vid' hold)
          · exact .inl (List.mem_singleton.1 hnew)

/-- Contexts that failed are problems. -/
theorem none_failed_of_contextProblems {reads : ContextReads}
    (h : rd.contextProblems reads = []) : reads.aborted = [] ∧ reads.failures.keys = [] := by
  rw [MacRead.contextProblems, List.append_eq_nil_iff] at h
  obtain ⟨habort, hothers⟩ := h
  have haborted : reads.aborted = [] := by
    by_contra hne
    rw [if_neg hne] at habort
    cases habort
  refine ⟨haborted, ?_⟩
  by_contra hne
  rw [haborted, List.filter_eq_self.2 fun _ _ ↦ decide_eq_true List.not_mem_nil,
    if_neg (sortedSet_eq_nil.not.2 hne)] at hothers
  cases hothers

/-! ### The lists of a read -/

section Run

variable {sur : Surroundings} {now : ℚ} {rows : List Row} {advertised : Bool}
  {vlans toRead overCap : List ℤ} {s s' : ReadState} {log log' : Log (net Outcome)}

/-- The VLANs of a plan are on the lists, or their contexts are read. -/
theorem Planned.vids (h : Planned rd vlans toRead overCap ⟨s, log⟩) :
    ContextCrew.vids ⟨vlans.map .gate, 0, ⟨s, log⟩⟩ = ↑(toRead ++ overCap) := by
  have hlists : s.report.vlans = .planned rd.opts.quick toRead overCap := h.lists
  show (↑((vlans.map .gate).map ContextStage.vid) : Multiset ℤ) +
    Multiset.map ContextStage.vid 0 + s.report.vlans.all = _
  have hids : (vlans.map .gate).map ContextStage.vid = vlans :=
    (List.map_map ..).trans (List.map_id vlans)
  rw [hids, hlists, h.vlans, Multiset.map_zero, add_zero, VlanLists.all, VlanLists.planned,
    ← Multiset.coe_add]
  show (↑(if rd.opts.quick then [] else toRead) : Multiset ℤ) +
    (0 + 0 + ↑(overCap ++ if rd.opts.quick then toRead else [])) = ↑toRead + ↑overCap
  rw [zero_add, zero_add]
  split
  · rw [Multiset.coe_nil, zero_add, ← Multiset.coe_add, add_comm]
  · rw [List.append_nil]

/-- When the contexts have been read, the VLANs of the plan are on the lists. -/
theorem Planned.all (h : Planned rd vlans toRead overCap ⟨s, log⟩)
    (hreads : gather sur.env macContextConcurrency fuel (vlans.map (rd.one fuel)) s log =
      some (s', log')) : s'.report.vlans.all = ↑(toRead ++ overCap) := by
  have hvids := vids_eq_of_reaches (MacRead.contexts_reach sur.env.suits_allowed hreads)
  rw [h.vids] at hvids
  rw [← hvids]
  exact (zero_add _).symm

/-- What a read without a problem has skipped. -/
theorem Planned.complete (h : Planned rd vlans toRead overCap ⟨s, log⟩)
    (hreads : gather sur.env macContextConcurrency fuel (vlans.map (rd.one fuel)) s log =
      some (s', log'))
    (huncut : s'.budget.truncated = false) (hproblems : s'.problems = [])
    (hcontexts : rd.contextProblems s'.contexts = []) :
    s'.report.vlans.failed = [] ∧
      (s'.report.vlans.skipped = [] ↔ overCap = [] ∧ lateGates log' = lateGates log) := by
  have hreaches := MacRead.contexts_reach sur.env.suits_allowed hreads
  have hlists : s.report.vlans = .planned rd.opts.quick toRead overCap := h.lists
  have hfailed : Failed s.problems ⟨[], 0, ⟨s', log'⟩⟩ :=
    hreaches.keeps (fun _ _ hc hstep ↦ hc.step hstep) ⟨by
      show ∀ vid ∈ s.report.vlans.failed, _
      rw [hlists]
      exact fun vid hvid ↦ absurd hvid List.not_mem_nil, List.prefix_refl _⟩
  have hskips : Skips s.report.vlans.skipped (lateGates log) ⟨[], 0, ⟨s', log'⟩⟩ :=
    hreaches.keeps (fun _ _ hc hstep ↦ hc.step hstep) (skips_start vlans s log)
  obtain ⟨haborted, hfailures⟩ := none_failed_of_contextProblems hcontexts
  -- a quick read has a problem
  have hslow : rd.opts.quick = false := by
    by_contra hquick
    have hprefix : s.problems <+: s'.problems := hfailed.problems
    rw [hproblems, List.prefix_nil] at hprefix
    exact h.quick (Bool.eq_true_of_not_eq_false hquick) hprefix
  have hover : s.report.vlans.skipped = overCap := by
    rw [hlists, VlanLists.planned, hslow, if_neg Bool.false_ne_true, List.append_nil]
  refine ⟨?_, ?_⟩
  · refine List.eq_nil_iff_forall_not_mem.2 fun vid hvid ↦ ?_
    have hmem : vid ∈ s'.contexts.failures.keys := hfailed.failures vid hvid
    rw [hfailures] at hmem
    exact List.not_mem_nil hmem
  · have hcounted : s'.report.vlans.skipped.length + lateGates log =
        s.report.vlans.skipped.length + lateGates log' := hskips.counted huncut haborted
    have hmono : lateGates log ≤ lateGates log' :=
      (suffix_of_gather hreads).sublist.countP_le
    rw [hover] at hcounted
    rw [← List.length_eq_zero_iff, ← List.length_eq_zero_iff]
    omega

end Run

/-- What comes behind the contexts leaves the lists. -/
theorem afterContexts_vlans (rd : MacRead) (rows : List Row) (advertised : Bool) (s : ReadState) :
    (rd.afterContexts rows advertised s).2.report.vlans = s.report.vlans := by
  rw [afterContexts_report]

/-- A read that has planned the contexts of VLANs ends with every VLAN it found, and can read, on
one of the three lists. One that says it is complete has no failed VLANs, and has skipped none
exactly if none was over the cap and no gate was found too late.

The cap and a late gate both add to the list of those skipped without a word in `problems`, and it
is `problems` that `complete` is made of. -/
theorem vlans_partitioned (rd : MacRead) (sur : Surroundings) (fuel : ℕ) (now : ℚ)
    {rows : List Row} {advertised : Bool} {vlans toRead overCap : List ℤ} {s : ReadState}
    {log : Log (net Outcome)}
    (hread : (rd.read fuel).run sur.env (rd.start now) [] =
      some (.contexts rows advertised vlans, s, log))
    (hplan : planContextVlans (rd.found log) rd.opts.maxVlans = some (toRead, overCap))
    {out : List Row} {report : MacMeta} {log' : Log (net Outcome)}
    (hrun : rd.run sur fuel (rd.start now) = some ((out, report), log')) :
    (∀ vid, (vid ∈ report.vlans.read ∨ vid ∈ report.vlans.skipped ∨ vid ∈ report.vlans.failed) ↔
        readable vid = true ∧ ∃ value ∈ rd.found log, lenientInt value = some (some vid)) ∧
      report.vlans.read.Disjoint report.vlans.skipped ∧
        report.vlans.read.Disjoint report.vlans.failed ∧
          report.vlans.skipped.Disjoint report.vlans.failed ∧
      (report.complete = true → report.vlans.failed = [] ∧
        (report.vlans.skipped = [] ↔ overCap = [] ∧ lateGates log' = lateGates log)) := by
  obtain ⟨toRead', overCap', hplanned⟩ := (defaultRead_of_run hread).planned _ _ _ rfl
  obtain ⟨rfl, rfl⟩ := Prod.mk.inj (Option.some.inj (hplan.symm.trans hplanned.plan))
  obtain ⟨hnodup, hmem⟩ := planContextVlans_spec hplan
  obtain ⟨s', hreads, hout⟩ := reads_of_run hread hrun
  obtain rfl := congrArg Prod.snd hout
  -- the lists at the end have the VLANs of the plan, each once
  have hall := hplanned.all hreads
  rw [← afterContexts_vlans rd rows advertised s'] at hall
  have hnodup' := hall ▸ Multiset.coe_nodup.2 hnodup
  obtain ⟨hskipped, hfailed, hneither⟩ := VlanLists.disjoint_of_nodup hnodup'
  have hlists := afterContexts_vlans rd rows advertised s'
  have hsorted : ∀ {l l' : List ℤ}, l.Disjoint l' → (sortedSet l).Disjoint (sortedSet l') :=
    fun hdisjoint vid hvid hvid' ↦ hdisjoint (mem_sortedSet.1 hvid) (mem_sortedSet.1 hvid')
  refine ⟨fun vid ↦ ?_, hsorted hskipped, hsorted hfailed, hsorted hneither, fun hcomplete ↦ ?_⟩
  -- the report lists them in order, which changes neither what is on a list nor what is on two
  · have hin : vid ∈ toRead ++ overCap ↔
        vid ∈ (rd.afterContexts rows advertised s').2.report.vlans.all := by
      rw [hall, Multiset.mem_coe]
    rw [← hmem, hin, VlanLists.mem_all]
    exact or_congr mem_sortedSet ((or_congr mem_sortedSet mem_sortedSet).trans or_comm)
  -- a complete read has no problem, so no VLAN failed
  · obtain ⟨huncut, hproblems⟩ := no_problem_of_complete hcomplete
    have huncut' : s'.budget.truncated = false := huncut
    have hproblems' : s'.problems ++ rd.contextProblems s'.contexts = [] := hproblems
    obtain ⟨hno, hcontexts⟩ := List.append_eq_nil_iff.1 hproblems'
    obtain ⟨hnone, hiff⟩ := hplanned.complete hreads huncut' hno hcontexts
    refine ⟨sortedSet_eq_nil.2 ?_, sortedSet_eq_nil.trans ?_⟩
    · rw [hlists]
      exact hnone
    · rw [hlists]
      exact hiff

/-- With a hint of two VLANs and a cap of one, the read says it is complete. -/
theorem complete_over_cap :
    let rd : MacRead :=
      { version := .v2c, community := "public"
        opts := ⟨.always, false, 120, 1, [.str "10", .str "20"]⟩
        ifaces := ⟨Dict.empty, [], []⟩ }
    let sur : Surroundings :=
      { clock := fun _ ↦ 0, reply := fun _ ↦ Agent.serve (fun _ ↦ ⟨[], .nil⟩), pick := fun _ ↦ 0 }
    ∃ rows report log, rd.run sur 10 (rd.start 0) = some ((rows, report), log) ∧
      report.complete = true ∧ report.vlans = ⟨[10], [20], []⟩ := by
  intro rd sur
  have hrun : (rd.run sur 10 (rd.start 0)).map (fun out ↦ (out.1.2.complete, out.1.2.vlans)) =
      some (true, ⟨[10], [20], []⟩) := by
    decide +kernel
  obtain ⟨⟨⟨rows, report⟩, log⟩, hout, heq⟩ := Option.map_eq_some_iff.1 hrun
  obtain ⟨hcomplete, hlists⟩ := Prod.mk.inj heq
  exact ⟨rows, report, log, hout, hcomplete, hlists⟩

/-- With a cap of two, both are read and the read is complete. -/
theorem complete_in_cap :
    let rd : MacRead :=
      { version := .v2c, community := "public"
        opts := ⟨.always, false, 120, 2, [.str "10", .str "20"]⟩
        ifaces := ⟨Dict.empty, [], []⟩ }
    let sur : Surroundings :=
      { clock := fun _ ↦ 0, reply := fun _ ↦ Agent.serve (fun _ ↦ ⟨[], .nil⟩), pick := fun _ ↦ 0 }
    ∃ rows report log, rd.run sur 10 (rd.start 0) = some ((rows, report), log) ∧
      report.complete = true ∧ report.vlans.failed = [] ∧ report.vlans.skipped = [] := by
  intro rd sur
  have hread : ((rd.read 10).run sur.env (rd.start 0) []).map (fun out ↦
      (match out.1 with
        | .contexts _ _ vlans => some vlans
        | _ => none,
        planContextVlans (rd.found out.2.2) rd.opts.maxVlans, lateGates out.2.2)) =
      some (some [10, 20], some ([10, 20], []), 0) := by
    decide +kernel
  have hrun : (rd.run sur 10 (rd.start 0)).map (fun out ↦
      (out.1.2.complete, lateGates out.2)) = some (true, 0) := by
    decide +kernel
  obtain ⟨⟨plan, s, log⟩, hplanned, hplan⟩ := Option.map_eq_some_iff.1 hread
  obtain ⟨⟨⟨rows, report⟩, log'⟩, hout, heq⟩ := Option.map_eq_some_iff.1 hrun
  obtain ⟨hcomplete, hlates'⟩ := Prod.mk.inj heq
  cases plan with
  | rows | raised => cases (Prod.mk.inj hplan).1
  | contexts rows₁ advertised vlans =>
    obtain ⟨-, hplan⟩ := Prod.mk.inj hplan
    obtain ⟨hplan, hlates⟩ := Prod.mk.inj hplan
    obtain ⟨-, -, -, -, hends⟩ := vlans_partitioned rd sur 10 0 hplanned hplan hout
    obtain ⟨hfailed, hskipped⟩ := hends hcomplete
    exact ⟨rows, report, log', hout, hcomplete, hfailed,
      hskipped.2 ⟨rfl, hlates'.trans hlates.symm⟩⟩

end Snmp
