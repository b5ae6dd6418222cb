import DanbyteOutpost.Snmp.DefaultRows
import DanbyteOutpost.Snmp.RowForm
import DanbyteOutpost.Snmp.VlanPartition

/-!
# The VLANs of a read are VLANs

A row has its VLAN from dot1qVlanFdbId, from its context, or from being in the default context, and
contexts are read for VLANs that are planned. All of these are from 1 to 4094. An FDB id that is
taken for a VLAN is so only if its number is: the numbers of dot1qVlanStaticName are not looked at.

## The proof

Rows of contexts have the VLAN of their context, and those are planned, so they can be read
(`RowsOfVlans`). Rows of the bridge table have none. Rows of the Q-BRIDGE table have the VLAN that
`map_fdb_vlans` gave their FDB id: the user of it, which `fdbUser` has checked, or the FDB id
itself, which nobody has; `MacRead.FdbIdsAreVlans` is the condition on the walks that it was in
range.

`vlan_out_of_range` is an agent with a host under FDB id 5000 and a VLAN of that number among its
names.
-/

namespace Snmp

open Coop

/-! ### PVIDs -/

/-- A PVID of an interface counts if it is a VLAN. -/
theorem mem_pvids_add {ifaces : Ifaces} {row : Iface} {vid : ℤ}
    (h : vid ∈ (ifaces.add row).pvids) : vid ∈ ifaces.pvids ∨ isVlan vid = true := by
  rw [Ifaces.add] at h
  by_cases hindex : PyText.strip row.ifIndex = ""
  · rw [if_pos hindex] at h
    exact .inl h
  · rw [if_neg hindex] at h
    dsimp only at h
    rcases hvlan : (PyText.intOfText row.vlan).filter isVlan with - | vid'
    · rw [hvlan] at h
      exact .inl h
    · rw [hvlan] at h
      rcases List.mem_insert_iff.1 h with heq | hold
      · exact .inr (heq ▸ (Option.filter_eq_some_iff.1 hvlan).2)
      · exact .inl hold

/-- The PVIDs that are kept are VLANs. -/
theorem isVlan_of_pvids (interfaces : List Iface) :
    ∀ vid ∈ (Ifaces.ofRows interfaces).pvids, isVlan vid = true := by
  induction interfaces using List.reverseRecOn with
  | nil => exact fun vid hvid ↦ absurd hvid List.not_mem_nil
  | append_singleton interfaces row ih =>
    intro vid hvid
    rw [Ifaces.ofRows, List.foldl_append, List.foldl_cons, List.foldl_nil, ← Ifaces.ofRows] at hvid
    exact (mem_pvids_add hvid).elim (ih vid) id

/-! ### The contexts -/

variable {rd : MacRead} {fuel : ℕ} {allowed : Allowed (net Outcome)} {cap : ℕ}
  {crew crew' : ContextCrew}

/-- The rows that a task has so far. -/
def ContextStage.rows : ContextStage → List Row
  | gate _ | ports _ | table _ _ => []
  | learned _ _ rows _ | stack _ _ rows _ | read _ _ rows _ => rows

/-- The task of a VLAN has rows of its VLAN. -/
def ContextStage.OfVlan (l : ContextStage) : Prop := ∀ row ∈ l.rows, row.vlan = some l.vid

theorem MacRead.ContextStep.ofVlan {p p' : ContextPlace} (h : ContextStep rd fuel allowed p p')
    (hrows : p.stage.OfVlan) : p'.stage.OfVlan := by
  cases h with
  | passed | portsFailed | portsRead => exact nofun
  | polled | asked | row | plain | halted | late | stackBegun => exact hrows
  | tableRead vid base w w' out =>
    intro row hrow
    obtain ⟨entry, hentry, hvlan⟩ := learnedRows_vlan hrow
    obtain ⟨_, -, rfl⟩ := List.mem_map.1 hentry
    exact hvlan
  | folded | stackRead =>
    intro row hrow
    obtain ⟨row₀, hrow₀, rfl⟩ := List.mem_map.1 hrow
    exact hrows row₀ hrow₀

/-- The walks of the contexts. -/
theorem MacRead.ContextStep.marks {p p' : ContextPlace} (h : ContextStep rd fuel allowed p p') :
    Marks [baseColumns, dFdbColumns, stackColumns] p.world p'.world := by
  have hends : ∀ {o : Outcome} {w w' : World (net Outcome) ReadState} {s : ReadState},
      WalkEnds fuel allowed o w w' → o.columns ∈ [baseColumns, dFdbColumns, stackColumns] →
        Marks [baseColumns, dFdbColumns, stackColumns] w ⟨s, w'.log⟩ := by
    intro o w w' s hend ho
    have hlog : Snmp.marks w'.log = o :: Snmp.marks w.log := congrArg Snmp.marks hend.frame.2
    exact Marks.one hlog ho
  cases h with
  | passed | polled | asked | row | plain | folded | halted | late | stackBegun => exact .refl rfl
  | portsFailed vid w w' out hend => exact hends hend List.mem_cons_self
  | portsRead vid w w' out hend => exact hends hend List.mem_cons_self
  | tableRead vid base w w' out hend =>
    exact hends hend (List.mem_cons_of_mem _ List.mem_cons_self)
  | stackRead vid ok rows failure w w' out hend =>
    exact hends hend (List.mem_cons_of_mem _ (List.mem_cons_of_mem _ List.mem_cons_self))

/-- Each context has rows of its VLAN, which is on a list once the rows are kept. -/
structure RowsOfVlans (crew : ContextCrew) : Prop where
  /-- A task that is not started has no rows. -/
  queue : ∀ l ∈ crew.queue, l.OfVlan
  /-- One under way has rows of its VLAN. -/
  flight : ∀ l ∈ crew.flight, l.OfVlan
  /-- And so has one that has ended, which is entered in a list. -/
  results : ∀ vid rows, crew.world.st.contexts.results.get? vid = some rows →
    vid ∈ crew.world.st.report.vlans.all ∧ ∀ row ∈ rows, row.vlan = some vid
  /-- There are contexts because dot1qTpFdbTable was empty. -/
  table : ∀ f ∈ marks crew.world.log, f.columns = qFdbColumns → f.walked.rows.items = []

theorem RowsOfVlans.step (h : RowsOfVlans crew)
    (hstep : Crew.Step (rd.contextCourse fuel allowed) cap crew crew') : RowsOfVlans crew' := by
  cases hstep with
  | start =>
    refine ⟨fun l hl ↦ h.queue l (List.mem_cons_of_mem _ hl), fun l hl ↦ ?_, h.results, h.table⟩
    rcases Multiset.mem_cons.1 hl with rfl | hl
    · exact h.queue l List.mem_cons_self
    · exact h.flight l hl
  | @step l l' queue flight w w' hstep =>
    have hframe := MacRead.ContextStep.frame hstep
    have hmarks : Marks _ w w' := MacRead.ContextStep.marks hstep
    refine ⟨h.queue, fun l₁ hl₁ ↦ ?_, ?_, fun f hf hcolumns ↦ ?_⟩
    · rcases Multiset.mem_cons.1 hl₁ with rfl | hl₁
      · exact MacRead.ContextStep.ofVlan hstep (h.flight l (Multiset.mem_cons_self _ _))
      · exact h.flight l₁ (Multiset.mem_cons_of_mem hl₁)
    · have hcontexts : w'.st.contexts = w.st.contexts := hframe.contexts
      have hvlans : w'.st.report.vlans = w.st.report.vlans := hframe.vlans
      show ∀ vid rows, w'.st.contexts.results.get? vid = some rows →
        vid ∈ w'.st.report.vlans.all ∧ ∀ row ∈ rows, row.vlan = some vid
      rw [hcontexts, hvlans]
      exact h.results
    · exact h.table f (hmarks.before hf (hcolumns.symm ▸ by decide)) hcolumns
  | @stop l queue flight w w' hstop =>
    have hall := MacRead.ContextStop.all hstop
    have hflight : ∀ l' ∈ flight, l'.OfVlan :=
      fun l' hl' ↦ h.flight l' (Multiset.mem_cons_of_mem hl')
    have hkept : ∀ vid, vid ∈ w.st.report.vlans.all → vid ∈ w'.st.report.vlans.all :=
      fun vid hvid ↦ hall ▸ Multiset.mem_cons_of_mem hvid
    have hown : l.vid ∈ w'.st.report.vlans.all := hall ▸ Multiset.mem_cons_self _ _
    have hold : w'.st.contexts.results = w.st.contexts.results → ∀ vid rows,
        w'.st.contexts.results.get? vid = some rows →
          vid ∈ w'.st.report.vlans.all ∧ ∀ row ∈ rows, row.vlan = some vid := by
      intro hsame vid rows hget
      rw [hsame] at hget
      exact ⟨hkept vid (h.results vid rows hget).1, (h.results vid rows hget).2⟩
    cases hstop with
    | stopped vid w => exact ⟨h.queue, hflight, hold rfl, h.table⟩
    | late vid w => exact ⟨h.queue, hflight, hold rfl, h.table⟩
    | settled vid ok rows failure w =>
      refine ⟨h.queue, hflight, fun vid' rows' hget ↦ ?_, h.table⟩
      change (MacRead.settle vid ok rows failure w.st).contexts.results.get? vid' =
          some rows' at hget
      rw [results_settle, Dict.get?_set] at hget
      split at hget
      case isTrue heq =>
        obtain rfl := Option.some.inj hget
        exact heq ▸ ⟨hown, h.flight _ (Multiset.mem_cons_self _ _)⟩
      case isFalse =>
        exact ⟨hkept vid' (h.results vid' rows' hget).1, (h.results vid' rows' hget).2⟩

/-! ### The whole read -/

/-- No host is learned under an FDB id that is taken for a VLAN, but is none. -/
def MacRead.FdbIdsAreVlans (rd : MacRead) (log : Log (net Outcome)) : Prop :=
  ∀ b ∈ marks log, ∀ f ∈ marks log, b.columns = baseColumns → f.columns = qFdbColumns →
    rd.TakesFdbIds log f → ∀ row ∈ (rd.learnedFrom true b f fun _ ↦ none).rows,
      ∀ fid ∈ row.fdbId, fid ≤ 4094

/-- Where dot1qTpFdbTable is empty there is no FDB id. -/
theorem fdbIdsAreVlans_of_empty {log : Log (net Outcome)}
    (h : ∀ f ∈ marks log, f.columns = qFdbColumns → f.walked.rows.items = []) :
    rd.FdbIdsAreVlans log := by
  intro b _ f hf _ hcolumns _ row hrow
  obtain ⟨entry, hentry, -⟩ := MacRead.mem_learnedFrom.1 hrow
  rw [parseFdbTable, h f hf hcolumns] at hentry
  exact absurd hentry List.not_mem_nil

/-- What a read is to say of VLANs: the rows have VLANs, and the lists have VLANs that can be
read. -/
structure VlansValid (rows : List Row) (report : MacMeta) : Prop where
  /-- From 1 to 4094. -/
  rows : ∀ row ∈ rows, ∀ vid ∈ row.vlan, isVlan vid = true
  /-- And no list has one that could not be read. -/
  lists : ∀ vid, vid ∈ report.vlans.read ∨ vid ∈ report.vlans.skipped ∨
    vid ∈ report.vlans.failed → readable vid = true

theorem isVlan_of_readable {vid : ℤ} (h : readable vid = true) : isVlan vid = true :=
  (Bool.and_eq_true_iff.1 h).1

/-- A read of the default context alone. -/
theorem vlansValid_of_unplanned {found rows : List Row} {report : MacMeta} {s : ReadState}
    {started now : ℚ} (hfinish : (rows, report) = s.finish found started now)
    (hlists : s.report.vlans = ⟨[], [], []⟩) :
    VlansValid rows report ↔ ∀ row ∈ found, ∀ vid ∈ row.vlan, isVlan vid = true := by
  obtain rfl : rows = uniqueRows found := congrArg Prod.fst hfinish
  have hnone : ∀ vid, ¬ (vid ∈ report.vlans.read ∨ vid ∈ report.vlans.skipped ∨
      vid ∈ report.vlans.failed) := by
    obtain rfl := congrArg Prod.snd hfinish
    show ∀ vid, ¬ (vid ∈ sortedSet s.report.vlans.read ∨ vid ∈ sortedSet s.report.vlans.skipped ∨
      vid ∈ sortedSet s.report.vlans.failed)
    rw [hlists]
    simp only [mem_sortedSet, List.not_mem_nil, or_self, not_false_eq_true, implies_true]
  constructor
  · intro h row hrow vid hvid
    have hkey : row.key ∈ (uniqueRows found).map Row.key :=
      mem_keys_uniqueRows.2 (List.mem_map_of_mem hrow)
    obtain ⟨row', hrow', heq⟩ := List.mem_map.1 hkey
    have hvlan : row'.vlan = row.vlan := congrArg Prod.fst heq
    exact h.rows row' hrow' vid (hvlan ▸ hvid)
  · exact fun h ↦ ⟨fun row hrow ↦ h row (mem_of_mem_uniqueRows hrow),
      fun vid hvid ↦ absurd hvid (hnone vid)⟩

/-- A read that planned contexts, and read them. -/
theorem vlansValid_of_planned {sur : Surroundings} {found rows : List Row} {advertised : Bool}
    {vlans toRead overCap : List ℤ} {report : MacMeta} {s s' : ReadState} {started now : ℚ}
    {log log' : Log (net Outcome)} (hplanned : Planned rd vlans toRead overCap ⟨s, log⟩)
    (hcontexts : s.contexts = ⟨Dict.empty, Dict.empty, [], []⟩)
    (hempty : ∀ f ∈ marks log, f.columns = qFdbColumns → f.walked.rows.items = [])
    (hnone : ∀ row ∈ found, row.vlan = none)
    (hreads : gather sur.env macContextConcurrency fuel (vlans.map (rd.one fuel)) s log =
      some (s', log'))
    (hfinish : (rows, report) = (rd.afterContexts found advertised s').2.finish
      (rd.afterContexts found advertised s').1 started now) :
    VlansValid rows report ∧
      ∀ f ∈ marks log', f.columns = qFdbColumns → f.walked.rows.items = [] := by
  have hreaches := MacRead.contexts_reach sur.env.suits_allowed hreads
  -- the contexts begin without results, and the tables of the default context have been walked
  have hcrew : RowsOfVlans ⟨[], 0, ⟨s', log'⟩⟩ := by
    refine hreaches.keeps (fun _ _ hc hstep ↦ hc.step hstep)
      ⟨fun l hl ↦ ?_, fun l hl ↦ absurd hl (Multiset.notMem_zero l), fun vid rows hget ↦ ?_, hempty⟩
    · obtain ⟨vid, -, rfl⟩ := List.mem_map.1 hl
      exact nofun
    · change s.contexts.results.get? vid = some rows at hget
      rw [hcontexts] at hget
      cases hget
  have hreadable : ∀ vid ∈ s'.report.vlans.all, readable vid = true := by
    intro vid hvid
    rw [hplanned.all hreads, Multiset.mem_coe] at hvid
    exact (((planContextVlans_spec hplanned.plan).2 vid).1 hvid).1
  refine ⟨⟨?_, ?_⟩, hcrew.table⟩
  · obtain rfl : rows = uniqueRows (rd.afterContexts found advertised s').1 :=
      congrArg Prod.fst hfinish
    intro row hrow vid hvid
    rcases afterContexts_mem (mem_of_mem_uniqueRows hrow) with
      ⟨row₀, hrow₀, vlan, rfl, hvlan⟩ | ⟨vid', rows', hget, hrow'⟩
    · -- the default context has no VLAN, or is VLAN 1
      have hvid' : vlan = some vid := hvid
      rw [hnone row₀ hrow₀] at hvlan
      rcases hvlan with heq | heq
      · exact absurd (heq.symm.trans hvid') nofun
      · obtain rfl := Option.some.inj (heq.symm.trans hvid')
        rfl
    · obtain ⟨hlist, hall⟩ := hcrew.results vid' rows' hget
      obtain rfl := Option.some.inj ((hall row hrow').symm.trans hvid)
      exact isVlan_of_readable (hreadable vid' hlist)
  · obtain rfl := congrArg Prod.snd hfinish
    intro vid hvid
    have hlists := afterContexts_vlans rd found advertised s'
    refine hreadable vid (hlists ▸ VlanLists.mem_all.2 ?_)
    exact hvid.imp mem_sortedSet.1 fun h ↦ (h.imp mem_sortedSet.1 mem_sortedSet.1).symm

/-- The rows of dot1qTpFdbTable have VLANs exactly if no FDB id is taken for one that is none. -/
theorem learned_vlans_iff {interfaces : List Iface} (hifaces : rd.ifaces = .ofRows interfaces)
    {log : Log (net Outcome)} {b f : Outcome} {vlanOf : ℤ → Option ℤ}
    (ports : b ∈ marks log) (base : ∀ o ∈ marks log, o.columns = baseColumns ↔ o = b)
    (entries : f ∈ marks log) (table : ∀ o ∈ marks log, o.columns = qFdbColumns ↔ o = f)
    (vlans : rd.FdbVlans log f vlanOf) :
    (∀ row ∈ (rd.learnedFrom true b f fun entry ↦ entry.fdbId.bind vlanOf).rows,
      ∀ vid ∈ row.vlan, isVlan vid = true) ↔ rd.FdbIdsAreVlans log := by
  constructor
  -- where the FDB ids are taken for VLANs, a row's VLAN is its FDB id
  · intro h b' hb' f' hf' hbase hfdb htakes row hrow fid hfid
    obtain rfl := (base b' hb').1 hbase
    obtain rfl := (table f' hf').1 hfdb
    obtain ⟨entry, hentry, hdrop, port, ifIndex, hport, hmapped, rfl⟩ :=
      MacRead.mem_learnedFrom.1 hrow
    have hid : entry.fdbId = some fid := hfid
    have hself : entry.fdbId.bind vlanOf = some fid := by
      rw [hid]
      exact vlans.taken htakes fid (List.mem_filterMap.2 ⟨entry, hentry, hid⟩)
    have hvlan := h _ (MacRead.mem_learnedFrom.2
      ⟨entry, hentry, hdrop, port, ifIndex, hport, hmapped, rfl⟩) fid hself
    exact of_decide_eq_true (Bool.and_eq_true_iff.1 hvlan).2
  · intro h row hrow vid hvid
    obtain ⟨entry, hentry, hdrop, port, ifIndex, hport, hmapped, rfl⟩ :=
      MacRead.mem_learnedFrom.1 hrow
    obtain ⟨fid, hid, hof⟩ := Option.bind_eq_some_iff.1 hvid
    by_cases htakes : rd.TakesFdbIds log f
    · have hmem : fid ∈ fdbIdsOf f := List.mem_filterMap.2 ⟨entry, hentry, hid⟩
      obtain rfl := Option.some.inj ((vlans.taken htakes fid hmem).symm.trans hof)
      have hle : fid ≤ 4094 := h b ports f entries ((base b ports).2 rfl) ((table f entries).2 rfl)
        htakes _ (MacRead.mem_learnedFrom.2
          ⟨entry, hentry, hdrop, port, ifIndex, hport, hmapped, rfl⟩) fid hid
      -- an FDB id that is taken has a name, so it is positive
      have hpos : 1 ≤ fid := by
        rcases (htakes.2 fid hmem).2 with hpvid | ⟨_, -, -, i, rfl, hi, -⟩
        · exact of_decide_eq_true
            (Bool.and_eq_true_iff.1 (isVlan_of_pvids interfaces fid (hifaces ▸ hpvid))).1
        · omega
      exact Bool.and_eq_true_iff.2 ⟨decide_eq_true hpos, decide_eq_true hle⟩
    · exact vlans.used htakes fid vid hof

/-- The VLANs of every row, and of the lists, are as they should be exactly if no host is learned
under an FDB id that is taken for a VLAN and is above 4094.

The one source of VLANs without a range check is the table of names, which is used where
dot1qVlanFdbId is empty. -/
theorem vlans_valid_iff (rd : MacRead) {interfaces : List Iface}
    (hifaces : rd.ifaces = .ofRows interfaces) (sur : Surroundings) (fuel : ℕ) (now : ℚ)
    {rows : List Row} {report : MacMeta} {log : Log (net Outcome)}
    (hrun : rd.run sur fuel (rd.start now) = some ((rows, report), log)) :
    VlansValid rows report ↔ rd.FdbIdsAreVlans log := by
  obtain ⟨⟨plan, s, log₁⟩, hread, hrest⟩ := Option.bind_eq_some_iff.1 hrun
  obtain ⟨hrows, hlists⟩ := rowsRead_of_run hread
  cases plan with
  | rows found =>
    obtain ⟨hout, rfl⟩ := Prod.mk.inj (Option.some.inj hrest)
    rw [vlansValid_of_unplanned hout.symm (hlists rfl)]
    cases hrows with
    | bridge empty none =>
      refine iff_of_true (fun row hrow vid hvid ↦ ?_) (fdbIdsAreVlans_of_empty empty)
      exact absurd ((none row hrow).symm.trans hvid) nofun
    | qbridge b f vlanOf stack ports base entries table vlans =>
      rw [← learned_vlans_iff hifaces ports base entries table vlans]
      constructor
      · intro h row₀ hrow₀ vid hvid
        obtain ⟨row, hrow, hvlan⟩ := exists_mem_onPorts stack hrow₀
        exact h row hrow vid (hvlan ▸ hvid)
      · intro h row hrow vid hvid
        obtain ⟨row₀, hrow₀, hvlan, -⟩ := mem_onPorts hrow
        exact h row₀ hrow₀ vid (hvlan ▸ hvid)
  | raised error =>
    obtain ⟨hout, rfl⟩ := Prod.mk.inj (Option.some.inj hrest)
    cases hrows with
    | bridge empty _ =>
      exact iff_of_true ((vlansValid_of_unplanned hout.symm (hlists rfl)).2 nofun)
        (fdbIdsAreVlans_of_empty empty)
  | contexts found advertised vlans =>
    obtain ⟨s', hreads, hout⟩ := reads_of_run hread hrun
    have hdefault := defaultRead_of_run hread
    obtain ⟨toRead, overCap, hplanned⟩ := hdefault.planned _ _ _ rfl
    cases hrows with
    | bridge empty none =>
      obtain ⟨hvalid, hempty⟩ :=
        vlansValid_of_planned hplanned hdefault.contexts empty none hreads hout
      exact iff_of_true hvalid (fdbIdsAreVlans_of_empty hempty)

/-- An agent that has no dot1qVlanFdbId, with a host under FDB id 5000 and a VLAN of local use of
that number. -/
theorem vlan_out_of_range :
    let mib : Mib := ⟨[(dot1dBasePortIfindex ++ [1], "1"),
      (dot1qTpFdbPort ++ [5000, 0, 17, 34, 51, 68, 85], "1"),
      (dot1qTpFdbStatus ++ [5000, 0, 17, 34, 51, 68, 85], "3"),
      (dot1qVlanStaticName ++ [5000], "local")], by decide⟩
    let rd : MacRead :=
      { version := .v2c, community := "public", opts := ⟨.auto, false, 120, 128, []⟩
        ifaces := .ofRows [⟨"1", "6", "ethernet", "", ""⟩] }
    let sur : Surroundings :=
      { clock := fun _ ↦ 0, reply := fun _ q ↦ Agent.serve (fun _ ↦ mib) q, pick := fun _ ↦ 0 }
    sur.Answers (fun _ ↦ mib) ∧ ∃ rows report log,
      rd.run sur 10 (rd.start 0) = some ((rows, report), log) ∧ ¬ VlansValid rows report ∧
        rows.map Row.vlan = [some 5000] := by
  intro mib rd sur
  refine ⟨fun log q ↦ .inl (Agent.serve_conforms ..), ?_⟩
  have hrun : (rd.run sur 10 (rd.start 0)).map (fun out ↦ out.1.1.map Row.vlan) =
      some [some 5000] := by
    decide +kernel
  obtain ⟨⟨⟨rows, report⟩, log⟩, hrun, hrows⟩ := Option.map_eq_some_iff.1 hrun
  refine ⟨rows, report, log, hrun, fun h ↦ ?_, hrows⟩
  obtain ⟨row, hrow, hvlan⟩ := List.mem_map.1 (hrows ▸ List.mem_singleton_self (some (5000 : ℤ)))
  exact absurd (h.rows row hrow 5000 hvlan) (by decide)

/-- A VLAN of a port, taken for what the FDB id 10 is. -/
theorem vlans_valid_assumed :
    let mib : Mib := ⟨[(dot1dBasePortIfindex ++ [1], "1"),
      (dot1qTpFdbPort ++ [10, 0, 17, 34, 51, 68, 85], "1"),
      (dot1qTpFdbStatus ++ [10, 0, 17, 34, 51, 68, 85], "3")], by decide⟩
    let rd : MacRead :=
      { version := .v2c, community := "public", opts := ⟨.auto, false, 120, 128, []⟩
        ifaces := .ofRows [⟨"1", "6", "ethernet", "", "10"⟩] }
    let sur : Surroundings :=
      { clock := fun _ ↦ 0, reply := fun _ q ↦ Agent.serve (fun _ ↦ mib) q, pick := fun _ ↦ 0 }
    ∃ rows report log, rd.run sur 10 (rd.start 0) = some ((rows, report), log) ∧
      rows.map Row.vlan = [some 10] ∧ (VlansValid rows report ↔ rd.FdbIdsAreVlans log) := by
  intro mib rd sur
  have hrun : (rd.run sur 10 (rd.start 0)).map (fun out ↦ out.1.1.map Row.vlan) =
      some [some 10] := by
    decide +kernel
  obtain ⟨⟨⟨rows, report⟩, log⟩, hout, hrows⟩ := Option.map_eq_some_iff.1 hrun
  exact ⟨rows, report, log, hout, hrows, vlans_valid_iff rd rfl sur 10 0 hout⟩

end Snmp
