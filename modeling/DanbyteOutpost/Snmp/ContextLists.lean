import DanbyteOutpost.Snmp.ContextStages

/-!
# What the contexts of VLANs leave behind

Behind its gate the task of a VLAN touches none of the lists of VLANs (`ContextStep.frame`), and at
its end it puts its VLAN on one of them. So the VLANs that wait, those under way and those on the
lists are together what they were before (`vids_eq_of_step`), in whatever order the tasks go on.

## What is preserved

`ContextCrew` names the crew of this read. `vids_eq_of_step` is an equation between multisets, so
it has in it that no VLAN is lost and that none is on two lists. `ContextEnd` has the three ways
in which a context that was read can end, and `Skips` counts the VLANs that were not: as long as
nothing is cut and the contexts are not given up, each of them was late at its gate.
-/

namespace Snmp

open Coop

/-- Behind the gate. -/
def ContextStage.passed : ContextStage → Bool
  | gate _ => false
  | _ => true

/-- A task that has not passed its gate stands at it. -/
theorem eq_gate {l : ContextStage} (h : l.passed = false) : ∃ vid, l = .gate vid := by
  cases l with
  | gate vid => exact ⟨vid, rfl⟩
  | ports | table | learned | stack | read => exact absurd h.symm Bool.false_ne_true

/-- The looks at a gate that found the deadline reached. -/
def lateGates (log : Log (net Outcome)) : ℕ :=
  log.countP fun e ↦
    match e with
    | .polled probe late => late && decide (probe.check = .gate)
    | _ => false

/-- What a task behind its gate keeps of the attributes: the lists and what the contexts left, and
the deadline; a budget that is cut stays cut, a read that is halted halted, and no problem is taken
back. -/
structure StateFrame (s s' : ReadState) : Prop where
  /-- What the contexts left. -/
  contexts : s'.contexts = s.contexts
  /-- The lists of VLANs. -/
  vlans : s'.report.vlans = s.report.vlans
  /-- The deadline. -/
  deadline : s'.budget.deadline = s.budget.deadline
  /-- A budget that is cut stays cut. -/
  truncated : s.budget.truncated = true → s'.budget.truncated = true
  /-- A read that is halted stays halted. -/
  halted : s.halted = true → s'.halted = true
  /-- No complaint is taken back. -/
  problems : s.problems <+: s'.problems

theorem StateFrame.refl (s : ReadState) : StateFrame s s :=
  ⟨rfl, rfl, rfl, id, id, List.prefix_refl _⟩

/-- Two stretches in a row leave alone what both do. -/
theorem StateFrame.trans {s s' s'' : ReadState} (h : StateFrame s s') (h' : StateFrame s' s'') :
    StateFrame s s'' where
  contexts := h'.contexts.trans h.contexts
  vlans := h'.vlans.trans h.vlans
  deadline := h'.deadline.trans h.deadline
  truncated := h'.truncated ∘ h.truncated
  halted := h'.halted ∘ h.halted
  problems := h.problems.trans h'.problems

/-- What is not cut was not. -/
theorem StateFrame.uncut {s s' : ReadState} (h : StateFrame s s')
    (huncut : s'.budget.truncated = false) : s.budget.truncated = false := by
  by_contra hcut
  have hcut' := h.truncated (Bool.eq_true_of_not_eq_false hcut)
  exact Bool.false_ne_true (huncut.symm.trans hcut')

/-- The frame of a step of a VLAN's task. -/
structure ContextFrame (p p' : ContextPlace) : Prop extends
    StateFrame p.world.st p'.world.st where
  /-- The task stays with its VLAN. -/
  vid : p'.stage.vid = p.stage.vid
  /-- It is behind its gate. -/
  passed : p'.stage.passed = true
  /-- What happened is not undone. -/
  log : p.world.log <:+ p'.world.log
  /-- And it does not look at a gate again. -/
  lateGates : lateGates p'.world.log = lateGates p.world.log

variable {rd : MacRead} {fuel : ℕ} {allowed : Allowed (net Outcome)}

/-- A note of a walk's end leaves the contexts and the lists. -/
theorem note_frame (what : String) (stats : Stats) (s : ReadState) :
    StateFrame s (s.note what stats) := by
  rw [ReadState.note]
  split
  · exact .refl s
  · exact ⟨rfl, rfl, rfl, id, fun hyes ↦ Bool.or_eq_true_iff.2 (.inl hyes), List.prefix_append _ _⟩

theorem setStack_frame (ifaces : Ifaces) (out : Walked String) (s : ReadState) :
    StateFrame s (s.setStack ifaces out) := by
  have hstack : ∀ s' : ReadState, StateFrame s' { s' with
      stack := some (unitPorts ifaces (column out.rows "status")) } :=
    fun s' ↦ ⟨rfl, rfl, rfl, id, id, List.prefix_refl _⟩
  rw [ReadState.setStack]
  split
  · exact hstack s
  · exact (note_frame ..).trans (hstack _)

theorem learn_frame (out : Learned) (s : ReadState) : StateFrame s (s.learn out) :=
  ⟨rfl, rfl, rfl, id, id, List.prefix_refl _⟩

namespace MacRead

variable {p p' : ContextPlace}

/-- Where there is a walk the gate is passed. -/
theorem passed_of_walkAt {l : ContextStage} (h : (rd.walkAt l).isSome = true) :
    l.passed = true := by
  cases l with
  | gate => exact absurd h Bool.false_ne_true
  | ports | table | learned | stack | read => rfl

theorem walkAt_of_asks {l : ContextStage} {q : Query} (h : rd.AsksAt l q) :
    (rd.walkAt l).isSome = true := by
  obtain ⟨walk, hl, -⟩ := h
  rw [hl, Option.isSome_some]

/-- The end of a walk touches the budget only. -/
theorem WalkEnds.frame {o : Outcome} {w w' : World (net Outcome) ReadState}
    (h : WalkEnds fuel allowed o w w') :
    StateFrame w.st w'.st ∧ w'.log = .marked o :: w.log := by
  rcases h.ends with ⟨-, rfl⟩ | ⟨reason, -, -, -, rfl⟩
  · exact ⟨.refl _, rfl⟩
  · exact ⟨⟨rfl, rfl, rfl, fun _ ↦ rfl, id, List.prefix_refl _⟩, rfl⟩

/-- The step lemma of what does not change. -/
theorem ContextStep.frame (h : ContextStep rd fuel allowed p p') : ContextFrame p p' := by
  -- a step leaves the log alone, adds a reading or a request to it, or is a walk's end
  have hstill : ∀ {l l' : ContextStage} {s s' : ReadState} {log : Log (net Outcome)},
      StateFrame s s' → l'.vid = l.vid → l'.passed = true →
        ContextFrame ⟨l, ⟨s, log⟩⟩ ⟨l', ⟨s', log⟩⟩ :=
    fun hstate hvid hpassed ↦ ⟨hstate, hvid, hpassed, List.suffix_refl _, rfl⟩
  have hlate : ∀ {l l' : ContextStage} {w : World (net Outcome) ReadState}
      {e : Event (net Outcome)},
      lateGates (e :: w.log) = lateGates w.log → l'.vid = l.vid → l'.passed = true →
        ContextFrame ⟨l, w⟩ ⟨l', ⟨w.st, e :: w.log⟩⟩ :=
    fun hgates hvid hpassed ↦ ⟨.refl _, hvid, hpassed, List.suffix_cons _ _, hgates⟩
  have hwalked : ∀ {l l' : ContextStage} {o : Outcome} {w w' : World (net Outcome) ReadState}
      {s : ReadState}, WalkEnds fuel allowed o w w' → StateFrame w'.st s → l'.vid = l.vid →
        l'.passed = true → ContextFrame ⟨l, w⟩ ⟨l', ⟨s, w'.log⟩⟩ := by
    intro l l' o w w' s hend hs hvid hpassed
    obtain ⟨hstate, hlog⟩ := hend.frame
    refine ⟨hstate.trans hs, hvid, hpassed, ?_, ?_⟩
    · show w.log <:+ w'.log
      rw [hlog]
      exact List.suffix_cons _ _
    · show lateGates w'.log = lateGates w.log
      rw [hlog]
      rfl
  cases h with
  | passed => exact hlate rfl rfl rfl
  | polled l w yes hl =>
    have hgates : lateGates (.polled ⟨.request, w.st.budget.deadline⟩ yes :: w.log) =
        lateGates w.log := List.countP_cons_of_neg (by cases yes <;> exact Bool.false_ne_true)
    exact hlate hgates rfl (passed_of_walkAt hl)
  | asked l w q r hq => exact hlate rfl rfl (passed_of_walkAt (walkAt_of_asks hq))
  | row vid base w => exact hstill ⟨rfl, rfl, rfl, id, id, List.prefix_refl _⟩ rfl rfl
  | portsFailed vid w w' out hend => exact hwalked hend (.refl _) rfl rfl
  | portsRead vid w w' out hend => exact hwalked hend (.refl _) rfl rfl
  | tableRead vid base w w' out hend => exact hwalked hend (learn_frame ..) rfl rfl
  | plain => exact hstill (.refl _) rfl rfl
  | folded => exact hstill (.refl _) rfl rfl
  | halted => exact hstill (.refl _) rfl rfl
  | late => exact hlate rfl rfl rfl
  | stackBegun => exact hlate rfl rfl rfl
  | stackRead vid ok rows failure w w' out hend => exact hwalked hend (setStack_frame ..) rfl rfl

/-- Only an open gate is passed. -/
theorem ContextStep.opens (h : ContextStep rd fuel allowed p p') (hgate : p.stage.passed = false) :
    p.world.st.contexts.aborted = [] ∧ p.world.st.budget.truncated = false ∧
      allowed.reading p.world.log ⟨.gate, p.world.st.budget.deadline⟩ false ∧
        p'.world =
          ⟨p.world.st, .polled ⟨.gate, p.world.st.budget.deadline⟩ false :: p.world.log⟩ := by
  cases h with
  | passed vid w haborted huncut h => exact ⟨haborted, huncut, h, rfl⟩
  | polled l w yes hl =>
    exact absurd (hgate.symm.trans (passed_of_walkAt hl)) Bool.false_ne_true
  | asked l w q r hq =>
    exact absurd (hgate.symm.trans (passed_of_walkAt (walkAt_of_asks hq))) Bool.false_ne_true
  | row | portsFailed | portsRead | tableRead | plain | folded | halted | late | stackBegun
  | stackRead => exact absurd hgate.symm Bool.false_ne_true

/-- Where every gate is closed a task that goes on has passed its own. -/
theorem ContextStep.passed_of_closed (h : ContextStep rd fuel allowed p p')
    (hclosed : p.world.st.contexts.aborted ≠ [] ∨ p.world.st.budget.truncated = true) :
    p.stage.passed = true := by
  by_contra hno
  obtain ⟨haborted, huncut, -⟩ := h.opens (Bool.eq_false_of_not_eq_true hno)
  rcases hclosed with hne | hcut
  · exact hne haborted
  · exact Bool.false_ne_true (huncut.symm.trans hcut)

/-- What is said of a context behind its gate: no VLAN passes a gate, and the requests are those of
the VLAN's context, or of ifStackTable. -/
def Continues (rd : MacRead) (vid : ℤ) : Event (net Outcome) → Prop
  | .polled probe _ => probe.check ≠ .gate
  | .asked q _ => q.access = rd.access ∨ q.access = rd.contextAuth vid
  | .marked _ => True

/-- A task that waits for an answer is behind the gate, and waits for its context or ifStackTable.
-/
theorem passed_of_asks {l : ContextStage} {q : Query} (h : rd.AsksAt l q) :
    l.passed = true ∧ (q.access = rd.access ∨ q.access = rd.contextAuth l.vid) := by
  obtain ⟨walk, hl, hsends⟩ := h
  rw [hsends.access]
  cases l with
  | ports | table => exact ⟨rfl, .inr (congrArg Prod.fst (Option.some.inj hl)).symm⟩
  | stack => exact ⟨rfl, .inl (congrArg Prod.fst (Option.some.inj hl)).symm⟩
  | gate | learned | read => exact absurd hl nofun

/-- A step behind the gate puts one event in the log, or none. -/
theorem ContextStep.continues (h : ContextStep rd fuel allowed p p')
    (hpassed : p.stage.passed = true) :
    p'.world.log = p.world.log ∨
      ∃ e, p'.world.log = e :: p.world.log ∧ rd.Continues p.stage.vid e := by
  cases h with
  | passed => exact absurd hpassed Bool.false_ne_true
  | polled | late | stackBegun => exact .inr ⟨_, rfl, nofun⟩
  | asked l w q r hq =>
    exact .inr ⟨_, rfl, (passed_of_asks hq).2⟩
  | row | plain | folded | halted => exact .inl rfl
  | portsFailed vid w w' out hend =>
    have hlog := hend.frame.2
    exact .inr ⟨_, hlog, trivial⟩
  | portsRead vid w w' out hend =>
    have hlog := hend.frame.2
    exact .inr ⟨_, hlog, trivial⟩
  | tableRead vid base w w' out hend =>
    have hlog := hend.frame.2
    exact .inr ⟨_, hlog, trivial⟩
  | stackRead vid ok rows failure w w' out hend =>
    have hlog := hend.frame.2
    exact .inr ⟨_, hlog, trivial⟩

end MacRead

/-! ### The VLANs of a crew -/

/-- The tasks of `_read_contexts`, by their stages. -/
abbrev ContextCrew := Crew (net Outcome) ReadState ContextStage

/-- The VLANs on the three lists. -/
def VlanLists.all (lists : VlanLists) : Multiset ℤ :=
  ↑lists.read + ↑lists.failed + ↑lists.skipped

/-- A VLAN is on the lists if it is on one of them. -/
theorem VlanLists.mem_all {lists : VlanLists} {vid : ℤ} :
    vid ∈ lists.all ↔ vid ∈ lists.read ∨ vid ∈ lists.failed ∨ vid ∈ lists.skipped := by
  rw [all, Multiset.mem_add, Multiset.mem_add, Multiset.mem_coe, Multiset.mem_coe, Multiset.mem_coe,
    or_assoc]

/-- No VLAN is on two of the lists. -/
theorem VlanLists.disjoint_of_nodup {lists : VlanLists} (h : lists.all.Nodup) :
    lists.read.Disjoint lists.skipped ∧ lists.read.Disjoint lists.failed ∧
      lists.skipped.Disjoint lists.failed := by
  obtain ⟨hfirst, -, hskipped⟩ := Multiset.nodup_add.1 h
  obtain ⟨-, -, hread⟩ := Multiset.nodup_add.1 hfirst
  rw [Multiset.disjoint_add_left] at hskipped
  exact ⟨(Multiset.coe_disjoint _ _).1 hskipped.1, (Multiset.coe_disjoint _ _).1 hread,
    ((Multiset.coe_disjoint _ _).1 hskipped.2).symm⟩

/-- The VLANs that wait, those under way, and those on the lists. -/
def ContextCrew.vids (crew : ContextCrew) : Multiset ℤ :=
  ↑(crew.queue.map ContextStage.vid) + crew.flight.map ContextStage.vid +
    crew.world.st.report.vlans.all

/-- A VLAN that is skipped comes onto the lists. -/
theorem skip_all (vid : ℤ) (s : ReadState) :
    (MacRead.skip vid s).report.vlans.all = vid ::ₘ s.report.vlans.all := by
  show (↑s.report.vlans.read + ↑s.report.vlans.failed + ↑(s.report.vlans.skipped ++ [vid]) :
    Multiset ℤ) = _
  rw [VlanLists.all, ← Multiset.coe_add, Multiset.coe_singleton, ← add_assoc, add_comm,
    Multiset.singleton_add]

/-- A context that is settled is on one list. -/
theorem settle_all (vid : ℤ) (ok : Bool) (rows : List Row) (failure : String) (s : ReadState) :
    (MacRead.settle vid ok rows failure s).report.vlans.all = vid ::ₘ s.report.vlans.all := by
  rw [MacRead.settle]
  split
  · show (↑(s.report.vlans.read ++ [vid]) + ↑s.report.vlans.failed + ↑s.report.vlans.skipped :
      Multiset ℤ) = _
    rw [VlanLists.all, ← Multiset.coe_add, Multiset.coe_singleton,
      add_comm (s.report.vlans.read : Multiset ℤ),
      Multiset.singleton_add, Multiset.cons_add, Multiset.cons_add]
  · split
    · exact skip_all ..
    · show (↑s.report.vlans.read + ↑(s.report.vlans.failed ++ [vid]) + ↑s.report.vlans.skipped :
        Multiset ℤ) = _
      rw [VlanLists.all, ← Multiset.coe_add, Multiset.coe_singleton, ← add_assoc,
        add_comm _ ({vid} : Multiset ℤ), Multiset.singleton_add, Multiset.cons_add]

/-- The end of a VLAN's task puts the VLAN on one list. -/
theorem MacRead.ContextStop.all {p : ContextPlace} {w : World (net Outcome) ReadState}
    (h : MacRead.ContextStop allowed p w) :
    w.st.report.vlans.all = p.stage.vid ::ₘ p.world.st.report.vlans.all := by
  cases h with
  | stopped | late => exact skip_all ..
  | settled => exact settle_all ..

variable {cap : ℕ} {crew crew' : ContextCrew}

/-- The step lemma of the VLANs of a crew: they are conserved. -/
theorem vids_eq_of_step (h : Crew.Step (rd.contextCourse fuel allowed) cap crew crew') :
    crew'.vids = crew.vids := by
  cases h with
  | @start l queue flight w =>
    show ↑(queue.map ContextStage.vid) + (l ::ₘ flight).map ContextStage.vid +
        w.st.report.vlans.all =
      ↑((l :: queue).map ContextStage.vid) + flight.map ContextStage.vid + w.st.report.vlans.all
    rw [Multiset.map_cons, List.map_cons, ← Multiset.cons_coe, Multiset.cons_add, Multiset.add_cons]
  | @step l l' queue flight w w' hstep =>
    have hframe := MacRead.ContextStep.frame hstep
    have hvid : l'.vid = l.vid := hframe.vid
    have hvlans : w'.st.report.vlans = w.st.report.vlans := hframe.vlans
    show ↑(queue.map ContextStage.vid) + (l' ::ₘ flight).map ContextStage.vid +
        w'.st.report.vlans.all =
      ↑(queue.map ContextStage.vid) + (l ::ₘ flight).map ContextStage.vid + w.st.report.vlans.all
    rw [Multiset.map_cons, Multiset.map_cons, hvid, hvlans]
  | @stop l queue flight w w' hstop =>
    have hall : w'.st.report.vlans.all = l.vid ::ₘ w.st.report.vlans.all :=
      MacRead.ContextStop.all hstop
    show ↑(queue.map ContextStage.vid) + flight.map ContextStage.vid + w'.st.report.vlans.all =
      ↑(queue.map ContextStage.vid) + (l ::ₘ flight).map ContextStage.vid + w.st.report.vlans.all
    rw [hall, Multiset.map_cons, Multiset.add_cons, Multiset.add_cons, Multiset.cons_add]

/-- The run lemma. -/
theorem vids_eq_of_reaches (h : Crew.Reaches (rd.contextCourse fuel allowed) cap crew crew') :
    crew'.vids = crew.vids :=
  h.keeps (P := fun c ↦ ContextCrew.vids c = crew.vids)
    (fun _ _ hc hstep ↦ (vids_eq_of_step hstep).trans hc) rfl

/-! ### The end of a context -/

/-- How a context that was read ended: `cut` by the budget or the row cap. -/
inductive ContextEnd
  | ok | failed | cut
  deriving DecidableEq

/-- How a context ends that `_read_context` returns so. -/
def endFor (ok : Bool) (failure : String) : ContextEnd :=
  if ok then .ok else if failure = "" then .cut else .failed

section Settle

variable {vid : ℤ} {ok : Bool} {rows : List Row} {failure : String} {s : ReadState}

/-- Only a failure aborts. -/
theorem aborted_settle : (MacRead.settle vid ok rows failure s).contexts.aborted =
    if endFor ok failure = .failed then
      if s.contexts.aborted ≠ [] then s.contexts.aborted ++ [vid]
      else if macContextAbortAfter ≤ (s.contexts.streak ++ [vid]).length then
        s.contexts.streak ++ [vid]
      else []
    else s.contexts.aborted := by
  rw [MacRead.settle, endFor]
  split
  · rfl
  · split
    · rfl
    · rfl

theorem aborted_settle_ne_nil (h : s.contexts.aborted ≠ []) :
    (MacRead.settle vid ok rows failure s).contexts.aborted ≠ [] := by
  rw [aborted_settle]
  split
  · exact List.append_ne_nil_of_left_ne_nil h _
  · exact h

/-- Only a context that is cut is skipped. -/
theorem skipped_settle : (MacRead.settle vid ok rows failure s).report.vlans.skipped =
    if endFor ok failure = .cut then s.report.vlans.skipped ++ [vid]
    else s.report.vlans.skipped := by
  rw [MacRead.settle, endFor]
  split
  · rfl
  · split
    · rfl
    · rfl

/-- The list of failures gets the VLAN of a context that failed. -/
theorem failed_settle : (MacRead.settle vid ok rows failure s).report.vlans.failed =
    if endFor ok failure = .failed then s.report.vlans.failed ++ [vid]
    else s.report.vlans.failed := by
  rw [MacRead.settle, endFor]
  split
  · rfl
  · split
    · rfl
    · rfl

end Settle

/-- The budget cut the context short. -/
def ContextStage.wasCut : ContextStage → Bool
  | learned _ ok _ failure | stack _ ok _ failure | read _ ok _ failure => !ok && failure = ""
  | _ => false

theorem why_ne_empty (stats : Stats) : why stats ≠ "" := by
  rw [why]
  split
  · decide
  · split
    · decide
    · assumption

/-- What a walk leaves of a context is cut only if the budget is. -/
theorem MacRead.WalkEnds.uncut {o : Outcome} {w w' : World (net Outcome) ReadState}
    (h : WalkEnds fuel allowed o w w') (huncut : w'.st.budget.truncated = false) :
    failureOf o.walked.stats ≠ "" := by
  rcases h.ends with ⟨hno, -⟩ | ⟨reason, -, -, -, rfl⟩
  · rw [failureOf, hno, if_neg Bool.false_ne_true]
    exact why_ne_empty _
  · cases huncut

theorem MacRead.ContextStep.uncut {p p' : ContextPlace} (h : ContextStep rd fuel allowed p p')
    (huncut : p'.world.st.budget.truncated = false) (hp : p.stage.wasCut = false) :
    p'.stage.wasCut = false := by
  cases h with
  | portsFailed vid w w' out hend =>
    show (!false && decide (failureOf out.stats = "")) = false
    rw [decide_eq_false (hend.uncut huncut)]
    rfl
  | tableRead vid base w w' out hend =>
    show (!out.complete && decide ((if out.complete then "" else failureOf out.stats) = "")) = false
    split
    case isTrue hyes => rw [hyes]; rfl
    case isFalse =>
      rw [decide_eq_false (hend.uncut huncut)]
      exact Bool.and_false _
  | passed | portsRead => rfl
  | polled | asked | row | plain | folded | halted | late | stackBegun | stackRead => exact hp

/-- A VLAN is skipped where the look at its gate came too late; otherwise only once the budget is
cut or the contexts are given up. -/
structure Skips (skipped : List ℤ) (lates : ℕ) (crew : ContextCrew) : Prop where
  /-- A task that is not started has its gate before it. -/
  waiting : ∀ l ∈ crew.queue, l.passed = false
  /-- What was skipped stays skipped. -/
  kept : skipped <+: crew.world.st.report.vlans.skipped
  /-- Each VLAN that was skipped has a look at its gate that came too late. -/
  counted : crew.world.st.budget.truncated = false → crew.world.st.contexts.aborted = [] →
    crew.world.st.report.vlans.skipped.length + lates = skipped.length + lateGates crew.world.log
  /-- No context is cut without the budget. -/
  uncut : crew.world.st.budget.truncated = false → ∀ l ∈ crew.flight, l.wasCut = false

/-- A context that was not cut has read its table or failed. -/
theorem endFor_ne_cut {vid : ℤ} {ok : Bool} {rows : List Row} {failure : String}
    (h : (ContextStage.read vid ok rows failure).wasCut = false) : endFor ok failure ≠ .cut := by
  rw [endFor]
  cases ok with
  | true => exact nofun
  | false =>
    have hfailure : failure ≠ "" := of_decide_eq_false h
    rw [if_neg Bool.false_ne_true, if_neg hfailure]
    exact nofun

/-- A context that is settled was cut only if the budget is. -/
theorem Skips.settle {skipped : List ℤ} {lates : ℕ} {vid : ℤ} {ok : Bool} {rows : List Row}
    {failure : String} {queue : List ContextStage} {flight : Multiset ContextStage}
    {w : World (net Outcome) ReadState}
    (h : Skips skipped lates ⟨queue, .read vid ok rows failure ::ₘ flight, w⟩) :
    Skips skipped lates ⟨queue, flight, ⟨MacRead.settle vid ok rows failure w.st, w.log⟩⟩ := by
  have huncut : (MacRead.settle vid ok rows failure w.st).budget.truncated = false →
      w.st.budget.truncated = false := (congrArg _ budget_settle).symm.trans
  refine ⟨h.waiting, ?_, fun hno haborted ↦ ?_, fun hno l hl ↦
    h.uncut (huncut hno) l (Multiset.mem_cons_of_mem hl)⟩
  · show skipped <+: (MacRead.settle vid ok rows failure w.st).report.vlans.skipped
    rw [skipped_settle]
    split
    · exact h.kept.trans (List.prefix_append _ _)
    · exact h.kept
  · have hend := endFor_ne_cut (h.uncut (huncut hno) _ (Multiset.mem_cons_self _ _))
    have haborted₀ : w.st.contexts.aborted = [] := by
      by_contra hne
      exact aborted_settle_ne_nil hne haborted
    show (MacRead.settle vid ok rows failure w.st).report.vlans.skipped.length + lates = _
    rw [skipped_settle, if_neg hend]
    exact h.counted (huncut hno) haborted₀

/-- The step lemma of the VLANs that are skipped. -/
theorem Skips.step {skipped : List ℤ} {lates : ℕ} (h : Skips skipped lates crew)
    (hstep : Crew.Step (rd.contextCourse fuel allowed) cap crew crew') :
    Skips skipped lates crew' := by
  cases hstep with
  | @start l queue flight w hcard =>
    refine ⟨fun l' hl' ↦ h.waiting l' (List.mem_cons_of_mem _ hl'), h.kept, h.counted,
      fun huncut l' hl' ↦ ?_⟩
    rcases Multiset.mem_cons.1 hl' with rfl | hl'
    · obtain ⟨vid, rfl⟩ := eq_gate (h.waiting l' List.mem_cons_self)
      rfl
    · exact h.uncut huncut l' hl'
  | @step l l' queue flight w w' hstep =>
    -- behind its gate a task touches neither the lists nor what is counted
    have hframe := MacRead.ContextStep.frame hstep
    have huncut₀ : w'.st.budget.truncated = false → w.st.budget.truncated = false :=
      hframe.toStateFrame.uncut
    have hcontexts : w'.st.contexts = w.st.contexts := hframe.contexts
    have hvlans : w'.st.report.vlans = w.st.report.vlans := hframe.vlans
    have hlates : lateGates w'.log = lateGates w.log := hframe.lateGates
    refine ⟨h.waiting, ?_, ?_, fun huncut l₁ hl₁ ↦ ?_⟩
    · show skipped <+: w'.st.report.vlans.skipped
      rw [hvlans]
      exact h.kept
    · show w'.st.budget.truncated = false → w'.st.contexts.aborted = [] →
        w'.st.report.vlans.skipped.length + lates = skipped.length + lateGates w'.log
      rw [hcontexts, hvlans, hlates]
      exact fun huncut ↦ h.counted (huncut₀ huncut)
    · rcases Multiset.mem_cons.1 hl₁ with rfl | hl₁
      · exact MacRead.ContextStep.uncut hstep huncut
          (h.uncut (huncut₀ huncut) l (Multiset.mem_cons_self _ _))
      · exact h.uncut (huncut₀ huncut) l₁ (Multiset.mem_cons_of_mem hl₁)
  | @stop l queue flight w w' hstop =>
    have huncut : w.st.budget.truncated = false → ∀ l ∈ flight, l.wasCut = false :=
      fun hno l' hl' ↦ h.uncut hno l' (Multiset.mem_cons_of_mem hl')
    have hlonger : ∀ vid : ℤ, skipped <+: w.st.report.vlans.skipped ++ [vid] :=
      fun vid ↦ h.kept.trans (List.prefix_append _ _)
    cases hstop with
    | stopped vid w hstopped =>
      -- here the contexts are given up or the budget is cut, and nothing is counted
      refine ⟨h.waiting, hlonger vid, fun hno haborted ↦ ?_, huncut⟩
      have hno' : w.st.budget.truncated = false := hno
      have haborted' : w.st.contexts.aborted = [] := haborted
      rw [haborted', hno'] at hstopped
      exact absurd hstopped (not_or.2 ⟨fun hne ↦ hne rfl, Bool.false_ne_true⟩)
    | late vid w haborted hno hlate =>
      -- one VLAN more is skipped, and one look more was too late
      refine ⟨h.waiting, hlonger vid, fun _ _ ↦ ?_, huncut⟩
      have hcounted := h.counted hno haborted
      have hlates : lateGates (.polled ⟨.gate, w.st.budget.deadline⟩ true :: w.log) =
          lateGates w.log + 1 := List.countP_cons_of_pos rfl
      show (w.st.report.vlans.skipped ++ [vid]).length + lates =
        skipped.length + lateGates (.polled ⟨.gate, w.st.budget.deadline⟩ true :: w.log)
      rw [List.length_append, List.length_singleton, hlates]
      change w.st.report.vlans.skipped.length + lates = skipped.length + lateGates w.log at hcounted
      omega
    | settled vid ok rows failure w => exact h.settle

/-- Before any context is read. -/
theorem skips_start (vlans : List ℤ) (s : ReadState) (log : Log (net Outcome)) :
    Skips s.report.vlans.skipped (lateGates log) ⟨vlans.map .gate, 0, ⟨s, log⟩⟩ where
  waiting := by
    intro l hl
    obtain ⟨vid, -, rfl⟩ := List.mem_map.1 hl
    rfl
  kept := List.prefix_refl _
  counted := fun _ _ ↦ rfl
  uncut := fun _ l hl ↦ absurd hl (Multiset.notMem_zero l)

end Snmp
