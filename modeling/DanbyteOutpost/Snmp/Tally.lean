import DanbyteOutpost.Snmp.AnyOrder
import DanbyteOutpost.Snmp.ContextLists
import DanbyteOutpost.Snmp.OnTime

/-!
# What the contexts of VLANs leave

With an agent that answers each request in one way, and time and rows to spare, what the contexts of
VLANs bring is in its tables. The tasks share what they leave; but all of it is known from the order
in which the forwarding tables were learned (`Tally`), whichever of the tasks walked ifStackTable,
and however many of them did (`ContextStep.tally`).

## What a table brings

`WalkBrings` says what a walk of a VLAN's table comes to; it is a function of the table, as the
agent answers each request in one way (`Brings.unique`). `Tables` names these outcomes for all
tables at once, and the rows, counters, port maps and units of a VLAN are read off them (`rowsIn`,
`dropsIn`, `unitsIn`).

## The invariant

`Tally` compares the state with one order of the VLANs that were learned so far. The stack table
is the part that tasks share: it is known or not, and whoever walks it finds the same. Each walk
of it that did not come to its end notes the same problem, so the problems are one text some
number of times.
-/

namespace Snmp

open Coop

/-! ### What the contexts bring -/

/-- A walk brings this, with an agent that answers each request in one way. -/
def WalkBrings (fuel : ℕ) (answer : Query → Reply) (access : Access) (columns : Columns)
    (out : Walked String) : Prop :=
  Brings answer (walkColumns (MacRead.call columns access false macMaxRepetitions).bare fuel :
    Coro (net Outcome) Unit (Walked String)) out

/-- What walks bring, by credentials and columns. -/
abbrev Tables := Access → Columns → Walked String

/-- The tables are what the agent's walks bring. -/
def Tables.From (tables : Tables) (fuel : ℕ) (answer : Query → Reply) : Prop :=
  ∀ access columns out, WalkBrings fuel answer access columns out → out = tables access columns

/-- Every walk has its outcome by the answers alone. -/
theorem exists_tables (fuel : ℕ) (answer : Query → Reply) :
    ∃ tables : Tables, tables.From fuel answer := by
  have hone : ∀ access columns, ∃ table, ∀ out,
      WalkBrings fuel answer access columns out → out = table := by
    intro access columns
    by_cases h : ∃ out, WalkBrings fuel answer access columns out
    · obtain ⟨table, htable⟩ := h
      exact ⟨table, fun out hout ↦ Brings.unique hout htable⟩
    · -- with no table the walk does not end, and nothing is asked of it
      exact ⟨⟨Dict.empty, false, ⟨"", false, false⟩⟩, fun out hout ↦ absurd ⟨out, hout⟩ h⟩
  choose tables htables using hone
  exact ⟨tables, htables⟩

instance (rd : MacRead) (rows : List Row) : Decidable (rd.Plain rows) :=
  inferInstanceAs (Decidable ((rows.all fun row ↦ !rd.isLogical row.ifIndex) = true))

namespace MacRead

variable (rd : MacRead) (tables : Tables)

/-- What `learned_rows` makes of the tables of a VLAN. -/
def learnedIn (vid : ℤ) : Learned :=
  rd.contextLearned vid (tables (rd.contextAuth vid) baseColumns)
    (tables (rd.contextAuth vid) dFdbColumns) MacMeta.fresh.dropped

/-- What it counts in them. -/
def dropsIn (vid : ℤ) : List Drop :=
  dropsOf rd.ifaces (contextEntries vid (tables (rd.contextAuth vid) dFdbColumns))
    (column (tables (rd.contextAuth vid) baseColumns).rows "if_index")

/-- The ports below the units. -/
def unitsIn : Dict String String :=
  unitPorts rd.ifaces (column (tables rd.access stackColumns).rows "status")

/-- The rows of a VLAN, on ports. -/
def rowsIn (stack : Option (Dict String String)) (vid : ℤ) : List Row :=
  if rd.Plain (rd.learnedIn tables vid).rows then (rd.learnedIn tables vid).rows
  else (rd.learnedIn tables vid).rows.map (Row.fold (stack.getD (rd.unitsIn tables)))

/-- What `note` says of a walk of ifStackTable. -/
def stackProblem : String := "ifStackTable: " ++ why (tables rd.access stackColumns).stats

/-- What the contexts of VLANs have left since `s`, when the tables of some were learned in an
order. -/
structure Tally (s : ReadState) (order : List ℤ) (s' : ReadState) : Prop where
  /-- Of the report, nothing but the lists and the counters has changed, and the counters are
  sums. -/
  report : s'.report = { s.report with
    vlans := s'.report.vlans
    dropped := (order.flatMap (rd.dropsIn tables)).foldl Dropped.count s.report.dropped }
  /-- Each VLAN adds its own. -/
  portMaps : s'.portMaps =
    s.portMaps ++ order.flatMap fun vid ↦ (rd.learnedIn tables vid).portMap.toList
  /-- That is for the default context to say. -/
  defaultBase : s'.defaultBase = s.defaultBase
  /-- The deadline is not moved. -/
  deadline : s'.budget.deadline = s.budget.deadline
  /-- The stack is looked up once, if a VLAN has rows on a logical unit. -/
  stack : s'.stack = s.stack ∨ s.stack = none ∧ s'.stack = some (rd.unitsIn tables) ∧
    ∃ vid ∈ order, ¬rd.Plain (rd.learnedIn tables vid).rows
  /-- A lookup that failed is complained of by each task that made it, and by no other. -/
  problems : ∃ n, s'.problems = s.problems ++ List.replicate n (rd.stackProblem tables) ∧
    (n = 0 ↔ s'.stack = s.stack ∨ (tables rd.access stackColumns).complete = true)
  /-- Only that lookup can halt the read. -/
  halted : s'.halted = true → s'.stack ≠ none

/-- A stage has what the tables say. -/
def Tells (s s' : ReadState) : ContextStage → Prop
  | .gate _ | .ports _ => True
  | .table vid base => base = tables (rd.contextAuth vid) baseColumns
  | .learned vid _ rows _ => rows = (rd.learnedIn tables vid).rows
  | .stack vid _ rows _ =>
    rows = (rd.learnedIn tables vid).rows ∧ ¬rd.Plain rows ∧ s.stack = none
  | .read vid _ rows _ => rows = rd.rowsIn tables s.stack vid ∧
    (¬rd.Plain (rd.learnedIn tables vid).rows → s'.stack ≠ none)

end MacRead

namespace ContextStage

/-- The context has not failed so far. -/
def fine : ContextStage → Bool
  | learned _ ok _ _ | stack _ ok _ _ | read _ ok _ _ => ok
  | _ => true

/-- The VLAN, once its table is learned. -/
def share : ContextStage → Multiset ℤ
  | learned vid _ _ _ | stack vid _ _ _ | read vid _ _ _ => {vid}
  | _ => 0

end ContextStage

variable {rd : MacRead} {tables : Tables} {fuel : ℕ} {allowed : Allowed (net Outcome)}
  {s s₁ : ReadState} {order : List ℤ}

namespace MacRead

/-- Before the first context has ended there is nothing to tell. -/
theorem Tally.refl (rd : MacRead) (tables : Tables) {s : ReadState} (hgoes : s.halted = false) :
    Tally rd tables s [] s where
  report := rfl
  portMaps := (List.append_nil _).symm
  defaultBase := rfl
  deadline := rfl
  stack := .inl rfl
  problems := ⟨0, (List.append_nil _).symm, iff_of_true rfl (.inl rfl)⟩
  halted := fun hyes ↦ absurd (hgoes.symm.trans hyes) Bool.false_ne_true

/-- The rows left in the budget and the lists of VLANs aside. -/
theorem Tally.withState (h : Tally rd tables s order s₁) {s₂ : ReadState}
    (hreport : s₂.report = { s₁.report with vlans := s₂.report.vlans })
    (hportMaps : s₂.portMaps = s₁.portMaps) (hdefaultBase : s₂.defaultBase = s₁.defaultBase)
    (hdeadline : s₂.budget.deadline = s₁.budget.deadline) (hstack : s₂.stack = s₁.stack)
    (hproblems : s₂.problems = s₁.problems) (hhalted : s₂.halted = s₁.halted) :
    Tally rd tables s order s₂ where
  report := by
    rw [hreport, h.report]
  portMaps := hportMaps.trans h.portMaps
  defaultBase := hdefaultBase.trans h.defaultBase
  deadline := hdeadline.trans h.deadline
  stack := by
    rw [hstack]
    exact h.stack
  problems := by
    rw [hproblems, hstack]
    exact h.problems
  halted := by
    rw [hhalted, hstack]
    exact h.halted

/-- The table of one more VLAN is learned. -/
theorem Tally.learn (h : Tally rd tables s order s₁) (vid : ℤ) {out : Learned}
    (hout : out = rd.contextLearned vid (tables (rd.contextAuth vid) baseColumns)
      (tables (rd.contextAuth vid) dFdbColumns) s₁.report.dropped) :
    Tally rd tables s (order ++ [vid]) (s₁.learn out) where
  report := by
    show { s₁.report with dropped := out.dropped } = { s.report with
      vlans := s₁.report.vlans
      dropped := ((order ++ [vid]).flatMap (rd.dropsIn tables)).foldl Dropped.count
        s.report.dropped }
    have hdropped : out.dropped =
        ((order ++ [vid]).flatMap (rd.dropsIn tables)).foldl Dropped.count s.report.dropped := by
      rw [hout, contextLearned, learnedRows_dropped, h.report, List.flatMap_append,
        List.foldl_append, List.flatMap_singleton]
      rfl
    rw [hdropped, h.report]
  portMaps := by
    show s₁.portMaps ++ out.portMap.toList = _
    rw [h.portMaps, List.flatMap_append, List.flatMap_singleton, List.append_assoc, hout,
      contextLearned, learnedRows_portMap _ _ _ _ MacMeta.fresh.dropped]
    rfl
  defaultBase := h.defaultBase
  deadline := h.deadline
  stack := by
    refine h.stack.imp_right fun ⟨hnone, hunits, vid', hvid', hlogical⟩ ↦ ⟨hnone, hunits, vid', ?_,
      hlogical⟩
    exact List.mem_append_left _ hvid'
  problems := h.problems
  halted := h.halted

/-- ifStackTable is walked, once more or for the first time. -/
theorem Tally.setStack (h : Tally rd tables s order s₁) (hstack : s.stack = none)
    (huncut : (tables rd.access stackColumns).stats.truncated = false) {vid : ℤ}
    (hvid : vid ∈ order)
    (hlogical : ¬rd.Plain (rd.learnedIn tables vid).rows) :
    Tally rd tables s order (s₁.setStack rd.ifaces (tables rd.access stackColumns)) := by
  obtain ⟨n, hproblems, hn⟩ := h.problems
  have hunits : ∃ vid ∈ order, ¬rd.Plain (rd.learnedIn tables vid).rows := ⟨vid, hvid, hlogical⟩
  have hnew : some (rd.unitsIn tables) ≠ s.stack := by
    rw [hstack]
    exact Option.some_ne_none _
  rw [ReadState.setStack]
  split
  case isTrue hcomplete =>
    refine ⟨h.report, h.portMaps, h.defaultBase, h.deadline, .inr ⟨hstack, rfl, hunits⟩,
      ⟨n, hproblems, ?_⟩, fun _ ↦ Option.some_ne_none _⟩
    exact iff_of_true (hn.2 (.inr hcomplete)) (.inr hcomplete)
  case isFalse hfailed =>
    rw [ReadState.note, huncut, if_neg Bool.false_ne_true]
    refine ⟨h.report, h.portMaps, h.defaultBase, h.deadline, .inr ⟨hstack, rfl, hunits⟩,
      ⟨n + 1, ?_, ?_⟩, fun _ ↦ Option.some_ne_none _⟩
    · show s₁.problems ++ [rd.stackProblem tables] = _
      rw [hproblems, List.append_assoc, List.replicate_succ']
    · exact iff_of_false (Nat.succ_ne_zero n) (not_or.2 ⟨hnew, hfailed⟩)

/-- What a task tells stays told once the stack table is there. -/
theorem Tells.mono {l : ContextStage} {s₂ : ReadState} (h : Tells rd tables s s₁ l)
    (hstack : s₁.stack ≠ none → s₂.stack ≠ none) : Tells rd tables s s₂ l := by
  cases l with
  | read vid ok rows failure => exact ⟨h.1, fun hlogical ↦ hstack (h.2 hlogical)⟩
  | gate | ports | table | learned | stack => exact h

/-- The stack of units is the one there was, or the one in the tables. -/
theorem Tally.stack_getD (h : Tally rd tables s order s₁) {stack : Dict String String}
    (hstack : s₁.stack = some stack) : s.stack.getD (rd.unitsIn tables) = stack := by
  rcases h.stack with hsame | ⟨hnone, hunits, -⟩
  · rw [← hsame, hstack, Option.getD_some]
  · rw [hnone, Option.getD_none]
    exact Option.some.inj (hunits.symm.trans hstack)

/-- There was none while there is none. -/
theorem Tally.stack_none (h : Tally rd tables s order s₁) (hstack : s₁.stack = none) :
    s.stack = none := by
  rcases h.stack with hsame | ⟨hnone, -⟩
  · exact hsame.symm.trans hstack
  · exact hnone

end MacRead

/-! ### One step of a context -/

/-- The requests are answered in one way, and before the deadline. -/
structure Steady (allowed : Allowed (net Outcome)) (answer : Query → Reply) (deadline : ℚ) :
    Prop where
  /-- An answer does not depend on when it is asked for. -/
  answer : ∀ log q r, allowed.answer log q r → r = answer q
  /-- No look at the clock comes too late. -/
  inTime : ∀ log check, ¬allowed.reading log ⟨check, deadline⟩ true

/-- In time, the answers depend on the requests only. -/
theorem Surroundings.InTime.steady {sur : Surroundings} {answer : Query → Reply} {deadline : ℚ}
    (h : sur.InTime answer deadline) : Steady sur.env.allowed answer deadline where
  answer := fun log q _ hr ↦ hr.trans (h.reply log q)
  inTime := by
    intro log check hlate
    have hintime : sur.env.reading log ⟨check, deadline⟩ = false := h.reading log rfl
    exact Bool.false_ne_true (hintime.symm.trans hlate.symm)

variable {answer : Query → Reply} {p p' : ContextPlace}

namespace MacRead

/-- The stack table takes nothing of the budget. -/
theorem budget_setStack {ifaces : Ifaces} {out : Walked String} :
    (s₁.setStack ifaces out).budget = s₁.budget := by
  rw [ReadState.setStack]
  split
  · rfl
  · rw [ReadState.note]
    split <;> rfl

/-- A walk that is not cut brings a table. -/
theorem WalkEnds.told {o : Outcome} {w w' : World (net Outcome) ReadState}
    (h : WalkEnds fuel allowed o w w') (htables : tables.From fuel answer)
    (hanswer : ∀ log q r, allowed.answer log q r → r = answer q)
    (huncut : w'.st.budget.truncated = false) :
    w'.st = w.st ∧ o.walked = tables o.access o.columns ∧ o.walked.stats.truncated = false := by
  rcases h.ends with ⟨hno, rfl⟩ | ⟨reason, -, -, -, rfl⟩
  · exact ⟨rfl, htables _ _ _ (h.fixed answer hanswer hno), hno⟩
  · cases huncut

/-- A context that is fine was fine. -/
theorem ContextStep.fine (h : ContextStep rd fuel allowed p p') (hfine : p'.stage.fine = true) :
    p.stage.fine = true := by
  cases h with
  | passed | portsFailed | portsRead | tableRead => rfl
  | polled | asked | row | plain | folded | halted | late | stackBegun | stackRead => exact hfine

/-- The stack of units is not given up. -/
theorem ContextStep.stack_ne_none (h : ContextStep rd fuel allowed p p')
    (hstack : p.world.st.stack ≠ none) : p'.world.st.stack ≠ none := by
  have hwalked : ∀ {o : Outcome} {w w' : World (net Outcome) ReadState},
      WalkEnds fuel allowed o w w' → w.st.stack ≠ none → w'.st.stack ≠ none := by
    intro o w w' hend hw
    rcases hend.ends with ⟨-, rfl⟩ | ⟨reason, -, -, -, rfl⟩
    · exact hw
    · exact hw
  cases h with
  | portsFailed vid w w' out hend | portsRead vid w w' out hend => exact hwalked hend hstack
  | tableRead vid base w w' out hend =>
    show w'.st.stack ≠ none
    exact hwalked hend hstack
  | stackRead => exact Option.some_ne_none _
  | passed | polled | asked | row | plain | folded | halted | late | stackBegun => exact hstack

/-- The step lemma of the tally: behind a forwarding table one more VLAN is learned, and nothing
else is. -/
theorem ContextStep.tally (h : ContextStep rd fuel allowed p p') (htables : tables.From fuel answer)
    (hsteady : Steady allowed answer s.budget.deadline) (hfine : p'.stage.fine = true)
    (huncut : p'.world.st.budget.truncated = false)
    (htally : Tally rd tables s order p.world.st) (htells : Tells rd tables s p.world.st p.stage)
    (hshare : ∀ vid ∈ p.stage.share, vid ∈ order) :
    ∃ order' : List ℤ, ↑order' + p.stage.share = ↑order + p'.stage.share ∧
      Tally rd tables s order' p'.world.st ∧ Tells rd tables s p'.world.st p'.stage := by
  cases h with
  | passed vid w => exact ⟨order, rfl, htally, trivial⟩
  | polled l w => exact ⟨order, rfl, htally, htells⟩
  | asked l w => exact ⟨order, rfl, htally, htells⟩
  | row vid base w => exact ⟨order, rfl, htally.withState rfl rfl rfl rfl rfl rfl rfl, htells⟩
  | portsFailed => exact absurd hfine Bool.false_ne_true
  | portsRead vid w w' out hend =>
    obtain ⟨hst, htold, -⟩ := hend.told htables hsteady.answer huncut
    refine ⟨order, rfl, ?_, htold⟩
    show Tally rd tables s order w'.st
    rw [hst]
    exact htally
  | tableRead vid base w w' out hend =>
    obtain ⟨hst, htold, -⟩ := hend.told htables hsteady.answer huncut
    obtain rfl : base = tables (rd.contextAuth vid) baseColumns := htells
    obtain rfl : out = tables (rd.contextAuth vid) dFdbColumns := htold
    refine ⟨order ++ [vid], ?_, ?_, learnedRows_rows ..⟩
    · show (↑(order ++ [vid]) + 0 : Multiset ℤ) = ↑order + {vid}
      rw [add_zero, ← Multiset.coe_add, Multiset.coe_singleton]
    · rw [hst]
      exact htally.learn vid rfl
  | plain vid ok rows failure w hplain =>
    obtain rfl : rows = (rd.learnedIn tables vid).rows := htells
    exact ⟨order, rfl, htally, (if_pos hplain).symm, fun hlogical ↦ absurd hplain hlogical⟩
  | folded vid ok rows failure w hlogical stack hstack =>
    obtain rfl : rows = (rd.learnedIn tables vid).rows := htells
    refine ⟨order, rfl, htally, ?_, fun _ ↦ ?_⟩
    · rw [rowsIn, if_neg hlogical, htally.stack_getD hstack]
    · show w.st.stack ≠ none
      rw [hstack]
      exact Option.some_ne_none _
  | halted vid ok rows failure w hlogical hstack hhalted =>
    -- only a walk of ifStackTable halts the read here, and it leaves a stack of units
    exact absurd hstack (htally.halted hhalted)
  | late vid ok rows failure w hlogical hstack hgoes hlate =>
    -- there is time to spare
    rw [htally.deadline] at hlate
    exact absurd hlate (hsteady.inTime _ _)
  | stackBegun vid ok rows failure w hlogical hstack =>
    exact ⟨order, rfl, htally, htells, hlogical, htally.stack_none hstack⟩
  | stackRead vid ok rows failure w w' out hend =>
    have huncut' : w'.st.budget.truncated = false := (congrArg _ budget_setStack).symm.trans huncut
    obtain ⟨hst, htold, hno⟩ := hend.told htables hsteady.answer huncut'
    obtain rfl : out = tables rd.access stackColumns := htold
    obtain ⟨hrows, hlogical, hnone⟩ := htells
    obtain rfl : rows = (rd.learnedIn tables vid).rows := hrows
    -- another task may have walked the table meanwhile, and found the same
    have hvid : vid ∈ order := hshare vid (Multiset.mem_singleton_self vid)
    refine ⟨order, rfl, ?_, ?_, fun _ ↦ Option.some_ne_none _⟩
    · rw [hst]
      exact htally.setStack hnone hno hvid hlogical
    · rw [rowsIn, if_neg hlogical, hnone, Option.getD_none]
      rfl

end MacRead

end Snmp
