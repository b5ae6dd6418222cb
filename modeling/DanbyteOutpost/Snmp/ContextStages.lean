import DanbyteOutpost.Snmp.MacRead
import DanbyteOutpost.Snmp.WalkStages

/-!
# The contexts of VLANs as a crew

What the tasks of `_read_contexts` do, step by step: the stages of a VLAN's task (`ContextStage`),
and the steps between them and to its end (`ContextStep`, `ContextStop`), each one thing that
happens to the read. `one_takes` says that the tasks do nothing else, so that a property of the
contexts is one that these steps keep, in whatever order the tasks take them.

## The stages

A task that is started looks at its gate whether it is to go on, then walks the base-port table,
then the forwarding table (`walkAt`); behind that it learns rows, walks the stack table if one of
them is on a logical unit, and settles. What it writes on its way is in the steps: rows taken from
the budget, counters and port maps of what was learned (`ReadState.learn`), the stack table
(`ReadState.setStack`), and the marks of its walks.

`contexts_reach` is the form in which it is used: every pool the contexts of a read come to
follows a crew that its start leads to.
-/

namespace Snmp

open Coop

/-- How far the task of a VLAN is: at the gate, in one of its walks, behind its forwarding table, or
about to be settled. -/
inductive ContextStage
  /-- Before the look at the budget. -/
  | gate (vid : ℤ)
  /-- In the walk of the bridge ports. -/
  | ports (vid : ℤ)
  /-- In the walk of the forwarding table, with the ports. -/
  | table (vid : ℤ) (base : Walked String)
  /-- Behind both, with the rows and why they are not all. -/
  | learned (vid : ℤ) (ok : Bool) (rows : List Row) (failure : String)
  /-- In the walk of ifStackTable, which is one of the default context. -/
  | stack (vid : ℤ) (ok : Bool) (rows : List Row) (failure : String)
  /-- About to settle its VLAN. -/
  | read (vid : ℤ) (ok : Bool) (rows : List Row) (failure : String)

namespace ContextStage

/-- The VLAN of the task. -/
def vid : ContextStage → ℤ
  | gate vid | ports vid | table vid _ | learned vid _ _ _ | stack vid _ _ _ | read vid _ _ _ => vid

end ContextStage

/-- A VLAN's task at a stage, in a world. -/
abbrev ContextPlace := Place (net Outcome) ReadState ContextStage

/-- `"" if stats["truncated"] else _why(stats)`. -/
def failureOf (stats : Stats) : String := if stats.truncated then "" else why stats

/-- What `_learned` does to the attributes. -/
def ReadState.learn (out : Learned) (s : ReadState) : ReadState :=
  { s with
    report := { s.report with dropped := out.dropped }
    portMaps := s.portMaps ++ out.portMap.toList }

/-- What a walk of ifStackTable does to them, once it has ended. -/
def ReadState.setStack (ifaces : Ifaces) (out : Walked String) (s : ReadState) : ReadState :=
  let s := if out.complete then s else s.note "ifStackTable" out.stats
  { s with stack := some (unitPorts ifaces (column out.rows "status")) }

namespace MacRead

variable (rd : MacRead) (fuel : ℕ)

/-- The walk a task is in at a stage. -/
def walkAt : ContextStage → Option (Access × Columns)
  | .ports vid => some (rd.contextAuth vid, baseColumns)
  | .table vid _ => some (rd.contextAuth vid, dFdbColumns)
  | .stack .. => some (rd.access, stackColumns)
  | _ => none

/-- The request is one of the walk of the stage. -/
def AsksAt (l : ContextStage) (q : Query) : Prop :=
  ∃ walk, rd.walkAt l = some walk ∧
    (call walk.2 walk.1 false macMaxRepetitions).Sends q

/-- The entries of a walk of a VLAN's forwarding table. -/
def contextEntries (vid : ℤ) (fdb : Walked String) : List Entry :=
  (parseFdbTable false fdb.rows).map fun entry ↦ { entry with vlan := some vid }

/-- What `learned_rows` makes of the walks of a VLAN. -/
def contextLearned (vid : ℤ) (base fdb : Walked String) (dropped : Dropped) : Learned :=
  learnedRows rd.ifaces (contextEntries vid fdb) (column base.rows "if_index") dropped

/-- No row is on a logical unit. -/
def Plain (rows : List Row) : Prop :=
  (rows.all fun row ↦ !rd.isLogical row.ifIndex) = true

variable (allowed : Allowed (net Outcome))

/-- The end of a walk, with its mark: it is cut, and the budget says so, or not. With an agent that
answers each request in one way, a walk that is not cut brings what it does without a budget. -/
structure WalkEnds (o : Outcome) (w w' : World (net Outcome) ReadState) : Prop where
  /-- It changes no more than that. -/
  ends : (o.walked.stats.truncated = false ∧ w' = ⟨w.st, .marked o :: w.log⟩) ∨
    ∃ reason, o.walked.stats.truncated = true ∧ o.walked.complete = false ∧
      o.walked.stats.timeout = false ∧
      w' = ⟨budgetRef.modify (WalkBudget.stop reason) w.st, .marked o :: w.log⟩
  /-- So that what it brings does not depend on when it was made. -/
  fixed : ∀ answer : Query → Reply, (∀ log q r, allowed.answer log q r → r = answer q) →
    o.walked.stats.truncated = false →
      Brings answer (walkColumns (call o.columns o.access false macMaxRepetitions).bare fuel :
        Coro (net Outcome) Unit (Walked String)) o.walked

/-- A step of a VLAN's task. -/
inductive ContextStep : ContextPlace → ContextPlace → Prop
  /-- The gate is open. -/
  | passed (vid : ℤ) (w : World (net Outcome) ReadState) (haborted : w.st.contexts.aborted = [])
      (huncut : w.st.budget.truncated = false)
      (h : allowed.reading w.log ⟨.gate, w.st.budget.deadline⟩ false) :
    ContextStep ⟨.gate vid, w⟩
      ⟨.ports vid, ⟨w.st, .polled ⟨.gate, w.st.budget.deadline⟩ false :: w.log⟩⟩
  /-- A walk looks at the budget before a request. -/
  | polled (l : ContextStage) (w : World (net Outcome) ReadState) (yes : Bool)
      (hl : (rd.walkAt l).isSome)
      (h : allowed.reading w.log ⟨.request, w.st.budget.deadline⟩ yes) :
    ContextStep ⟨l, w⟩ ⟨l, ⟨w.st, .polled ⟨.request, w.st.budget.deadline⟩ yes :: w.log⟩⟩
  /-- A request of the walk was answered. -/
  | asked (l : ContextStage) (w : World (net Outcome) ReadState) (q : Query) (r : Reply)
      (hq : rd.AsksAt l q) (h : allowed.answer w.log q r) :
    ContextStep ⟨l, w⟩ ⟨l, ⟨w.st, .asked q r :: w.log⟩⟩
  /-- A row of the forwarding table is taken from the allowance. -/
  | row (vid : ℤ) (base : Walked String) (w : World (net Outcome) ReadState)
      (hleft : w.st.budget.rowsLeft ≠ 0) :
    ContextStep ⟨.table vid base, w⟩
      ⟨.table vid base, ⟨budgetRef.modify WalkBudget.takeRow w.st, w.log⟩⟩
  /-- The walk of the ports did not come to its end, and the table is not asked for. -/
  | portsFailed (vid : ℤ) (w w' : World (net Outcome) ReadState) (out : Walked String)
      (hend : WalkEnds fuel allowed ⟨rd.contextAuth vid, baseColumns, out⟩ w w')
      (hno : out.complete = false) :
    ContextStep ⟨.ports vid, w⟩ ⟨.read vid false [] (failureOf out.stats), w'⟩
  /-- It did. -/
  | portsRead (vid : ℤ) (w w' : World (net Outcome) ReadState) (out : Walked String)
      (hend : WalkEnds fuel allowed ⟨rd.contextAuth vid, baseColumns, out⟩ w w')
      (hyes : out.complete = true) :
    ContextStep ⟨.ports vid, w⟩ ⟨.table vid out, w'⟩
  /-- The table was walked, to its end or not, and its rows are learned. -/
  | tableRead (vid : ℤ) (base : Walked String) (w w' : World (net Outcome) ReadState)
      (out : Walked String)
      (hend : WalkEnds fuel allowed ⟨rd.contextAuth vid, dFdbColumns, out⟩ w w') :
    ContextStep ⟨.table vid base, w⟩
      ⟨.learned vid out.complete (rd.contextLearned vid base out w'.st.report.dropped).rows
          (if out.complete then "" else failureOf out.stats),
        ⟨w'.st.learn (rd.contextLearned vid base out w'.st.report.dropped), w'.log⟩⟩
  /-- No row lies on a logical unit. -/
  | plain (vid : ℤ) (ok : Bool) (rows : List Row) (failure : String)
      (w : World (net Outcome) ReadState) (hplain : rd.Plain rows) :
    ContextStep ⟨.learned vid ok rows failure, w⟩ ⟨.read vid ok rows failure, w⟩
  /-- Some do, and the stack is known. -/
  | folded (vid : ℤ) (ok : Bool) (rows : List Row) (failure : String)
      (w : World (net Outcome) ReadState) (hlogical : ¬rd.Plain rows) (stack : Dict String String)
      (hstack : w.st.stack = some stack) :
    ContextStep ⟨.learned vid ok rows failure, w⟩
      ⟨.read vid ok (rows.map (Row.fold stack)) failure, w⟩
  /-- Some do, and the read has halted: they stay as they are. -/
  | halted (vid : ℤ) (ok : Bool) (rows : List Row) (failure : String)
      (w : World (net Outcome) ReadState) (hlogical : ¬rd.Plain rows)
      (hstack : w.st.stack = none) (hhalted : w.st.halted = true) :
    ContextStep ⟨.learned vid ok rows failure, w⟩ ⟨.read vid ok rows failure, w⟩
  /-- Some do, and the budget is over: they stay as they are. -/
  | late (vid : ℤ) (ok : Bool) (rows : List Row) (failure : String)
      (w : World (net Outcome) ReadState) (hlogical : ¬rd.Plain rows)
      (hstack : w.st.stack = none) (hgoes : w.st.halted = false)
      (h : allowed.reading w.log ⟨.lookup, w.st.budget.deadline⟩ true) :
    ContextStep ⟨.learned vid ok rows failure, w⟩
      ⟨.read vid ok rows failure,
        ⟨w.st, .polled ⟨.lookup, w.st.budget.deadline⟩ true :: w.log⟩⟩
  /-- Some do, and the stack is walked. -/
  | stackBegun (vid : ℤ) (ok : Bool) (rows : List Row) (failure : String)
      (w : World (net Outcome) ReadState) (hlogical : ¬rd.Plain rows)
      (hstack : w.st.stack = none) (hgoes : w.st.halted = false)
      (h : allowed.reading w.log ⟨.lookup, w.st.budget.deadline⟩ false) :
    ContextStep ⟨.learned vid ok rows failure, w⟩
      ⟨.stack vid ok rows failure,
        ⟨w.st, .polled ⟨.lookup, w.st.budget.deadline⟩ false :: w.log⟩⟩
  /-- The stack was walked, and the rows are folded by what was read of it. -/
  | stackRead (vid : ℤ) (ok : Bool) (rows : List Row) (failure : String)
      (w w' : World (net Outcome) ReadState) (out : Walked String)
      (hend : WalkEnds fuel allowed ⟨rd.access, stackColumns, out⟩ w w') :
    ContextStep ⟨.stack vid ok rows failure, w⟩
      ⟨.read vid ok
          (rows.map (Row.fold (unitPorts rd.ifaces (column out.rows "status")))) failure,
        ⟨w'.st.setStack rd.ifaces out, w'.log⟩⟩

/-- The end of a VLAN's task. -/
inductive ContextStop : ContextPlace → World (net Outcome) ReadState → Prop
  /-- The gate was closed. -/
  | stopped (vid : ℤ) (w : World (net Outcome) ReadState)
      (h : w.st.contexts.aborted ≠ [] ∨ w.st.budget.truncated = true) :
    ContextStop ⟨.gate vid, w⟩ ⟨skip vid w.st, w.log⟩
  /-- The look at the budget came too late. -/
  | late (vid : ℤ) (w : World (net Outcome) ReadState) (haborted : w.st.contexts.aborted = [])
      (huncut : w.st.budget.truncated = false)
      (h : allowed.reading w.log ⟨.gate, w.st.budget.deadline⟩ true) :
    ContextStop ⟨.gate vid, w⟩
      ⟨skip vid w.st, .polled ⟨.gate, w.st.budget.deadline⟩ true :: w.log⟩
  /-- The context was read, and its VLAN is entered in a list. -/
  | settled (vid : ℤ) (ok : Bool) (rows : List Row) (failure : String)
      (w : World (net Outcome) ReadState) :
    ContextStop ⟨.read vid ok rows failure, w⟩ ⟨settle vid ok rows failure w.st, w.log⟩

/-- The course of the tasks of `_read_contexts`. -/
def contextCourse : Course (net Outcome) ReadState ContextStage where
  answer := allowed.answer
  reading := allowed.reading
  asks := rd.AsksAt
  step := ContextStep rd fuel allowed
  stop := ContextStop allowed

end MacRead

/-! ### The tasks follow the course -/

namespace MacRead

variable {rd : MacRead} {fuel : ℕ} {allowed : Allowed (net Outcome)}
  {p : ContextPlace} {w : World (net Outcome) ReadState}

/-- The requests of a walk do not depend on its row cap. -/
theorem asksAt_of_sends {l : ContextStage} {columns : Columns} {access : Access} {capRows : Bool}
    (hl : rd.walkAt l = some (access, columns)) {q : Query}
    (hq : (call columns access capRows macMaxRepetitions).Sends q) : rd.AsksAt l q :=
  ⟨_, hl, hq.access, hq.cursors, hq.nonempty⟩

/-- A walk of a stage. -/
theorem walks_at {l : ContextStage} {columns : Columns} {access : Access} {capRows : Bool}
    (hl : rd.walkAt l = some (access, columns))
    (hrow : capRows = true → ∃ vid base, l = .table vid base) :
    Snmp.Walks (rd.contextCourse fuel allowed)
      (call columns access capRows macMaxRepetitions) l where
  asks := fun q hq ↦ asksAt_of_sends hl hq
  polled := by
    rintro ref ⟨⟩ w yes hyes
    exact .polled l w yes (by rw [hl, Option.isSome_some]) hyes
  asked := fun w q r hq hr ↦ .asked l w q r (asksAt_of_sends hl hq) hr
  row := by
    intro ref href w hleft
    rw [WalkCall.cap] at href
    split at href
    case isTrue hcap =>
      obtain ⟨vid, base, rfl⟩ := hrow hcap
      obtain rfl := Option.some.inj href
      exact .row vid base w hleft
    case isFalse => cases href

/-- A walk of a context follows the course through the stage of its table: every request is that
stage's, and the course stays there until the walk has ended and is marked. -/
theorem walk_follows {l : ContextStage} {columns : Columns} {access : Access} {capRows : Bool}
    (hl : rd.walkAt l = some (access, columns))
    (hrow : capRows = true → ∃ vid base, l = .table vid base)
    (hp : (rd.contextCourse fuel allowed).Reaches p ⟨l, w⟩) :
    (walk fuel columns access capRows macMaxRepetitions).follows (rd.contextCourse fuel allowed)
      (fun out p' w' ↦ ∃ w₁, (rd.contextCourse fuel allowed).Reaches p' ⟨l, w₁⟩ ∧
        WalkEnds fuel allowed ⟨access, columns, out⟩ w₁ w') p w := by
  refine Coro.follows_bind.2
    (Coro.follows_mono (walkColumns_follows (walks_at hl hrow) hp) fun out p₁ w₁ _ hout ↦ ?_)
  obtain ⟨⟨w₂, hreaches, hstops⟩, hfixed⟩ := hout
  refine Coro.follows_bind.2 (Coro.follows_mark.2 ⟨w₂, hreaches, ?_, hfixed⟩)
  cases hstops with
  | told huncut hw =>
    obtain rfl := hw
    exact .inl ⟨huncut, rfl⟩
  | cut ref href reason hcut hcomplete htimeout hw =>
    obtain rfl := hw
    obtain rfl := Option.some.inj href
    exact .inr ⟨reason, hcut, hcomplete, htimeout, rfl⟩

/-- Rows on ports, as far as the units below them are known. -/
def onPorts (stack : Option (Dict String String)) (rows : List Row) : List Row :=
  match stack with
  | none => rows
  | some stack => rows.map (Row.fold stack)

/-- The lookup of ifStackTable, for rows of which some are on logical units. -/
theorem readStack_follows {vid : ℤ} {ok : Bool} {rows : List Row} {failure : String}
    (hlogical : ¬rd.Plain rows)
    (hp : (rd.contextCourse fuel allowed).Reaches p ⟨.learned vid ok rows failure, w⟩) :
    (rd.readStack fuel).follows (rd.contextCourse fuel allowed) (fun _ p' w' ↦
      (rd.contextCourse fuel allowed).Reaches p'
        ⟨.read vid ok (onPorts w'.st.stack rows) failure, w'⟩) p w := by
  refine Coro.follows_bind.2 (Coro.follows_get.2 ?_)
  split
  -- the stack table is known, from this context or another
  case isTrue hknown =>
    obtain ⟨stack, hstack⟩ := Option.isSome_iff_exists.1 hknown
    show (rd.contextCourse fuel allowed).Reaches p
        ⟨.read vid ok (onPorts w.st.stack rows) failure, w⟩
    rw [hstack]
    exact hp.step (.folded _ _ _ _ _ hlogical stack hstack)
  case isFalse hunknown =>
  rw [Option.not_isSome_iff_eq_none] at hunknown
  -- it is not, and where it is not walked the rows stay as they are
  have hleft : ∀ {p' : ContextPlace} {w' : World (net Outcome) ReadState}, w'.st = w.st →
      (rd.contextCourse fuel allowed).Reaches p' ⟨.read vid ok rows failure, w'⟩ →
      (rd.contextCourse fuel allowed).Reaches p'
        ⟨.read vid ok (onPorts w'.st.stack rows) failure, w'⟩ := by
    intro p' w' hst h
    rw [hst, hunknown]
    exact h
  refine Coro.follows_bind.2 (Coro.follows_bind.2 (Coro.follows_get.2 ?_))
  split
  -- a timeout has halted the read
  case isTrue hhalted =>
    exact hleft rfl (hp.step (.halted _ _ _ _ _ hlogical hunknown hhalted))
  case isFalse hgoes =>
  rw [Bool.not_eq_true] at hgoes
  refine Coro.follows_bind.2 (Coro.follows_poll.2 fun late hlate ↦ ?_)
  cases late with
  | true => exact hleft rfl (hp.step (.late _ _ _ _ _ hlogical hunknown hgoes hlate))
  | false =>
    have hbegun := hp.step (.stackBegun _ _ _ _ _ hlogical hunknown hgoes hlate)
    refine Coro.follows_bind.2 (Coro.follows_bind.2 (Coro.follows_mono
      (walk_follows (l := .stack vid ok rows failure) rfl nofun hbegun) fun out p₁ w₁ _ hout ↦ ?_))
    obtain ⟨w₂, hreaches, hend⟩ := hout
    have hread := hreaches.step (.stackRead _ _ _ _ _ _ out hend)
    -- the walk may leave a note, and either way the table is known from here on
    have hset : ∀ s : ReadState,
        (if out.complete then w₁.st else w₁.st.note "ifStackTable" out.stats)
        = s → (Coro.modify fun s ↦ { s with
          stack := some (unitPorts rd.ifaces (column out.rows "status")) } : Reader Unit).follows
        (rd.contextCourse fuel allowed) (fun _ p' w' ↦ (rd.contextCourse fuel allowed).Reaches p'
          ⟨.read vid ok (onPorts w'.st.stack rows) failure, w'⟩) p₁ ⟨s, w₁.log⟩ := by
      rintro s rfl
      exact Coro.follows_modify.2 hread
    split
    case isTrue hyes => exact hset _ (if_pos hyes)
    case isFalse hno => exact Coro.follows_bind.2 (Coro.follows_modify.2 (hset _ (if_neg hno)))

/-- `_learned`, behind the walks of a VLAN. -/
theorem learned_follows {vid : ℤ} {base fdb : Walked String} {w₀ : World (net Outcome) ReadState}
    (hp : (rd.contextCourse fuel allowed).Reaches p ⟨.table vid base, w₀⟩)
    (hend : WalkEnds fuel allowed ⟨rd.contextAuth vid, dFdbColumns, fdb⟩ w₀ w) :
    (rd.learned fuel (contextEntries vid fdb) (column base.rows "if_index")).follows
      (rd.contextCourse fuel allowed) (fun rows p' w' ↦
        (rd.contextCourse fuel allowed).Reaches p' ⟨.read vid fdb.complete rows
          (if fdb.complete then "" else failureOf fdb.stats), w'⟩) p w := by
  have hlearned := hp.step (.tableRead vid base w₀ w fdb hend)
  refine Coro.follows_bind.2 (Coro.follows_get.2
    (Coro.follows_bind.2 (Coro.follows_modify.2 ?_)))
  split
  case isTrue hplain => exact hlearned.step (.plain _ _ _ _ _ hplain)
  case isFalse hlogical =>
    refine Coro.follows_bind.2 (Coro.follows_mono (readStack_follows hlogical hlearned)
      fun _ p' w' _ hread ↦ Coro.follows_bind.2 (Coro.follows_get.2 ?_))
    split
    case h_1 hnone =>
      rw [hnone] at hread
      exact hread
    case h_2 stack hsome =>
      rw [hsome] at hread
      exact hread

/-- `_read_context`, from behind the gate to where it is settled. -/
theorem readContext_follows {vid : ℤ}
    (hp : (rd.contextCourse fuel allowed).Reaches p ⟨.ports vid, w⟩) :
    (rd.readContext fuel vid).follows (rd.contextCourse fuel allowed) (fun out p' w' ↦
      (rd.contextCourse fuel allowed).Reaches p' ⟨.read vid out.1 out.2.1 out.2.2, w'⟩) p w := by
  refine Coro.follows_bind.2 (Coro.follows_mono (walk_follows (l := .ports vid) rfl nofun hp)
    fun base p₁ w₁ _ hbase ↦ ?_)
  obtain ⟨w₂, hports, hend⟩ := hbase
  dsimp only
  split
  case isTrue hno =>
    rw [Bool.not_eq_true'] at hno
    exact hports.step (.portsFailed vid w₂ w₁ base hend hno)
  case isFalse hyes =>
    rw [Bool.not_eq_true', Bool.not_eq_false] at hyes
    have htable := hports.step (.portsRead vid w₂ w₁ base hend hyes)
    refine Coro.follows_bind.2 (Coro.follows_mono
      (walk_follows (l := .table vid base) rfl (fun _ ↦ ⟨vid, base, rfl⟩) htable)
      fun fdb p₂ w₃ _ hfdb ↦ ?_)
    obtain ⟨w₄, htable', hend'⟩ := hfdb
    exact Coro.follows_bind.2 (Coro.follows_mono (learned_follows htable' hend')
      fun rows p₃ w₅ _ hread ↦ hread)

/-- The task of a VLAN follows the course. -/
theorem one_takes (vid : ℤ) :
    Coro.Takes (rd.contextCourse fuel allowed) (rd.one fuel vid) (.gate vid) := by
  intro w
  have hgate : (rd.contextCourse fuel allowed).Reaches ⟨.gate vid, w⟩ ⟨.gate vid, w⟩ := .refl _
  refine Coro.follows_bind.2 (Coro.follows_get.2 ?_)
  split
  case isTrue hstopped =>
    rw [Bool.or_eq_true, Bool.not_eq_true', List.isEmpty_eq_false_iff] at hstopped
    exact hgate.stops (.stopped vid w hstopped)
  case isFalse hgoes =>
    rw [Bool.or_eq_true, Bool.not_eq_true', List.isEmpty_eq_false_iff, not_or, not_not,
      Bool.not_eq_true] at hgoes
    refine Coro.follows_bind.2 (Coro.follows_poll.2 fun late hlate ↦ ?_)
    cases late with
    | true => exact hgate.stops (.late vid w hgoes.1 hgoes.2 hlate)
    | false =>
      refine Coro.follows_bind.2 (Coro.follows_mono
        (readContext_follows (hgate.step (.passed vid w hgoes.1 hgoes.2 hlate)))
        fun out p' w' _ hread ↦ ?_)
      exact hread.stops (.settled vid _ _ _ w')

/-- So do those of a list of VLANs. -/
theorem ones_take (vlans : List ℤ) :
    List.Forall₂ (fun t l ↦ Coro.Takes (rd.contextCourse fuel allowed) t l)
      (vlans.map (rd.one fuel)) (vlans.map .gate) := by
  rw [List.forall₂_map_left_iff, List.forall₂_map_right_iff]
  exact List.forall₂_same.2 fun vid _ ↦ one_takes vid

/-- `_read_contexts` on a list of VLANs comes to a state. -/
def ContextsReach (rd : MacRead) (sur : Surroundings) (fuel : ℕ) (vlans : List ℤ)
    (s : ReadState) (log : Log (net Outcome)) (pool : Pool (net Outcome) ReadState) : Prop :=
  Pool.Reaches sur.env macContextConcurrency ⟨vlans.map (rd.one fuel), [], s, log⟩ pool

/-- The run lemma of the contexts: a crew of VLANs ends as the pool of their tasks does. -/
theorem contexts_reach {sur : Surroundings} (hsuits : sur.env.Suits allowed) {vlans : List ℤ}
    {s s' : ReadState} {log log' : Log (net Outcome)}
    (hrun : gather sur.env macContextConcurrency fuel (vlans.map (rd.one fuel)) s log =
      some (s', log')) :
    Crew.Reaches (rd.contextCourse fuel allowed) macContextConcurrency
      ⟨vlans.map .gate, 0, ⟨s, log⟩⟩ ⟨[], 0, ⟨s', log'⟩⟩ := by
  exact reaches_of_gather ⟨hsuits.answer, hsuits.reading⟩ (ones_take vlans) hrun

end MacRead

end Snmp
