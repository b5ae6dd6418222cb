import DanbyteOutpost.Data.Dict
import DanbyteOutpost.Snmp.Protocol
import Mathlib.Algebra.Order.Ring.Int

/-!
# Walking several columns of a table

`_walk_columns`, as a cooperative task. It is generic in the keys of the columns and in the state it
runs on, of which it only touches the budget it was given (`BudgetRef`). The code keeps the last key
of each column (`last`) next to its text (`cursor`); on OIDs as lists they are one.

## The state of a walk

* `WalkCall`: the arguments of a call, fixed for the walk.
* `Walker`: the columns that are open, the cursor of each, the rows so far, `max_rep`, and what
  has been said of the walk.
* `Taken`: the walker and the state in the midst of a response.

A round asks for the open columns and takes the response binding by binding, where it may stop.
The loop carries fuel, which the code does not have; a walk ends by itself, and how much is enough
is proved with the walk, not assumed.
-/

namespace Snmp

open Coop

variable {M κ σ : Type} [DecidableEq κ]

/-- `_WalkBudget`. -/
structure WalkBudget where
  /-- `seconds`. -/
  seconds : ℤ
  /-- `rows`. -/
  rows : ℕ
  /-- `deadline`. -/
  deadline : ℚ
  /-- `rows_left`. -/
  rowsLeft : ℕ
  /-- `truncated`. -/
  truncated : Bool
  /-- `reason`: the first one it was stopped for. -/
  reason : String
  deriving DecidableEq

/-- `_WalkBudget(seconds, rows)`, with the clock at `now`. -/
def WalkBudget.new (seconds : ℤ) (rows : ℕ) (now : ℚ) : WalkBudget where
  seconds := seconds
  rows := rows
  deadline := now + seconds
  rowsLeft := rows
  truncated := false
  reason := ""

/-- `stop(reason)`: the first reason stays. -/
def WalkBudget.stop (reason : String) (b : WalkBudget) : WalkBudget :=
  { b with truncated := true, reason := if b.reason = "" then reason else b.reason }

/-- `rows_left -= 1`. -/
def WalkBudget.takeRow (b : WalkBudget) : WalkBudget := { b with rowsLeft := b.rowsLeft - 1 }

/-- Where the state keeps a budget. -/
structure BudgetRef (σ : Type) where
  /-- The budget of a state. -/
  get : σ → WalkBudget
  /-- The state with another budget. -/
  set : WalkBudget → σ → σ
  /-- It is the one that was put there. -/
  get_set : ∀ b s, get (set b s) = b
  /-- To put back the same changes nothing. -/
  set_get : ∀ s, set (get s) s = s
  /-- Of two that are put there the later one stays. -/
  set_set : ∀ b b' s, set b (set b' s) = set b s

/-- The state with its budget changed. -/
def BudgetRef.modify (ref : BudgetRef σ) (f : WalkBudget → WalkBudget) (s : σ) : σ :=
  ref.set (f (ref.get s)) s

/-- The arguments of `_walk_columns`. -/
structure WalkCall (κ σ : Type) [DecidableEq κ] where
  /-- `auth`, with the name in `context`. -/
  access : Access
  /-- `columns`: the base of each key, in order. -/
  columns : Dict κ Oid
  /-- `max_rep`. -/
  maxRep : ℤ
  /-- `retries`. -/
  retries : ℤ
  /-- `budget`. -/
  budget : Option (BudgetRef σ)
  /-- `cap_rows`. -/
  capRows : Bool

/-- `stats`. -/
structure Stats where
  /-- `error`. -/
  error : String
  /-- `timeout`. -/
  timeout : Bool
  /-- `truncated`. -/
  truncated : Bool
  deriving DecidableEq

/-- The rows of a walk. -/
abbrev Rows (κ : Type) [DecidableEq κ] := Dict Oid (Dict κ String)

/-- What `_walk_columns` returns, with its `stats`. -/
structure Walked (κ : Type) [DecidableEq κ] where
  /-- By index, each with the cells that were read. -/
  rows : Rows κ
  /-- Whether every column came to its end. -/
  complete : Bool
  /-- And if not, why. -/
  stats : Stats

/-- The variables of the loop. -/
structure Walker (κ : Type) [DecidableEq κ] where
  /-- `cursor`, which `last` follows. -/
  cursor : κ → Oid
  /-- `active`: the open columns, in order. -/
  active : List κ
  /-- `rows`. -/
  rows : Rows κ
  /-- `complete`. -/
  complete : Bool
  /-- `stats["error"]`. -/
  error : String
  /-- `max_rep`, which is halved on the way. -/
  maxRep : ℤ

/-- What stands behind a column in an OID of it. -/
def indexIn (base oid : Oid) : Option Oid :=
  if base <+: oid ∧ base ≠ oid then some (oid.drop base.length) else none

namespace WalkCall

variable (call : WalkCall κ σ)

/-- `bases[key]`. -/
def base (key : κ) : Oid := (call.columns.get? key).getD []

/-- The variables before the loop. -/
def start : Walker κ where
  cursor := call.base
  active := call.columns.keys
  rows := Dict.empty
  complete := true
  error := ""
  maxRep := call.maxRep

end WalkCall

/-! ### A request -/

/-- How the attempts at a request end. -/
inductive Attempt
  /-- The budget's time is over. -/
  | cut
  /-- An exception. -/
  | failed (error : String) (timeout : Bool)
  /-- A response, to be looked at. -/
  | answered (indication : Option ErrorIndication) (status : ℤ) (statusText : String) (index : ℤ)
      (binds : List Binding)

/-- The response says that the request timed out. -/
def Attempt.saysTimeout : Attempt → Bool
  | answered (some e) .. => e.isTimeout
  | _ => false

/-- `budget is not None and budget.remaining() <= 0`. -/
def outOfTime (call : WalkCall κ σ) : Coro (net M) σ Bool :=
  match call.budget with
  | none => pure false
  | some ref => do
    let s ← Coro.get
    Coro.poll (I := net M) ⟨.request, (ref.get s).deadline⟩

/-- One attempt. -/
def attempt (call : WalkCall κ σ) (q : Query) : Coro (net M) σ Attempt := do
  if ← outOfTime call then return .cut
  match ← Coro.ask (I := net M) q with
  | .timedOut => return if call.budget.isSome then .cut else .failed "timeout" true
  | .raised e => return .failed ("snmp error: " ++ e) false
  | .response indication status statusText index binds =>
    return .answered indication status statusText index binds

/-- The attempts at a request: a timed-out one is sent again while there are some left. -/
def request (call : WalkCall κ σ) (q : Query) : ℕ → Coro (net M) σ Attempt
  | 0 => attempt call q
  | left + 1 => do
    let a ← attempt call q
    if a.saysTimeout then request call q left else return a

/-! ### A response -/

/-- The loop over a response: the variables, the columns that ended, the state, and whether the
row cap cut the walk. -/
structure Taken (κ σ : Type) [DecidableEq κ] where
  /-- The variables so far. -/
  walker : Walker κ
  /-- The columns that are to be closed. -/
  done : List κ
  /-- The state, with its budget. -/
  st : σ
  /-- The rest of the response is not looked at. -/
  cut : Bool

/-- `row[key] = text`, where `row` is the row at `index`. -/
def Rows.setCell (rows : Rows κ) (index : Oid) (row : Dict κ String) (key : κ) (text : String) :
    Rows κ :=
  rows.set index (row.set key text)

/-- `last[key] = at` and `cursor[key] = oid`. -/
def Walker.moveTo (key : κ) (oid : Oid) (w : Walker κ) : Walker κ :=
  { w with cursor := Function.update w.cursor key oid }

/-- `row[key] = value.prettyPrint()`. -/
def Walker.write (index : Oid) (row : Dict κ String) (key : κ) (text : String) (w : Walker κ) :
    Walker κ :=
  { w with rows := Rows.setCell w.rows index row key text }

/-- A cell of a row there may not be yet; a new row counts against the cap. -/
def Taken.cell (call : WalkCall κ σ) (index : Oid) (key : κ) (text : String) (t : Taken κ σ) :
    Taken κ σ :=
  match t.walker.rows.get? index with
  | some row => { t with walker := t.walker.write index row key text }
  | none =>
    match call.budget, call.capRows with
    | some ref, true =>
      if (ref.get t.st).rowsLeft = 0 then { t with cut := true }
      else
        { t with
          walker := t.walker.write index Dict.empty key text
          st := ref.modify WalkBudget.takeRow t.st }
    | _, _ => { t with walker := t.walker.write index Dict.empty key text }

/-- One binding, of the column `key`. -/
def Taken.binding (call : WalkCall κ σ) (key : κ) (b : Binding) (t : Taken κ σ) : Taken κ σ :=
  if key ∈ t.done then t
  else
    match b.value.text?, indexIn (call.base key) b.name with
    | some text, some index =>
      if b.name ≤ t.walker.cursor key then
        -- an OID it already gave
        { t with
          walker := { t.walker with
            complete := false
            error := "OID not increasing after " ++ dotted (t.walker.cursor key) }
          done := key :: t.done }
      else
        { t with walker := t.walker.moveTo key b.name }.cell call index key text
    | _, _ => { t with done := key :: t.done }

/-- The bindings from number `i` on: number `i` is of the column `active[i % width]`. -/
def Taken.bindings (call : WalkCall κ σ) (active : List κ) :
    ℕ → List Binding → Taken κ σ → Taken κ σ
  | _, [], t => t
  | i, b :: bs, t =>
    match active[i % active.length]? with
    | none => t
    | some key =>
      let t' := t.binding call key b
      if t'.cut then t' else t'.bindings call active (i + 1) bs

/-! ### The loop -/

namespace Walker

/-- The request for the next rows of every column still open. -/
def query (call : WalkCall κ σ) (w : Walker κ) : Query where
  access := call.access
  cursors := w.active.map w.cursor
  maxRep := w.maxRep

/-- An incomplete walk, with the rows it got. -/
def stopped (w : Walker κ) (error : String) (timeout truncated : Bool) : Walked κ where
  rows := w.rows
  complete := false
  stats := { error := error, timeout := timeout, truncated := truncated }

/-- `cut(reason)`. -/
def cut (call : WalkCall κ σ) (reason : String) (w : Walker κ) : Coro (net M) σ (Walked κ) := do
  if let some ref := call.budget then
    Coro.modify (ref.modify (WalkBudget.stop reason))
  return w.stopped w.error false true

/-- Every column reached its end. -/
def finished (w : Walker κ) : Walked κ where
  rows := w.rows
  complete := w.complete
  stats := { error := w.error, timeout := false, truncated := false }

/-- The variables once the response `binds` is taken, before the columns that ended are closed. -/
def respond (call : WalkCall κ σ) (w : Walker κ) (binds : List Binding) (s : σ) : Taken κ σ :=
  Taken.bindings call w.active 0 binds { walker := w, done := [], st := s, cut := false }

/-- `active = [key for key in active if key not in done]`. -/
def close (done : List κ) (w : Walker κ) : Walker κ :=
  { w with active := w.active.filter fun key ↦ decide (key ∉ done) }

/-- SNMPv1 noSuchName: that column walked off the end of the MIB. -/
def pop (index : ℤ) (w : Walker κ) : Walker κ :=
  { w with active := w.active.eraseIdx (index - 1).toNat }

/-- tooBig: ask for fewer rows. -/
def halve (w : Walker κ) : Walker κ := { w with maxRep := max 1 (w.maxRep / 2) }

/-- Whether the error index names a column that is open. -/
def names (index : ℤ) (w : Walker κ) : Prop := 1 ≤ index ∧ index ≤ w.active.length

instance (index : ℤ) (w : Walker κ) : Decidable (w.names index) :=
  inferInstanceAs (Decidable (_ ∧ _))

end Walker

/-- The loop of `_walk_columns`, for `fuel` rounds at most. -/
def walkLoop (call : WalkCall κ σ) : ℕ → Walker κ → Coro (net M) σ (Walked κ)
  | 0, _ => Coro.spin
  | fuel + 1, w =>
    if w.active = [] then return w.finished
    else do
      match ← request call (w.query call) call.retries.toNat with
      | .cut => w.cut call "time"
      | .failed error timeout => return w.stopped error timeout false
      | .answered (some e) .. => return w.stopped e.text e.isTimeout false
      | .answered none status statusText index binds =>
        if status = 0 then
          if binds = [] then return w.stopped "empty response" false false
          let t := w.respond call binds (← Coro.get)
          Coro.modify fun _ ↦ t.st
          if t.cut then t.walker.cut call "rows"
          else walkLoop call fuel (t.walker.close t.done)
        else if status = 2 ∧ w.names index then walkLoop call fuel (w.pop index)
        else if status = 1 ∧ 1 < w.maxRep then walkLoop call fuel w.halve
        else return w.stopped statusText false false

/-- `_walk_columns`. -/
def walkColumns (call : WalkCall κ σ) (fuel : ℕ) : Coro (net M) σ (Walked κ) :=
  walkLoop call fuel call.start

end Snmp
