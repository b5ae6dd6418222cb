import DanbyteOutpost.Snmp.Mib
import Mathlib.Algebra.BigOperators.Group.Finset.Basic
import Mathlib.Algebra.Order.BigOperators.Group.Finset

/-!
# The rows of a response

What the loop of `_walk_columns` over one response does, against an agent's columns. `Reads` is the
invariant of the walk: its rows are a part of the columns, each column is in them up to its cursor,
and a column that is closed has nothing behind its cursor, unless the walk knows to be incomplete.
`Taken.bindings_spec` takes it through a response, whatever the response was cut at.

## One binding

The walk attributes a binding to a column by its position in the response, and does one of four
things with it (`BindingMove`): it passes it over, finds the column ended, gives the column up
with an error, or sets the next cell of the column. `InStep` says how far the response has come,
as an agent that conforms would give it; so a binding that is a row of the agent's is the next
one, and one that is outside the column shows that the column has ended.

* `PartOf`: the rows are a part of the agent's columns.
* `Charged`: each row that is there has been taken from the allowance once.
* `Taken.weight`: what is still ahead, which a binding that is of use reduces.
-/

namespace Snmp

variable {κ σ : Type} [DecidableEq κ]

/-- The cell of a row. -/
def cellOf (rows : Rows κ) (index : Oid) (key : κ) : Option String :=
  (rows.get? index).bind fun row ↦ row.get? key

theorem cellOf_eq_some {rows : Rows κ} {index : Oid} {key : κ} {text : String} :
    cellOf rows index key = some text ↔
      ∃ row, rows.get? index = some row ∧ row.get? key = some text :=
  Option.bind_eq_some_iff

theorem mem_keys_of_cellOf {rows : Rows κ} {index : Oid} {key : κ}
    (h : cellOf rows index key ≠ none) : index ∈ rows.keys := by
  obtain ⟨text, hcell⟩ := Option.ne_none_iff_exists'.1 h
  obtain ⟨row, hrow, -⟩ := cellOf_eq_some.1 hcell
  exact Dict.mem_keys_iff.2 ⟨row, hrow⟩

/-- `row` is the row of `index`, or a new one. -/
def RowAt (rows : Rows κ) (index : Oid) (row : Dict κ String) : Prop :=
  rows.get? index = some row ∨ rows.get? index = none ∧ row = Dict.empty

/-- A cell is set where it is, and the others are left. -/
theorem cellOf_setCell {rows : Rows κ} {index : Oid} {row : Dict κ String}
    (hrow : RowAt rows index row) (key : κ) (text : String) (index' : Oid) (key' : κ) :
    cellOf (rows.setCell index row key text) index' key' =
      if index = index' ∧ key = key' then some text else cellOf rows index' key' := by
  rw [cellOf, Rows.setCell, Dict.get?_set]
  by_cases hindex : index = index'
  · subst hindex
    rw [if_pos rfl, Option.bind_some, Dict.get?_set]
    by_cases hkey : key = key'
    · rw [if_pos hkey, if_pos ⟨rfl, hkey⟩]
    · rw [if_neg hkey, if_neg fun h ↦ hkey h.2, cellOf]
      rcases hrow with hrow | ⟨hrow, rfl⟩
      · rw [hrow, Option.bind_some]
      · rw [hrow, Option.bind_none, Dict.get?_empty]
  · rw [if_neg hindex, if_neg fun h ↦ hindex h.1]
    rfl

/-! ### The invariant -/

/-- The rows are a part of the agent's columns. -/
structure PartOf (m : Mib) (call : WalkCall κ σ) (rows : Rows κ) : Prop where
  /-- A cell is the agent's. -/
  cell : ∀ {index key text}, cellOf rows index key = some text →
    key ∈ call.columns.keys ∧ m.cell (call.base key) index = some text
  /-- And a row has one. -/
  row : ∀ {index row}, rows.get? index = some row → ∃ key text, row.get? key = some text

/-- The invariant of a walk; `shut` are the columns that are closed. -/
structure Reads (m : Mib) (call : WalkCall κ σ) (shut : κ → Prop) (w : Walker κ) : Prop where
  /-- What was read is there. -/
  part : PartOf m call w.rows
  /-- A cursor is in its column. -/
  under : ∀ key, call.base key <+: w.cursor key
  /-- Nothing up to the cursor was left out. -/
  covered : ∀ {key index text}, key ∈ call.columns.keys →
    m.cell (call.base key) index = some text → call.base key ++ index ≤ w.cursor key →
      cellOf w.rows index key = some text
  /-- Behind the cursor of a closed column nothing is left of it, unless the walk says that it is
  incomplete. -/
  ended : w.complete = true → ∀ key ∈ call.columns.keys, shut key →
    m.EndedAfter (call.base key) (w.cursor key)

/-- The OIDs of the columns. -/
def WalkCall.bases (call : WalkCall κ σ) : List Oid := call.columns.items.map Prod.snd

/-- The column of a key is one of the call's. -/
theorem WalkCall.base_mem {call : WalkCall κ σ} {key : κ} (h : key ∈ call.columns.keys) :
    call.base key ∈ call.bases := by
  obtain ⟨oid, hget⟩ := Dict.mem_keys_iff.1 h
  rw [base, hget, Option.getD_some]
  exact List.mem_map_of_mem (Dict.mem_items_iff.2 hget)

/-- At the start nothing has been read, and nothing wrongly. -/
theorem reads_start (m : Mib) (call : WalkCall κ σ) :
    Reads m call (fun key ↦ key ∉ call.columns.keys) call.start where
  part.cell := by
    intro index key text h
    obtain ⟨row, hrow, -⟩ := cellOf_eq_some.1 h
    cases hrow
  part.row := by
    intro index row h
    cases h
  under := fun key ↦ List.prefix_refl _
  covered := by
    intro key index text _ hcell hle
    have hne := (Mib.cell_eq_some.1 hcell).1
    exact absurd (lt_append_of_ne_nil hne) (not_lt.2 hle)
  ended := fun _ key hkey hshut ↦ absurd hkey hshut

/-- A cell of the agent's added to a part of its table makes a part of its table. -/
theorem PartOf.setCell {m : Mib} {call : WalkCall κ σ} {rows : Rows κ} (h : PartOf m call rows)
    {index : Oid} {key : κ} {text : String} {row : Dict κ String} (hrow : RowAt rows index row)
    (hkey : key ∈ call.columns.keys) (hcell : m.cell (call.base key) index = some text) :
    PartOf m call (rows.setCell index row key text) where
  cell := by
    intro index' key' text' hcell'
    rw [cellOf_setCell hrow] at hcell'
    split at hcell'
    case isTrue heq =>
      obtain ⟨rfl, rfl⟩ := heq
      obtain rfl := Option.some.inj hcell'
      exact ⟨hkey, hcell⟩
    case isFalse => exact h.cell hcell'
  row := by
    intro index' row' hget
    rw [Rows.setCell, Dict.get?_set] at hget
    split at hget
    · obtain rfl := Option.some.inj hget
      exact ⟨key, text, Dict.get?_set_self ..⟩
    · exact h.row hget

/-- The walk moves to the next object of a column and writes its cell. -/
theorem Reads.advance {m : Mib} {call : WalkCall κ σ} {shut : κ → Prop} {w : Walker κ}
    (h : Reads m call shut w) {key : κ} (hkey : key ∈ call.columns.keys) (hopen : ¬ shut key)
    {e : Oid × String} (hnext : m.next (w.cursor key) = some e) {index : Oid}
    (hindex : indexIn (call.base key) e.1 = some index) {row : Dict κ String}
    (hrow : RowAt w.rows index row) :
    Reads m call shut ((w.moveTo key e.1).write index row key e.2) := by
  obtain ⟨hlt, hval, hleast⟩ := Mib.next_eq_some hnext
  obtain ⟨hoid, hne⟩ := indexIn_eq_some.1 hindex
  have hcell : m.cell (call.base key) index = some e.2 :=
    Mib.cell_eq_some.2 ⟨hne, hoid ▸ hval⟩
  have hmoved : ∀ {key'}, key' ≠ key →
      ((w.moveTo key e.1).write index row key e.2).cursor key' = w.cursor key' :=
    fun hdiff ↦ Function.update_of_ne hdiff ..
  have hself : ((w.moveTo key e.1).write index row key e.2).cursor key = e.1 :=
    Function.update_self ..
  refine ⟨h.part.setCell hrow hkey hcell, fun key' ↦ ?_,
    fun {key' index' text'} hkey' hcell' hle ↦ ?_,
    fun hcomplete key' hkey' hshut ↦ ?_⟩
  · by_cases heq : key' = key
    · rw [heq, hself, hoid]
      exact List.prefix_append _ _
    · rw [hmoved heq]
      exact h.under key'
  · show cellOf (w.rows.setCell index row key e.2) index' key' = some text'
    rw [cellOf_setCell hrow]
    by_cases heq : key' = key
    · subst heq
      rw [hself] at hle
      split
      case isTrue hsame =>
        rw [← hsame.1, hcell] at hcell'
        exact hcell'
      case isFalse hdiff =>
        refine h.covered hkey' hcell' ?_
        -- between the old cursor and the new one there is no object but the new one
        by_contra hbeyond
        have hback := hleast _ _ (Mib.cell_eq_some.1 hcell').2 (not_le.1 hbeyond)
        have heq : call.base key' ++ index = call.base key' ++ index' :=
          hoid.symm.trans (le_antisymm hback hle)
        exact hdiff ⟨List.append_cancel_left heq, rfl⟩
    · rw [if_neg fun hsame ↦ heq hsame.2.symm]
      rw [hmoved heq] at hle
      exact h.covered hkey' hcell' hle
  · have hdiff : key' ≠ key := by
      rintro rfl
      exact hopen hshut
    rw [hmoved hdiff]
    exact h.ended hcomplete key' hkey' hshut

/-- A column that has ended is closed. -/
theorem Reads.shut {m : Mib} {call : WalkCall κ σ} {shut shut' : κ → Prop} {w : Walker κ}
    (h : Reads m call shut w)
    (hnew : w.complete = true → ∀ key ∈ call.columns.keys, shut' key → ¬ shut key →
      m.EndedAfter (call.base key) (w.cursor key)) : Reads m call shut' w where
  part := h.part
  under := h.under
  covered := h.covered
  ended := by
    intro hcomplete key hkey hshut
    by_cases hold : shut key
    · exact h.ended hcomplete key hkey hold
    · exact hnew hcomplete key hkey hshut hold

/-! ### One binding -/

/-- The budget that a walk counts its rows against. -/
def WalkCall.cap (call : WalkCall κ σ) : Option (BudgetRef σ) :=
  if call.capRows then call.budget else none

/-- What writing a cell does. -/
inductive CellMove (call : WalkCall κ σ) (index : Oid) (key : κ) (text : String)
    (t t' : Taken κ σ) : Prop
  /-- The row is there, and has a cell more. -/
  | old (row : Dict κ String) (hrow : t.walker.rows.get? index = some row)
      (h : t' = { t with walker := t.walker.write index row key text })
  /-- The row is new, and counts where rows are capped. -/
  | new (s : σ) (hrow : t.walker.rows.get? index = none)
      (hst : call.cap = none ∧ s = t.st ∨ ∃ ref ∈ call.cap, (ref.get t.st).rowsLeft ≠ 0 ∧
        s = ref.modify WalkBudget.takeRow t.st)
      (h : t' = { t with walker := t.walker.write index Dict.empty key text, st := s })
  /-- The row would be new, and the allowance is spent. -/
  | cut (ref : BudgetRef σ) (hcap : ref ∈ call.cap) (hrow : t.walker.rows.get? index = none)
      (hleft : (ref.get t.st).rowsLeft = 0) (h : t' = { t with cut := true })

/-- What a cell does to the walk: it is set, or the rows ran out. -/
theorem Taken.cell_move (call : WalkCall κ σ) (index : Oid) (key : κ) (text : String)
    (t : Taken κ σ) : CellMove call index key text t (t.cell call index key text) := by
  rw [Taken.cell]
  rcases hrow : t.walker.rows.get? index with - | row
  · dsimp only
    rcases hbudget : call.budget with - | ref <;> rcases hcap : call.capRows with - | -
    · exact .new t.st hrow (.inl ⟨by simp [WalkCall.cap, hcap], rfl⟩) rfl
    · exact .new t.st hrow (.inl ⟨by simp [WalkCall.cap, hbudget], rfl⟩) rfl
    · exact .new t.st hrow (.inl ⟨by simp [WalkCall.cap, hcap], rfl⟩) rfl
    · have href : ref ∈ call.cap := by simp [WalkCall.cap, hcap, hbudget]
      dsimp only
      split
      case isTrue hleft => exact .cut ref href hrow hleft rfl
      case isFalse hleft => exact .new _ hrow (.inr ⟨ref, href, hleft, rfl⟩) rfl
  · exact .old row hrow rfl

/-- The response so far, with each open column where the agent's answer is. -/
structure InStep (m : Mib) (call : WalkCall κ σ) (at_ : ℕ → Option Oid) (t : Taken κ σ) : Prop where
  /-- What the walk keeps. -/
  reads : Reads m call (fun key ↦ key ∉ t.walker.active ∨ key ∈ t.done) t.walker
  /-- The agent's answer to an open column goes on where its cursor is. -/
  aligned : ∀ {p key}, t.walker.active[p]? = some key → key ∉ t.done →
    at_ p = some (t.walker.cursor key)
  /-- No column is open twice. -/
  nodup : t.walker.active.Nodup
  /-- The open columns are the walk's. -/
  keys : ∀ key ∈ t.walker.active, key ∈ call.columns.keys
  /-- The walk was not cut. -/
  uncut : t.cut = false

/-- What a binding of an open column does, when it follows what the agent keeps. -/
inductive BindingMove (m : Mib) (call : WalkCall κ σ) (stuck : Prop) (key : κ)
    (after : Option Oid) (t t' : Taken κ σ) : Prop
  /-- The column is to be closed, and the rest of it is not looked at. -/
  | skip (hdone : key ∈ t.done) (h : t' = t)
  /-- The column is over. -/
  | ended (hdone : key ∉ t.done) (hover : m.EndedAfter (call.base key) (t.walker.cursor key))
      (h : t' = { t with done := key :: t.done })
  /-- The agent has gone back, if it does so at all. -/
  | halted (hstuck : stuck) (hdone : key ∉ t.done) (error : String)
      (h : t' = { t with
        walker := { t.walker with complete := false, error := error }
        done := key :: t.done })
  /-- The next cell of the column. -/
  | next (hdone : key ∉ t.done) (e : Oid × String) (hnext : m.next (t.walker.cursor key) = some e)
      (index : Oid) (hindex : indexIn (call.base key) e.1 = some index) (hafter : after = some e.1)
      (h : CellMove call index key e.2 { t with walker := t.walker.moveTo key e.1 } t')

/-- What a binding does to it: a cell, the end of its column, or nothing that a sound reply would
hold. -/
theorem Taken.binding_move {m : Mib} {call : WalkCall κ σ} {stuck : Prop} {at_ : ℕ → Option Oid}
    {t : Taken κ σ} (ht : InStep m call at_ t) {p : ℕ} {key : κ}
    (hp : t.walker.active[p]? = some key) {b : Binding} {after : Option Oid}
    (hfollows : Follows m call.bases stuck (at_ p) b after) :
    BindingMove m call stuck key after t (t.binding call key b) := by
  rw [Taken.binding]
  by_cases hdone : key ∈ t.done
  · rw [if_pos hdone]
    exact .skip hdone rfl
  rw [if_neg hdone]
  rw [ht.aligned hp hdone] at hfollows
  have hkey := ht.keys key (List.mem_of_getElem? hp)
  have hunder := ht.reads.under key
  rcases hfollows with ⟨e, hnext, rfl, hafter⟩ | ⟨hnext, hend, -⟩ |
    ⟨hstuck, ⟨text, htext⟩, hle, hcolumn, -⟩
  · have hlt := (Mib.next_eq_some hnext).1
    simp only [Value.text?]
    rcases hindex : indexIn (call.base key) e.1 with - | index
    · exact .ended hdone (Mib.endedAfter_of_next hunder hnext hindex) rfl
    · simp only [if_neg (not_le.2 hlt)]
      exact .next hdone e hnext index hindex hafter (Taken.cell_move ..)
  · rw [hend]
    exact .ended hdone (Mib.endedAfter_of_next_eq_none hnext) rfl
  · obtain ⟨index, hindex⟩ := Option.ne_none_iff_exists'.1
      (hcolumn _ (WalkCall.base_mem hkey) hunder)
    simp only [htext, Value.text?, hindex, if_pos hle]
    exact .halted hstuck hdone _ rfl

/-! ### What a binding keeps -/

/-- The state of a walk that has only counted its rows against the cap. -/
structure Charged (call : WalkCall κ σ) (s₀ s : σ) (rows : Rows κ) : Prop where
  /-- Without a cap nothing is counted. -/
  alone : call.cap = none → s = s₀
  /-- With one only the allowance has changed. -/
  only : ∀ ref ∈ call.cap, s = ref.set { ref.get s₀ with rowsLeft := (ref.get s).rowsLeft } s₀
  /-- By one for each row. -/
  count : ∀ ref ∈ call.cap, (ref.get s).rowsLeft + rows.items.length = (ref.get s₀).rowsLeft

/-- The row cap is spent, and the agent has a row the walk has not. -/
def Spent (m : Mib) (call : WalkCall κ σ) (s : σ) (rows : Rows κ) : Prop :=
  ∃ ref ∈ call.cap, (ref.get s).rowsLeft = 0 ∧
    ∃ key ∈ call.columns.keys, ∃ index text, m.cell (call.base key) index = some text ∧
      rows.get? index = none

theorem charged_start (call : WalkCall κ σ) (s : σ) : Charged call s s (Dict.empty : Rows κ) where
  alone := fun _ ↦ rfl
  only := fun ref _ ↦ (ref.set_get s).symm
  count := fun _ _ ↦ rfl

variable {m : Mib} {call : WalkCall κ σ} {stuck : Prop} {t t' : Taken κ σ} {key : κ}
  {after : Option Oid}

/-- The bindings of a response leave the request's part of the variables alone. -/
theorem BindingMove.frame (h : BindingMove m call stuck key after t t') :
    t'.walker.active = t.walker.active ∧ t'.walker.maxRep = t.walker.maxRep := by
  cases h with
  | skip _ h | ended _ _ h | halted _ _ _ h => exact h ▸ ⟨rfl, rfl⟩
  | next _ e _ index _ _ h =>
    cases h with
    | old row _ h => exact h ▸ ⟨rfl, rfl⟩
    | new s _ _ h => exact h ▸ ⟨rfl, rfl⟩
    | cut ref _ _ _ h => exact h ▸ ⟨rfl, rfl⟩

/-- Only what does not follow makes a walk incomplete. -/
theorem BindingMove.complete (h : BindingMove m call stuck key after t t') (hstuck : ¬ stuck) :
    t'.walker.complete = t.walker.complete := by
  cases h with
  | skip _ h | ended _ _ h => rw [h]
  | halted hyes => exact absurd hyes hstuck
  | next _ e _ index _ _ h =>
    cases h with
    | old row _ h => exact h ▸ rfl
    | new s _ _ h => exact h ▸ rfl
    | cut ref _ _ _ h => exact h ▸ rfl

/-- The cursor of the column is behind what was read of it. -/
theorem BindingMove.inStep {at_ : ℕ → Option Oid} {p : ℕ} (ht : InStep m call at_ t)
    (hp : t.walker.active[p]? = some key) (h : BindingMove m call stuck key after t t')
    (huncut : t'.cut = false) : InStep m call (Function.update at_ p after) t' := by
  have hkey := ht.keys key (List.mem_of_getElem? hp)
  -- the other open columns stand at other positions
  have hother : ∀ {p' key'}, t.walker.active[p']? = some key' → key' ≠ key →
      Function.update at_ p after p' = at_ p' := by
    intro p' key' hp' hne
    refine Function.update_of_ne ?_ ..
    rintro rfl
    exact hne (Option.some.inj (hp'.symm.trans hp))
  have hclose : ∀ {w : Walker κ}, Reads m call (fun k ↦ k ∉ t.walker.active ∨ k ∈ key :: t.done) w →
      w.active = t.walker.active → w.cursor = t.walker.cursor →
      InStep m call (Function.update at_ p after)
        { t with walker := w, done := key :: t.done } := by
    intro w hreads hactive hcursor
    refine ⟨hactive ▸ hreads, fun {p' key'} hp' hdone' ↦ ?_, hactive ▸ ht.nodup,
      hactive ▸ ht.keys, ht.uncut⟩
    rw [hactive] at hp'
    rw [List.mem_cons, not_or] at hdone'
    rw [hother hp' hdone'.1, hcursor]
    exact ht.aligned hp' hdone'.2
  cases h with
  | skip hdone h =>
    subst h
    refine ⟨ht.reads, fun {p' key'} hp' hdone' ↦ ?_, ht.nodup, ht.keys, ht.uncut⟩
    rw [hother hp' fun heq ↦ hdone' (heq ▸ hdone)]
    exact ht.aligned hp' hdone'
  | ended hdone hover h =>
    subst h
    refine hclose (ht.reads.shut ?_) rfl rfl
    intro _ key' hkey' hshut hopen
    rw [not_or] at hopen
    rcases hshut with hshut | hshut
    · exact absurd hshut hopen.1
    · rcases List.mem_cons.1 hshut with rfl | hshut
      · exact hover
      · exact absurd hshut hopen.2
  | halted _ hdone error h =>
    subst h
    refine hclose ⟨ht.reads.part, ht.reads.under, ht.reads.covered, fun hcomplete ↦ ?_⟩ rfl rfl
    cases hcomplete
  | next hdone e hnext index hindex hafter h =>
    subst hafter
    have hopen : ¬ (key ∉ t.walker.active ∨ key ∈ t.done) := by
      rw [not_or, not_not]
      exact ⟨List.mem_of_getElem? hp, hdone⟩
    have hmoved : ∀ {row s}, RowAt t.walker.rows index row →
        InStep m call (Function.update at_ p (some e.1))
          { t with walker := (t.walker.moveTo key e.1).write index row key e.2, st := s } := by
      intro row s hrow
      refine ⟨ht.reads.advance hkey hopen hnext hindex hrow, fun {p' key'} hp' hdone' ↦ ?_,
        ht.nodup, ht.keys, ht.uncut⟩
      show _ = some (Function.update t.walker.cursor key e.1 key')
      by_cases heq : key' = key
      · subst heq
        obtain rfl := (List.getElem?_inj (List.getElem?_eq_some_iff.1 hp).1 ht.nodup).1
          (hp.trans hp'.symm)
        rw [Function.update_self, Function.update_self]
      · rw [hother hp' heq, Function.update_of_ne heq]
        exact ht.aligned hp' hdone'
    cases h with
    | old row hrow h => exact h ▸ hmoved (.inl hrow)
    | new s hrow _ h => exact h ▸ hmoved (.inr ⟨hrow, rfl⟩)
    | cut ref _ _ _ h =>
      rw [h] at huncut
      cases huncut

/-- What was read is a part of the agent's table. -/
theorem BindingMove.partOf {at_ : ℕ → Option Oid} {p : ℕ} (ht : InStep m call at_ t)
    (hp : t.walker.active[p]? = some key) (h : BindingMove m call stuck key after t t') :
    PartOf m call t'.walker.rows := by
  rcases hcut : t'.cut with - | -
  · exact (h.inStep ht hp hcut).reads.part
  · cases h with
    | skip _ h | ended _ _ h | halted _ _ _ h => exact h ▸ ht.reads.part
    | next _ e _ index _ _ h =>
      cases h with
      | old row _ h | new s _ _ h =>
        rw [h] at hcut
        exact absurd (ht.uncut.symm.trans hcut) Bool.false_ne_true
      | cut ref _ _ _ h => exact h ▸ ht.reads.part

/-- A walk is cut off only where the allowance is spent. -/
theorem BindingMove.spent {at_ : ℕ → Option Oid} {p : ℕ} (ht : InStep m call at_ t)
    (hp : t.walker.active[p]? = some key) (h : BindingMove m call stuck key after t t')
    (hcut : t'.cut = true) : Spent m call t'.st t'.walker.rows := by
  have huncut : t'.cut = t.cut → False := fun heq ↦ by
    rw [heq, ht.uncut] at hcut
    cases hcut
  cases h with
  | skip _ h | ended _ _ h | halted _ _ _ h => exact (huncut (h ▸ rfl)).elim
  | next _ e hnext index hindex _ h =>
    cases h with
    | old row _ h | new s _ _ h => exact (huncut (h ▸ rfl)).elim
    | cut ref hcap hrow hleft h =>
      obtain ⟨hoid, hne⟩ := indexIn_eq_some.1 hindex
      have hval := (Mib.next_eq_some hnext).2.1
      subst h
      exact ⟨ref, hcap, hleft, key, ht.keys key (List.mem_of_getElem? hp), index, e.2,
        Mib.cell_eq_some.2 ⟨hne, hoid ▸ hval⟩, hrow⟩

theorem BindingMove.charged {s₀ : σ} (h : BindingMove m call stuck key after t t')
    (hc : Charged call s₀ t.st t.walker.rows) : Charged call s₀ t'.st t'.walker.rows := by
  cases h with
  | skip _ h | ended _ _ h | halted _ _ _ h => exact h ▸ hc
  | next _ e _ index _ _ h =>
    cases h with
    | old row hrow h =>
      subst h
      refine ⟨hc.alone, hc.only, fun ref href ↦ ?_⟩
      have hmem : index ∈ t.walker.rows.keys := Dict.mem_keys_iff.2 ⟨row, hrow⟩
      exact (congrArg _ (Dict.length_set_of_mem hmem _)).trans (hc.count ref href)
    | new s hrow hst h =>
      subst h
      rcases hst with ⟨hnone, rfl⟩ | ⟨ref, href, hleft, rfl⟩
      · refine ⟨hc.alone, hc.only, fun ref href ↦ ?_⟩
        rw [hnone] at href
        cases href
      · have hlen : ((t.walker.moveTo key e.1).write index Dict.empty key e.2).rows.items.length =
            t.walker.rows.items.length + 1 :=
          Dict.length_set_of_not_mem (Dict.get?_eq_none_iff.1 hrow) _
        refine ⟨fun hnone ↦ ?_, fun ref' href' ↦ ?_, fun ref' href' ↦ ?_⟩
        · rw [hnone] at href
          cases href
        · obtain rfl := Option.some.inj (href'.symm.trans href)
          dsimp only
          rw [BudgetRef.modify, hc.only ref' href, ref'.set_set, ref'.get_set, ref'.get_set]
          rfl
        · obtain rfl := Option.some.inj (href'.symm.trans href)
          have hcount := hc.count ref' href
          have hleft' : (ref'.get t.st).rowsLeft ≠ 0 := hleft
          dsimp only
          rw [hlen, BudgetRef.modify, ref'.get_set]
          show (ref'.get t.st).rowsLeft - 1 + (t.walker.rows.items.length + 1) = _
          omega
    | cut ref _ _ _ h => exact h ▸ hc

/-! ### What is still ahead -/

/-- The number of objects behind an OID. -/
def Mib.ahead (m : Mib) (oid : Oid) : ℕ :=
  (m.entries.filter fun e ↦ decide (oid < e.1)).length

theorem Mib.ahead_lt {oid : Oid} {e : Oid × String} (h : m.next oid = some e) :
    m.ahead e.1 < m.ahead oid := by
  obtain ⟨hlt, hval, -⟩ := Mib.next_eq_some h
  have hsub : (m.entries.filter fun e' ↦ decide (e.1 < e'.1)) =
      (m.entries.filter fun e' ↦ decide (oid < e'.1)).filter fun e' ↦ decide (e.1 < e'.1) := by
    rw [List.filter_filter]
    refine List.filter_congr fun e' _ ↦ ?_
    rw [Bool.eq_iff_iff, Bool.and_eq_true, decide_eq_true_eq, decide_eq_true_eq]
    exact ⟨fun h' ↦ ⟨h', hlt.trans h'⟩, And.left⟩
  rw [ahead, hsub, ahead, List.length_filter_lt_length_iff_exists]
  refine ⟨e, List.mem_filter.2 ⟨Mib.mem_iff.2 hval, decide_eq_true hlt⟩, ?_⟩
  rw [decide_eq_true_eq]
  exact lt_irrefl _

/-- What the open columns of a response still have ahead, and the columns themselves. -/
def Taken.weight (m : Mib) (t : Taken κ σ) : ℕ :=
  ∑ key ∈ t.walker.active.toFinset.filter (· ∉ t.done), (m.ahead (t.walker.cursor key) + 1)

/-- A binding of a column that is open brings the end nearer. -/
theorem BindingMove.weight_lt (h : BindingMove m call stuck key after t t')
    (huncut : t'.cut = false)
    (hkey : key ∈ t.walker.active) (hopen : key ∉ t.done) : t'.weight m < t.weight m := by
  have hmem : key ∈ t.walker.active.toFinset.filter (· ∉ t.done) :=
    Finset.mem_filter.2 ⟨List.mem_toFinset.2 hkey, hopen⟩
  -- a column that is closed drops out of the sum, one that goes on has less ahead
  have hclosed : ∀ w : Walker κ, w.active = t.walker.active → w.cursor = t.walker.cursor →
      Taken.weight m { t with walker := w, done := key :: t.done } < t.weight m := by
    intro w hactive hcursor
    rw [Taken.weight]
    dsimp only
    rw [hactive, hcursor]
    refine Finset.sum_lt_sum_of_subset (fun key' hkey' ↦ ?_) hmem ?_ (Nat.succ_pos _)
      fun _ _ _ ↦ Nat.zero_le _
    · rw [Finset.mem_filter, List.mem_cons, not_or] at hkey'
      exact Finset.mem_filter.2 ⟨hkey'.1, hkey'.2.2⟩
    · rw [Finset.mem_filter, List.mem_cons, not_or]
      exact fun hno ↦ hno.2.1 rfl
  cases h with
  | skip hdone => exact absurd hdone hopen
  | ended _ _ h => exact h ▸ hclosed _ rfl rfl
  | halted _ _ error h => exact h ▸ hclosed _ rfl rfl
  | next _ e hnext index _ _ h =>
    have hmoved : ∀ (row : Dict κ String) (s : σ), Taken.weight m
        { t with walker := (t.walker.moveTo key e.1).write index row key e.2, st := s } <
          t.weight m := by
      intro row s
      refine Finset.sum_lt_sum (fun key' _ ↦ ?_) ⟨key, hmem, ?_⟩
      · show m.ahead (Function.update t.walker.cursor key e.1 key') + 1 ≤ _
        rcases eq_or_ne key' key with rfl | hne
        · rw [Function.update_self]
          exact Nat.succ_le_succ (Mib.ahead_lt hnext).le
        · rw [Function.update_of_ne hne]
      · show m.ahead (Function.update t.walker.cursor key e.1 key) + 1 < _
        rw [Function.update_self]
        exact Nat.succ_lt_succ (Mib.ahead_lt hnext)
    cases h with
    | old row _ h => exact h ▸ hmoved row t.st
    | new s _ _ h => exact h ▸ hmoved Dict.empty s
    | cut ref _ _ _ h =>
      rw [h] at huncut
      cases huncut

theorem BindingMove.weight_le (h : BindingMove m call stuck key after t t')
    (huncut : t'.cut = false)
    (hkey : key ∈ t.walker.active) : t'.weight m ≤ t.weight m := by
  rcases Decidable.em (key ∈ t.done) with hdone | hopen
  · cases h with
    | skip _ h => rw [h]
    | ended hno | halted _ hno | next hno => exact absurd hdone hno
  · exact (h.weight_lt huncut hkey hopen).le

/-! ### The whole response -/

/-- What the loop over a response brings about. -/
structure Takes (m : Mib) (call : WalkCall κ σ) (stuck : Prop) (t t' : Taken κ σ) : Prop where
  /-- The columns are closed behind it. -/
  active : t'.walker.active = t.walker.active
  /-- No fewer rows are asked for. -/
  maxRep : t'.walker.maxRep = t.walker.maxRep
  /-- The agent has not gone back. -/
  complete : ¬ stuck → t'.walker.complete = t.walker.complete
  /-- What was read is there. -/
  part : PartOf m call t'.walker.rows
  /-- Without a cut every open column stands where the agent's answer ends. -/
  open_ : t'.cut = false → ∃ at_, InStep m call at_ t'
  /-- A cut comes with the allowance spent, and a row more. -/
  spent : t'.cut = true → Spent m call t'.st t'.walker.rows
  /-- Each new row was counted. -/
  charged : ∀ {s₀}, Charged call s₀ t.st t.walker.rows → Charged call s₀ t'.st t'.walker.rows
  /-- What is ahead has not become more. -/
  weight : t'.cut = false → t'.weight m ≤ t.weight m

/-- The spec lemma of a response: by induction on its bindings, in the order of the active columns,
over what one binding keeps. -/
theorem Taken.bindings_spec {at_ : ℕ → Option Oid} {i : ℕ} {bs : List Binding} {t : Taken κ σ}
    (ht : InStep m call at_ t)
    (hgives : Gives m call.bases stuck t.walker.active.length at_ i bs) :
    Takes m call stuck t (t.bindings call t.walker.active i bs) := by
  induction bs generalizing at_ i t with
  | nil =>
    exact ⟨rfl, rfl, fun _ ↦ rfl, ht.reads.part, fun _ ↦ ⟨at_, ht⟩,
      fun hcut ↦ absurd (ht.uncut.symm.trans hcut) Bool.false_ne_true, id, fun _ ↦ le_rfl⟩
  | cons b bs ih =>
    obtain ⟨after, hfollows, hrest⟩ := hgives
    rw [Taken.bindings]
    rcases hp : t.walker.active[i % t.walker.active.length]? with - | key
    · exact ⟨rfl, rfl, fun _ ↦ rfl, ht.reads.part, fun _ ↦ ⟨at_, ht⟩,
        fun hcut ↦ absurd (ht.uncut.symm.trans hcut) Bool.false_ne_true, id, fun _ ↦ le_rfl⟩
    · have hmove := Taken.binding_move ht hp hfollows
      have hactive := hmove.frame.1
      dsimp only
      rcases hcut : (t.binding call key b).cut with - | -
      · rw [if_neg Bool.false_ne_true]
        have ht' := hmove.inStep ht hp hcut
        have hih := ih ht' (by rw [hactive]; exact hrest)
        rw [hactive] at hih
        exact ⟨hih.active.trans hactive, hih.maxRep.trans hmove.frame.2,
          fun hno ↦ (hih.complete hno).trans (hmove.complete hno), hih.part, hih.open_, hih.spent,
          fun hc ↦ hih.charged (hmove.charged hc),
          fun hno ↦ (hih.weight hno).trans (hmove.weight_le hcut (List.mem_of_getElem? hp))⟩
      · rw [if_pos rfl]
        exact ⟨hactive, hmove.frame.2, hmove.complete, hmove.partOf ht hp,
          fun hno ↦ absurd (hno.symm.trans hcut) Bool.false_ne_true,
          fun _ ↦ hmove.spent ht hp hcut, hmove.charged,
          fun hno ↦ absurd (hno.symm.trans hcut) Bool.false_ne_true⟩

/-- A response with a binding in it brings the end nearer. -/
theorem Taken.weight_bindings_lt {at_ : ℕ → Option Oid} {b : Binding} {bs : List Binding}
    {t : Taken κ σ} (ht : InStep m call at_ t) (hopen : t.done = [])
    (hactive : t.walker.active ≠ [])
    (hgives : Gives m call.bases stuck t.walker.active.length at_ 0 (b :: bs))
    (huncut : (t.bindings call t.walker.active 0 (b :: bs)).cut = false) :
    (t.bindings call t.walker.active 0 (b :: bs)).weight m < t.weight m := by
  obtain ⟨after, hfollows, hrest⟩ := hgives
  obtain ⟨key, rest, hlist⟩ := List.exists_cons_of_ne_nil hactive
  have hp : t.walker.active[0 % t.walker.active.length]? = some key := by
    rw [Nat.zero_mod, hlist]
    rfl
  have hmove := Taken.binding_move ht hp hfollows
  rw [Taken.bindings, hp] at huncut ⊢
  dsimp only at huncut ⊢
  rcases hcut : (t.binding call key b).cut with - | -
  · rw [hcut, if_neg Bool.false_ne_true] at huncut
    rw [if_neg Bool.false_ne_true]
    have hspec := Taken.bindings_spec (hmove.inStep ht hp hcut)
      (by rw [hmove.frame.1]; exact hrest)
    rw [hmove.frame.1] at hspec
    have hlt := hmove.weight_lt hcut (List.mem_of_getElem? hp)
        (by rw [hopen]; exact List.not_mem_nil)
    exact (hspec.weight huncut).trans_lt hlt
  · rw [hcut, if_pos rfl, hcut] at huncut
    cases huncut

end Snmp
