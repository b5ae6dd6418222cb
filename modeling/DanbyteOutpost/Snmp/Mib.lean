import DanbyteOutpost.Data.Dict
import DanbyteOutpost.Snmp.Walk
import Mathlib.Order.Lattice

/-!
# Agents and the tables they keep

A `Mib` is what an agent would answer with: objects in the order of their OIDs. A column of it is a
partial function from indexes to texts (`Mib.cell`).

`Conforms` is an agent that answers as the protocol allows: each binding of a GETBULK response is
the successor of the OID before it in its column, row by row over the columns asked for, and the
response may stop after any binding. `Faulty` are the replies that are no answer, of which the walk
has to make the best.

## The order of OIDs

Everything rests on `Mib` being sorted: what comes next behind an OID is the first object behind
it (`next_eq_some`), the objects of a column are together (`prefix_of_between`), and a column has
ended where what comes next is outside it (`EndedAfter`).

`Agent.serve` is an agent that answers with one row at a time, and `Agent.serveOne` one that
answers with a single binding; both conform. A reply that conforms to more columns conforms to
fewer (`Conforms.anti`).
-/

namespace Snmp

/-! ### OIDs under a column -/

/-- What lies under a column is behind it, by at least one part. -/
theorem indexIn_eq_some {base oid index : Oid} :
    indexIn base oid = some index ↔ oid = base ++ index ∧ index ≠ [] := by
  rw [indexIn]
  constructor
  · intro h
    split at h
    case isTrue hpre =>
      obtain ⟨⟨tail, rfl⟩, hne⟩ := hpre
      rw [List.drop_left, Option.some.injEq] at h
      subst h
      refine ⟨rfl, fun hnil ↦ hne ?_⟩
      rw [hnil, List.append_nil]
    case isFalse => cases h
  · rintro ⟨rfl, hne⟩
    rw [if_pos ⟨List.prefix_append _ _, fun h ↦ hne (List.self_eq_append_right.1 h)⟩,
      List.drop_left]

/-- The order of OIDs is that of their first parts, and then of the rest. -/
theorem cons_le_cons_iff {a b : ℕ} {l l' : Oid} : a :: l ≤ b :: l' ↔ a < b ∨ a = b ∧ l ≤ l' := by
  rw [← not_lt, ← not_lt, List.cons_lt_cons_iff]
  have h := lt_trichotomy a b
  constructor
  · intro hno
    rw [not_or] at hno
    rcases h with h | h | h
    · exact .inl h
    · exact .inr ⟨h, fun hl ↦ hno.2 ⟨h.symm, hl⟩⟩
    · exact absurd h hno.1
  · rintro (hlt | ⟨rfl, hl⟩) (hlt' | ⟨heq, hl'⟩)
    · omega
    · omega
    · omega
    · exact hl hl'

theorem le_of_isPrefix {base oid : Oid} (h : base <+: oid) : base ≤ oid := by
  obtain ⟨tail, rfl⟩ := h
  induction base with
  | nil => exact not_lt.1 (List.not_lt_nil _)
  | cons a base ih => exact cons_le_cons_iff.2 (.inr ⟨rfl, ih⟩)

/-- What lies between a column's OID and an OID of the column is of the column. -/
theorem prefix_of_between {base e x : Oid} (hx : base <+: x) (hbe : base ≤ e) (hex : e ≤ x) :
    base <+: e := by
  induction base generalizing e x with
  | nil => exact List.nil_prefix
  | cons a base ih =>
    obtain ⟨tail, rfl⟩ := hx
    rcases e with - | ⟨c, e⟩
    · exact absurd (lt_of_lt_of_le (List.nil_lt_cons a base) hbe) (lt_irrefl _)
    · rw [cons_le_cons_iff] at hbe
      rw [List.cons_append, cons_le_cons_iff] at hex
      rcases hbe with hac | ⟨rfl, hbase⟩
      · rcases hex with hca | ⟨rfl, -⟩ <;> omega
      · rcases hex with hca | ⟨-, htail⟩
        · exact absurd hca (lt_irrefl _)
        · rw [List.cons_prefix_cons]
          exact ⟨rfl, ih (List.prefix_append _ _) hbase htail⟩

theorem lt_append_of_ne_nil {base index : Oid} (h : index ≠ []) : base < base ++ index := by
  obtain ⟨a, rest, rfl⟩ := List.exists_cons_of_ne_nil h
  have hlt : base ++ [] < base ++ a :: rest := List.append_left_lt (List.nil_lt_cons a rest)
  rwa [List.append_nil] at hlt

/-! ### What an agent keeps -/

/-- The objects of an agent, in the order of their OIDs. -/
structure Mib where
  /-- The objects, each with its value as text. -/
  entries : List (Oid × String)
  /-- No OID is there twice. -/
  sorted : (entries.map Prod.fst).Pairwise (· < ·)

/-- What an agent keeps for each set of credentials and context. -/
abbrev Agent := Access → Mib

namespace Mib

variable (m : Mib)

theorem nodup : (m.entries.map Prod.fst).Nodup :=
  m.sorted.imp fun h ↦ ne_of_lt h

/-- The text of an object. -/
def value (oid : Oid) : Option String := Assoc.get? oid m.entries

/-- The first object behind an OID. -/
def next (oid : Oid) : Option (Oid × String) := m.entries.find? fun e ↦ decide (oid < e.1)

/-- The text in the column `base` at `index`. -/
def cell (base index : Oid) : Option String := if index = [] then none else m.value (base ++ index)

variable {m}

/-- The objects are what their OIDs answer. -/
theorem mem_iff {oid : Oid} {text : String} :
    (oid, text) ∈ m.entries ↔ m.value oid = some text :=
  Assoc.mem_iff_get? m.nodup

/-- A cell is the object behind its column. -/
theorem cell_eq_some {base index : Oid} {text : String} :
    m.cell base index = some text ↔ index ≠ [] ∧ m.value (base ++ index) = some text := by
  rw [cell]
  split <;> simp [*]

/-- What comes next is the first object behind. -/
theorem next_eq_some {oid : Oid} {e : Oid × String} (h : m.next oid = some e) :
    oid < e.1 ∧ m.value e.1 = some e.2 ∧
      ∀ oid' text, m.value oid' = some text → oid < oid' → e.1 ≤ oid' := by
  obtain ⟨hlt, before, after, hsplit, hbefore⟩ := List.find?_eq_some_iff_append.1 h
  have hlt : oid < e.1 := of_decide_eq_true hlt
  refine ⟨hlt, mem_iff.1 (by rw [hsplit]; simp), fun oid' text hval hlt' ↦ ?_⟩
  have hmem : (oid', text) ∈ m.entries := mem_iff.2 hval
  have hsorted := m.sorted
  rw [hsplit] at hmem hsorted
  rw [List.map_append, List.map_cons, List.pairwise_append, List.pairwise_cons] at hsorted
  rcases List.mem_append.1 hmem with hmem | hmem
  · have hno := hbefore _ hmem
    rw [Bool.not_eq_true', decide_eq_false_iff_not] at hno
    exact absurd hlt' hno
  · rcases List.mem_cons.1 hmem with heq | hmem
    · exact (congrArg Prod.fst heq).ge
    · exact (hsorted.2.1.1 oid' (List.mem_map_of_mem hmem)).le

theorem next_eq_none {oid : Oid} (h : m.next oid = none) {oid' : Oid} {text : String}
    (hval : m.value oid' = some text) : oid' ≤ oid := by
  have hno := List.find?_eq_none.1 h _ (mem_iff.2 hval)
  rw [decide_eq_true_eq] at hno
  exact not_lt.1 hno

/-- The rows of the column `base`. -/
def column (m : Mib) (base : Oid) : List (Oid × String) :=
  m.entries.filterMap fun e ↦ (indexIn base e.1).map (·, e.2)

theorem mem_column {base index : Oid} {text : String} :
    (index, text) ∈ m.column base ↔ m.cell base index = some text := by
  rw [column, List.mem_filterMap, cell_eq_some]
  constructor
  · rintro ⟨e, he, hsome⟩
    obtain ⟨index', hindex, heq⟩ := Option.map_eq_some_iff.1 hsome
    obtain ⟨rfl, rfl⟩ := Prod.mk.inj heq
    obtain ⟨hoid, hne⟩ := indexIn_eq_some.1 hindex
    exact ⟨hne, hoid ▸ mem_iff.1 he⟩
  · rintro ⟨hne, hval⟩
    exact ⟨_, mem_iff.2 hval, Option.map_eq_some_iff.2 ⟨index, indexIn_eq_some.2 ⟨rfl, hne⟩, rfl⟩⟩

/-- The column `base` has nothing behind `oid`. -/
def EndedAfter (m : Mib) (base oid : Oid) : Prop :=
  ∀ index text, m.cell base index = some text → base ++ index ≤ oid

/-- At the end of the agent's objects, every column has ended. -/
theorem endedAfter_of_next_eq_none {base oid : Oid} (h : m.next oid = none) :
    m.EndedAfter base oid :=
  fun _ _ hcell ↦ next_eq_none h (cell_eq_some.1 hcell).2

/-- A column is over when the next object is not of it. -/
theorem endedAfter_of_next {base oid : Oid} {e : Oid × String} (hbase : base <+: oid)
    (h : m.next oid = some e) (he : indexIn base e.1 = none) : m.EndedAfter base oid := by
  obtain ⟨hlt, -, hleast⟩ := next_eq_some h
  intro index text hcell
  obtain ⟨hne, hval⟩ := cell_eq_some.1 hcell
  by_contra hle
  have hex : e.1 ≤ base ++ index := hleast _ _ hval (not_le.1 hle)
  have hbe : base ≤ e.1 := (le_of_isPrefix hbase).trans hlt.le
  obtain ⟨tail, htail⟩ := prefix_of_between (List.prefix_append base index) hbe hex
  have htail_ne : tail ≠ [] := by
    rintro rfl
    rw [List.append_nil] at htail
    exact absurd (htail ▸ hlt) (not_lt.2 (le_of_isPrefix hbase))
  rw [indexIn_eq_some.2 ⟨htail.symm, htail_ne⟩] at he
  cases he

end Mib

/-! ### Agents that answer as they should -/

/-- The binding that follows the OID `oid?` in its column, and the OID the next one will follow.
With `stuck` the agent may also hand back an OID of the column it gave before. What comes after the
end of the MIB, or after such a binding, is not looked at. -/
def Follows (m : Mib) (columns : List Oid) (stuck : Prop) :
    Option Oid → Binding → Option Oid → Prop
  | none, _, after => after = none
  | some oid, b, after =>
    (∃ e, m.next oid = some e ∧ b = ⟨e.1, .object e.2⟩ ∧ after = some e.1) ∨
      (m.next oid = none ∧ b.value = .endOfMibView ∧ after = none) ∨
      (stuck ∧ (∃ text, b.value = .object text) ∧ b.name ≤ oid ∧
        (∀ base ∈ columns, base <+: oid → indexIn base b.name ≠ none) ∧ after = none)

/-- The bindings from number `i` on: over `width` columns in turn, each follows the one before it in
its column. `at_` says which OID each column is at. -/
def Gives (m : Mib) (columns : List Oid) (stuck : Prop) (width : ℕ) :
    (ℕ → Option Oid) → ℕ → List Binding → Prop
  | _, _, [] => True
  | at_, i, b :: bs => ∃ after, Follows m columns stuck (at_ (i % width)) b after ∧
      Gives m columns stuck width (Function.update at_ (i % width) after) (i + 1) bs

/-- The bindings of a response to a request. -/
def Answers (agent : Agent) (columns : List Oid) (stuck : Prop) (q : Query)
    (binds : List Binding) : Prop :=
  Gives (agent q.access) columns stuck q.cursors.length (fun p ↦ q.cursors[p]?) 0 binds

/-- A reply of an agent that conforms: a part of the next rows of each column, with a binding in it
if there is a column; of SNMPv1, the number of a column that has ended; or that the response would
be too big. -/
inductive Conforms (agent : Agent) (columns : List Oid) (q : Query) : Reply → Prop
  /-- A part of what comes next. -/
  | rows (text : String) (index : ℤ) (binds : List Binding)
      (hne : q.cursors ≠ [] → binds ≠ [])
      (hgives : Answers agent columns False q binds) :
      Conforms agent columns q (.response none 0 text index binds)
  /-- An SNMPv1 agent's way to say that a column is over, which it has to be. -/
  | noSuchName (text : String) (index : ℤ) (binds : List Binding)
      (hindex : 1 ≤ index ∧ index ≤ q.cursors.length)
      (hended : ∀ oid ∈ q.cursors[(index - 1).toNat]?, ∀ base ∈ columns, base <+: oid →
        (agent q.access).EndedAfter base oid) :
      Conforms agent columns q (.response none 2 text index binds)
  /-- Which it may only say where fewer rows could be asked for. -/
  | tooBig (text : String) (index : ℤ) (binds : List Binding) (hmany : 1 < q.maxRep) :
      Conforms agent columns q (.response none 1 text index binds)

/-- A reply that is no answer: a timeout, an exception, an error indication, an error status the
walk cannot go on from, a response without bindings, and one that hands back an OID it already
gave. -/
inductive Faulty (agent : Agent) (columns : List Oid) (q : Query) : Reply → Prop
  /-- Nothing comes in time. -/
  | timedOut : Faulty agent columns q .timedOut
  /-- The library raises. -/
  | raised (text : String) : Faulty agent columns q (.raised text)
  /-- The library reports an error. -/
  | indication (e : ErrorIndication) (status : ℤ) (text : String) (index : ℤ)
      (binds : List Binding) :
      Faulty agent columns q (.response (some e) status text index binds)
  /-- The agent reports one, and not one of those that a walk has an answer to. -/
  | status (status : ℤ) (text : String) (index : ℤ) (binds : List Binding) (hstatus : status ≠ 0)
      (hname : ¬ (status = 2 ∧ 1 ≤ index ∧ index ≤ q.cursors.length))
      (hbig : ¬ (status = 1 ∧ 1 < q.maxRep)) :
      Faulty agent columns q (.response none status text index binds)
  /-- A response without bindings. -/
  | empty (text : String) (index : ℤ) : Faulty agent columns q (.response none 0 text index [])
  /-- A response that does not go on. -/
  | stuck (text : String) (index : ℤ) (binds : List Binding)
      (hgives : Answers agent columns True q binds) :
      Faulty agent columns q (.response none 0 text index binds)

/-! ### Fewer columns

What is said of an agent with many columns in view holds with fewer of them.
-/

section Anti

variable {m : Mib} {agent : Agent} {columns columns' : List Oid} (hsub : columns' ⊆ columns)
  {stuck : Prop} {q : Query} {r : Reply}

include hsub

/-- What follows in a set of columns follows in fewer of them. -/
theorem Follows.anti {oid? after : Option Oid} {b : Binding}
    (h : Follows m columns stuck oid? b after) : Follows m columns' stuck oid? b after := by
  cases oid? with
  | none => exact h
  | some oid =>
    refine h.imp_right (Or.imp_right ?_)
    rintro ⟨hstuck, htext, hle, hcolumn, hafter⟩
    exact ⟨hstuck, htext, hle, fun base hbase ↦ hcolumn base (hsub hbase), hafter⟩

theorem Gives.anti {width i : ℕ} {at_ : ℕ → Option Oid} {bs : List Binding}
    (h : Gives m columns stuck width at_ i bs) : Gives m columns' stuck width at_ i bs := by
  induction bs generalizing at_ i with
  | nil => trivial
  | cons b bs ih =>
    obtain ⟨after, hfollows, hrest⟩ := h
    exact ⟨after, hfollows.anti hsub, ih hrest⟩

/-- So a reply that conforms to more columns conforms to fewer. -/
theorem Conforms.anti (h : Conforms agent columns q r) : Conforms agent columns' q r := by
  cases h with
  | rows text index binds hne hgives => exact .rows text index binds hne (Gives.anti hsub hgives)
  | noSuchName text index binds hindex hended =>
    exact .noSuchName text index binds hindex fun oid hoid base hbase ↦
      hended oid hoid base (hsub hbase)
  | tooBig text index binds hmany => exact .tooBig text index binds hmany

theorem Faulty.anti (h : Faulty agent columns q r) : Faulty agent columns' q r := by
  cases h with
  | timedOut => exact .timedOut
  | raised text => exact .raised text
  | indication e status text index binds => exact .indication e status text index binds
  | status status text index binds hstatus hname hbig =>
    exact .status status text index binds hstatus hname hbig
  | empty text index => exact .empty text index
  | stuck text index binds hgives => exact .stuck text index binds (Gives.anti hsub hgives)

end Anti

/-! ### An agent that conforms -/

/-- What follows an OID, as a binding. -/
def Mib.after (m : Mib) (oid : Oid) : Binding :=
  match m.next oid with
  | some e => ⟨e.1, .object e.2⟩
  | none => ⟨oid, .endOfMibView⟩

/-- The agent that answers with one row at a time. -/
def Agent.serve (agent : Agent) (q : Query) : Reply :=
  .response none 0 "noError" 0 (q.cursors.map (agent q.access).after)

/-- The next objects behind the cursors are what a response is to give. -/
theorem Mib.gives_after (m : Mib) (columns : List Oid) (cursors : List Oid) {i : ℕ}
    {rest : List Oid} (hrest : cursors.drop i = rest) {at_ : ℕ → Option Oid}
    (hat : ∀ p, i ≤ p → at_ p = cursors[p]?) :
    Gives m columns False cursors.length at_ i (rest.map m.after) := by
  induction rest generalizing i at_ with
  | nil => trivial
  | cons oid rest ih =>
    have hlt : i < cursors.length := by
      by_contra hge
      rw [List.drop_of_length_le (not_lt.1 hge)] at hrest
      cases hrest
    rw [List.drop_eq_getElem_cons hlt, List.cons.injEq] at hrest
    have hhere : at_ (i % cursors.length) = some oid := by
      rw [Nat.mod_eq_of_lt hlt, hat i le_rfl, List.getElem?_eq_getElem hlt, hrest.1]
    have hafter : ∀ after, ∀ p, i + 1 ≤ p →
        Function.update at_ (i % cursors.length) after p = cursors[p]? := by
      intro after p hp
      rw [Nat.mod_eq_of_lt hlt, Function.update_of_ne (by omega), hat p (by omega)]
    rw [List.map_cons, Gives, hhere]
    rcases hnext : m.next oid with - | e
    · refine ⟨none, .inr (.inl ⟨hnext, ?_, rfl⟩), ih hrest.2 (hafter none)⟩
      rw [after, hnext]
    · refine ⟨some e.1, .inl ⟨e, hnext, ?_, rfl⟩, ih hrest.2 (hafter (some e.1))⟩
      rw [after, hnext]

/-- An agent that answers GetBulk with a round of the next objects conforms. -/
theorem Agent.serve_conforms (agent : Agent) (columns : List Oid) (q : Query) :
    Conforms agent columns q (agent.serve q) :=
  .rows _ _ _ (fun hne hnil ↦ hne (List.map_eq_nil_iff.1 hnil))
    ((agent q.access).gives_after columns q.cursors List.drop_zero fun _ _ ↦ rfl)

/-- Part of a response is a response too. -/
theorem Gives.take {m : Mib} {columns : List Oid} {stuck : Prop} {width i : ℕ}
    {at_ : ℕ → Option Oid} {bs : List Binding} (h : Gives m columns stuck width at_ i bs) (n : ℕ) :
    Gives m columns stuck width at_ i (bs.take n) := by
  induction bs generalizing at_ i n with
  | nil => rwa [List.take_nil]
  | cons b bs ih =>
    rcases n with - | n
    · trivial
    · obtain ⟨after, hfollows, hrest⟩ := h
      exact ⟨after, hfollows, ih hrest n⟩

/-- The agent that answers with one binding at a time. -/
def Agent.serveOne (agent : Agent) (q : Query) : Reply :=
  .response none 0 "noError" 0 ((q.cursors.map (agent q.access).after).take 1)

theorem Agent.serveOne_conforms (agent : Agent) (columns : List Oid) (q : Query) :
    Conforms agent columns q (agent.serveOne q) := by
  refine .rows _ _ _ (fun hne ↦ ?_) (((agent q.access).gives_after columns q.cursors List.drop_zero
    fun _ _ ↦ rfl).take 1)
  obtain ⟨oid, rest, hcursors⟩ := List.exists_cons_of_ne_nil hne
  rw [hcursors]
  exact List.cons_ne_nil _ _

/-- An agent that sometimes says genErr instead is at worst faulty. -/
theorem Conforms.orGenErr {agent : Agent} {columns : List Oid} {q : Query} {r : Reply}
    (h : Conforms agent columns q r) (failing : Prop) [Decidable failing] :
    Conforms agent columns q (if failing then .response none 5 "genErr" 0 [] else r) ∨
      Faulty agent columns q (if failing then .response none 5 "genErr" 0 [] else r) := by
  split
  · exact .inr (.status _ _ _ _ (by decide) (fun hname ↦ absurd hname.1 (by decide))
      (fun hbig ↦ absurd hbig.1 (by decide)))
  · exact .inl h

end Snmp
