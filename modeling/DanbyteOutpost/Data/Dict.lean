import Mathlib.Data.List.Induction
import Mathlib.Data.List.Nodup
import Mathlib.Data.List.Perm.Basic

/-!
# Dictionaries in insertion order

A finite map that remembers the order in which its keys were first set, as a Python `dict` does:
assigning to a key that is present keeps its place, assigning to a new key appends it, and removing
a key closes the gap. The absence of repeated keys is a field, so every value of the type is a
well-formed dictionary and membership in `items` and the answer of `get?` are the same fact
(`mem_items_iff`).

Nothing here knows what the keys and values are.

## Contents

* `Assoc`: the operations on the list of entries, with repeated keys or without. What a later
  assignment makes of an earlier one (`set_set`), and assignments to two keys that are there
  (`set_comm_of_mem`).
* Reading after writing: one lemma for each operation, all of them simplification rules, so that a
  program that fills a dictionary is read through.
* Membership: `mem_items_iff` and its consequences.
* Building from a list: the last of two entries with one key counts, and stands where the first
  did (`get?_ofList`, `foldl_set_items`).
* Grouping: lists of members under a key, as `setdefault(key, set()).add(value)` makes them.

Two dictionaries with the same entries in the same order are equal (`ext_items`).
-/

variable {κ ν μ : Type*} [DecidableEq κ]

omit [DecidableEq κ] in
/-- A search whose hits all agree finds the same in any order. -/
theorem List.Perm.findSome?_eq {es es' : List κ} {f : κ → Option ν} (h : es'.Perm es)
    (hagree : ∀ e ∈ es, ∀ e' ∈ es, ∀ v v', f e = some v → f e' = some v' → v = v') :
    es'.findSome? f = es.findSome? f := by
  cases hv : es.findSome? f with
  | none =>
    rw [List.findSome?_eq_none_iff] at hv ⊢
    exact fun e he ↦ hv e (h.mem_iff.1 he)
  | some v =>
    obtain ⟨e, he, hev⟩ := List.exists_of_findSome?_eq_some hv
    have hsome : (es'.findSome? f).isSome :=
      List.findSome?_isSome_iff.2 ⟨e, h.mem_iff.2 he, Option.isSome_of_eq_some hev⟩
    obtain ⟨v', hv'⟩ := Option.isSome_iff_exists.1 hsome
    obtain ⟨e', he', hev'⟩ := List.exists_of_findSome?_eq_some hv'
    rw [hv', hagree e' (h.mem_iff.1 he') e he v' v hev' hev]

namespace Assoc

/-- Assign in place, or append when the key is new. -/
def set (k : κ) (v : ν) : List (κ × ν) → List (κ × ν)
  | [] => [(k, v)]
  | e :: es => if e.1 = k then (k, v) :: es else e :: set k v es

/-- The value of the first entry with this key. -/
def get? (k : κ) : List (κ × ν) → Option ν
  | [] => none
  | e :: es => if e.1 = k then some e.2 else get? k es

/-- The keys after an assignment: those before it, and the one assigned to. -/
theorem mem_keys_set {k : κ} {v : ν} {x : κ} :
    ∀ {es : List (κ × ν)}, x ∈ (set k v es).map Prod.fst ↔ x = k ∨ x ∈ es.map Prod.fst := by
  intro es
  induction es with
  | nil => simp [set]
  | cons e es ih =>
    by_cases h : e.1 = k
    · simp [set, h]
    · rw [set, if_neg h, List.map_cons, List.mem_cons, ih, List.map_cons, List.mem_cons]
      tauto

/-- An assignment repeats no key, so what starts without repetition stays without. -/
theorem nodup_keys_set {k : κ} {v : ν} :
    ∀ {es : List (κ × ν)}, (es.map Prod.fst).Nodup → ((set k v es).map Prod.fst).Nodup := by
  intro es
  induction es with
  | nil => intro _; simp [set]
  | cons e es ih =>
    intro hnd
    rw [List.map_cons, List.nodup_cons] at hnd
    by_cases h : e.1 = k
    · rw [set, if_pos h, List.map_cons, List.nodup_cons]
      exact ⟨h ▸ hnd.1, hnd.2⟩
    · rw [set, if_neg h, List.map_cons, List.nodup_cons]
      refine ⟨fun hmem ↦ ?_, ih hnd.2⟩
      rcases mem_keys_set.1 hmem with heq | hmem'
      · exact h heq
      · exact hnd.1 hmem'

/-- What is read after an assignment: the new value under its key, the old ones elsewhere. -/
theorem get?_set {k k' : κ} {v : ν} :
    ∀ {es : List (κ × ν)}, get? k' (set k v es) = if k = k' then some v else get? k' es := by
  intro es
  induction es with
  | nil => simp [set, get?]
  | cons e es ih =>
    by_cases h : e.1 = k
    · by_cases h' : k = k'
      · simp [set, get?, h, h']
      · simp [set, get?, h, h']
    · by_cases h' : e.1 = k'
      · have hne : ¬ k = k' := fun hk ↦ h (h'.trans hk.symm)
        rw [set, if_neg h, get?, if_pos h', if_neg hne, get?, if_pos h']
      · simp only [set, if_neg h, get?, if_neg h', ih]

/-- A key that is there keeps its place, and so does every other. -/
theorem keys_set_of_mem {k : κ} {v : ν} :
    ∀ {es : List (κ × ν)}, k ∈ es.map Prod.fst → (set k v es).map Prod.fst = es.map Prod.fst := by
  intro es
  induction es with
  | nil => intro h; cases h
  | cons e es ih =>
    intro h
    rw [set]
    by_cases hk : e.1 = k
    · rw [if_pos hk, List.map_cons, List.map_cons, hk]
    · rw [if_neg hk, List.map_cons, List.map_cons, ih]
      rw [List.map_cons, List.mem_cons] at h
      exact h.resolve_left (Ne.symm hk)

theorem keys_set_of_not_mem {k : κ} {v : ν} :
    ∀ {es : List (κ × ν)}, k ∉ es.map Prod.fst →
      (set k v es).map Prod.fst = es.map Prod.fst ++ [k] := by
  intro es
  induction es with
  | nil => intro _; rfl
  | cons e es ih =>
    intro h
    rw [List.map_cons, List.mem_cons, not_or] at h
    rw [set, if_neg (Ne.symm h.1), List.map_cons, List.map_cons, ih h.2, List.cons_append]

/-- There is no value exactly where there is no key; repeated keys do not matter to it. -/
theorem get?_eq_none_iff {k : κ} :
    ∀ {es : List (κ × ν)}, get? k es = none ↔ k ∉ es.map Prod.fst := by
  intro es
  induction es with
  | nil => simp [get?]
  | cons e es ih =>
    by_cases h : e.1 = k
    · simp [get?, h]
    · rw [get?, if_neg h, ih, List.map_cons, List.mem_cons, not_or]
      exact ⟨fun hn ↦ ⟨fun he ↦ h he.symm, hn⟩, fun hn ↦ hn.2⟩

/-- An entry has a value to its key, though an earlier entry of that key may hide its own. -/
theorem exists_get?_of_mem {k : κ} {v : ν} {es : List (κ × ν)} (h : (k, v) ∈ es) :
    ∃ v', get? k es = some v' ∧ (k, v') ∈ es := by
  induction es with
  | nil => exact absurd h List.not_mem_nil
  | cons e es ih =>
    by_cases hk : e.1 = k
    · exact ⟨e.2, by rw [get?, if_pos hk], hk ▸ List.mem_cons_self⟩
    · have hrest : (k, v) ∈ es :=
        (List.mem_cons.1 h).resolve_left fun heq ↦ hk (congrArg Prod.fst heq).symm
      obtain ⟨v', hget, hmem⟩ := ih hrest
      exact ⟨v', by rw [get?, if_neg hk, hget], List.mem_cons_of_mem _ hmem⟩

/-- Without repeated keys nothing is hidden: an entry is there exactly if it is what is read. -/
theorem mem_iff_get? {k : κ} {v : ν} :
    ∀ {es : List (κ × ν)}, (es.map Prod.fst).Nodup → ((k, v) ∈ es ↔ get? k es = some v) := by
  intro es
  induction es with
  | nil => intro _; simp [get?]
  | cons e es ih =>
    intro hnd
    rw [List.map_cons, List.nodup_cons] at hnd
    by_cases h : e.1 = k
    · have hnot : (k, v) ∉ es := fun hmem ↦ hnd.1 (h ▸ List.mem_map_of_mem (f := Prod.fst) hmem)
      rw [get?, if_pos h, List.mem_cons, or_iff_left hnot]
      constructor
      · intro heq
        rw [← heq]
      · intro heq
        rw [← Option.some.inj heq, ← h]
    · rw [get?, if_neg h, List.mem_cons, ih hnd.2, or_iff_right]
      exact fun heq ↦ h (by rw [← heq])

/-- Keeping entries by their keys leaves the values of those that are kept. -/
theorem get?_filter {k : κ} {p : κ → Bool} :
    ∀ {es : List (κ × ν)},
      get? k (es.filter fun e ↦ p e.1) = if p k then get? k es else none := by
  intro es
  induction es with
  | nil => simp [get?]
  | cons e es ih =>
    by_cases hp : p e.1
    · rw [List.filter_cons_of_pos (by simpa using hp)]
      by_cases h : e.1 = k
      · simp [get?, h, h ▸ hp]
      · simp only [get?, if_neg h, ih]
    · rw [List.filter_cons_of_neg (by simpa using hp), ih]
      by_cases h : e.1 = k
      · have hk : ¬ p k = true := h ▸ hp
        simp [hk]
      · simp only [get?, if_neg h]

/-- The later of two assignments to one key is the one that counts. -/
theorem set_set {k : κ} {v v' : ν} {es : List (κ × ν)} : set k v' (set k v es) = set k v' es := by
  induction es with
  | nil => rw [set, set, set, if_pos rfl]
  | cons e es ih =>
    by_cases hk : e.1 = k
    · rw [set, if_pos hk, set, if_pos rfl, set, if_pos hk]
    · rw [set, if_neg hk, set, if_neg hk, ih, set, if_neg hk]

/-- Assigning to a key that is there moves nothing, so the order of the assignments does not
matter. -/
theorem set_comm_of_mem {k k' : κ} {v v' : ν} {es : List (κ × ν)} (hk : k ∈ es.map Prod.fst)
    (hne : k ≠ k') : set k' v' (set k v es) = set k v (set k' v' es) := by
  induction es with
  | nil => cases hk
  | cons e es ih =>
    by_cases he : e.1 = k
    · have he' : e.1 ≠ k' := he ▸ hne
      rw [set, if_pos he, set, if_neg hne, set, if_neg he', set, if_pos he]
    · have hes : k ∈ es.map Prod.fst := (List.mem_cons.1 hk).resolve_left (Ne.symm he)
      by_cases he' : e.1 = k'
      · rw [set, if_neg he, set, if_pos he', set, if_pos he', set, if_neg (Ne.symm hne)]
      · rw [set, if_neg he, set, if_neg he', ih hes, set, if_neg he', set, if_neg he]

end Assoc

/-- A dictionary: its entries in insertion order, no key twice. -/
structure Dict (κ ν : Type*) where
  /-- The entries, oldest key first. -/
  items : List (κ × ν)
  /-- No key occurs twice. -/
  nodup : (items.map Prod.fst).Nodup

namespace Dict

/-- The empty dictionary. -/
def empty : Dict κ ν := ⟨[], List.nodup_nil⟩

instance : Inhabited (Dict κ ν) := ⟨empty⟩

instance [DecidableEq ν] : DecidableEq (Dict κ ν) := fun d e ↦
  decidable_of_iff (d.items = e.items) (by cases d; cases e; simp)

/-- The keys, in insertion order. -/
def keys (d : Dict κ ν) : List κ := d.items.map Prod.fst

/-- The value at a key. -/
def get? (d : Dict κ ν) (k : κ) : Option ν := Assoc.get? k d.items

/-- `k in d`. -/
def contains (d : Dict κ ν) (k : κ) : Bool := (d.get? k).isSome

/-- `d[k] = v`. -/
def set (d : Dict κ ν) (k : κ) (v : ν) : Dict κ ν :=
  ⟨Assoc.set k v d.items, Assoc.nodup_keys_set d.nodup⟩

/-- Keep the entries whose key passes the test. -/
def restrict (d : Dict κ ν) (p : κ → Bool) : Dict κ ν :=
  ⟨d.items.filter fun e ↦ p e.1, by
    refine List.Nodup.sublist ?_ d.nodup
    exact List.filter_sublist.map Prod.fst⟩

/-- `d.pop(k, None)`. -/
def erase (d : Dict κ ν) (k : κ) : Dict κ ν := d.restrict fun x ↦ !decide (x = k)

/-- Change every value in place. -/
def mapValues (d : Dict κ ν) (f : ν → μ) : Dict κ μ :=
  ⟨d.items.map fun e ↦ (e.1, f e.2), by
    have h : (d.items.map fun e ↦ (e.1, f e.2)).map Prod.fst = d.items.map Prod.fst := by
      rw [List.map_map]; rfl
    rw [h]
    exact d.nodup⟩

/-- Keep the entries whose value passes through `f`, in place. -/
def filterMapValues (d : Dict κ ν) (f : ν → Option μ) : Dict κ μ :=
  ⟨d.items.filterMap fun e ↦ (f e.2).map (Prod.mk e.1), by
    refine List.Nodup.sublist ?_ d.nodup
    induction d.items with
    | nil => exact List.Sublist.slnil
    | cons e es ih =>
      rcases h : f e.2 with - | v
      · rw [List.filterMap_cons_none (by rw [h]; rfl)]
        exact ih.cons e.1
      · rw [List.filterMap_cons_some (by rw [h]; rfl)]
        exact ih.cons_cons e.1⟩

/-- Assign a list of pairs in order, as `dict(pairs)` does: a repeated key keeps its first place and
takes its last value. -/
def ofList (es : List (κ × ν)) : Dict κ ν := es.foldl (fun d e ↦ d.set e.1 e.2) empty

/-! ### Reading after writing -/

@[simp] theorem get?_empty (k : κ) : (empty : Dict κ ν).get? k = none := rfl

omit [DecidableEq κ] in
@[simp] theorem items_empty : (empty : Dict κ ν).items = [] := rfl

theorem get?_set (d : Dict κ ν) (k k' : κ) (v : ν) :
    (d.set k v).get? k' = if k = k' then some v else d.get? k' :=
  Assoc.get?_set

@[simp] theorem get?_set_self (d : Dict κ ν) (k : κ) (v : ν) : (d.set k v).get? k = some v := by
  rw [get?_set, if_pos rfl]

/-- An assignment leaves the values of the other keys alone. -/
theorem get?_set_ne (d : Dict κ ν) {k k' : κ} (v : ν) (h : k ≠ k') :
    (d.set k v).get? k' = d.get? k' := by
  rw [get?_set, if_neg h]

/-- What is read of the kept keys, and nothing of the others. -/
theorem get?_restrict (d : Dict κ ν) (p : κ → Bool) (k : κ) :
    (d.restrict p).get? k = if p k then d.get? k else none :=
  Assoc.get?_filter

/-- Mapping the values maps what is read, key by key. -/
theorem get?_mapValues (d : Dict κ ν) (f : ν → μ) (k : κ) :
    (d.mapValues f).get? k = (d.get? k).map f := by
  show Assoc.get? k (d.items.map fun e ↦ (e.1, f e.2)) = (Assoc.get? k d.items).map f
  induction d.items with
  | nil => rfl
  | cons e es ih =>
    by_cases h : e.1 = k
    · simp [Assoc.get?, h]
    · simp only [List.map_cons, Assoc.get?, if_neg h, ih]

/-- A key whose value does not pass through `f` is not there any more. That it has no second value
to show in its stead is the invariant of the type. -/
theorem get?_filterMapValues (d : Dict κ ν) (f : ν → Option μ) (k : κ) :
    (d.filterMapValues f).get? k = (d.get? k).bind f := by
  obtain ⟨es, hnd⟩ := d
  show Assoc.get? k (es.filterMap fun e ↦ (f e.2).map (Prod.mk e.1)) = (Assoc.get? k es).bind f
  induction es with
  | nil => rfl
  | cons e es ih =>
    rw [List.map_cons, List.nodup_cons] at hnd
    have ih' := ih hnd.2
    by_cases h : e.1 = k
    · have hk : Assoc.get? k es = none := Assoc.get?_eq_none_iff.2 (h ▸ hnd.1)
      rw [hk, Option.bind_none] at ih'
      rcases hf : f e.2 with - | v
      · rw [List.filterMap_cons_none (by rw [hf]; rfl), ih']
        simp [Assoc.get?, h, hf]
      · rw [List.filterMap_cons_some (by rw [hf]; rfl)]
        simp [Assoc.get?, h, hf]
    · rcases hf : f e.2 with - | v
      · rw [List.filterMap_cons_none (by rw [hf]; rfl), ih', Assoc.get?, if_neg h]
      · rw [List.filterMap_cons_some (by rw [hf]; rfl)]
        simp only [Assoc.get?, if_neg h, ih']

/-! ### Membership -/

/-- To be an entry and to be read are one fact, the invariant at work. -/
theorem mem_items_iff {d : Dict κ ν} {k : κ} {v : ν} : (k, v) ∈ d.items ↔ d.get? k = some v :=
  Assoc.mem_iff_get? d.nodup

theorem get?_of_mem {d : Dict κ ν} {e : κ × ν} (h : e ∈ d.items) : d.get? e.1 = some e.2 :=
  mem_items_iff.1 h

/-- There is nothing to read exactly under what is no key. -/
theorem get?_eq_none_iff {d : Dict κ ν} {k : κ} : d.get? k = none ↔ k ∉ d.keys :=
  Assoc.get?_eq_none_iff

/-- What is read does not depend on the order of the entries. -/
theorem get?_of_perm {d d' : Dict κ ν} (h : d'.items.Perm d.items) (k : κ) :
    d'.get? k = d.get? k := by
  refine Option.ext fun v ↦ ?_
  rw [← mem_items_iff, ← mem_items_iff]
  exact h.mem_iff

theorem mem_keys_iff {d : Dict κ ν} {k : κ} : k ∈ d.keys ↔ ∃ v, d.get? k = some v := by
  rw [← Option.isSome_iff_exists, Option.isSome_iff_ne_none, Ne, get?_eq_none_iff, not_not]

theorem mem_keys_set {d : Dict κ ν} {k x : κ} {v : ν} :
    x ∈ (d.set k v).keys ↔ x = k ∨ x ∈ d.keys :=
  Assoc.mem_keys_set

theorem contains_iff {d : Dict κ ν} {k : κ} : d.contains k = true ↔ k ∈ d.keys := by
  rw [contains, Option.isSome_iff_exists, mem_keys_iff]

omit [DecidableEq κ] in
/-- A dictionary has an entry exactly if it has a key. -/
theorem items_ne_nil_iff {d : Dict κ ν} : d.items ≠ [] ↔ ∃ k, k ∈ d.keys := by
  constructor
  · intro h
    obtain ⟨e, he⟩ := List.exists_mem_of_ne_nil _ h
    exact ⟨e.1, List.mem_map_of_mem he⟩
  · rintro ⟨k, hk⟩ hnil
    rw [keys, hnil] at hk
    exact List.not_mem_nil hk

omit [DecidableEq κ] in
/-- There is one dictionary without entries. -/
theorem eq_empty_of_isEmpty {d : Dict κ ν} (h : d.items.isEmpty = true) : d = empty := by
  obtain ⟨es, hnd⟩ := d
  obtain rfl : es = [] := List.isEmpty_iff.1 h
  rfl

/-- To assign to a key that is there takes no room. -/
theorem length_set_of_mem {d : Dict κ ν} {k : κ} (h : k ∈ d.keys) (v : ν) :
    (d.set k v).items.length = d.items.length := by
  rw [← d.items.length_map Prod.fst, ← (d.set k v).items.length_map Prod.fst]
  exact congrArg List.length (Assoc.keys_set_of_mem h)

/-- To assign to a new key takes one place. -/
theorem length_set_of_not_mem {d : Dict κ ν} {k : κ} (h : k ∉ d.keys) (v : ν) :
    (d.set k v).items.length = d.items.length + 1 := by
  have hkeys : (d.set k v).items.map Prod.fst = d.items.map Prod.fst ++ [k] :=
    Assoc.keys_set_of_not_mem h
  have hlen := congrArg List.length hkeys
  rwa [List.length_map, List.length_append, List.length_map] at hlen

/-! ### Building from a list -/

/-- After a list of assignments, the last one to a key counts, and where there is none the value
from before. -/
theorem get?_foldl_set (es : List (κ × ν)) (d : Dict κ ν) (k : κ) :
    (es.foldl (fun d e ↦ d.set e.1 e.2) d).get? k =
      ((Assoc.get? k es.reverse).or (d.get? k)) := by
  induction es generalizing d with
  | nil => rfl
  | cons e es ih =>
    have happ : ∀ l : List (κ × ν), Assoc.get? k (l ++ [e]) =
        (Assoc.get? k l).or (if e.1 = k then some e.2 else none) := by
      intro l
      induction l with
      | nil => simp [Assoc.get?]
      | cons a l ihl =>
        by_cases h : a.1 = k
        · simp [Assoc.get?, h]
        · simp only [List.cons_append, Assoc.get?, if_neg h, ihl]
    rw [List.foldl_cons, ih, List.reverse_cons, happ, get?_set]
    by_cases h : e.1 = k <;> simp [h]

/-- Merging entries with distinct keys into a dict, each with the value it finds there. -/
theorem get?_foldl_merge (g : ν → Option ν → ν) {es : List (κ × ν)}
    (hnd : (es.map Prod.fst).Nodup) (d : Dict κ ν) (k : κ) :
    (es.foldl (fun d e ↦ d.set e.1 (g e.2 (d.get? e.1))) d).get? k =
      ((Assoc.get? k es).map fun v ↦ g v (d.get? k)).or (d.get? k) := by
  induction es generalizing d with
  | nil => rfl
  | cons e es ih =>
    rw [List.map_cons, List.nodup_cons] at hnd
    rw [List.foldl_cons, ih hnd.2, get?_set, Assoc.get?]
    by_cases hk : e.1 = k
    · have hnone : Assoc.get? k es = none := Assoc.get?_eq_none_iff.2 (hk ▸ hnd.1)
      rw [if_pos hk, if_pos hk, hnone, hk]
      rfl
    · rw [if_neg hk, if_neg hk]

omit [DecidableEq κ] in
/-- Two dictionaries with the same entries in the same order are equal. -/
theorem ext_items {d d' : Dict κ ν} (h : d.items = d'.items) : d = d' := by
  cases d
  cases d'
  cases h
  rfl

/-- An assignment to a key that is there can be put off behind assignments to others. -/
theorem foldl_set_of_not_mem {es : List (κ × ν)} {d : Dict κ ν} {k : κ} {v : ν}
    (hd : k ∈ d.keys) (hes : k ∉ es.map Prod.fst) :
    es.foldl (fun d e ↦ d.set e.1 e.2) (d.set k v) =
      (es.foldl (fun d e ↦ d.set e.1 e.2) d).set k v := by
  induction es generalizing d with
  | nil => rfl
  | cons e es ih =>
    rw [List.map_cons, List.mem_cons, not_or] at hes
    have hcomm : (d.set k v).set e.1 e.2 = (d.set e.1 e.2).set k v :=
      ext_items (Assoc.set_comm_of_mem hd hes.1)
    rw [List.foldl_cons, List.foldl_cons, hcomm, ih (mem_keys_set.2 (.inr hd)) hes.2]

/-- The assignments of a dictionary with one more are those of the dictionary, and then that
one. -/
theorem foldl_set_items (d d₀ : Dict κ ν) (k : κ) (v : ν) :
    (d.set k v).items.foldl (fun d e ↦ d.set e.1 e.2) d₀ =
      (d.items.foldl (fun d e ↦ d.set e.1 e.2) d₀).set k v := by
  obtain ⟨es, hnd⟩ := d
  show (Assoc.set k v es).foldl _ d₀ = (es.foldl _ d₀).set k v
  induction es generalizing d₀ with
  | nil => rfl
  | cons e es ih =>
    rw [List.map_cons, List.nodup_cons] at hnd
    rw [Assoc.set]
    split
    case isTrue hk =>
      subst hk
      have htwice : (d₀.set e.1 e.2).set e.1 v = d₀.set e.1 v := ext_items Assoc.set_set
      rw [List.foldl_cons, List.foldl_cons, ← htwice,
        foldl_set_of_not_mem (mem_keys_set.2 (.inl rfl)) hnd.1]
    case isFalse =>
      rw [List.foldl_cons, List.foldl_cons, ih _ hnd.2]

/-- To assign the entries of `ofList es` one by one is to assign those of `es`: what `ofList` has
left out is what a later assignment overwrites, and the places are the same. -/
theorem foldl_set_ofList (es : List (κ × ν)) (d₀ : Dict κ ν) :
    (ofList es).items.foldl (fun d e ↦ d.set e.1 e.2) d₀ =
      es.foldl (fun d e ↦ d.set e.1 e.2) d₀ := by
  induction es using List.reverseRecOn with
  | nil => rfl
  | append_singleton es e ih =>
    have hlast : ofList (es ++ [e]) = (ofList es).set e.1 e.2 := by
      rw [ofList, List.foldl_append]
      rfl
    rw [hlast, foldl_set_items, ih, List.foldl_append]
    rfl

/-- The last of the pairs with a key counts. -/
theorem get?_ofList (es : List (κ × ν)) (k : κ) :
    (ofList es).get? k = Assoc.get? k es.reverse := by
  rw [ofList, get?_foldl_set, get?_empty, Option.or_none]

omit [DecidableEq κ] in
/-- The keys after a loop each of whose steps adds those that `P` says. -/
theorem mem_keys_foldl {ε : Type*} {f : Dict κ ν → ε → Dict κ ν} {P : ε → κ → Prop}
    (hstep : ∀ d e k, k ∈ (f d e).keys ↔ P e k ∨ k ∈ d.keys) {es : List ε} {d : Dict κ ν} {k : κ} :
    k ∈ (es.foldl f d).keys ↔ (∃ e ∈ es, P e k) ∨ k ∈ d.keys := by
  induction es generalizing d with
  | nil => simp
  | cons e es ih =>
    rw [List.foldl_cons, ih, hstep, List.exists_mem_cons_iff, or_left_comm, or_assoc]

/-- The values after a loop each of whose steps sets only keys that are not there yet. -/
theorem get?_foldl_or {ε : Type*} {f : Dict κ ν → ε → Dict κ ν} {g : κ → ε → Option ν}
    (hstep : ∀ d e k, (f d e).get? k = (d.get? k).or (g k e)) {es : List ε} {d : Dict κ ν} {k : κ} :
    (es.foldl f d).get? k = (d.get? k).or (es.findSome? (g k)) := by
  induction es generalizing d with
  | nil => rw [List.foldl_nil, List.findSome?_nil, Option.or_none]
  | cons e es ih =>
    rw [List.foldl_cons, ih, hstep, Option.or_assoc, List.findSome?_cons]
    cases g k e <;> rfl

/-- A key of a list has a value in `ofList`, one of those it has in the list. -/
theorem exists_get?_ofList {es : List (κ × ν)} {k : κ} {v : ν} (h : (k, v) ∈ es) :
    ∃ v', (ofList es).get? k = some v' ∧ (k, v') ∈ es := by
  rw [get?_ofList]
  obtain ⟨v', hget, hmem⟩ := Assoc.exists_get?_of_mem (List.mem_reverse.2 h)
  exact ⟨v', hget, List.mem_reverse.1 hmem⟩

/-- On a list without repeated keys, `ofList` answers exactly with its pairs. -/
theorem get?_ofList_iff {es : List (κ × ν)} (hnd : (es.map Prod.fst).Nodup) {k : κ} {v : ν} :
    (ofList es).get? k = some v ↔ (k, v) ∈ es := by
  rw [get?_ofList, ← Assoc.mem_iff_get? (by rw [List.map_reverse]; exact List.nodup_reverse.2 hnd),
    List.mem_reverse]

/-! ### Grouping -/

/-- The values of each key, as `d.setdefault(k, set()).add(v)` collects them. -/
def group [DecidableEq ν] (es : List (κ × ν)) : Dict κ (List ν) :=
  es.foldl (fun d e ↦ d.set e.1 (((d.get? e.1).getD []).insert e.2)) empty

/-- The values of a key. -/
def members (d : Dict κ (List ν)) (k : κ) : List ν := (d.get? k).getD []

/-- The values of the keys after one of them is given a new list. -/
theorem members_set (d : Dict κ (List ν)) (k k' : κ) (vs : List ν) :
    (d.set k vs).members k' = if k = k' then vs else d.members k' := by
  rw [members, get?_set]
  split <;> rfl

/-- The induction over `group`: what holds of no entries, and stays true when one more is grouped
behind the others, holds of every list. The new entry is the last one, since the loop of the source
takes them from the front. -/
theorem group_induction [DecidableEq ν] {P : List (κ × ν) → Dict κ (List ν) → Prop}
    (hnil : P [] empty)
    (hstep : ∀ es k v d, P es d → P (es ++ [(k, v)]) (d.set k ((d.members k).insert v)))
    (es : List (κ × ν)) : P es (group es) := by
  induction es using List.reverseRecOn with
  | nil => exact hnil
  | append_singleton es e ih =>
    rw [group, List.foldl_append]
    exact hstep es e.1 e.2 _ ih

/-- The values grouped under a key are those it has in the list. -/
theorem mem_members_group [DecidableEq ν] {es : List (κ × ν)} {k : κ} {v : ν} :
    v ∈ (group es).members k ↔ (k, v) ∈ es := by
  refine group_induction (P := fun es d ↦ v ∈ d.members k ↔ (k, v) ∈ es) ?_ ?_ es
  · exact iff_of_false List.not_mem_nil List.not_mem_nil
  · intro es k' v' d ih
    rw [members_set, List.mem_append, List.mem_singleton, Prod.mk.injEq, ← ih]
    split
    case isTrue hk =>
      subst hk
      rw [List.mem_insert_iff]
      tauto
    case isFalse hk =>
      refine ⟨.inl, fun h ↦ h.resolve_right fun heq ↦ hk heq.1.symm⟩

/-- Grouped values are a set: none is there twice. -/
theorem nodup_members_group [DecidableEq ν] (es : List (κ × ν)) (k : κ) :
    ((group es).members k).Nodup := by
  refine group_induction (P := fun _ d ↦ (d.members k).Nodup) List.nodup_nil ?_ es
  intro es k' v' d ih
  rw [members_set]
  split
  case isTrue hk => exact (hk ▸ ih).insert
  case isFalse => exact ih

/-- A key is there when it has a value. -/
theorem mem_keys_group [DecidableEq ν] {es : List (κ × ν)} {k : κ} :
    k ∈ (group es).keys ↔ ∃ v, (k, v) ∈ es := by
  refine group_induction (P := fun es d ↦ k ∈ d.keys ↔ ∃ v, (k, v) ∈ es) ?_ ?_ es
  · exact iff_of_false List.not_mem_nil fun ⟨_, h⟩ ↦ List.not_mem_nil h
  · intro es k' v' d ih
    rw [mem_keys_set, ih]
    simp only [List.mem_append, List.mem_singleton, Prod.mk.injEq]
    constructor
    · rintro (rfl | ⟨v, hv⟩)
      · exact ⟨v', .inr ⟨rfl, rfl⟩⟩
      · exact ⟨v, .inl hv⟩
    · rintro ⟨v, hv | ⟨rfl, rfl⟩⟩
      · exact .inr ⟨v, hv⟩
      · exact .inl rfl

/-- A key with one value that passes a test. -/
theorem filter_members_group_eq_singleton [DecidableEq ν] {es : List (κ × ν)} {k : κ} {v : ν}
    {p : ν → Bool} :
    ((group es).members k).filter p = [v] ↔ ∀ v', (k, v') ∈ es ∧ p v' = true ↔ v' = v := by
  constructor
  · intro h v'
    rw [← mem_members_group, ← List.mem_filter, h, List.mem_singleton]
  · intro h
    refine List.perm_singleton.1 ((List.perm_ext_iff_of_nodup
      ((nodup_members_group es k).filter p) (List.nodup_singleton v)).2 fun v' ↦ ?_)
    rw [List.mem_filter, mem_members_group, h, List.mem_singleton]

/-- A key has one value exactly if all its entries agree on it. -/
theorem members_group_eq_singleton [DecidableEq ν] {es : List (κ × ν)} {k : κ} {v : ν} :
    (group es).members k = [v] ↔ ∀ v', (k, v') ∈ es ↔ v' = v := by
  have h : ((group es).members k).filter (fun _ ↦ true) = [v] ↔
      ∀ v', (k, v') ∈ es ∧ true = true ↔ v' = v := filter_members_group_eq_singleton
  rw [List.filter_true] at h
  simpa only [and_true] using h

end Dict
