import DanbyteOutpost.Checks.Http
import Mathlib.Data.Fintype.EquivFin

/-!
# Sets of status codes

The statuses an HTTP check expects are made a set, and the set is sorted where it is shown. The
values of a list have a set when all can be hashed, and the set can be sorted when all of them are
numbers, or texts, or `null` (`exists_sortedSet_distinct_iff`).

## Two questions about a list

Whether it can be made a set depends on its elements one by one; whether the set can be sorted
depends on them in pairs, since `sorted` compares. Being comparable (`Alike`) is an equivalence
among what can be hashed, so all pairs of neighbours decide it. A set of one element is sorted
without a comparison, whatever the element is.
-/

namespace Checks

/-- A text. -/
def isText : Json → Bool
  | .str _ => true
  | _ => false

/-- Both are numbers, or texts, or neither. -/
def Alike (a b : Json) : Prop := (rank a).isSome = (rank b).isSome ∧ isText a = isText b

/-! ### Sorting -/

/-- A loop that may raise raises exactly if it does at one of the elements. -/
theorem mapM_eq_none_iff {α β : Type} {f : α → Option β} {xs : List α} :
    xs.mapM f = none ↔ ∃ x ∈ xs, f x = none := by
  induction xs with
  | nil => simp
  | cons x xs ih =>
    rw [List.exists_mem_cons_iff, ← ih, List.mapM_cons]
    rcases f x with - | y
    · simp
    · rcases xs.mapM f with - | ys <;> simp

theorem isSome_of_mapM {α β : Type} {f : α → Option β} {xs : List α} {ys : List β}
    (h : xs.mapM f = some ys) {x : α} (hx : x ∈ xs) : (f x).isSome = true := by
  by_contra hnone
  rw [Option.not_isSome_iff_eq_none] at hnone
  rw [mapM_eq_none_iff.2 ⟨x, hx, hnone⟩] at h
  cases h

/-- Values can be sorted when all are numbers or all are texts, or when there is nothing to
compare. -/
theorem exists_sortedSet_iff {values : List Json} :
    (∃ sorted, sortedSet values = .ok sorted) ↔
      (∀ a ∈ values, (rank a).isSome = true) ∨ (∀ a ∈ values, isText a = true) ∨
        values.length ≤ 1 := by
  unfold sortedSet
  split
  case h_1 _ _ ranks hranks =>
    exact iff_of_true ⟨_, rfl⟩ (.inl fun a ha ↦ isSome_of_mapM hranks ha)
  case h_2 _ texts _ htexts =>
    refine iff_of_true ⟨_, rfl⟩ (.inr (.inl fun a ha ↦ ?_))
    have hsome := isSome_of_mapM htexts ha
    cases a with
    | str text => rfl
    | _ => cases hsome
  case h_3 hranks htexts =>
    split
    case isTrue hlen => exact iff_of_true ⟨_, rfl⟩ (.inr (.inr hlen))
    case isFalse hlen =>
      obtain ⟨a, ha, hrank⟩ := mapM_eq_none_iff.1 hranks
      obtain ⟨b, hb, htext⟩ := mapM_eq_none_iff.1 htexts
      refine iff_of_false (by simp) ?_
      rintro (hall | hall | hlen')
      · have hsome := hall a ha
        rw [hrank] at hsome
        cases hsome
      · have hsome := hall b hb
        cases b with
        | str text => cases htext
        | _ => cases hsome
      · exact hlen hlen'

/-! ### Making a set -/

theorem rank_eq_none_of_isText {a : Json} (h : isText a = true) : rank a = none := by
  cases a with
  | str text => rfl
  | _ => cases h

theorem Alike.symm {a b : Json} (h : Alike a b) : Alike b a := ⟨h.1.symm, h.2.symm⟩

/-- And on: there are the numbers, the texts, and `null` by itself. -/
theorem Alike.trans {a b c : Json} (h : Alike a b) (h' : Alike b c) : Alike a c :=
  ⟨h.1.trans h'.1, h.2.trans h'.2⟩

/-- Numbers are comparable, a bool being one. -/
theorem alike_of_rank {a b : Json} (ha : (rank a).isSome = true) (hb : (rank b).isSome = true) :
    Alike a b := by
  have hnot : ∀ {c : Json}, (rank c).isSome = true → isText c = false := by
    intro c hc
    by_contra htext
    rw [rank_eq_none_of_isText (Bool.not_eq_false _ ▸ htext)] at hc
    cases hc
  exact ⟨ha.trans hb.symm, (hnot ha).trans (hnot hb).symm⟩

theorem alike_of_isText {a b : Json} (ha : isText a = true) (hb : isText b = true) : Alike a b :=
  ⟨by rw [rank_eq_none_of_isText ha, rank_eq_none_of_isText hb], ha.trans hb.symm⟩

/-- What a set takes for one element is comparable with it. -/
theorem alike_of_sameElement {a b : Json} (h : sameElement a b = true) : Alike a b := by
  unfold sameElement at h
  split at h
  case h_1 => exact ⟨rfl, rfl⟩
  case h_2 => exact ⟨rfl, rfl⟩
  case h_3 =>
    split at h
    case h_1 hi hj => exact alike_of_rank (by rw [hi]; rfl) (by rw [hj]; rfl)
    case h_2 => cases h

/-- The body of the loop of `distinct`. -/
def addElement (set : List Json) (value : Json) : List Json :=
  if set.any (sameElement value) then set else set ++ [value]

/-- The set after the loop has gone through values: it has grown by values, each of which is in it
or the same as an element of it, and no two elements of it are the same. -/
structure EachOnce (values set set' : List Json) : Prop where
  /-- Nothing comes from elsewhere. -/
  sub : ∀ a ∈ set', a ∈ set ∨ a ∈ values
  /-- Nothing is taken out. -/
  grown : set ⊆ set'
  /-- Each value has an element that is like it. -/
  covered : ∀ a ∈ values, ∃ b ∈ set', Alike a b
  /-- No two elements are the same to a set. -/
  apart : set'.Pairwise fun a b ↦ sameElement b a = false

/-- An element is added to a set unless one like it is there. -/
theorem addElement_eachOnce {set : List Json} (value : Json)
    (hset : set.Pairwise fun a b ↦ sameElement b a = false) :
    EachOnce [value] set (addElement set value) := by
  rw [addElement]
  split
  case isTrue hany =>
    obtain ⟨b, hb, hsame⟩ := List.any_eq_true.1 hany
    refine ⟨fun a ha ↦ .inl ha, List.Subset.refl _, fun a ha ↦ ?_, hset⟩
    rw [List.mem_singleton.1 ha]
    exact ⟨b, hb, alike_of_sameElement hsame⟩
  case isFalse hany =>
    refine ⟨fun a ha ↦ List.mem_append.1 ha, List.subset_append_left _ _, fun a ha ↦ ?_, ?_⟩
    · exact ⟨a, List.mem_append_right _ ha, rfl, rfl⟩
    · refine List.pairwise_append.2 ⟨hset, List.pairwise_singleton _ _, fun a ha b hb ↦ ?_⟩
      rw [List.mem_singleton.1 hb]
      exact Bool.eq_false_iff.2 fun hsame ↦ hany (List.any_eq_true.2 ⟨a, ha, hsame⟩)

/-- The loop that fills a set: each value is there in the end, by itself or by one like it, and no
two are alike. -/
theorem foldl_addElement_eachOnce (values : List Json) {set : List Json}
    (hset : set.Pairwise fun a b ↦ sameElement b a = false) :
    EachOnce values set (values.foldl addElement set) := by
  induction values generalizing set with
  | nil => exact ⟨fun a ha ↦ .inl ha, List.Subset.refl _, fun a ha ↦ (by cases ha), hset⟩
  | cons value values ih =>
    have hone := addElement_eachOnce value hset
    have hrest := ih hone.apart
    refine ⟨fun a ha ↦ ?_, List.Subset.trans hone.grown hrest.grown, fun a ha ↦ ?_, hrest.apart⟩
    · rcases hrest.sub a ha with ha | ha
      · exact (hone.sub a ha).imp_right fun ha ↦ List.mem_cons.2 (.inl (List.mem_singleton.1 ha))
      · exact .inr (List.mem_cons_of_mem _ ha)
    · rcases List.mem_cons.1 ha with rfl | ha
      · obtain ⟨b, hb, halike⟩ := hone.covered a (List.mem_singleton_self a)
        exact ⟨b, hrest.grown hb, halike⟩
      · exact hrest.covered a ha

theorem distinct_eachOnce (values : List Json) : EachOnce values [] (distinct values) :=
  foldl_addElement_eachOnce values .nil

theorem eq_of_length_le_one {α : Type} {xs : List α} (h : xs.length ≤ 1) {a b : α} (ha : a ∈ xs)
    (hb : b ∈ xs) : a = b := by
  rcases xs with - | ⟨x, - | ⟨y, xs⟩⟩
  · cases ha
  · rw [List.mem_singleton.1 ha, List.mem_singleton.1 hb]
  · simp at h

/-- What can be in a set and is neither number nor text is `null`. -/
theorem eq_null_of_hashable {a : Json} (h : Hashable a) (hrank : ¬(rank a).isSome = true)
    (htext : ¬isText a = true) : a = .null := by
  cases a with
  | null => rfl
  | arr values => cases h
  | obj fields => cases h
  | str text => exact absurd rfl htext
  | float q text => cases q <;> exact absurd rfl hrank
  | _ => exact absurd rfl hrank

/-- A set of status codes can be sorted when all of them are numbers, or texts, or `null`. -/
theorem exists_sortedSet_distinct_iff {values : List Json} (h : ∀ a ∈ values, Hashable a) :
    (∃ sorted, sortedSet (distinct values) = .ok sorted) ↔
      ∀ a ∈ values, ∀ b ∈ values, Alike a b := by
  have hset := distinct_eachOnce values
  have hsub : ∀ a ∈ distinct values, a ∈ values :=
    fun a ha ↦ (hset.sub a ha).resolve_left List.not_mem_nil
  rw [exists_sortedSet_iff]
  constructor
  · intro hsortable a ha b hb
    obtain ⟨a', ha', haa'⟩ := hset.covered a ha
    obtain ⟨b', hb', hbb'⟩ := hset.covered b hb
    have hab : Alike a' b' := by
      rcases hsortable with hall | hall | hlen
      · exact alike_of_rank (hall a' ha') (hall b' hb')
      · exact alike_of_isText (hall a' ha') (hall b' hb')
      · rw [eq_of_length_le_one hlen ha' hb']
        exact ⟨rfl, rfl⟩
    exact haa'.trans (hab.trans hbb'.symm)
  · intro halike
    by_cases hrank : ∀ a ∈ distinct values, (rank a).isSome = true
    · exact .inl hrank
    by_cases htext : ∀ a ∈ distinct values, isText a = true
    · exact .inr (.inl htext)
    refine .inr (.inr ?_)
    -- some element is no number and some is no text, so that all are `null`
    obtain ⟨a, ha⟩ := not_forall.1 hrank
    obtain ⟨b, hb⟩ := not_forall.1 htext
    rw [Classical.not_imp] at ha hb
    have hnull : ∀ c ∈ distinct values, c = .null := by
      intro c hc
      refine eq_null_of_hashable (h c (hsub c hc)) ?_ ?_
      · rw [(halike c (hsub c hc) a (hsub a ha.1)).1]
        exact ha.2
      · rw [(halike c (hsub c hc) b (hsub b hb.1)).2]
        exact hb.2
    have hapart := hset.apart
    generalize distinct values = set at hnull hapart
    rcases set with - | ⟨c, - | ⟨d, set⟩⟩
    · exact Nat.zero_le 1
    · exact le_rfl
    · have hsame := List.rel_of_pairwise_cons hapart List.mem_cons_self
      rw [hnull c List.mem_cons_self, hnull d (List.mem_cons_of_mem _ List.mem_cons_self)] at hsame
      cases hsame

/-- Some status code is not among the values. -/
theorem exists_unexpected (values : List Json) :
    ∃ n : ℤ, values.any (fun status ↦ sameElement status (.int n)) = false := by
  obtain ⟨n, hn⟩ := Infinite.exists_notMem_finset
    (values.filterMap fun a ↦ (rank a).map fun r ↦ r.2.num).toFinset
  refine ⟨n, List.any_eq_false.2 fun a ha hsame ↦ hn ?_⟩
  have hrank : rank a = some (0, (n : ℚ)) := by
    cases a with
    | null => cases hsame
    | str text => cases hsame
    | arr values => cases hsame
    | obj fields => cases hsame
    | float q text =>
      cases q <;> exact congrArg some (of_decide_eq_true hsame)
    | _ => exact congrArg some (of_decide_eq_true hsame)
  rw [List.mem_toFinset, List.mem_filterMap]
  exact ⟨a, ha, by rw [hrank]; rfl⟩

/-- A list makes a set exactly if each of its elements can be in one. -/
theorem setOf_arr {values : List Json} {set : List Json} :
    setOf (.arr values) = .ok set ↔ (∀ a ∈ values, Hashable a) ∧ distinct values = set := by
  have hall : (values.all fun value ↦ decide (Hashable value)) = true ↔
      ∀ a ∈ values, Hashable a := by
    simp only [List.all_eq_true, decide_eq_true_eq]
  rw [setOf, ← hall]
  split
  case isTrue h => exact ⟨fun hset ↦ ⟨h, Except.ok.inj hset⟩, fun hset ↦ congrArg _ hset.2⟩
  case isFalse h => exact iff_of_false (by simp) fun hset ↦ h hset.1

end Checks
