import Mathlib.Data.List.Nodup

/-!
# Work done in shards

A list cut into pieces of one length, and a pass that keeps some elements of each piece: the pieces
are the list again, so what is kept stands in the order of the list, and no element is seen twice.

How long a piece is does not matter to any of it, as long as it is not empty: `flatten_shards` is
an equation between lists, and `existsUnique_shard` finds the one piece an element of the list was
cut into.
-/

variable {α : Type*}

/-- `xs[i : i + n]` for each `i` of `range(0, len(xs), n)`. -/
def shards (n : ℕ) (xs : List α) : List (List α) :=
  (List.range ((xs.length + n - 1) / n)).map fun i ↦ (xs.drop (i * n)).take n

/-- The first `k` pieces are the first `k * n` elements. -/
theorem flatten_map_range (n k : ℕ) (xs : List α) :
    ((List.range k).map fun i ↦ (xs.drop (i * n)).take n).flatten = xs.take (k * n) := by
  induction k with
  | zero => simp
  | succ k ih =>
    rw [List.range_succ, List.map_append, List.flatten_append, ih, Nat.succ_mul, List.take_add]
    simp

theorem flatten_shards {n : ℕ} (hn : 0 < n) (xs : List α) : (shards n xs).flatten = xs := by
  rw [shards, flatten_map_range]
  refine List.take_of_length_le ?_
  -- as many pieces as there are are enough
  have hdiv := Nat.div_add_mod (xs.length + n - 1) n
  have hmod := Nat.mod_lt (xs.length + n - 1) hn
  rw [Nat.mul_comm]
  omega

theorem length_le_of_mem_shards {n : ℕ} {xs piece : List α} (h : piece ∈ shards n xs) :
    piece.length ≤ n := by
  obtain ⟨i, -, rfl⟩ := List.mem_map.1 h
  exact List.length_take_le _ _

/-- What a pass keeps of every piece, kept of the list. -/
theorem sublist_flatMap_shards {n : ℕ} (hn : 0 < n) (xs : List α) {f : List α → List α}
    (hf : ∀ piece, (f piece).Sublist piece) : ((shards n xs).flatMap f).Sublist xs := by
  have hpieces : ∀ pieces : List (List α), (pieces.flatMap f).Sublist pieces.flatten := by
    intro pieces
    induction pieces with
    | nil => exact List.Sublist.slnil
    | cons piece pieces ih =>
      rw [List.flatMap_cons, List.flatten_cons]
      exact (hf piece).append ih
  have h := hpieces (shards n xs)
  rwa [flatten_shards hn] at h

/-- An element of a list without repetitions is in one piece. -/
theorem existsUnique_shard {n : ℕ} (hn : 0 < n) {xs : List α} (hnd : xs.Nodup) {x : α}
    (hx : x ∈ xs) : ∃! i : ℕ, ∃ piece, (shards n xs)[i]? = some piece ∧ x ∈ piece := by
  have hflat : (shards n xs).flatten.Nodup := by rwa [flatten_shards hn]
  rw [← flatten_shards hn xs, List.mem_flatten] at hx
  obtain ⟨piece, hpiece, hmem⟩ := hx
  obtain ⟨i, hi⟩ := List.getElem?_of_mem hpiece
  refine ⟨i, ⟨piece, hi, hmem⟩, fun j hj ↦ ?_⟩
  obtain ⟨piece', hj, hmem'⟩ := hj
  by_contra hne
  -- two pieces have no element in common
  have hdisjoint := (List.nodup_flatten.1 hflat).2
  obtain ⟨hi', rfl⟩ := List.getElem?_eq_some_iff.1 hi
  obtain ⟨hj', rfl⟩ := List.getElem?_eq_some_iff.1 hj
  rcases Nat.lt_or_gt_of_ne hne with hlt | hlt
  · exact List.pairwise_iff_getElem.1 hdisjoint j i hj' hi' hlt hmem' hmem
  · exact List.pairwise_iff_getElem.1 hdisjoint i j hi' hj' hlt hmem hmem'
