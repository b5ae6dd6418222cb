import Mathlib.Data.List.Perm.Basic

/-!
# Loops that keep or count

A loop over a list that either puts a value on a second list or counts why it did not; and two such
loops, one over what the other kept. Where the order of counting does not matter, the two are one.

## Why two views

A program counts in a dictionary while it goes along, which is a fold over a state with two parts;
its specification filters and counts. `foldl_turn` passes from one to the other, and
`foldl_turn_andThen` is the same for a loop behind a loop. `length_kept_add_length_refused` is the
conservation law: an element is kept or has one reason.
-/

namespace Sieve

variable {α β γ κ C : Type}

/-- One turn: keep a value, or count a reason. -/
def turn (count : C → κ → C) (f : α → β ⊕ κ) (s : List β × C) (a : α) : List β × C :=
  match f a with
  | .inl b => (s.1 ++ [b], s.2)
  | .inr reason => (s.1, count s.2 reason)

/-- The values kept. -/
def kept (f : α → β ⊕ κ) (as : List α) : List β := as.filterMap fun a ↦ (f a).getLeft?

/-- The reasons counted. -/
def refused (f : α → β ⊕ κ) (as : List α) : List κ := as.filterMap fun a ↦ (f a).getRight?

/-- One sieve behind the other. -/
def andThen (f : α → β ⊕ κ) (g : β → γ ⊕ κ) (a : α) : γ ⊕ κ := (f a).elim g .inr

/-! ### What an element does -/

/-- An element that passes is kept, in front of what is kept of the rest. -/
theorem kept_cons_inl {f : α → β ⊕ κ} {a : α} {b : β} (h : f a = .inl b) (as : List α) :
    kept f (a :: as) = b :: kept f as := by
  refine List.filterMap_cons_some ?_
  rw [h, Sum.getLeft?_inl]

theorem kept_cons_inr {f : α → β ⊕ κ} {a : α} {reason : κ} (h : f a = .inr reason) (as : List α) :
    kept f (a :: as) = kept f as := by
  refine List.filterMap_cons_none ?_
  rw [h, Sum.getLeft?_inr]

/-- An element that passes leaves no reason. -/
theorem refused_cons_inl {f : α → β ⊕ κ} {a : α} {b : β} (h : f a = .inl b) (as : List α) :
    refused f (a :: as) = refused f as := by
  refine List.filterMap_cons_none ?_
  rw [h, Sum.getRight?_inl]

/-- One that is refused leaves its reason, in front of those of the rest. -/
theorem refused_cons_inr {f : α → β ⊕ κ} {a : α} {reason : κ} (h : f a = .inr reason)
    (as : List α) : refused f (a :: as) = reason :: refused f as := by
  refine List.filterMap_cons_some ?_
  rw [h, Sum.getRight?_inr]

/-! ### A whole loop -/

/-- The loop keeps the values in order and counts the reasons in order. -/
theorem foldl_turn (count : C → κ → C) (f : α → β ⊕ κ) (bs : List β) (c : C) (as : List α) :
    as.foldl (turn count f) (bs, c) = (bs ++ kept f as, (refused f as).foldl count c) := by
  induction as generalizing bs c with
  | nil => exact congrArg (·, c) (List.append_nil bs).symm
  | cons a as ih =>
    rw [List.foldl_cons, turn]
    rcases h : f a with b | reason
    · rw [ih, kept_cons_inl h, refused_cons_inl h, List.append_assoc, List.singleton_append]
    · rw [ih, kept_cons_inr h, refused_cons_inr h, List.foldl_cons]

/-- No element is lost, and none is both kept and counted. -/
theorem length_kept_add_length_refused (f : α → β ⊕ κ) (as : List α) :
    (kept f as).length + (refused f as).length = as.length := by
  induction as with
  | nil => rfl
  | cons a as ih =>
    rcases h : f a with b | reason
    · rw [kept_cons_inl h, refused_cons_inl h, List.length_cons, List.length_cons, ← ih]
      omega
    · rw [kept_cons_inr h, refused_cons_inr h, List.length_cons, List.length_cons, ← ih]
      omega

/-- Where a value tells its element, the values stand in the order of their elements. -/
theorem map_kept_sublist {f : α → β ⊕ κ} {g : β → α} (h : ∀ a b, f a = .inl b → g b = a)
    (as : List α) : ((kept f as).map g).Sublist as := by
  induction as with
  | nil => exact List.Sublist.refl []
  | cons a as ih =>
    rcases hf : f a with b | reason
    · rw [kept_cons_inl hf, List.map_cons, h a b hf]
      exact ih.cons_cons a
    · rw [kept_cons_inr hf]
      exact ih.cons a

/-- A reason is counted once for each element it is the reason of. -/
theorem count_refused [DecidableEq β] [DecidableEq κ] (f : α → β ⊕ κ) (reason : κ) (as : List α) :
    (refused f as).count reason = as.countP fun a ↦ decide (f a = .inr reason) := by
  induction as with
  | nil => rfl
  | cons a as ih =>
    rw [List.countP_cons]
    rcases h : f a with b | reason'
    · rw [refused_cons_inl h, ih, if_neg (by simp), Nat.add_zero]
    · rw [refused_cons_inr h, List.count_cons, ih]
      congr 1
      simp [beq_iff_eq]

/-! ### Two loops -/

/-- Two sieves in a row keep what the second keeps of what the first does. -/
theorem kept_andThen (f : α → β ⊕ κ) (g : β → γ ⊕ κ) (as : List α) :
    kept (andThen f g) as = kept g (kept f as) := by
  induction as with
  | nil => rfl
  | cons a as ih =>
    rcases hf : f a with b | reason
    · have hboth : andThen f g a = g b := by rw [andThen, hf, Sum.elim_inl]
      rw [kept_cons_inl hf]
      rcases hg : g b with c | reason
      · rw [kept_cons_inl (hboth.trans hg), kept_cons_inl hg, ih]
      · rw [kept_cons_inr (hboth.trans hg), kept_cons_inr hg, ih]
    · have hboth : andThen f g a = .inr reason := by rw [andThen, hf, Sum.elim_inr]
      rw [kept_cons_inr hf, kept_cons_inr hboth, ih]

/-- The two loops count what the one counts, those of the second loop later. -/
theorem refused_andThen_perm (f : α → β ⊕ κ) (g : β → γ ⊕ κ) (as : List α) :
    (refused (andThen f g) as).Perm (refused f as ++ refused g (kept f as)) := by
  induction as with
  | nil => exact List.Perm.refl _
  | cons a as ih =>
    rcases hf : f a with b | reason
    · have hboth : andThen f g a = g b := by rw [andThen, hf, Sum.elim_inl]
      rw [kept_cons_inl hf, refused_cons_inl hf]
      rcases hg : g b with c | reason
      · rw [refused_cons_inl (hboth.trans hg), refused_cons_inl hg]
        exact ih
      · rw [refused_cons_inr (hboth.trans hg), refused_cons_inr hg]
        exact (ih.cons reason).trans List.perm_middle.symm
    · have hboth : andThen f g a = .inr reason := by rw [andThen, hf, Sum.elim_inr]
      rw [kept_cons_inr hf, refused_cons_inr hf, refused_cons_inr hboth]
      exact ih.cons reason

/-- Two loops in a row leave what the one loop of both leaves. -/
theorem foldl_turn_andThen (count : C → κ → C) [RightCommutative count] (f : α → β ⊕ κ)
    (g : β → γ ⊕ κ) (c : C) (as : List α) :
    as.foldl (turn count (andThen f g)) ([], c) =
      (as.foldl (turn count f) ([], c)).1.foldl (turn count g)
        ([], (as.foldl (turn count f) ([], c)).2) := by
  have hcount : (refused (andThen f g) as).foldl count c =
      (refused g (kept f as)).foldl count ((refused f as).foldl count c) := by
    rw [← List.foldl_append]
    exact (refused_andThen_perm f g as).foldl_eq c
  rw [foldl_turn, foldl_turn, foldl_turn, kept_andThen, hcount]
  rfl

end Sieve
