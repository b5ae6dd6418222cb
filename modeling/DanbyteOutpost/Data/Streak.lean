import Mathlib.Data.List.DropRight

/-!
# Streaks

In a list of what happened, the latest last, some events count and some clear the count. The count
since the last event that clears is the `streak`; some number of events that count `InARow` have
none between them that clears. Such a row forms with the first streak that is long enough
(`inARow_concat`).

The count goes from the latest event backwards, as a counter that is reset does. `InARow` does not
mention the counter, so it may stand in a specification; `inARow_of_streak` and `inARow_concat`
are its two connections with the counter a program keeps.
-/

variable {α : Type} (clears counts : α → Bool)

/-- How many of the latest events count, back to the last that clears. -/
def streak (events : List α) : ℕ := (events.rtakeWhile fun e ↦ !clears e).countP counts

/-- There are `n` events that count with none between them that clears. -/
def InARow (n : ℕ) (events : List α) : Prop :=
  ∃ row, row <:+: events ∧ (∀ e ∈ row, clears e = false) ∧ n ≤ row.countP counts

variable {clears counts} {events : List α} {e : α} {n : ℕ}

@[simp] theorem streak_nil : streak clears counts [] = 0 := by
  rw [streak, List.rtakeWhile_nil, List.countP_nil]

theorem streak_concat_of_clears (h : clears e = true) :
    streak clears counts (events ++ [e]) = 0 := by
  rw [streak, List.rtakeWhile_concat_neg _ _ _ (by rw [h]; exact Bool.false_ne_true),
    List.countP_nil]

/-- Any other event leaves it, or makes it one longer. -/
theorem streak_concat (h : clears e = false) :
    streak clears counts (events ++ [e]) =
      streak clears counts events + if counts e then 1 else 0 := by
  rw [streak, List.rtakeWhile_concat_pos _ _ _ (by rw [h]; rfl), List.countP_append,
    List.countP_singleton, streak]

/-- There are not `n` in a row before the first event. -/
theorem not_inARow_nil (h : 0 < n) : ¬ InARow clears counts n [] := by
  rintro ⟨row, hrow, -, hcount⟩
  obtain rfl := List.infix_nil.1 hrow
  exact absurd (h.trans_le hcount) (Nat.lt_irrefl 0)

/-- A streak is a row. -/
theorem inARow_of_streak (h : n ≤ streak clears counts events) : InARow clears counts n events := by
  refine ⟨_, (List.rtakeWhile_suffix _ _).isInfix, fun e he ↦ ?_, h⟩
  have := List.mem_rtakeWhile_imp he
  rwa [Bool.not_eq_true'] at this

/-- A row at the end lies within the streak. -/
theorem sublist_of_suffix {row : List α} (hsuffix : row <:+ events)
    (hno : ∀ e ∈ row, clears e = false) : row.Sublist (events.rtakeWhile fun e ↦ !clears e) := by
  obtain ⟨before, rfl⟩ := hsuffix
  rw [List.rtakeWhile, List.reverse_append, List.takeWhile_append_of_pos, List.reverse_append,
    List.reverse_reverse]
  · exact List.sublist_append_right _ _
  · intro e he
    rw [hno e (List.mem_reverse.1 he)]
    rfl

/-- A row ends where the list does, and then it is no longer than the streak, or before. -/
theorem inARow_concat :
    InARow clears counts n (events ++ [e]) ↔
      InARow clears counts n events ∨ n ≤ streak clears counts (events ++ [e]) := by
  constructor
  · rintro ⟨row, hrow, hno, hcount⟩
    rcases List.infix_concat_iff.1 hrow with hsuffix | hinfix
    · exact .inr (hcount.trans (List.Sublist.countP_le (sublist_of_suffix hsuffix hno)))
    · exact .inl ⟨row, hinfix, hno, hcount⟩
  · rintro (⟨row, hrow, hno, hcount⟩ | hstreak)
    · exact ⟨row, hrow.trans (List.prefix_append _ _).isInfix, hno, hcount⟩
    · exact inARow_of_streak hstreak
