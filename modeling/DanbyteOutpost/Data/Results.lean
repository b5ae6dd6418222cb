import Mathlib.Data.List.Forall2

/-!
# The results of many calls

Calls that may raise are made side by side and waited for together. There is a list of their
results exactly when none of them raised.

`gatherAll` is a `gather` whose calls have all come back. `exists_gatherAll_iff` and
`gatherAll_map_eq_ok` take a statement about the batch apart into one about each call, and
`forall₂_of_gatherAll_zipWith` keeps a result beside the call it belongs to.
-/

variable {ε α β : Type*}

/-- A computation in two parts ends well exactly if both do. -/
theorem except_bind_eq_ok {α β : Type} {x : Except ε α} {f : α → Except ε β} {b : β} :
    (x >>= f) = .ok b ↔ ∃ a, x = .ok a ∧ f a = .ok b := by
  match x with
  | .ok a =>
    show f a = .ok b ↔ _
    simp
  | .error e =>
    show Except.error e = Except.ok b ↔ _
    simp

/-- Two calls in a row return when both do. -/
theorem exists_bind_eq_ok {α β : Type} {x : Except ε α} {f : α → Except ε β} :
    (∃ b, (x >>= f) = .ok b) ↔ ∃ a, x = .ok a ∧ ∃ b, f a = .ok b := by
  simp only [except_bind_eq_ok]
  constructor
  · intro h
    obtain ⟨b, a, ha, hb⟩ := h
    exact ⟨a, ha, b, hb⟩
  · intro h
    obtain ⟨a, ha, b, hb⟩ := h
    exact ⟨b, a, ha, hb⟩

/-- `asyncio.gather(*calls)`: the results in the order of the calls, or an exception one of them
raised. -/
def gatherAll : List (Except ε α) → Except ε (List α)
  | [] => .ok []
  | .ok a :: calls =>
    match gatherAll calls with
    | .ok results => .ok (a :: results)
    | .error e => .error e
  | .error e :: _ => .error e

/-- `gather` ends well exactly if every call does, and then it has the results in the order of the
calls. -/
theorem gatherAll_eq_ok {calls : List (Except ε α)} {results : List α} :
    gatherAll calls = .ok results ↔ calls = results.map .ok := by
  induction calls generalizing results with
  | nil =>
    cases results with
    | nil => exact ⟨fun _ ↦ rfl, fun _ ↦ rfl⟩
    | cons a results => simp [gatherAll]
  | cons call calls ih =>
    cases call with
    | error e =>
      cases results with
      | nil => simp [gatherAll]
      | cons a results => simp [gatherAll]
    | ok a =>
      rw [gatherAll]
      constructor
      · intro h
        rcases hrest : gatherAll calls with e | rest
        · rw [hrest] at h
          cases h
        · rw [hrest] at h
          cases h
          rw [List.map_cons, ih.1 hrest]
      · intro h
        cases results with
        | nil => cases h
        | cons a' results =>
          obtain ⟨ha, hrest⟩ := List.cons.inj h
          cases ha
          rw [ih.2 hrest]

/-- There are results when no call raised. -/
theorem exists_gatherAll_iff {calls : List (Except ε α)} :
    (∃ results, gatherAll calls = .ok results) ↔ ∀ call ∈ calls, ∃ a, call = .ok a := by
  simp only [gatherAll_eq_ok]
  constructor
  · rintro ⟨results, rfl⟩ call hcall
    obtain ⟨a, -, rfl⟩ := List.mem_map.1 hcall
    exact ⟨a, rfl⟩
  · intro h
    induction calls with
    | nil => exact ⟨[], rfl⟩
    | cons call calls ih =>
      obtain ⟨a, rfl⟩ := h call List.mem_cons_self
      obtain ⟨results, rfl⟩ := ih fun call hcall ↦ h call (List.mem_cons_of_mem _ hcall)
      exact ⟨a :: results, rfl⟩

/-- The results stand in the order of the calls, each that of its own call. -/
theorem gatherAll_map_eq_ok {f : β → Except ε α} {inputs : List β} {results : List α} :
    gatherAll (inputs.map f) = .ok results ↔
      List.Forall₂ (fun input a ↦ f input = .ok a) inputs results := by
  rw [gatherAll_eq_ok, ← List.forall₂_eq_eq_eq, List.forall₂_map_left_iff,
    List.forall₂_map_right_iff]

/-- The results of calls that take one more argument each. -/
theorem forall₂_of_gatherAll_zipWith {γ : Type*} {f : β → γ → Except ε α} {inputs : List β}
    {others : List γ} {results : List α} (hlen : others.length = inputs.length)
    (h : gatherAll (List.zipWith f inputs others) = .ok results) :
    List.Forall₂ (fun input a ↦ ∃ other, f input other = .ok a) inputs results := by
  rw [gatherAll_eq_ok] at h
  induction inputs generalizing others results with
  | nil =>
    rw [List.zipWith_nil_left, eq_comm, List.map_eq_nil_iff] at h
    rw [h]
    exact .nil
  | cons input inputs ih =>
    cases others with
    | nil => cases hlen
    | cons other others =>
      cases results with
      | nil => cases h
      | cons a results =>
        obtain ⟨ha, hrest⟩ := List.cons.inj h
        exact .cons ⟨other, ha⟩ (ih (Nat.succ.inj hlen) hrest)
