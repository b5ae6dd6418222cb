import Mathlib.Data.List.Basic

/-!
# Runs of an event-driven machine

A machine takes an event in a state and either moves to the next state or cannot take the event
there. A run is a list of events all of which can be taken in turn (`exec`). Two things are said of
a run besides where it ends: that each of its steps meets a condition on the event and the state it
is taken in (`Meets`), and what an observer who sees every step has recorded (`observe`).

`exec_invariant` packages the one induction: what holds at the start of the state and the record,
and is kept by every step that meets the condition, holds at the end of every such run.

## How it is used

A condition on the steps is what an assumption about a whole run comes to: every step of the run,
in the state in which it is taken, is one of those the assumption allows. An observer is a fold
over the run, so a record of what went by needs no place in the state of the machine, and adding
one leaves the machine as it is (`observe_prod` joins two of them).

* `exec_append`, `observe_append`, `meets_append`: runs, records and conditions are cut at any
  point, and `exec_snoc` cuts off the last step.
* `exec_invariant_with`: the rule where the condition may also look at the record so far.
* `exec_invariant`, `exec_invariant'`: the same for a condition on the state and the event, with a
  record and without.

A condition is decidable wherever its instances are (`decidableMeets`), so that a run given in
full is checked by evaluation.
-/

variable {S E H : Type*}

/-- A machine driven by events: the next state, or `none` when the event cannot happen. -/
structure Machine (S E : Type*) where
  /-- The step function, which is all there is to a machine. -/
  step : S → E → Option S

namespace Machine

variable (M : Machine S E)

/-- Take the events in order. -/
def exec : S → List E → Option S
  | s, [] => some s
  | s, e :: es => (M.step s e).bind fun s' ↦ exec s' es

/-- Every step of the run meets `P`, a condition on the state before it and its event. -/
def Meets (P : S → E → Prop) : S → List E → Prop
  | _, [] => True
  | s, e :: es => P s e ∧ ∀ s' ∈ M.step s e, Meets P s' es

instance decidableMeets (P : S → E → Prop) [∀ s e, Decidable (P s e)] :
    ∀ s es, Decidable (M.Meets P s es)
  | _, [] => inferInstanceAs (Decidable True)
  | s, e :: es =>
    have : ∀ s', Decidable (M.Meets P s' es) := fun s' ↦ decidableMeets P s' es
    inferInstanceAs (Decidable (P s e ∧ ∀ s' ∈ M.step s e, M.Meets P s' es))

/-- The record of an observer who updates it at every step, seeing the state before the step. -/
def observe (f : S → E → H → H) : S → List E → H → H
  | _, [], h => h
  | s, e :: es, h =>
    match M.step s e with
    | none => h
    | some s' => observe f s' es (f s e h)

variable {M}

@[simp] theorem exec_nil (s : S) : M.exec s [] = some s := rfl

/-- A run is its first step, and a run from where that leads. -/
theorem exec_cons {s t : S} {e : E} {es : List E} :
    M.exec s (e :: es) = some t ↔ ∃ s', M.step s e = some s' ∧ M.exec s' es = some t :=
  Option.bind_eq_some_iff

/-- A run in two parts goes through a state between them. -/
theorem exec_append {s t : S} {es es' : List E} :
    M.exec s (es ++ es') = some t ↔ ∃ u, M.exec s es = some u ∧ M.exec u es' = some t := by
  induction es generalizing s with
  | nil => simp
  | cons e es ih =>
    rw [List.cons_append, exec_cons]
    constructor
    · rintro ⟨s', hs', h⟩
      obtain ⟨u, hu, ht⟩ := ih.1 h
      exact ⟨u, exec_cons.2 ⟨s', hs', hu⟩, ht⟩
    · rintro ⟨u, hu, ht⟩
      obtain ⟨s', hs', hu'⟩ := exec_cons.1 hu
      exact ⟨s', hs', ih.2 ⟨u, hu', ht⟩⟩

/-- The same with the last step taken by itself, as the invariants of whole runs need it. -/
theorem exec_snoc {s t : S} {es : List E} {e : E} :
    M.exec s (es ++ [e]) = some t ↔ ∃ u, M.exec s es = some u ∧ M.step u e = some t := by
  rw [exec_append]
  refine exists_congr fun u ↦ and_congr_right fun _ ↦ ?_
  rw [exec_cons]
  simp

/-- What an observer has written down begins with the first step. -/
theorem observe_cons {f : S → E → H → H} {s s' : S} {e : E} {es : List E} {h : H}
    (hs : M.step s e = some s') :
    M.observe f s (e :: es) h = M.observe f s' es (f s e h) := by
  rw [observe, hs]

/-- What it writes down of the second part goes on from what it has of the first. -/
theorem observe_append {f : S → E → H → H} {s u : S} {es es' : List E} {h : H}
    (hu : M.exec s es = some u) :
    M.observe f s (es ++ es') h = M.observe f u es' (M.observe f s es h) := by
  induction es generalizing s h with
  | nil =>
    obtain rfl := Option.some.inj hu
    rfl
  | cons e es ih =>
    obtain ⟨s', hs', hu'⟩ := exec_cons.1 hu
    rw [List.cons_append, observe_cons hs', ih hu', observe_cons hs']

/-- And of one step more, it writes down that step in the state before it. -/
theorem observe_snoc {f : S → E → H → H} {s u t : S} {es : List E} {e : E} {h : H}
    (hu : M.exec s es = some u) (ht : M.step u e = some t) :
    M.observe f s (es ++ [e]) h = f u e (M.observe f s es h) := by
  rw [observe_append hu, observe_cons ht]
  rfl

/-- Two observers, seen as one. -/
theorem observe_prod {H' : Type*} (f : S → E → H → H) (g : S → E → H' → H') (s : S) (es : List E)
    (h : H) (h' : H') :
    M.observe (fun s e h ↦ (f s e h.1, g s e h.2)) s es (h, h') =
      (M.observe f s es h, M.observe g s es h') := by
  induction es generalizing s h h' with
  | nil => rfl
  | cons e es ih =>
    rw [observe, observe, observe]
    rcases M.step s e with - | s'
    · rfl
    · exact ih s' _ _

/-- The steps of a run in two parts meet a condition if those of both parts do. -/
theorem meets_append {P : S → E → Prop} {s u : S} {es es' : List E}
    (hu : M.exec s es = some u) :
    M.Meets P s (es ++ es') ↔ M.Meets P s es ∧ M.Meets P u es' := by
  induction es generalizing s with
  | nil =>
    obtain rfl := Option.some.inj hu
    simp [Meets]
  | cons e es ih =>
    obtain ⟨s', hs', hu'⟩ := exec_cons.1 hu
    simp only [List.cons_append, Meets, hs', Option.mem_def, Option.some.injEq, forall_eq', ih hu',
      and_assoc]

/-- A condition on every step, said of the step after each part of the run. -/
theorem meets_iff {P : S → E → Prop} {s t : S} {es : List E} (ht : M.exec s es = some t) :
    M.Meets P s es ↔
      ∀ es₁ e es₂ u, es = es₁ ++ e :: es₂ → M.exec s es₁ = some u → P u e := by
  constructor
  · rintro h es₁ e es₂ u rfl hu
    exact ((meets_append hu).1 h).2.1
  · intro h
    induction es generalizing s with
    | nil => trivial
    | cons e es ih =>
      obtain ⟨s', hs', ht'⟩ := exec_cons.1 ht
      refine ⟨h [] e es s rfl rfl, fun s'' hs'' ↦ ?_⟩
      obtain rfl : s' = s'' := Option.some.inj (hs'.symm.trans hs'')
      refine ih ht' fun es₁ e' es₂ u hes hu ↦ ?_
      exact h (e :: es₁) e' es₂ u (by rw [hes, List.cons_append]) (exec_cons.2 ⟨s', hs', hu⟩)

/-- Every step of the run meets `P`, a condition on the state before it, on the record an observer
has made so far, and on its event. -/
def MeetsWith (M : Machine S E) (f : S → E → H → H) (P : S → H → E → Prop) :
    S → List E → H → Prop
  | _, [], _ => True
  | s, e :: es, h => P s h e ∧ ∀ s' ∈ M.step s e, MeetsWith M f P s' es (f s e h)

instance decidableMeetsWith (f : S → E → H → H) (P : S → H → E → Prop)
    [∀ s h e, Decidable (P s h e)] : ∀ s es h, Decidable (M.MeetsWith f P s es h)
  | _, [], _ => inferInstanceAs (Decidable True)
  | s, e :: es, h =>
    have : ∀ s', Decidable (M.MeetsWith f P s' es (f s e h)) :=
      fun s' ↦ decidableMeetsWith f P s' es (f s e h)
    inferInstanceAs (Decidable (P s h e ∧ ∀ s' ∈ M.step s e, M.MeetsWith f P s' es (f s e h)))

/-- The invariant rule, where the condition may look at the record. -/
theorem exec_invariant_with {f : S → E → H → H} {P : S → H → E → Prop} {I : S → H → Prop}
    (hstep : ∀ s e s' h, P s h e → I s h → M.step s e = some s' → I s' (f s e h)) {es : List E}
    {s t : S} {h : H} (hP : M.MeetsWith f P s es h) (hI : I s h) (ht : M.exec s es = some t) :
    I t (M.observe f s es h) := by
  induction es generalizing s h with
  | nil =>
    obtain rfl := Option.some.inj ht
    exact hI
  | cons e es ih =>
    obtain ⟨s', hs', ht'⟩ := exec_cons.1 ht
    rw [observe_cons hs']
    exact ih (hP.2 s' hs') (hstep s e s' h hP.1 hI hs') ht'

/-- A condition that does not look at the record. -/
theorem Meets.withRecord {P : S → E → Prop} (f : S → E → H → H) {s : S} {es : List E}
    (hP : M.Meets P s es) (h : H) : M.MeetsWith f (fun s _ e ↦ P s e) s es h := by
  induction es generalizing s h with
  | nil => trivial
  | cons e es ih => exact ⟨hP.1, fun s' hs' ↦ ih (hP.2 s' hs') (f s e h)⟩

/-- **The invariant rule**, with an observer: what every step meeting `P` keeps, every run whose
steps meet `P` keeps. -/
theorem exec_invariant {P : S → E → Prop} {f : S → E → H → H} {I : S → H → Prop}
    (hstep : ∀ s e s' h, P s e → I s h → M.step s e = some s' → I s' (f s e h)) :
    ∀ {es : List E} {s t : S} {h : H}, M.Meets P s es → I s h → M.exec s es = some t →
      I t (M.observe f s es h) :=
  fun hP hI ht ↦ exec_invariant_with hstep (hP.withRecord f _) hI ht

/-- The invariant rule without an observer. -/
theorem exec_invariant' {P : S → E → Prop} {I : S → Prop}
    (hstep : ∀ s e s', P s e → I s → M.step s e = some s' → I s') {es : List E} {s t : S}
    (hP : M.Meets P s es) (hI : I s) (ht : M.exec s es = some t) : I t :=
  exec_invariant (f := fun _ _ h ↦ h) (I := fun s (_ : Unit) ↦ I s) (h := ())
    (fun s e s' _ hp hi hs ↦ hstep s e s' hp hi hs) hP hI ht

/-- Every step of a run meets the condition that is always true. -/
theorem meets_true (s : S) (es : List E) : M.Meets (fun _ _ ↦ True) s es := by
  induction es generalizing s with
  | nil => trivial
  | cons e es ih => exact ⟨trivial, fun s' _ ↦ ih s'⟩

end Machine
