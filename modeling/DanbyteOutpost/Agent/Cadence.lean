import DanbyteOutpost.Agent.Steps

/-!
# When the cycles start

The SNMP cycle and the sweep have deadlines of their own, which the work of a batch can bring
forward. It does so only behind the batch: where the batch fails, its handler is entered before the
flags are looked at, and what they asked for is lost. `Timetable` is what a witness of the run knows
of a cycle: when it last ended, and whether a batch that ended well has asked for it since.
`starts_iff` says that this decides when the next one starts, and `hello_iff` the same of the later
`hello`s, which are timed by one another, the first of them by a reading that `_loop` takes before
anything else. Deadlines are sums of floats.

## The proof

`Scheduled` connects the witness with the variable the loop keeps: the deadline of a cycle is what
the timetable says (`Timetable.deadline`), except where the loop is in the middle of that cycle.
It is kept step by step (`scheduled_step`), where the interesting steps are three: a batch that
ended well asks for a cycle (`scheduled_afterBatch`), a cycle ends, by whatever way, and a cycle
begins.

`starts_iff` has a second half: a cycle starts at the reading of the clock that is meant for it
and nowhere else (`fetching_of_step`).

For `hello` the witness only has to remember a reading (`heard`). `starts_iff_onePass` and
`hello_iff_onePass` are readings of one run.
-/

namespace Outpost

variable {ι ν : Type} {env : Env} {a a' : Agent ι ν}

/-- What the clock is read for next, where it is. -/
def Pc.reading? : Pc ι ν → Option Reading
  | .reading what => some what
  | _ => none

theorem Pc.reading?_eq_some {pc : Pc ι ν} {what : Reading} :
    pc.reading? = some what ↔ pc = .reading what := by
  cases pc <;> simp [Pc.reading?]

/-- The work of the batch that ends well in this step. -/
def Agent.served? (a : Agent ι ν) : Event ι ν → Option Json
  | .fetched (some work) =>
    match a.pc, itemsOf work "checks" with
    | .fetching .checks, some [] => some work
    | _, _ => none
  | .posted true =>
    match a.pc with
    | .posting work _ => some work
    | _ => none
  | _ => none

/-- The key by which a batch's work asks for the cycle. -/
def Duty.flag : Duty → String
  | .snmp => "snmp_pending"
  | .sweep => "sweep_pending"

/-- When the cycle last ended, and whether a batch that ended well has asked for it since. -/
structure Timetable where
  /-- The reading made when the cycle last ended; `none` while it has not run. -/
  ended : Option Binary64
  /-- Whether a batch that ended well since then had work that asks for the cycle. -/
  asked : Bool

/-- The witness of a cycle: its end is read off the clock, and the work of a batch that ends well
may ask for it. -/
def timetable (d : Duty) (a : Agent ι ν) (e : Event ι ν) (t : Timetable) : Timetable :=
  match a.pc, e with
  | .reading (.next d'), .clock now => if d' = d then ⟨some now, false⟩ else t
  | _, _ =>
    match a.served? e with
    | some work => { t with asked := t.asked || (field work d.flag).truthy }
    | none => t

/-- The deadline of the next cycle, for the interval the cycle has. -/
def Timetable.deadline (t : Timetable) (interval : ℤ) : Binary64 :=
  if t.asked then 0
  else
    match t.ended with
    | none => 0
    | some s => s + .ofRat interval

/-- The next cycle is due at the deadline of its timetable, except between its end and the reading
of the clock that follows. -/
def Scheduled (d : Duty) (a : Agent ι ν) (t : Timetable) : Prop :=
  a.pc.over = false → a.pc ≠ .reading (.next d) →
    (a.cadence d).next = t.deadline (a.cadence d).interval

/-- The reading that the next `hello` is timed by: the one taken after the last later `hello`, and
before there has been one, that of the start, which is older than the first `hello`. -/
def heard (a : Agent ι ν) (e : Event ι ν) (s : Binary64) : Binary64 :=
  match a.pc, e with
  | .reading .helloNext, .clock now => now
  | _, _ => s

/-! ### One step -/

/-- Work that is served may ask for the cycle, and asking is not undone by work that does not. -/
theorem timetable_served {d : Duty} {e : Event ι ν} {work : Json} (h : a.served? e = some work)
    (t : Timetable) :
    timetable d a e t = { t with asked := t.asked || (field work d.flag).truthy } := by
  unfold timetable
  split
  · cases h
  · rw [h]

/-- A step that neither serves work nor reads the clock behind a cycle leaves the timetable. -/
theorem timetable_none {d : Duty} {e : Event ι ν} (h : a.served? e = none)
    (hpc : ∀ d', a.pc ≠ .reading (.next d')) (t : Timetable) : timetable d a e t = t := by
  unfold timetable
  split
  · exact absurd ‹_› (hpc _)
  · rw [h]

/-- What a batch's work does to a deadline. -/
theorem next_afterBatch (work : Json) (a : Agent ι ν) (d : Duty) :
    (a.afterBatch work).cadence d =
      { a.cadence d with
        next := if (field work d.flag).truthy then 0 else (a.cadence d).next } := by
  obtain ⟨_, _, h, hsnmp, hsweep⟩ := afterBatch_eq work a
  rw [h]
  cases d
  · exact congrArg (Cadence.mk _) hsnmp
  · exact congrArg (Cadence.mk _) hsweep

/-- To be asked makes the deadline the past; otherwise it stays. -/
theorem deadline_asked (t : Timetable) (b : Bool) (interval : ℤ) :
    Timetable.deadline { t with asked := t.asked || b } interval =
      if b then 0 else t.deadline interval := by
  cases b <;> cases hasked : t.asked <;> simp [Timetable.deadline, hasked]

/-- The end of a batch sets the deadline as its work asks, which is what the timetable writes
down. -/
theorem scheduled_afterBatch {d : Duty} {t : Timetable} (h : Scheduled d a t)
    (hopen : a.pc.over = false) (hpc : ∀ d', a.pc ≠ .reading (.next d')) (work : Json) :
    Scheduled d (a.afterBatch work)
      { t with asked := t.asked || (field work d.flag).truthy } := by
  intro _ _
  rw [next_afterBatch, deadline_asked, h hopen (hpc d)]

/-- A fetch ends a batch when there are no checks in it. -/
theorem served?_fetched {answer : Option Json} (hpc : a.pc = .fetching .checks)
    (hne : ∀ work, answer = some work → itemsOf work "checks" ≠ some []) :
    a.served? (.fetched answer) = none := by
  rcases answer with - | work
  · rfl
  · unfold Agent.served?
    simp only [hpc]
    split
    · exact absurd ‹_› (hne work rfl)
    · rfl

/-- Work without a check in it is served by its fetch. -/
theorem served?_empty {work : Json} (hpc : a.pc = .fetching .checks)
    (hempty : itemsOf work "checks" = some []) :
    a.served? (.fetched (some work)) = some work := by
  simp only [Agent.served?, hpc, hempty]

theorem served?_duty {answer : Option Json} {d : Duty} (hpc : a.pc = .fetching (.duty d)) :
    a.served? (.fetched answer) = none := by
  rcases answer with - | work
  · rfl
  · simp only [Agent.served?, hpc]

/-- A batch is served by the post of its results. -/
theorem served?_posted {work : Json} {results : List Checks.Result}
    (hpc : a.pc = .posting work results) : a.served? (.posted true) = some work := by
  simp only [Agent.served?, hpc]

theorem served?_reported {d : Duty} {interval : ℤ} {payload : Payload ι ν}
    (hpc : a.pc = .reporting d interval payload) : a.served? (.posted true) = none := by
  simp only [Agent.served?, hpc]

/-- The end of a cycle, read off the clock. -/
theorem timetable_next {d d' : Duty} (hpc : a.pc = .reading (.next d')) (now : Binary64)
    (t : Timetable) :
    timetable d a (.clock now) t = if d' = d then ⟨some now, false⟩ else t := by
  simp only [timetable, hpc]

/-- The step lemma. `next_snmp` and `next_sweep` are written in two places, at the end of a batch
and by the reading behind a cycle; every other step keeps both sides as they are. -/
theorem scheduled_step {d : Duty} {e : Event ι ν} {t : Timetable} (h : Scheduled d a t)
    (hstep : a.step env e = some a') : Scheduled d a' (timetable d a e t) := by
  have hkeep : ∀ {pc}, a.pc = pc → pc.over = false → (∀ d', pc ≠ .reading (.next d')) →
      a.served? e = none → a'.cadence d = a.cadence d → Scheduled d a' (timetable d a e t) := by
    intro pc hpc hopen hne hserved hcadence _ _
    rw [timetable_none hserved (by rw [hpc]; exact hne), hcadence]
    exact h (hpc ▸ hopen) (hpc ▸ hne d)
  have hover : a'.pc.over = true → Scheduled d a' (timetable d a e t) := by
    intro hover hopen
    rw [hover] at hopen
    cases hopen
  -- a cycle that returns leaves the other one alone
  have hreturned : ∀ {pc d' interval}, a.pc = pc → pc.over = false →
      (∀ d', pc ≠ .reading (.next d')) → a.served? e = none → a' = a.cycleDone d' interval →
      Scheduled d a' (timetable d a e t) := by
    intro pc d' interval hpc hopen hne hserved ha'
    by_cases hd : d = d'
    · intro _ hnext
      rw [ha', hd] at hnext
      exact absurd rfl hnext
    · exact hkeep hpc hopen hne hserved (by rw [ha']; exact setCadence_ne a hd _)
  have hsame : ∀ {b : Agent ι ν}, b.snmp = a.snmp → b.sweep = a.sweep →
      b.cadence d = a.cadence d := by
    intro b hsnmp hsweep
    cases d
    · exact hsnmp
    · exact hsweep
  cases steps_of_step hstep with
  | helloed hpc hends =>
    cases hends with
    | top => exact hkeep hpc rfl (by simp) rfl ((top_cadence _ d).trans (hsame rfl rfl))
    | updating | next => exact hkeep hpc rfl (by simp) rfl (hsame rfl rfl)
  | replaced | stop | closed => exact hover rfl
  | @notReplaced startup hpc =>
    cases startup with
    | true => exact hkeep hpc rfl (by simp) rfl ((top_cadence _ d).trans (hsame rfl rfl))
    | false => exact hkeep hpc rfl (by simp) rfl (hsame rfl rfl)
  | work hpc hends =>
    cases hends with
    | failed hnone =>
      refine hkeep hpc rfl (by simp) (served?_fetched hpc fun work h ↦ ?_) (hsame rfl rfl)
      rw [hnone work h]
      simp
    | empty work hanswer hempty =>
      subst hanswer
      rw [timetable_served (served?_empty hpc hempty)]
      exact scheduled_afterBatch h (by rw [hpc]; rfl) (by rw [hpc]; simp) work
    | checking work items hanswer hitems hne =>
      refine hkeep hpc rfl (by simp) (served?_fetched hpc fun work' h ↦ ?_) (hsame rfl rfl)
      rw [hanswer, Option.some.injEq] at h
      rw [← h, hitems]
      simpa using hne
  | posted hpc =>
    rw [timetable_served (served?_posted hpc)]
    exact scheduled_afterBatch h (by rw [hpc]; rfl) (by rw [hpc]; simp) _
  | dutyWork hpc hends =>
    cases hends with
    | failed | cycling => exact hkeep hpc rfl (by simp) (served?_duty hpc) (hsame rfl rfl)
    | empty => exact hreturned hpc rfl (by simp) (served?_duty hpc) rfl
  | reported hpc => exact hreturned hpc rfl (by simp) (served?_reported hpc) rfl
  | checked hpc _ hends => cases hends <;> exact hkeep hpc rfl (by simp) rfl (hsame rfl rfl)
  | polled hpc _ hends | swept hpc hends =>
    cases hends <;> exact hkeep hpc rfl (by simp) rfl (hsame rfl rfl)
  | unnamed hpc | named hpc | notPosted hpc | notReported hpc =>
    exact hkeep hpc rfl (by simp) rfl (hsame rfl rfl)
  | @clock what now _ hpc hends =>
    cases hends with
    | begin | skip | hello => exact hkeep hpc rfl (by simp) rfl (hsame rfl rfl)
    | overflow => exact hover rfl
    | noHello => exact hkeep hpc rfl (by simp) rfl ((rest_cadence _ d).trans (hsame rfl rfl))
    | helloNext => exact hkeep hpc rfl (by simp) rfl ((rest_cadence _ d).trans (hsame rfl rfl))
    | next d' =>
      rw [timetable_next hpc]
      by_cases hd : d' = d
      · subst hd
        intro _ _
        show ((a.setNext d' _).cadence d').next =
          Timetable.deadline _ ((a.setNext d' _).cadence d').interval
        rw [if_pos rfl, Agent.setNext, setCadence_self]
        rfl
      · intro _ _
        show ((a.setNext d' _).cadence d).next =
          Timetable.deadline _ ((a.setNext d' _).cadence d).interval
        rw [if_neg hd, Agent.setNext, setCadence_ne a (Ne.symm hd)]
        refine h (by rw [hpc]; rfl) (by rw [hpc]; simpa using hd)
  | slept hpc =>
    rcases hpc with hpc | hpc <;> exact hkeep hpc rfl (by simp) rfl (top_cadence a d)
  | lane hawaits =>
    intro hopen hne
    rw [timetable_none rfl fun d' hd' ↦ (by rw [hd'] at hawaits; cases hawaits)]
    cases d <;> exact h hopen hne

/-- Where the loop fetches the work of a cycle, it has just read the clock for it. -/
theorem fetching_of_step {d : Duty} {e : Event ι ν} (hstep : a.step env e = some a')
    (hpc : a'.pc = .fetching (.duty d)) (hne : a.pc ≠ .fetching (.duty d)) :
    a.pc = .reading (.due d) ∧ ∃ now, e = .clock now := by
  have htop : ∀ b : Agent ι ν, b.top.pc ≠ .fetching (.duty d) := by
    intro b
    obtain ⟨_, _, h, rfl | rfl⟩ := top_eq b <;> rw [h] <;> simp
  have hrest : ∀ b : Agent ι ν, b.rest.pc ≠ .fetching (.duty d) := by
    intro b
    obtain ⟨_, _, h, rfl | rfl⟩ := rest_eq b <;> rw [h] <;> simp
  cases steps_of_step hstep with
  | clock hread hends =>
    cases hends with
    | begin d' =>
      cases hpc
      exact ⟨hread, _, rfl⟩
    | noHello | helloNext => exact absurd hpc (hrest _)
    | skip | next | overflow | hello => cases hpc
  | helloed _ hends =>
    cases hends with
    | top => exact absurd hpc (htop _)
    | updating | next => cases hpc
  | @notReplaced startup =>
    cases startup with
    | true => exact absurd hpc (htop _)
    | false => cases hpc
  | slept => exact absurd hpc (htop a)
  | lane => exact absurd hpc hne
  | work _ hends => cases hends <;> cases hpc
  | dutyWork _ hends => cases hends <;> cases hpc
  | checked _ _ hends => cases hends <;> cases hpc
  | polled _ _ hends | swept _ hends => cases hends <;> cases hpc
  | _ => cases hpc

/-- **When a cycle starts.** In every run, when the loop reads the clock for a cycle, the cycle
starts exactly if the work of a batch that ended well has asked for it since it last ended, or its
interval has passed since then, or it has not run before. It starts at no other time.

A batch that does not end well asks for nothing, whatever its work says: the flags are read behind
the post. -/
theorem starts_iff {pollSeconds : ℤ} {start : Binary64} {es : List (Event ι ν)}
    (hrun : (agent env).exec (.init pollSeconds start) es = some a) (d : Duty) :
    let t := (agent env).observe (timetable d) (.init pollSeconds start) es ⟨none, false⟩
    (∀ now, 0 ≤ now → a.pc = .reading (.due d) →
      ∃ a', a.step env (.clock now) = some a' ∧ (a'.pc = .fetching (.duty d) ↔
        t.asked = true ∨ ∀ s ∈ t.ended, s + .ofRat (a.cadence d).interval ≤ now)) ∧
    ∀ e a', a.step env e = some a' → a'.pc = .fetching (.duty d) → a.pc ≠ .fetching (.duty d) →
      a.pc = .reading (.due d) ∧ ∃ now, e = .clock now := by
  intro t
  have h := (agent env).exec_invariant (P := fun _ _ ↦ True) (f := timetable d) (I := Scheduled d)
    (fun _ _ _ _ _ hs hstep ↦ scheduled_step hs hstep) (h := ⟨none, false⟩)
    (Machine.meets_true _ es) (fun _ _ ↦ by cases d <;> rfl) hrun
  refine ⟨fun now hnow hpc ↦ ⟨a.read now (.due d), by simp only [Agent.step, hpc], ?_⟩,
    fun e a' hstep ↦ fetching_of_step hstep⟩
  have hnext : (a.cadence d).next = t.deadline (a.cadence d).interval :=
    h (by rw [hpc]; rfl) (by rw [hpc]; simp)
  have hdue : (a.cadence d).next ≤ now ↔
      t.asked = true ∨ ∀ s ∈ t.ended, s + .ofRat (a.cadence d).interval ≤ now := by
    rw [hnext, Timetable.deadline]
    rcases t.asked <;> rcases t.ended with - | s <;> simp [hnow]
  rw [← hdue, Agent.read]
  split
  case isTrue hle => exact ⟨fun _ ↦ hle, fun _ ↦ rfl⟩
  case isFalse hlt =>
    refine ⟨fun hpc' ↦ ?_, fun hle ↦ absurd hle hlt⟩
    cases d <;> cases hpc'

/-- The sweep has been asked for when the clock is read for it. -/
theorem starts_iff_onePass :
    ∃ a a', (agent lab).exec (.init 15 0) (onePass.take 8) = some a ∧
      a.step lab (.clock 12) = some a' ∧ a'.pc = .fetching (.duty .sweep) := by
  have hread : ((agent lab).exec (.init 15 0) (onePass.take 8)).map (·.pc.reading?) =
      some (some (.due .sweep)) := by decide +kernel
  obtain ⟨a, hrun, hdue⟩ := Option.map_eq_some_iff.1 hread
  rw [Pc.reading?_eq_some] at hdue
  obtain ⟨a', hstep, hiff⟩ := (starts_iff hrun .sweep).1 12 (by decide +kernel) hdue
  exact ⟨a, a', hrun, hstep, hiff.2 (.inl (by decide +kernel))⟩

/-! ### The later `hello`s -/

/-- A step other than the reading behind a later `hello` leaves the moment it is timed by. -/
theorem heard_of_ne {e : Event ι ν} (hpc : a.pc ≠ .reading .helloNext) (s : Binary64) :
    heard a e s = s := by
  unfold heard
  split
  · exact absurd ‹_› hpc
  · rfl

/-- The step lemma of the later `hello`s: `next_hello` is always 300 seconds, as floats are added,
behind the reading it was set by. -/
theorem heard_step {e : Event ι ν} {s : Binary64} (h : a.nextHello = s + 300)
    (hstep : a.step env e = some a') : a'.nextHello = heard a e s + 300 := by
  -- the only step that sets `next_hello` is the reading behind a later `hello`
  have hkeep : ∀ {pc}, a.pc = pc → pc ≠ .reading .helloNext → a'.nextHello = a.nextHello →
      a'.nextHello = heard a e s + 300 := by
    intro pc hpc hne hnext
    rw [heard_of_ne (hpc ▸ hne), hnext, h]
  cases steps_of_step hstep with
  | helloed hpc hends =>
    cases hends with
    | top => exact hkeep hpc (by simp) (top_nextHello _)
    | updating | next => exact hkeep hpc (by simp) rfl
  | @notReplaced startup hpc =>
    cases startup with
    | true => exact hkeep hpc (by simp) (top_nextHello _)
    | false => exact hkeep hpc (by simp) rfl
  | work hpc hends =>
    cases hends with
    | failed | checking => exact hkeep hpc (by simp) rfl
    | empty work => exact hkeep hpc (by simp) (afterBatch_nextHello work a)
  | posted hpc => exact hkeep hpc (by simp) (afterBatch_nextHello _ a)
  | dutyWork hpc hends =>
    cases hends with
    | failed | cycling => exact hkeep hpc (by simp) rfl
    | empty => exact hkeep hpc (by simp) (setCadence_nextHello _ _ _)
  | reported hpc => exact hkeep hpc (by simp) (setCadence_nextHello _ _ _)
  | checked hpc _ hends => cases hends <;> exact hkeep hpc (by simp) rfl
  | polled hpc _ hends | swept hpc hends => cases hends <;> exact hkeep hpc (by simp) rfl
  | @clock what now _ hpc hends =>
    cases hends with
    | begin | skip | overflow | hello => exact hkeep hpc (by simp) rfl
    | next => exact hkeep hpc (by simp) (setCadence_nextHello _ _ _)
    | noHello => exact hkeep hpc (by simp) (rest_nextHello a)
    | helloNext =>
      rw [rest_nextHello]
      simp only [heard, hpc]
  | slept hpc => rcases hpc with hpc | hpc <;> exact hkeep hpc (by simp) (top_nextHello a)
  | lane hawaits =>
    exact hkeep rfl (fun hpc ↦ by rw [hpc] at hawaits; cases hawaits) rfl
  | stop hcan => exact hkeep rfl (fun hpc ↦ by rw [hpc] at hcan; cases hcan) rfl
  | replaced hpc | unnamed hpc | named hpc | notPosted hpc | notReported hpc | closed hpc =>
    exact hkeep hpc (by simp) rfl

/-- **When a later `hello` is sent**: in every run, when the loop reads the clock for it, one is
sent exactly if 300 seconds have passed since the reading that it is timed by. -/
theorem hello_iff {pollSeconds : ℤ} {start : Binary64} {es : List (Event ι ν)}
    (hrun : (agent env).exec (.init pollSeconds start) es = some a) {now : Binary64}
    (hpc : a.pc = .reading .helloDue) :
    ∃ a', a.step env (.clock now) = some a' ∧ (a'.pc = .hello false ↔
      (agent env).observe heard (.init pollSeconds start) es start + 300 ≤ now) := by
  have h := (agent env).exec_invariant (P := fun _ _ ↦ True) (f := heard)
    (I := fun a s ↦ a.nextHello = s + 300) (fun _ _ _ _ _ hs hstep ↦ heard_step hs hstep)
    (h := start) (Machine.meets_true _ es) rfl hrun
  refine ⟨a.read now .helloDue, by simp only [Agent.step, hpc], ?_⟩
  rw [← h, Agent.read]
  split
  case isTrue hle => exact ⟨fun _ ↦ hle, fun _ ↦ rfl⟩
  case isFalse hlt =>
    refine ⟨fun hpc' ↦ ?_, fun hle ↦ absurd hle hlt⟩
    obtain ⟨_, _, hrest, rfl | rfl⟩ := rest_eq a <;> rw [hrest] at hpc' <;> cases hpc'

/-- The loop was started at 0, and at 301 it sends another `hello`. -/
theorem hello_iff_onePass :
    ∃ a a', (agent lab).exec (.init 15 0) (onePass.take 11) = some a ∧
      a.step lab (.clock 301) = some a' ∧ a'.pc = .hello false := by
  have hread : ((agent lab).exec (.init 15 0) (onePass.take 11)).map (·.pc.reading?) =
      some (some .helloDue) := by decide +kernel
  obtain ⟨a, hrun, hdue⟩ := Option.map_eq_some_iff.1 hread
  rw [Pc.reading?_eq_some] at hdue
  obtain ⟨a', hstep, hiff⟩ := hello_iff hrun hdue
  exact ⟨a, a', hrun, hstep, hiff.2 (by decide +kernel)⟩

end Outpost
