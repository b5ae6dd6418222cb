import DanbyteOutpost.Agent.Steps

/-!
# When the agent crashes

Most of the loop stands inside `try`s. What does not: `info.get("fast")` at its top, and the sums of
a reading of the clock and an interval, which fail where the interval is too large for a float. The
answers to a later `hello` are kept whatever they are, so one that is no object ends the agent at
the next top of the loop, unless the lane is up and nobody asks. `crashed_iff` says that, while the
intervals are of a reasonable size, there is no other way.

## Three fates

While the lane is down, the loop looks at the last answer to `hello` at its top. So from an answer
that is no object on, the agent is `Doomed`: it goes on to its next top and ends there. With the
lane up nobody looks, and the agent stays `Well` with such an answer. `fate` is the observer that
tells which, and `Fated` what holds of the agent in each; a step from one to another is one lemma
(`well_step`, `doomed_step`, `crashed_step`).

The bound on the intervals takes away the other way to crash. `Bounds` is the invariant that they
fit, and `bounded` the condition on the events that bring them.
-/

namespace Outpost

variable {ι ν : Type} {env : Env} {a a' : Agent ι ν}

/-- The loop ended, or is about to end, with an exception. -/
def Pc.crashed : Pc ι ν → Bool
  | .closing .crashed | .ended .crashed => true
  | _ => false

/-! ### Intervals that fit -/

/-- The interval the answer brings, if any, fits a float. -/
def bounded (a : Agent ι ν) (e : Event ι ν) : Bool :=
  match a.pc, e with
  | .hello true, .helloed (some info) =>
    ((info.get? "poll_interval_seconds").bind (Snmp.nextInterval a.poll)).all fits
  | .fetching (.duty d), .fetched (some work) =>
    ((work.get? "interval_seconds").bind (Snmp.nextInterval (a.cadence d).interval)).all fits
  | _, _ => true

/-- The interval a cycle is about to return. -/
def Pc.returning : Pc ι ν → Option ℤ
  | .cycling _ interval _ | .reporting _ interval _ => some interval
  | _ => none

/-- All intervals of the agent fit. -/
structure Bounds (a : Agent ι ν) : Prop where
  /-- `poll`, which the first `hello` may replace. -/
  poll : fits a.poll = true
  /-- The intervals of both cycles. -/
  interval : ∀ d, fits (a.cadence d).interval = true
  /-- And the one that a cycle under way will leave behind. -/
  returning : ∀ interval ∈ a.pc.returning, fits interval = true

/-- The loop goes on with the intervals of its cycles. -/
theorem Bounds.keep (h : Bounds a) (hpoll : fits a'.poll = true)
    (hinterval : ∀ d, (a'.cadence d).interval = (a.cadence d).interval)
    (hpc : a'.pc.returning = none) : Bounds a' where
  poll := hpoll
  interval d := by rw [hinterval, h.interval]
  returning interval hmem := by
    rw [hpc] at hmem
    cases hmem

/-- The loop sleeps at the end of a pass. -/
theorem Bounds.rest (h : Bounds a) : a.rest = { a with pc := .sleeping } := by
  rcases rest_cases a with ⟨-, hfits, -⟩ | ⟨-, hrest⟩
  · rw [h.poll] at hfits
    cases hfits
  · exact hrest

/-- The moment of the next `hello` is no interval, so the bounds do not mind it. -/
theorem Bounds.hello (h : Bounds a) (next : Binary64) : Bounds { a with nextHello := next } :=
  ⟨h.poll, h.interval, h.returning⟩

/-- To set when a cycle is next due leaves its interval. -/
theorem interval_setCadence (a : Agent ι ν) (d d' : Duty) (c : Cadence)
    (hc : c.interval = (a.cadence d).interval) :
    ((a.setCadence d c).cadence d').interval = (a.cadence d').interval := by
  by_cases hd : d' = d
  · rw [hd, setCadence_self, hc]
  · rw [setCadence_ne a hd]

/-- And so does the end of a batch, which may ask for a cycle at once. -/
theorem interval_afterBatch (work : Json) (a : Agent ι ν) (d : Duty) :
    ((a.afterBatch work).cadence d).interval = (a.cadence d).interval := by
  obtain ⟨_, _, h, -, -⟩ := afterBatch_eq work a
  rw [h]
  cases d <;> rfl

/-- At the top of the loop there is no `hello` under way. -/
theorem returning_top (a : Agent ι ν) : a.top.pc.returning = none := by
  obtain ⟨_, _, h, rfl | rfl⟩ := top_eq a <;> rw [h] <;> rfl

theorem returning_rest (a : Agent ι ν) : a.rest.pc.returning = none := by
  obtain ⟨_, _, h, rfl | rfl⟩ := rest_eq a <;> rw [h] <;> rfl

/-- A cycle that ends takes over the interval of its work, which is one that fits. -/
theorem Bounds.cycleDone (h : Bounds a) (d : Duty) {interval : ℤ} (hfits : fits interval = true) :
    Bounds (a.cycleDone d interval) where
  poll := (congrArg fits (setCadence_poll _ _ _)).trans h.poll
  interval d' := by
    show fits ((a.setCadence d _).cadence d').interval = true
    by_cases hd : d' = d
    · rw [hd, setCadence_self]
      exact hfits
    · rw [setCadence_ne a hd, h.interval]
  returning interval hmem := by cases hmem

/-- The step lemma of the bounds: an interval is taken over only from work, and the condition is
that those fit. -/
theorem bounds_step {e : Event ι ν} (h : Bounds a) (he : bounded a e = true)
    (hstep : a.step env e = some a') : Bounds a' := by
  -- most steps touch no interval, or come to the top of the loop
  have hkeep : a'.poll = a.poll → (∀ d, (a'.cadence d).interval = (a.cadence d).interval) →
      a'.pc.returning = none → Bounds a' := fun hpoll ↦ h.keep (by rw [hpoll, h.poll])
  have hsame : ∀ {b : Agent ι ν}, b.snmp = a.snmp → b.sweep = a.sweep →
      ∀ d, (b.cadence d).interval = (a.cadence d).interval := by
    intro b hsnmp hsweep d
    cases d
    · exact congrArg Cadence.interval hsnmp
    · exact congrArg Cadence.interval hsweep
  have htop : ∀ b : Agent ι ν, fits b.poll = true → b.snmp = a.snmp → b.sweep = a.sweep →
      Bounds b.top := fun b hpoll hsnmp hsweep ↦ h.keep (by rw [top_poll, hpoll])
    (fun d ↦ by rw [top_cadence, hsame hsnmp hsweep]) (returning_top b)
  cases steps_of_step hstep with
  | @helloed startup answer b hpc hends =>
    -- only the first `hello` can change the poll interval
    have hafter : startup = true → ∀ poll, PollAfter a answer poll → fits poll = true := by
      intro hstartup poll hpoll
      rcases hpoll with rfl | ⟨info, rfl, hpoll⟩
      · exact h.poll
      · simp only [bounded, hpc, hstartup, hpoll, Option.all_some] at he
        exact he
    cases hends with
    | top info poll _ _ hpoll => exact htop _ (hafter rfl poll hpoll) rfl rfl
    | updating startup info poll _ _ hlater hpoll =>
      refine h.keep ?_ (hsame rfl rfl) rfl
      cases startup with
      | true => exact hafter rfl poll hpoll
      | false =>
        rw [hlater rfl]
        exact h.poll
    | next => exact hkeep rfl (hsame rfl rfl) rfl
  | @notReplaced startup hpc =>
    cases startup with
    | true => exact htop _ h.poll rfl rfl
    | false => exact hkeep rfl (hsame rfl rfl) rfl
  | slept => exact htop a h.poll rfl rfl
  | work _ hends =>
    cases hends with
    | failed | checking => exact hkeep rfl (hsame rfl rfl) rfl
    | empty work => exact hkeep (afterBatch_poll work a) (interval_afterBatch work a) rfl
  | posted => exact hkeep (afterBatch_poll _ a) (interval_afterBatch _ a) rfl
  | dutyWork hpc hends =>
    cases hends with
    | failed => exact hkeep rfl (hsame rfl rfl) rfl
    | empty work interval hanswer hinterval =>
      subst hanswer
      simp only [bounded, hpc, hinterval, Option.all_some] at he
      exact h.cycleDone _ he
    -- the interval of a cycle is a local variable until its post has ended
    | cycling work interval items hanswer hinterval =>
      subst hanswer
      simp only [bounded, hpc, hinterval, Option.all_some] at he
      exact ⟨h.poll, h.interval, fun i hi ↦ Option.some.inj hi ▸ he⟩
  | polled hpc _ hends | swept hpc hends =>
    cases hends with
    | failed => exact hkeep rfl (hsame rfl rfl) rfl
    | reporting payload _ =>
      exact ⟨h.poll, h.interval, fun i hi ↦ h.returning i (by rw [hpc]; exact hi)⟩
  | reported hpc => exact h.cycleDone _ (h.returning _ (by rw [hpc]; rfl))
  | checked _ _ hends => cases hends <;> exact hkeep rfl (hsame rfl rfl) rfl
  | clock _ hends =>
    cases hends with
    | next d => exact hkeep (setCadence_poll _ _ _) (fun d' ↦ interval_setCadence a d d' _ rfl) rfl
    | noHello => exact hkeep (rest_poll a) (fun d ↦ by rw [rest_cadence]) (returning_rest a)
    | helloNext =>
      exact hkeep (rest_poll _) (fun d ↦ by rw [rest_cadence]; cases d <;> rfl) (returning_rest _)
    | _ => exact hkeep rfl (hsame rfl rfl) rfl
  | lane => exact ⟨h.poll, h.interval, h.returning⟩
  | _ => exact hkeep rfl (hsame rfl rfl) rfl

/-! ### The answers to `hello` -/

/-- What the answers to the later `hello`s have come to. -/
inductive Fate
  /-- No answer so far has spoilt anything. -/
  | well
  /-- One was no object, and no lane was up. -/
  | doomed
  /-- And the sleep after it is over. -/
  | dead
  deriving DecidableEq

/-- How a step moves that on: only the answer to a later `hello` and the end of a sleep do. -/
def fate (a : Agent ι ν) (e : Event ι ν) : Fate → Fate
  | .well =>
    match a.pc, e with
    | .hello false, .helloed (some info) =>
      if a.fast.isNone && (info.get? "fast").isNone then .doomed else .well
    | _, _ => .well
  | .doomed =>
    match e with
    | .slept => .dead
    | _ => .doomed
  | .dead => .dead

/-- The next top of the loop raises nothing. -/
structure Well (a : Agent ι ν) : Prop where
  /-- It has not raised one before. -/
  crashed : a.pc.crashed = false
  /-- Where no lane is up and the loop goes on, `info` is an object: the one thing the top reads of
  it is `fast`. While the first `hello` is out there is nothing to read yet. -/
  info : a.fast = none → a.pc.over = false → a.pc = .hello true ∨ a.info.get? "fast" ≠ none

/-- The next top of the loop raises an exception. -/
structure Doomed (a : Agent ι ν) : Prop where
  /-- It has not raised one before. -/
  crashed : a.pc.crashed = false
  /-- No lane is up, `info` is no object, and what is left before the top is the reading of the
  clock and the sleep. -/
  waits : a.pc.over = false → a.fast = none ∧ a.info.get? "fast" = none ∧
    (a.pc = .reading .helloNext ∨ a.pc = .sleeping)

/-- The state agrees with what the answers have come to. -/
def Fated (a : Agent ι ν) : Fate → Prop
  | .well => Well a
  | .doomed => Doomed a
  | .dead => a.pc.crashed = true

/-- At the top of the loop all is well if there is a lane, or the answer to `hello` can be asked for
one. -/
theorem well_top (h : a.fast = none → a.info.get? "fast" ≠ none) : Well a.top := by
  rcases top_cases a with ⟨hfast, hinfo, -⟩ | ⟨-, htop⟩ | ⟨-, -, htop⟩
  · exact absurd hinfo (h hfast)
  · rw [htop]
    exact ⟨rfl, fun hfast _ ↦ .inr (h hfast)⟩
  · rw [htop]
    exact ⟨rfl, fun hfast ↦ by cases hfast⟩

/-- A crash is not recovered from. -/
theorem crashed_step {e : Event ι ν} (hstep : a.step env e = some a')
    (hcrashed : a.pc.crashed = true) : a'.pc.crashed = true := by
  have hpc : ∀ pc, a.pc = pc → pc.crashed = true := fun pc h ↦ h ▸ hcrashed
  cases steps_of_step hstep with
  | lane => exact hcrashed
  | @closed why h =>
    cases why with
    | crashed => rfl
    | stopped | replaced => cases hpc _ h
  | stop h =>
    revert h hcrashed
    cases a.pc <;> simp [Pc.cancellable, Pc.crashed]
  | slept h => rcases h with h | h <;> cases hpc _ h
  | helloed h | replaced h | notReplaced h | work h | dutyWork h | checked h | unnamed h | named h
  | polled h | swept h | posted h | notPosted h | reported h | notReported h | clock h =>
    cases hpc _ h

/-- After the loop has ended in another way, it does not crash. -/
theorem uncrashed_step {e : Event ι ν} (hstep : a.step env e = some a')
    (hover : a.pc.over = true) (hcrashed : a.pc.crashed = false) : a'.pc.crashed = false := by
  have hpc : ∀ pc, a.pc = pc → pc.over = true := fun pc h ↦ h ▸ hover
  cases steps_of_step hstep with
  | lane => exact hcrashed
  | stop => rfl
  | @closed why h =>
    cases why with
    | crashed =>
      rw [h] at hcrashed
      cases hcrashed
    | stopped | replaced => rfl
  | slept h => rcases h with h | h <;> cases hpc _ h
  | helloed h | replaced h | notReplaced h | work h | dutyWork h | checked h | unnamed h | named h
  | polled h | swept h | posted h | notPosted h | reported h | notReported h | clock h =>
    cases hpc _ h

/-- A step to the sleep comes to the sleep, and one from the sleep to the exception. -/
theorem doomed_step {e : Event ι ν} (hb : Bounds a) (h : Doomed a)
    (hstep : a.step env e = some a') : Fated a' (fate a e .doomed) := by
  have hover : a.pc.over = true → Doomed a' := fun ho ↦
    ⟨uncrashed_step hstep ho h.crashed, fun hopen ↦ by
      rw [over_step hstep ho] at hopen
      cases hopen⟩
  rcases ho : a.pc.over with - | -
  · obtain ⟨hfast, hinfo, hpc⟩ := h.waits ho
    cases steps_of_step hstep with
    | slept =>
      rcases top_cases a with ⟨-, -, htop⟩ | ⟨hor, -⟩ | ⟨-, ⟨_, hget, -⟩, -⟩
      · rw [htop]
        rfl
      · exact absurd hor (by simp [hfast, hinfo])
      · rw [hinfo] at hget
        cases hget
    | lane _ _ hr =>
      rw [hfast] at hr
      cases hr
    | stop => exact ⟨rfl, fun hopen ↦ by cases hopen⟩
    | clock hread hends =>
      rcases hpc with hpc | hpc
      · rw [hread, Pc.reading.injEq] at hpc
        subst hpc
        cases hends with
        | helloNext =>
          rw [(hb.hello _).rest]
          exact ⟨rfl, fun _ ↦ ⟨hfast, hinfo, .inr rfl⟩⟩
      · rw [hread] at hpc
        cases hpc
    | helloed h | replaced h | notReplaced h | work h | dutyWork h | checked h | unnamed h
    | named h | polled h | swept h | posted h | notPosted h | reported h | notReported h
    | closed h => rcases hpc with hpc | hpc <;> cases h.symm.trans hpc
  · cases steps_of_step hstep with
    | slept h => rcases h with h | h <;> rw [h] at ho <;> cases ho
    | _ => exact hover ho

/-- Where the loop is open and not at its first `hello`, `info` is an object or the lane is up. -/
theorem Well.object (h : Well a) (hopen : a.pc.over = false) (hpc : a.pc ≠ .hello true)
    (hfast : a.fast = none) : a.info.get? "fast" ≠ none :=
  (h.info hfast hopen).resolve_left hpc

/-- Only the answer to a `hello` can turn the fate. -/
theorem fate_well {e : Event ι ν} (he : ∀ info, e ≠ .helloed (some info)) :
    fate a e .well = .well := by
  unfold fate
  dsimp only
  split
  · exact absurd rfl (he _)
  · rfl

/-- The answer to the first one does not, since `_loop` has read from it before. -/
theorem fate_startup (hpc : a.pc = .hello true) (e : Event ι ν) : fate a e .well = .well := by
  simp only [fate, hpc]

/-- The answer to a later one does, if it is no object and no lane is up. -/
theorem fate_hello (hpc : a.pc = .hello false) (info : Json) :
    fate a (.helloed (some info)) .well =
      if a.fast.isNone && (info.get? "fast").isNone then .doomed else .well := by
  simp only [fate, hpc]

/-- The answer to a `hello`. -/
theorem well_helloed {info : Json} {startup : Bool} (hpc : a.pc = .hello startup)
    (hends : HelloEnds a (some info) startup a') :
    Fated a' (fate a (.helloed (some info)) .well) := by
  cases hends with
  | top info' poll hobject =>
    rw [fate_startup hpc]
    exact well_top fun _ ↦ hobject
  | updating _ info' poll hanswer hobject =>
    cases hanswer
    have hwell : fate a (.helloed (some info)) .well = .well := by
      cases startup with
      | true => exact fate_startup hpc _
      | false =>
        rw [fate_hello hpc, Option.isNone_eq_false_iff.2 (Option.isSome_iff_ne_none.2 hobject),
          Bool.and_false]
        rfl
    rw [hwell]
    exact ⟨rfl, fun _ _ ↦ .inr hobject⟩
  | next info' hinfo =>
    subst hinfo
    rw [fate_hello hpc]
    split
    case isTrue hbad =>
      rw [Bool.and_eq_true, Option.isNone_iff_eq_none, Option.isNone_iff_eq_none] at hbad
      exact ⟨rfl, fun _ ↦ ⟨hbad.1, hbad.2, .inl rfl⟩⟩
    case isFalse hgood =>
      rw [Bool.and_eq_true, Option.isNone_iff_eq_none, Option.isNone_iff_eq_none] at hgood
      exact ⟨rfl, fun hfast _ ↦ .inr fun hinfo ↦ hgood ⟨hfast, hinfo⟩⟩

/-- While all is well, a step keeps it so, or brings the answer that dooms the loop. Nothing else
that a step does can raise outside a `try`, given that the intervals fit. -/
theorem well_step {e : Event ι ν} (hb : Bounds a) (h : Well a)
    (hstep : a.step env e = some a') : Fated a' (fate a e .well) := by
  by_cases he : ∃ info, e = .helloed (some info)
  · obtain ⟨info, rfl⟩ := he
    cases steps_of_step hstep with
    | helloed hpc hends => exact well_helloed hpc hends
  push Not at he
  rw [fate_well he]
  show Well a'
  -- the loop goes on with the answer and the lane it has
  have hkeep : ∀ {pc}, a.pc = pc → pc.over = false → pc ≠ .hello true → a'.fast = a.fast →
      a'.info = a.info → a'.pc.crashed = false → Well a' := by
    intro pc hpc hopen hne hfast hinfo hcrashed
    refine ⟨hcrashed, fun hnone _ ↦ .inr ?_⟩
    rw [hinfo]
    exact h.object (hpc ▸ hopen) (hpc ▸ hne) (hfast ▸ hnone)
  have htop : ∀ {pc}, a.pc = pc → pc.over = false → pc ≠ .hello true → Well a.top :=
    fun hpc hopen hne ↦ well_top (h.object (hpc ▸ hopen) (hpc ▸ hne))
  cases steps_of_step hstep with
  | @helloed _ answer _ hpc hends =>
    cases hends with
    | top info poll hobject => exact well_top fun _ ↦ hobject
    | updating _ info _ hanswer => exact absurd (congrArg Event.helloed hanswer) (he _)
    | next info hinfo =>
      rcases answer with - | answer
      · exact hkeep hpc rfl (by simp) rfl hinfo rfl
      · exact absurd rfl (he _)
  | replaced | stop => exact ⟨rfl, fun _ hopen ↦ by cases hopen⟩
  | @notReplaced startup hpc =>
    cases startup with
    | true => exact well_top fun _ ↦ by simp [Json.get?]
    | false => exact hkeep hpc rfl (by simp) rfl rfl rfl
  | work hpc hends =>
    cases hends with
    | failed | checking => exact hkeep hpc rfl (by simp) rfl rfl rfl
    | empty work => exact hkeep hpc rfl (by simp) (afterBatch_fast _ a) (afterBatch_info _ a) rfl
  | posted hpc => exact hkeep hpc rfl (by simp) (afterBatch_fast _ a) (afterBatch_info _ a) rfl
  | dutyWork hpc hends =>
    cases hends with
    | failed | cycling => exact hkeep hpc rfl (by simp) rfl rfl rfl
    | empty =>
      exact hkeep hpc rfl (by simp) (setCadence_fast _ _ _) (setCadence_info _ _ _) rfl
  | reported hpc =>
    exact hkeep hpc rfl (by simp) (setCadence_fast _ _ _) (setCadence_info _ _ _) rfl
  | checked hpc _ hends => cases hends <;> exact hkeep hpc rfl (by simp) rfl rfl rfl
  | polled hpc _ hends | swept hpc hends =>
    cases hends <;> exact hkeep hpc rfl (by simp) rfl rfl rfl
  | unnamed hpc | named hpc | notPosted hpc | notReported hpc =>
    exact hkeep hpc rfl (by simp) rfl rfl rfl
  | clock hpc hends =>
    cases hends with
    | begin | skip | hello => exact hkeep hpc rfl (by simp) rfl rfl rfl
    | next d =>
      exact hkeep hpc rfl (by simp) (setCadence_fast _ _ _) (setCadence_info _ _ _) rfl
    | overflow d hfits =>
      rw [hb.interval d] at hfits
      cases hfits
    | noHello =>
      rw [hb.rest] at hkeep ⊢
      exact hkeep hpc rfl (by simp) rfl rfl rfl
    | helloNext =>
      rw [(hb.hello _).rest] at hkeep ⊢
      exact hkeep hpc rfl (by simp) rfl rfl rfl
  | slept hpc => rcases hpc with hpc | hpc <;> exact htop hpc rfl (by simp)
  | lane => exact ⟨h.crashed, fun hnone ↦ by cases hnone⟩
  | closed hpc =>
    exact ⟨uncrashed_step hstep (by rw [hpc]; rfl) h.crashed, fun _ hopen ↦ by cases hopen⟩

theorem fits_init {pollSeconds : ℤ} {start : Binary64} (d : Duty) :
    fits ((Agent.init (ι := ι) (ν := ν) pollSeconds start).cadence d).interval = true := by
  have h900 : fits 900 = true := by decide +kernel
  have h600 : fits 600 = true := by decide +kernel
  cases d
  · exact h900
  · exact h600

/-- The step lemma of the fate: a doomed loop goes on through its pass and raises at the top of the
next one, where the answer is asked for the lane. -/
theorem fated_step {e : Event ι ν} {f : Fate} (hb : Bounds a) (h : Fated a f)
    (hstep : a.step env e = some a') : Fated a' (fate a e f) := by
  cases f with
  | well => exact well_step hb h hstep
  | doomed => exact doomed_step hb h hstep
  | dead => exact crashed_step hstep h

/-- **When the agent crashes.** While the poll interval and the intervals of the cycles fit a float,
it crashes exactly when it comes to the end of a sleep after a later `hello` was answered with
something that is no object, at a time when no lane was up.

With such intervals the one line outside of every `try` that can raise is the look at `info` on top,
and that only where no lane is up. -/
theorem crashed_iff {pollSeconds : ℤ} (hpoll : fits pollSeconds = true) {start : Binary64}
    {es : List (Event ι ν)} (hrun : (agent env).exec (.init pollSeconds start) es = some a)
    (hbounded : (agent env).Meets (fun a e ↦ bounded a e = true) (.init pollSeconds start) es) :
    a.pc.crashed = true ↔ (agent env).observe fate (.init pollSeconds start) es .well = .dead := by
  have h := (agent env).exec_invariant (f := fate) (I := fun a f ↦ Bounds a ∧ Fated a f)
    (fun _ _ _ _ he hI hstep ↦ ⟨bounds_step hI.1 he hstep, fated_step hI.1 hI.2 hstep⟩)
    (h := .well) hbounded
    ⟨⟨hpoll, fits_init, fun _ hmem ↦ by cases hmem⟩, rfl, fun _ _ ↦ .inl rfl⟩ hrun
  rcases hfate : (agent env).observe fate (.init pollSeconds start) es .well
  all_goals rw [hfate] at h
  · have hwell : Well a := h.2
    simp [hwell.crashed]
  · have hdoomed : Doomed a := h.2
    simp [hdoomed.crashed]
  · have hcrashed : a.pc.crashed = true := h.2
    simp [hcrashed]

/-- A pass without the lane, whose later `hello` is answered with `null`. -/
def nullHello : List (Event Unit Unit) :=
  [.helloed none, .fetched (some (.obj [])), .clock 10, .fetched none, .clock 11, .clock 12,
    .fetched none, .clock 13, .clock 300, .helloed (some .null), .clock 301, .slept]

/-- The core answers a later `hello` with `null`, and the agent ends in an exception after the next
sleep. -/
theorem crashed_iff_nullHello :
    ∃ a, (agent lab).exec (.init 15 0) nullHello = some a ∧ a.pc.crashed = true := by
  have hsome : ((agent lab).exec (.init 15 0) nullHello).isSome = true := by decide +kernel
  obtain ⟨a, hrun⟩ := Option.isSome_iff_exists.1 hsome
  have hbounded : (agent lab).Meets (fun a e ↦ bounded a e = true) (.init 15 0) nullHello := by
    decide +kernel
  have hfits : fits 15 = true := by decide +kernel
  exact ⟨a, hrun, (crashed_iff hfits hrun hbounded).2 (by decide +kernel)⟩

end Outpost
