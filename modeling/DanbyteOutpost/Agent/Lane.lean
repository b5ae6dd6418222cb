import DanbyteOutpost.Agent.Steps
import DanbyteOutpost.Fast.Delivery

/-!
# The lane beside the loop

In a run of the agent the fast lane takes steps of its own and is told to stop. `LaneLog` keeps
them, with the answers to `hello`. `lane_refines` says that this is a run of the lane by itself: it
is started at most once, on an answer that says so, with the poll interval of the agent, and is told
to stop by the end of the loop alone. So what holds of every run of the lane holds of it beside the
loop.

## The proof

One step of the agent is one of few moves as the lane sees it (`LaneMove`): nothing, its start, or
steps of the lane, of which being told to stop is one. `Hosted` is the invariant: the lane of the
agent is where the steps in the log take a fresh runner. The end of the loop is where `stop`
enters the log, so `LaneLog` has none of it before.

With `lane_refines`, each theorem about runs of `FastLane.lane` is one about the agent.
-/

open FastLane (Runner)

namespace Outpost

variable {ι ν : Type} {env : Env} {a a' : Agent ι ν}

/-- The first `hello` is not through. -/
def Pc.startup : Pc ι ν → Bool
  | .hello startup | .updating startup => startup
  | _ => false

/-- The answers to `hello`, and the steps of the lane. -/
structure LaneLog where
  /-- All that the core has answered to a `hello`, the first one and the later ones. -/
  answers : List Json
  /-- The steps of the lane so far, which are to be a run of its machine. -/
  steps : List FastLane.Event

/-- The steps the lane takes in a step of the agent: one of its own, or the `stop` of the
`finally`. -/
def laneSteps (env : Env) (a : Agent ι ν) : Event ι ν → List FastLane.Event
  | .lane e => [e]
  | e =>
    match a.fast, (a.step env e).map Agent.pc with
    | some _, some (.closing _) => [.stop]
    | _, _ => []

/-- The log behind a step. -/
def laneLog (env : Env) (a : Agent ι ν) (e : Event ι ν) (log : LaneLog) : LaneLog where
  answers := log.answers ++
    match e with
    | .helloed (some answer) => [answer]
    | _ => []
  steps := log.steps ++ laneSteps env a e

/-! ### One step -/

/-- What a step of the agent can be for the lane: nothing, its start, or the steps it takes. -/
inductive LaneMove (a a' : Agent ι ν) (moves : List FastLane.Event) : Prop
  /-- The lane is none of this step's business. -/
  | kept : a'.fast = a.fast → moves = [] → LaneMove a a' moves
  /-- The top of the loop makes a `FastRunner`: there is none yet, and `info` has the endpoints. -/
  | started (fast : Json) : a.fast = none → a'.fast = some (Runner.init a'.poll) → moves = [] →
      a'.info.get? "fast" = some (some fast) → fast.truthy = true → a'.pc = .fetching .checks →
      LaneMove a a' moves
  /-- The steps are the lane's own, and they are possible there. -/
  | moved (r r' : Runner) : a.fast = some r → a'.fast = some r' →
      FastLane.lane.exec r moves = some r' → LaneMove a a' moves

/-- A step that does not end the loop, and is none of the lane's, is none for the lane. -/
theorem laneSteps_of_pc {e : Event ι ν} (hstep : a.step env e = some a')
    (hlane : ∀ l, e ≠ .lane l) (hpc : ∀ why, a'.pc ≠ .closing why) : laneSteps env a e = [] := by
  unfold laneSteps
  split
  · exact absurd rfl (hlane _)
  · split
    case h_1 hclosing =>
      rw [hstep, Option.map_some, Option.some.injEq] at hclosing
      exact absurd hclosing (hpc _)
    case h_2 => rfl

/-- While there is no lane, there is none to step. -/
theorem laneSteps_of_none {e : Event ι ν} (hlane : ∀ l, e ≠ .lane l) (hfast : a.fast = none) :
    laneSteps env a e = [] := by
  unfold laneSteps
  split
  · exact absurd rfl (hlane _)
  · split
    case h_1 hsome _ =>
      rw [hfast] at hsome
      cases hsome
    case h_2 => rfl

/-- The end of the loop tells the lane to stop. -/
theorem laneSteps_of_close {e : Event ι ν} {why : End} {r : Runner}
    (hstep : a.step env e = some a') (hlane : ∀ l, e ≠ .lane l) (hpc : a'.pc = .closing why)
    (hfast : a.fast = some r) : laneSteps env a e = [.stop] := by
  unfold laneSteps
  split
  · exact absurd rfl (hlane _)
  · rw [hstep, hfast, Option.map_some, hpc]

/-- The end of the loop stops the lane, where there is one. -/
theorem LaneMove.close {e : Event ι ν} {b : Agent ι ν} {why : End} (hlane : ∀ l, e ≠ .lane l)
    (hfast : b.fast = a.fast) (hstep : a.step env e = some (b.close why)) :
    LaneMove a (b.close why) (laneSteps env a e) := by
  rcases hr : a.fast with - | r
  · refine .kept ?_ (laneSteps_of_none hlane hr)
    rw [Agent.close, hfast, hr]
    rfl
  · refine .moved r { r with stopping := true } hr ?_ ?_
    · rw [Agent.close, hfast, hr]
      rfl
    · rw [laneSteps_of_close hstep hlane rfl hr]
      rfl

/-- The top of the loop starts the lane, or leaves it. -/
theorem LaneMove.top {e : Event ι ν} {b : Agent ι ν} (hlane : ∀ l, e ≠ .lane l)
    (hfast : b.fast = a.fast) (hstep : a.step env e = some b.top) :
    LaneMove a b.top (laneSteps env a e) := by
  rcases top_cases b with ⟨-, -, h⟩ | ⟨-, h⟩ | ⟨hnone, ⟨fast, hinfo, htruthy⟩, h⟩
  · rw [h] at hstep ⊢
    exact .close hlane hfast hstep
  · rw [h] at hstep ⊢
    exact .kept hfast (laneSteps_of_pc hstep hlane fun why hpc ↦ by cases hpc)
  · rw [h] at hstep ⊢
    exact .started fast (hfast ▸ hnone) rfl
      (laneSteps_of_pc hstep hlane fun why hpc ↦ by cases hpc) hinfo htruthy rfl

/-- The last stretch of a pass may end the loop where it comes to sleep. -/
theorem LaneMove.rest {e : Event ι ν} {b : Agent ι ν} (hlane : ∀ l, e ≠ .lane l)
    (hfast : b.fast = a.fast) (hstep : a.step env e = some b.rest) :
    LaneMove a b.rest (laneSteps env a e) := by
  rcases rest_cases b with ⟨-, -, h⟩ | ⟨-, h⟩
  · rw [h] at hstep ⊢
    exact .close hlane hfast hstep
  · rw [h] at hstep ⊢
    exact .kept hfast (laneSteps_of_pc hstep hlane fun why hpc ↦ by cases hpc)

/-- Each step of the agent is a run of the lane: the step it is about, the order to stop, or
nothing. -/
theorem laneMove_step {e : Event ι ν} (hstep : a.step env e = some a') :
    LaneMove a a' (laneSteps env a e) := by
  by_cases hlane : ∀ l, e ≠ .lane l
  swap
  -- a step of the lane
  · push Not at hlane
    obtain ⟨l, rfl⟩ := hlane
    cases steps_of_step hstep with
    | lane _ _ hr hr' => exact .moved _ _ hr rfl (Machine.exec_cons.2 ⟨_, hr', rfl⟩)
  have hkept : a'.fast = a.fast → (∀ why, a'.pc ≠ .closing why) →
      LaneMove a a' (laneSteps env a e) :=
    fun hfast hpc ↦ .kept hfast (laneSteps_of_pc hstep hlane hpc)
  -- a step of the loop, which starts the lane, ends it, or leaves it alone
  cases steps_of_step hstep with
  | lane => exact absurd rfl (hlane _)
  | helloed _ hends =>
    cases hends with
    | top => exact .top hlane rfl hstep
    | updating | next => exact hkept rfl fun why hpc ↦ by cases hpc
  | notReplaced =>
    rename_i startup _
    cases startup with
    | true => exact .top hlane rfl hstep
    | false => exact hkept rfl fun why hpc ↦ by cases hpc
  | slept => exact .top hlane rfl hstep
  | stop => exact .close hlane rfl hstep
  | clock _ hends =>
    cases hends with
    | overflow => exact .close hlane rfl hstep
    | noHello | helloNext => exact .rest hlane rfl hstep
    | begin | skip | hello => exact hkept rfl fun why hpc ↦ by cases hpc
    | next d => exact hkept (setCadence_fast _ _ _) fun why hpc ↦ by cases hpc
  | work _ hends =>
    cases hends with
    | failed | checking => exact hkept rfl fun why hpc ↦ by cases hpc
    | empty work => exact hkept (afterBatch_fast work a) fun why hpc ↦ by cases hpc
  | posted => exact hkept (afterBatch_fast _ a) fun why hpc ↦ by cases hpc
  | dutyWork _ hends =>
    cases hends with
    | failed | cycling => exact hkept rfl fun why hpc ↦ by cases hpc
    | empty => exact hkept (setCadence_fast _ _ _) fun why hpc ↦ by cases hpc
  | reported => exact hkept (setCadence_fast _ _ _) fun why hpc ↦ by cases hpc
  | checked _ _ hends => cases hends <;> exact hkept rfl fun why hpc ↦ by cases hpc
  | polled _ _ hends | swept _ hends =>
    cases hends <;> exact hkept rfl fun why hpc ↦ by cases hpc
  | _ => exact hkept rfl fun why hpc ↦ by cases hpc

/-- The lane is told to stop only where the loop is over. -/
theorem stop_mem_laneSteps {e : Event ι ν} (hstep : a.step env e = some a')
    (h : FastLane.Event.stop ∈ laneSteps env a e) : a'.pc.over = true := by
  by_cases hlane : ∀ l, e ≠ .lane l
  · by_contra hopen
    rw [laneSteps_of_pc hstep hlane fun why hpc ↦ hopen (by rw [hpc]; rfl)] at h
    cases h
  · push Not at hlane
    obtain ⟨l, rfl⟩ := hlane
    obtain rfl := List.mem_singleton.1 h
    cases steps_of_step hstep with
    | lane _ hown => cases hown

/-- Only the block of the first `hello` takes over a poll interval, and it does not come back. -/
theorem poll_step {e : Event ι ν} (hstep : a.step env e = some a')
    (hstarted : a.pc.startup = false) : a'.poll = a.poll ∧ a'.pc.startup = false := by
  have htop : ∀ b : Agent ι ν, b.top.pc.startup = false := by
    intro b
    obtain ⟨_, _, h, rfl | rfl⟩ := top_eq b <;> rw [h] <;> rfl
  have hrest : ∀ b : Agent ι ν, b.rest.pc.startup = false := by
    intro b
    obtain ⟨_, _, h, rfl | rfl⟩ := rest_eq b <;> rw [h] <;> rfl
  cases steps_of_step hstep with
  | helloed hpc hends =>
    rw [hpc] at hstarted
    cases hends with
    | top => cases hstarted
    | updating startup info poll _ _ hpoll => exact ⟨hpoll hstarted, hstarted⟩
    | next => exact ⟨rfl, rfl⟩
  | notReplaced hpc =>
    rw [hpc] at hstarted
    obtain rfl := hstarted
    exact ⟨rfl, rfl⟩
  | slept => exact ⟨top_poll a, htop a⟩
  | clock _ hends =>
    cases hends with
    | noHello | helloNext => exact ⟨rest_poll _, hrest _⟩
    | next => exact ⟨setCadence_poll _ _ _, rfl⟩
    | _ => exact ⟨rfl, rfl⟩
  | work _ hends =>
    cases hends with
    | empty work => exact ⟨afterBatch_poll work a, rfl⟩
    | failed | checking => exact ⟨rfl, rfl⟩
  | posted => exact ⟨afterBatch_poll _ a, rfl⟩
  | dutyWork _ hends =>
    cases hends with
    | empty => exact ⟨setCadence_poll _ _ _, rfl⟩
    | failed | cycling => exact ⟨rfl, rfl⟩
  | reported => exact ⟨setCadence_poll _ _ _, rfl⟩
  | lane => exact ⟨rfl, hstarted⟩
  | checked _ _ hends => cases hends <;> exact ⟨rfl, rfl⟩
  | polled _ _ hends | swept _ hends => cases hends <;> exact ⟨rfl, rfl⟩
  | _ => exact ⟨rfl, rfl⟩

/-- What `info` holds: what it held, nothing, or the answer that came in. -/
theorem info_step {e : Event ι ν} (hstep : a.step env e = some a') :
    a'.info = a.info ∨ a'.info = .obj [] ∨ e = .helloed (some a'.info) := by
  cases steps_of_step hstep with
  | @helloed _ answer _ _ hends =>
    cases hends with
    | top info poll _ hinfo =>
      rw [top_info]
      rcases hinfo with h | h
      · exact .inr (.inl h)
      · exact .inr (.inr (by rw [h]))
    | updating startup info poll hinfo => exact .inr (.inr (by rw [hinfo]))
    | next info hinfo =>
      rcases answer with - | answer
      · exact .inl hinfo
      · exact .inr (.inr (by rw [hinfo]; rfl))
  | notReplaced =>
    rename_i startup _
    cases startup with
    | true => exact .inr (.inl (top_info _))
    | false => exact .inl rfl
  | slept => exact .inl (top_info a)
  | clock _ hends =>
    cases hends with
    | noHello | helloNext => exact .inl (rest_info _)
    | next => exact .inl (setCadence_info _ _ _)
    | _ => exact .inl rfl
  | work _ hends =>
    cases hends with
    | empty work => exact .inl (afterBatch_info work a)
    | failed | checking => exact .inl rfl
  | posted => exact .inl (afterBatch_info _ a)
  | dutyWork _ hends =>
    cases hends with
    | empty => exact .inl (setCadence_info _ _ _)
    | failed | cycling => exact .inl rfl
  | reported => exact .inl (setCadence_info _ _ _)
  | checked _ _ hends => cases hends <;> exact .inl rfl
  | polled _ _ hends | swept _ hends => cases hends <;> exact .inl rfl
  | _ => exact .inl rfl

/-! ### Whole runs -/

/-- The lane of the agent, and the log of it. -/
structure Hosted (a : Agent ι ν) (log : LaneLog) : Prop where
  /-- What the loop holds in `info` came from the core, or is what it began with. -/
  info : a.info = .null ∨ a.info = .obj [] ∨ a.info ∈ log.answers
  /-- Without a lane there is no step of one. -/
  without : a.fast = none → log.steps = []
  /-- A lane is there only behind the first `hello`, and some answer had the endpoints. -/
  started : a.fast ≠ none → a.pc.startup = false ∧
    ∃ answer ∈ log.answers, (field answer "fast").truthy = true
  /-- The lane is where its own machine gets by the steps in the log. -/
  ran : ∀ r, a.fast = some r → FastLane.lane.exec (Runner.init a.poll) log.steps = some r
  /-- It is not told to stop while the loop goes on. -/
  stopped : a.pc.over = false → FastLane.Event.stop ∉ log.steps

/-- The step lemma of the refinement: the lane's state stays the one its own steps lead to. -/
theorem hosted_step {e : Event ι ν} {log : LaneLog} (h : Hosted a log)
    (hstep : a.step env e = some a') : Hosted a' (laneLog env a e log) := by
  have hmove := laneMove_step hstep
  -- three parts of the invariant do not depend on what the step is for the lane
  have hinfo : a'.info = .null ∨ a'.info = .obj [] ∨ a'.info ∈ (laneLog env a e log).answers := by
    rcases info_step hstep with heq | heq | rfl
    · rw [heq]
      exact h.info.imp_right fun h ↦ h.imp_right (List.mem_append_left _)
    · exact .inr (.inl heq)
    · exact .inr (.inr (List.mem_append_right _ (List.mem_singleton_self _)))
  -- a `stop` comes from the end of the loop, behind which the loop stays
  have hstopped : a'.pc.over = false → FastLane.Event.stop ∉ log.steps ++ laneSteps env a e := by
    intro hopen hmem
    have hwas : a.pc.over = false := by
      by_contra hover
      rw [over_step hstep (Bool.not_eq_false _ ▸ hover)] at hopen
      cases hopen
    rcases List.mem_append.1 hmem with hmem | hmem
    · exact h.stopped hwas hmem
    · rw [stop_mem_laneSteps hstep hmem] at hopen
      cases hopen
  have hsaid : (∃ answer ∈ log.answers, (field answer "fast").truthy = true) →
      ∃ answer ∈ (laneLog env a e log).answers, (field answer "fast").truthy = true :=
    fun ⟨answer, hmem, htrue⟩ ↦ ⟨answer, List.mem_append_left _ hmem, htrue⟩
  have hsome : ∀ {r}, a.fast = some r → a.fast ≠ none := fun hr h ↦ by rw [hr] at h; cases h
  cases hmove with
  -- the lane is as it was, or there is still none
  | kept hfast hmoves =>
    refine ⟨hinfo, ?_, ?_, ?_, hstopped⟩
    · intro hnone
      show log.steps ++ laneSteps env a e = []
      rw [h.without (hfast ▸ hnone), hmoves]
      rfl
    · intro hne
      rw [hfast] at hne
      obtain ⟨hstarted, hans⟩ := h.started hne
      exact ⟨(poll_step hstep hstarted).2, hsaid hans⟩
    · intro r hr
      rw [hfast] at hr
      rw [(poll_step hstep (h.started (hsome hr)).1).1]
      show FastLane.lane.exec _ (log.steps ++ laneSteps env a e) = some r
      rw [hmoves, List.append_nil]
      exact h.ran r hr
  | started fast hnone hfast hmoves hget htruthy hpc =>
    -- it was started on `info`, which is an answer and no initial value
    refine ⟨hinfo, fun hno ↦ absurd (hfast.symm.trans hno) (by simp), fun _ ↦ ?_, ?_, hstopped⟩
    · refine ⟨by rw [hpc]; rfl, a'.info, ?_, ?_⟩
      · rcases hinfo with hnull | hempty | hmem
        · rw [hnull] at hget
          cases hget
        · rw [hempty] at hget
          cases hget
        · exact hmem
      · rw [field, hget]
        exact htruthy
    · intro r hr
      rw [hfast] at hr
      cases hr
      show FastLane.lane.exec _ (log.steps ++ laneSteps env a e) = _
      rw [h.without hnone, hmoves]
      rfl
  | moved r r' hr hr' hmoves =>
    obtain ⟨hstarted, hans⟩ := h.started (hsome hr)
    obtain ⟨hpoll, hstarted'⟩ := poll_step hstep hstarted
    refine ⟨hinfo, fun hno ↦ absurd (hr'.symm.trans hno) (by simp),
      fun _ ↦ ⟨hstarted', hsaid hans⟩, ?_, hstopped⟩
    intro r'' hr''
    rw [hr'] at hr''
    cases hr''
    rw [hpoll]
    exact Machine.exec_append.2 ⟨r, h.ran r hr, hmoves⟩

theorem hosted_run {pollSeconds : ℤ} {start : Binary64} {es : List (Event ι ν)}
    (hrun : (agent env).exec (.init pollSeconds start) es = some a) :
    Hosted a ((agent env).observe (laneLog env) (.init pollSeconds start) es ⟨[], []⟩) :=
  (agent env).exec_invariant (P := fun _ _ ↦ True) (f := laneLog env) (I := Hosted)
    (fun _ _ _ _ _ hh hstep ↦ hosted_step hh hstep) (h := ⟨[], []⟩) (Machine.meets_true _ es)
    ⟨.inl rfl, fun _ ↦ rfl, fun hne ↦ absurd rfl hne, fun r hr ↦ (by cases hr),
      fun _ h ↦ (by cases h)⟩ hrun

/-- **The lane of the agent is a run of the lane.** Where there is one, its steps are a run from a
fresh `FastRunner` built with the poll interval; the core has said that it has the endpoints; and
it is told to stop after the end of the loop only. -/
theorem lane_refines {pollSeconds : ℤ} {start : Binary64} {es : List (Event ι ν)}
    (hrun : (agent env).exec (.init pollSeconds start) es = some a) :
    let log := (agent env).observe (laneLog env) (.init pollSeconds start) es ⟨[], []⟩
    (a.fast = none → log.steps = []) ∧
      ∀ r, a.fast = some r →
        FastLane.lane.exec (Runner.init a.poll) log.steps = some r ∧
        (∃ answer ∈ log.answers, (field answer "fast").truthy = true) ∧
        (a.pc.over = false → FastLane.Event.stop ∉ log.steps) := by
  intro log
  have h := hosted_run hrun
  refine ⟨h.without, fun r hr ↦ ⟨h.ran r hr, ?_, h.stopped⟩⟩
  exact (h.started (by rw [hr]; simp)).2

/-- A pass of the loop beside a lane that probes a check and posts its sample, a step here and a
step there; the agent is then cancelled. -/
def besideLane : List (Event Unit Unit) :=
  [.helloed (some (.obj [("fast", .bool true)])),
    .lane (.fetched (some FastLane.oneCheck) (fun _ ↦ 0) 0 0), .fetched (some oneCheck),
    .lane (.wake 0 0), .lane (.begin 0 1), .checked [fun _ _ _ _ ↦ .error "timed out"],
    .lane (.answer 0 (.ok FastLane.isUp)), .posted true, .clock 10, .lane (.wake 15 15),
    .lane (.posted true), .fetched none, .clock 11, .clock 12,
    .lane (.fetched none (fun _ ↦ 0) 0 0),
    .fetched (some (.obj [("interval_seconds", .int 60)])), .clock 13, .clock 14, .slept, .stop]

/-- The lane delivers the sample, and the eighth of its steps is that it is told to stop. -/
theorem lane_refines_besideLane :
    ∃ a r, (agent lab).exec (.init 15 0) besideLane = some a ∧ a.fast = some r ∧
      ∃ steps, steps.length = 8 ∧ FastLane.lane.exec (Runner.init a.poll) steps = some r ∧
        (FastLane.lane.observe (FastLane.received "7") (Runner.init 15) steps []).map
          FastLane.Sample.t = [1] := by
  have hsome : ((agent lab).exec (.init 15 0) besideLane).isSome = true := by decide +kernel
  obtain ⟨a, hrun⟩ := Option.isSome_iff_exists.1 hsome
  have hfast : (((agent lab).exec (.init 15 0) besideLane).bind Agent.fast).isSome = true := by
    decide +kernel
  rw [hrun] at hfast
  obtain ⟨r, hr⟩ := Option.isSome_iff_exists.1 hfast
  exact ⟨a, r, hrun, hr, _, by decide +kernel, ((lane_refines hrun).2 r hr).1, by decide +kernel⟩

end Outpost
