import DanbyteOutpost.Agent.Loop

/-!
# What the stretches of the loop do

For each stretch of code of the loop, the variables it assigns and where it ends. What is said of
whole runs rests on these lemmas; the stretches are not opened again.

## How to read them

`HelloEnds`, `WorkEnds`, `ChecksEnd`, `DutyWorkEnds`, `GatherEnds` and `ReadEnds` list the ends of
a stretch, one constructor for each, with what makes it that one. `Steps` puts them together: it
has a constructor for every event and place, and `steps_of_step` is the inversion of `Agent.step`.
An invariant of the agent is proved by cases on `Steps`.

That most of the variables are left alone is said by the `simp` lemmas in front.
-/

open FastLane (Runner)

namespace Outpost

variable {ι ν : Type} {env : Env} {a : Agent ι ν}

/-! ### The variables of the cycles -/

@[simp] theorem setCadence_self (a : Agent ι ν) (d : Duty) (c : Cadence) :
    (a.setCadence d c).cadence d = c := by
  cases d <;> rfl

/-- The cadence of the other cycle is left alone. -/
theorem setCadence_ne (a : Agent ι ν) {d d' : Duty} (h : d' ≠ d) (c : Cadence) :
    (a.setCadence d c).cadence d' = a.cadence d' := by
  cases d <;> cases d' <;> first | rfl | exact absurd rfl h

@[simp] theorem setCadence_fast (a : Agent ι ν) (d : Duty) (c : Cadence) :
    (a.setCadence d c).fast = a.fast := by
  cases d <;> rfl

@[simp] theorem setCadence_info (a : Agent ι ν) (d : Duty) (c : Cadence) :
    (a.setCadence d c).info = a.info := by
  cases d <;> rfl

@[simp] theorem setCadence_poll (a : Agent ι ν) (d : Duty) (c : Cadence) :
    (a.setCadence d c).poll = a.poll := by
  cases d <;> rfl

@[simp] theorem setCadence_nextHello (a : Agent ι ν) (d : Duty) (c : Cadence) :
    (a.setCadence d c).nextHello = a.nextHello := by
  cases d <;> rfl

/-! ### Where the stretches end -/

/-- The top of the loop: an exception where `info` is no object and there is no lane yet, else the
next poll, with a lane if there is one or the core has said that it can have one. -/
theorem top_cases (a : Agent ι ν) :
    (a.fast = none ∧ a.info.get? "fast" = none ∧ a.top = a.close .crashed) ∨
      ((a.fast ≠ none ∨ a.info.get? "fast" ≠ none) ∧
        a.top = { a with pc := .fetching .checks }) ∨
      (a.fast = none ∧ (∃ fast, a.info.get? "fast" = some (some fast) ∧ fast.truthy = true) ∧
        a.top = { a with fast := some (Runner.init a.poll), pc := .fetching .checks }) := by
  rw [Agent.top]
  rcases hfast : a.fast with - | r
  · rcases hinfo : a.info.get? "fast" with - | fast
    · exact .inl ⟨rfl, rfl, rfl⟩
    · rcases fast with - | fast
      · exact .inr (.inl ⟨.inr (by simp), rfl⟩)
      · rcases htruthy : fast.truthy with - | -
        · refine .inr (.inl ⟨.inr (by simp), ?_⟩)
          simp [htruthy]
        · refine .inr (.inr ⟨rfl, ⟨fast, rfl, htruthy⟩, ?_⟩)
          simp [htruthy]
  · exact .inr (.inl ⟨.inl (by simp), rfl⟩)

/-- The poll interval after the first `hello`: that of the answer, or the one before. -/
def PollAfter (a : Agent ι ν) (answer : Option Json) (poll : ℤ) : Prop :=
  poll = a.poll ∨ ∃ info, answer = some info ∧
    (info.get? "poll_interval_seconds").bind (Snmp.nextInterval a.poll) = some poll

/-- How a `hello` block ends: in the top of the loop, when it is the first, in the download of a new
binary, or in the reading of the clock that the next `hello` is timed by. A later block takes over
no poll interval, and leaves the answer for `info`; the first leaves an object. -/
inductive HelloEnds (a : Agent ι ν) (answer : Option Json) : Bool → Agent ι ν → Prop
  /-- The first one ends in the top of the loop, with an object for `info`. -/
  | top (info : Json) (poll : ℤ) : info.get? "fast" ≠ none → info = .obj [] ∨ answer = some info →
      PollAfter a answer poll →
      HelloEnds a answer true { a with info := info, poll := poll }.top
  /-- The answer names another binary, and that is to be installed. -/
  | updating (startup : Bool) (info : Json) (poll : ℤ) : answer = some info →
      info.get? "fast" ≠ none → (startup = false → poll = a.poll) → PollAfter a answer poll →
      HelloEnds a answer startup { a with info := info, poll := poll, pc := .updating startup }
  /-- A later one ends in the reading of the clock, whether it was answered or not. -/
  | next (info : Json) : info = answer.getD a.info →
      HelloEnds a answer false { a with info := info, pc := .reading .helloNext }

/-- What has a `get` has one for every key. -/
theorem get?_ne_none {value : Json} {key : String} {found : Option Json}
    (h : value.get? key = some found) (key' : String) : value.get? key' ≠ none := by
  cases value <;> simp_all [Json.get?]

theorem afterHello_ends (env : Env) (startup : Bool) (answer : Option Json) (a : Agent ι ν) :
    HelloEnds a answer startup (a.afterHello env startup answer) := by
  have hfailed : ∀ poll : ℤ, PollAfter a answer poll → HelloEnds a answer true
      { a with info := .obj [], poll := poll }.top :=
    fun poll hpoll ↦ .top _ _ (by simp [Json.get?]) (.inl rfl) hpoll
  rcases answer with - | info
  · cases startup with
    | true => exact hfailed a.poll (.inl rfl)
    | false => exact .next a.info rfl
  · cases startup with
    | false =>
      show HelloEnds a _ false ({ a with info := info }.maybeUpdate env false)
      rw [Agent.maybeUpdate]
      rcases htarget : info.get? "update_to" with - | target
      · exact .next info rfl
      · dsimp only
        split
        · exact .updating false info a.poll rfl (get?_ne_none htarget "fast") (fun _ ↦ rfl)
            (.inl rfl)
        · exact .next info rfl
    | true =>
      rw [Agent.afterHello, if_pos rfl]
      rcases hpoll : (info.get? "poll_interval_seconds").bind (Snmp.nextInterval a.poll)
        with - | poll
      · exact hfailed a.poll (.inl rfl)
      · dsimp only
        rw [Agent.maybeUpdate]
        have hobject : info.get? "fast" ≠ none := by
          obtain ⟨x, hx, -⟩ := Option.bind_eq_some_iff.1 hpoll
          exact get?_ne_none hx "fast"
        rcases htarget : info.get? "update_to" with - | target
        · exact hfailed poll (.inr ⟨info, rfl, hpoll⟩)
        · dsimp only
          split
          · exact .updating true info poll rfl hobject (fun h ↦ absurd h (by decide))
              (.inr ⟨info, rfl, hpoll⟩)
          · exact .top info poll hobject (.inr rfl) (.inr ⟨info, rfl, hpoll⟩)

/-- How the loop goes on from the answer on work. -/
inductive WorkEnds (a : Agent ι ν) (answer : Option Json) : Agent ι ν → Prop
  /-- There was no answer, or its checks cannot be gone through. -/
  | failed : (∀ work, answer = some work → itemsOf work "checks" = none) →
      WorkEnds a answer a.pollError
  /-- There is nothing to run. -/
  | empty (work : Json) : answer = some work → itemsOf work "checks" = some [] →
      WorkEnds a answer (a.afterBatch work)
  /-- The checks of the work are run. -/
  | checking (work : Json) (items : List Json) : answer = some work →
      itemsOf work "checks" = some items → items ≠ [] →
      WorkEnds a answer { a with pc := .checking work items }

theorem afterWork_ends (answer : Option Json) (a : Agent ι ν) :
    WorkEnds a answer (a.afterWork answer) := by
  rcases answer with - | work
  · exact .failed fun work h ↦ by cases h
  · rw [Agent.afterWork]
    rcases hitems : itemsOf work "checks" with - | - | items
    · exact .failed fun work' h ↦ Option.some.inj h ▸ hitems
    · exact .empty work rfl hitems
    · exact .checking work _ rfl hitems (List.cons_ne_nil _ _)

/-- How the loop goes on from the results of a batch. -/
inductive ChecksEnd (a : Agent ι ν) (work : Json) (results : Except Unit (List Checks.Result)) :
    Agent ι ν → Prop
  /-- A run raised, or `dns` is no object. -/
  | failed : ChecksEnd a work results a.pollError
  /-- `dns` asks for names. -/
  | naming (rs : List Checks.Result) : results = .ok rs →
      ChecksEnd a work results { a with pc := .naming work rs }
  /-- It asks for none. -/
  | posting (rs : List Checks.Result) : results = .ok rs →
      ChecksEnd a work results { a with pc := .posting work rs }

theorem afterChecks_ends (work : Json) (results : Except Unit (List Checks.Result))
    (a : Agent ι ν) : ChecksEnd a work results (a.afterChecks work results) := by
  rcases results with e | results
  · exact .failed
  · rw [Agent.afterChecks]
    split
    · exact .failed
    · split
      · exact .naming results rfl
      · exact .posting results rfl

/-- How a cycle goes on from the answer on its work. -/
inductive DutyWorkEnds (a : Agent ι ν) (d : Duty) (answer : Option Json) : Agent ι ν → Prop
  /-- There was no answer, or one that cannot be read. -/
  | failed : DutyWorkEnds a d answer (a.cycleError d)
  /-- There is nothing to poll or sweep, and the cycle is over with the interval of the answer. -/
  | empty (work : Json) (interval : ℤ) : answer = some work →
      (work.get? "interval_seconds").bind (Snmp.nextInterval (a.cadence d).interval) =
        some interval →
      DutyWorkEnds a d answer (a.cycleDone d interval)
  /-- There are devices or prefixes, and the interval is kept for the end. -/
  | cycling (work : Json) (interval : ℤ) (items : List Json) : answer = some work →
      (work.get? "interval_seconds").bind (Snmp.nextInterval (a.cadence d).interval) =
        some interval →
      itemsOf work d.key = some items →
      DutyWorkEnds a d answer { a with pc := .cycling d interval items }

/-- What the fetch of a cycle's work leads to. -/
theorem afterDutyWork_ends (d : Duty) (answer : Option Json) (a : Agent ι ν) :
    DutyWorkEnds a d answer (a.afterDutyWork d answer) := by
  rcases answer with - | work
  · exact .failed
  · rw [Agent.afterDutyWork]
    rcases hinterval :
        (work.get? "interval_seconds").bind (Snmp.nextInterval (a.cadence d).interval)
      with - | interval
    · exact .failed
    · rcases hitems : itemsOf work d.key with - | - | items
      · exact .failed
      · exact .empty work interval rfl hinterval
      · exact .cycling work interval _ rfl hinterval hitems

/-- How a cycle goes on from its results. -/
inductive GatherEnds (a : Agent ι ν) (d : Duty) (interval : ℤ)
    (results : Except Unit (Payload ι ν)) : Agent ι ν → Prop
  /-- One of the runs raised, and the cycle is given up. -/
  | failed : GatherEnds a d interval results (a.cycleError d)
  /-- All of them have a result. -/
  | reporting (payload : Payload ι ν) : results = .ok payload →
      GatherEnds a d interval results { a with pc := .reporting d interval payload }

/-- What the end of a cycle's `gather` leads to. -/
theorem afterGather_ends (d : Duty) (interval : ℤ) (results : Except Unit (Payload ι ν))
    (a : Agent ι ν) : GatherEnds a d interval results (a.afterGather d interval results) := by
  rcases results with e | payload
  · exact .failed
  · exact .reporting payload rfl

/-- The flags of a batch's work move deadlines only, and only to zero. -/
theorem afterBatch_eq (work : Json) (a : Agent ι ν) :
    ∃ snmp sweep : Binary64,
      a.afterBatch work = { a with
        snmp := { a.snmp with next := snmp }
        sweep := { a.sweep with next := sweep }
        pc := .reading (.due .snmp) } ∧
      snmp = (if (field work "snmp_pending").truthy then 0 else a.snmp.next) ∧
      sweep = (if (field work "sweep_pending").truthy then 0 else a.sweep.next) := by
  refine ⟨_, _, ?_, rfl, rfl⟩
  rw [Agent.afterBatch]
  rcases (field work "snmp_pending").truthy <;> rcases (field work "sweep_pending").truthy <;> rfl

/-- The end of a pass: the sleep, or an exception where the poll interval is too large for it. -/
theorem rest_cases (a : Agent ι ν) :
    (0 < a.poll ∧ fits a.poll = false ∧ a.rest = a.close .crashed) ∨
      (¬ (0 < a.poll ∧ fits a.poll = false) ∧ a.rest = { a with pc := .sleeping }) := by
  rw [Agent.rest]
  rcases hfits : fits a.poll <;> by_cases hpos : 0 < a.poll <;> simp [hpos]

@[simp] theorem close_pc (why : End) (a : Agent ι ν) : (a.close why).pc = .closing why := rfl

@[simp] theorem pollError_pc (a : Agent ι ν) : a.pollError.pc = .backingOff := rfl

@[simp] theorem afterBatch_pc (work : Json) (a : Agent ι ν) :
    (a.afterBatch work).pc = .reading (.due .snmp) := rfl

@[simp] theorem cycleError_pc (d : Duty) (a : Agent ι ν) :
    (a.cycleError d).pc = .reading (.next d) := rfl

@[simp] theorem cycleDone_pc (d : Duty) (interval : ℤ) (a : Agent ι ν) :
    (a.cycleDone d interval).pc = .reading (.next d) := rfl

/-- What the top of the loop leaves alone. -/
theorem top_eq (a : Agent ι ν) :
    ∃ fast pc, a.top = { a with fast := fast, pc := pc } ∧
      (pc = .fetching .checks ∨ pc = .closing .crashed) := by
  rcases top_cases a with ⟨-, -, h⟩ | ⟨-, h⟩ | ⟨-, -, h⟩
  · exact ⟨_, _, h, .inr rfl⟩
  · exact ⟨_, _, h, .inl rfl⟩
  · exact ⟨_, _, h, .inl rfl⟩

/-- What the end of a pass leaves alone. -/
theorem rest_eq (a : Agent ι ν) :
    ∃ fast pc, a.rest = { a with fast := fast, pc := pc } ∧
      (pc = .sleeping ∨ pc = .closing .crashed) := by
  rcases rest_cases a with ⟨-, -, h⟩ | ⟨-, h⟩
  · exact ⟨_, _, h, .inr rfl⟩
  · exact ⟨_, _, h, .inl rfl⟩

@[simp] theorem top_poll (a : Agent ι ν) : a.top.poll = a.poll := by
  obtain ⟨_, _, h, -⟩ := top_eq a
  rw [h]

@[simp] theorem top_info (a : Agent ι ν) : a.top.info = a.info := by
  obtain ⟨_, _, h, -⟩ := top_eq a
  rw [h]

@[simp] theorem top_nextHello (a : Agent ι ν) : a.top.nextHello = a.nextHello := by
  obtain ⟨_, _, h, -⟩ := top_eq a
  rw [h]

@[simp] theorem top_cadence (a : Agent ι ν) (d : Duty) : a.top.cadence d = a.cadence d := by
  obtain ⟨_, _, h, -⟩ := top_eq a
  rw [h]
  cases d <;> rfl

@[simp] theorem rest_poll (a : Agent ι ν) : a.rest.poll = a.poll := by
  obtain ⟨_, _, h, -⟩ := rest_eq a
  rw [h]

@[simp] theorem rest_info (a : Agent ι ν) : a.rest.info = a.info := by
  obtain ⟨_, _, h, -⟩ := rest_eq a
  rw [h]

@[simp] theorem rest_nextHello (a : Agent ι ν) : a.rest.nextHello = a.nextHello := by
  obtain ⟨_, _, h, -⟩ := rest_eq a
  rw [h]

@[simp] theorem rest_cadence (a : Agent ι ν) (d : Duty) : a.rest.cadence d = a.cadence d := by
  obtain ⟨_, _, h, -⟩ := rest_eq a
  rw [h]
  cases d <;> rfl

@[simp] theorem afterBatch_poll (work : Json) (a : Agent ι ν) :
    (a.afterBatch work).poll = a.poll := by
  obtain ⟨_, _, h, -, -⟩ := afterBatch_eq work a
  rw [h]

@[simp] theorem afterBatch_info (work : Json) (a : Agent ι ν) :
    (a.afterBatch work).info = a.info := by
  obtain ⟨_, _, h, -, -⟩ := afterBatch_eq work a
  rw [h]

@[simp] theorem afterBatch_fast (work : Json) (a : Agent ι ν) :
    (a.afterBatch work).fast = a.fast := by
  obtain ⟨_, _, h, -, -⟩ := afterBatch_eq work a
  rw [h]

@[simp] theorem afterBatch_nextHello (work : Json) (a : Agent ι ν) :
    (a.afterBatch work).nextHello = a.nextHello := by
  obtain ⟨_, _, h, -, -⟩ := afterBatch_eq work a
  rw [h]

/-- How the loop goes on from a reading of the clock. -/
inductive ReadEnds (a : Agent ι ν) (now : Binary64) : Reading → Agent ι ν → Prop
  /-- The cycle is due. -/
  | begin (d : Duty) : (a.cadence d).next ≤ now →
      ReadEnds a now (.due d) { a with pc := .fetching (.duty d) }
  /-- It is not, and the loop comes to what is next. -/
  | skip (d : Duty) : now < (a.cadence d).next →
      ReadEnds a now (.due d) { a with pc := .reading d.after }
  /-- The cycle is over, and due again by its interval. -/
  | next (d : Duty) : fits (a.cadence d).interval = true →
      ReadEnds a now (.next d)
        { a.setNext d (now + .ofRat (a.cadence d).interval) with pc := .reading d.after }
  /-- The interval is too large for a float, and the sum raises. -/
  | overflow (d : Duty) : fits (a.cadence d).interval = false →
      ReadEnds a now (.next d) (a.close .crashed)
  /-- A later `hello` is due. -/
  | hello : a.nextHello ≤ now → ReadEnds a now .helloDue { a with pc := .hello false }
  /-- It is not, and the loop sleeps. -/
  | noHello : now < a.nextHello → ReadEnds a now .helloDue a.rest
  /-- It is over, and due again after 300 seconds. -/
  | helloNext : ReadEnds a now .helloNext { a with nextHello := now + 300 }.rest

theorem read_ends (now : Binary64) (what : Reading) (a : Agent ι ν) :
    ReadEnds a now what (a.read now what) := by
  cases what with
  | due d =>
    rw [Agent.read]
    split
    case isTrue h => exact .begin d h
    case isFalse h => exact .skip d (not_le.1 h)
  | next d =>
    rw [Agent.read]
    dsimp only
    split
    case isTrue h => exact .next d h
    case isFalse h => exact .overflow d (Bool.not_eq_true _ ▸ h)
  | helloDue =>
    rw [Agent.read]
    split
    case isTrue h => exact .hello h
    case isFalse h => exact .noHello (not_le.1 h)
  | helloNext => exact .helloNext

/-! ### One step -/

/-- All that a step can be. -/
inductive Steps (env : Env) (a : Agent ι ν) : Event ι ν → Agent ι ν → Prop
  /-- A `hello` was answered, or raised. -/
  | helloed {startup : Bool} {answer : Option Json} {b : Agent ι ν} : a.pc = .hello startup →
      HelloEnds a answer startup b → Steps env a (.helloed answer) b
  /-- The new binary is in place, and the process ends. -/
  | replaced {startup : Bool} : a.pc = .updating startup →
      Steps env a (.updated true) { a with pc := .ended .replaced }
  /-- `self_update` raised; the loop goes on as if the `hello` had. -/
  | notReplaced {startup : Bool} : a.pc = .updating startup →
      Steps env a (.updated false) (a.helloFailed startup)
  /-- The fetch of a batch came back. -/
  | work {answer : Option Json} {b : Agent ι ν} : a.pc = .fetching .checks →
      WorkEnds a answer b → Steps env a (.fetched answer) b
  /-- The fetch of a cycle's work came back. -/
  | dutyWork {d : Duty} {answer : Option Json} {b : Agent ι ν} : a.pc = .fetching (.duty d) →
      DutyWorkEnds a d answer b → Steps env a (.fetched answer) b
  /-- The checks have been run, one run for each item of the work. -/
  | checked {work : Json} {items : List Json} {runs : List Checks.Attempt} {b : Agent ι ν} :
      a.pc = .checking work items → runs.length = items.length →
      ChecksEnd a work (gatherAll (List.zipWith (runItem env.intError) items runs)) b →
      Steps env a (.checked runs) b
  /-- `attach_ptrs` raised. -/
  | unnamed {work : Json} {results : List Checks.Result} : a.pc = .naming work results →
      Steps env a (.named none) a.pollError
  /-- It wrote a name, or none, into each result. -/
  | named {work : Json} {results : List Checks.Result} {names : List (Option String)} :
      a.pc = .naming work results → names.length = results.length →
      Steps env a (.named (some names))
        { a with pc := .posting work (List.zipWith withPtr results names) }
  /-- The devices have been polled. -/
  | polled {interval : ℤ} {items : List Json} {nets : List (Snmp.DeviceNet ι ν)} {b : Agent ι ν} :
      a.pc = .cycling .snmp interval items → nets.length = items.length →
      GatherEnds a .snmp interval ((gatherAll (List.zipWith discoverItem items nets)).map .snmp) b →
      Steps env a (.polled nets) b
  /-- The prefixes have been swept. -/
  | swept {interval : ℤ} {items : List Json} {ping : Ping} {b : Agent ι ν} :
      a.pc = .cycling .sweep interval items →
      GatherEnds a .sweep interval ((gatherAll (items.map (sweepPrefix ping))).map .sweep) b →
      Steps env a (.swept ping) b
  /-- The batch was received. -/
  | posted {work : Json} {results : List Checks.Result} : a.pc = .posting work results →
      Steps env a (.posted true) (a.afterBatch work)
  /-- It was not, and is lost. -/
  | notPosted {work : Json} {results : List Checks.Result} : a.pc = .posting work results →
      Steps env a (.posted false) a.pollError
  /-- The report of a cycle was received. -/
  | reported {d : Duty} {interval : ℤ} {payload : Payload ι ν} :
      a.pc = .reporting d interval payload → Steps env a (.posted true) (a.cycleDone d interval)
  /-- It was not, and is lost. -/
  | notReported {d : Duty} {interval : ℤ} {payload : Payload ι ν} :
      a.pc = .reporting d interval payload → Steps env a (.posted false) (a.cycleError d)
  /-- The clock was read. -/
  | clock {what : Reading} {now : Binary64} {b : Agent ι ν} : a.pc = .reading what →
      ReadEnds a now what b → Steps env a (.clock now) b
  /-- A sleep is over. -/
  | slept : a.pc = .backingOff ∨ a.pc = .sleeping → Steps env a .slept a.top
  /-- The lane takes a step, while the loop waits for something. -/
  | lane {e : FastLane.Event} {r r' : Runner} : a.pc.awaits = true → ofLane e = true →
      a.fast = some r → FastLane.lane.step r e = some r' →
      Steps env a (.lane e) { a with fast := some r' }
  /-- The task is cancelled, where the loop waits. -/
  | stop : a.pc.cancellable = true → Steps env a .stop (a.close .stopped)
  /-- The `finally` block is over. -/
  | closed {why : End} : a.pc = .closing why → Steps env a .closed { a with pc := .ended why }

/-- The inversion of the step function: every invariant below is a case analysis of `Steps`, and
none of them unfolds `step`. -/
theorem steps_of_step {a' : Agent ι ν} {e : Event ι ν} (h : a.step env e = some a') :
    Steps env a e a' := by
  unfold Agent.step at h
  split at h
  case h_1 answer =>
    split at h <;> cases h
    case h_1 hpc => exact .helloed hpc (afterHello_ends _ _ _ _)
  case h_2 ok =>
    split at h <;> cases h
    case h_1 hpc =>
      rcases ok
      · exact .notReplaced hpc
      · exact .replaced hpc
  case h_3 answer =>
    split at h <;> cases h
    case h_1 hpc => exact .work hpc (afterWork_ends _ _)
    case h_2 hpc => exact .dutyWork hpc (afterDutyWork_ends _ _ _)
  case h_4 runs =>
    split at h
    case h_2 => cases h
    case h_1 hpc =>
      split at h <;> cases h
      case isTrue hlen => exact .checked hpc hlen (afterChecks_ends _ _ _)
  case h_5 names =>
    split at h
    case h_1 hpc =>
      cases h
      exact .unnamed hpc
    case h_2 hpc =>
      split at h <;> cases h
      case isTrue hlen => exact .named hpc hlen
    case h_3 => cases h
  case h_6 nets =>
    split at h
    case h_2 => cases h
    case h_1 hpc =>
      split at h <;> cases h
      case isTrue hlen => exact .polled hpc hlen (afterGather_ends _ _ _ _)
  case h_7 ping =>
    split at h <;> cases h
    case h_1 hpc => exact .swept hpc (afterGather_ends _ _ _ _)
  case h_8 ok =>
    split at h <;> cases h
    case h_1 hpc =>
      rcases ok
      · exact .notPosted hpc
      · exact .posted hpc
    case h_2 hpc =>
      rcases ok
      · exact .notReported hpc
      · exact .reported hpc
  case h_9 now =>
    split at h <;> cases h
    case h_1 hpc => exact .clock hpc (read_ends _ _ _)
  case h_10 =>
    split at h <;> cases h
    case h_1 hpc => exact .slept (.inl hpc)
    case h_2 hpc => exact .slept (.inr hpc)
  case h_11 e =>
    split at h
    case isFalse => cases h
    case isTrue hmay =>
      obtain ⟨r', hr', rfl⟩ := Option.map_eq_some_iff.1 h
      obtain ⟨r, hr, hstep⟩ := Option.bind_eq_some_iff.1 hr'
      rw [Bool.and_eq_true] at hmay
      exact .lane hmay.1 hmay.2 hr hstep
  case h_12 =>
    split at h <;> cases h
    case isTrue hmay => exact .stop hmay
  case h_13 =>
    split at h <;> cases h
    case h_1 hpc => exact .closed hpc

/-! ### The end of the loop -/

/-- The loop is over. -/
def Pc.over : Pc ι ν → Bool
  | .closing _ | .ended _ => true
  | _ => false

/-- Once over, the loop stays over. -/
theorem over_step {a' : Agent ι ν} {e : Event ι ν} (hstep : a.step env e = some a')
    (hover : a.pc.over = true) : a'.pc.over = true := by
  have hpc : ∀ pc, a.pc = pc → pc.over = true := fun pc h ↦ h ▸ hover
  cases steps_of_step hstep with
  | lane => exact hover
  | stop | closed => rfl
  | slept h => rcases h with h | h <;> cases hpc _ h
  | helloed h | replaced h | notReplaced h | work h | dutyWork h | checked h | unnamed h | named h
  | polled h | swept h | posted h | notPosted h | reported h | notReported h | clock h =>
    cases hpc _ h

end Outpost
