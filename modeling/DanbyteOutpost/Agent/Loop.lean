import DanbyteOutpost.Agent.Sweep
import DanbyteOutpost.Checks.RunCheck
import DanbyteOutpost.Snmp.Fetch

/-!
# The agent

`_loop` as a machine, with the fast lane beside it. The loop gives way at its `await`s only, so an
event is the end of what it waits for, with what that brought, and the step is the code up to the
next `await` or to the next reading of the clock; a reading is an event of its own (`clock`), before
which no other task gets to run. `FastRunner.run` is a task of the same event loop: its steps are
the `lane` events.

An exception that the loop does not catch, and a cancellation, end in its `finally` (`closing`).

## The parts of the state

* `Pc`: what the loop waits for, or which reading of the clock comes next, with the local
  variables that are still to be used.
* `Cadence`: the interval and the deadline of a cycle, for each `Duty`.
* `fast`: the lane, where there is one.

Each stretch of code is a function of its own, called after what it follows; `Agent.step` only
finds the one an event belongs to. `Env` is what the loop does not find out by waiting: whether it
is the single-file binary, and the texts of what `int` raises.
-/

open FastLane (Runner)

namespace Outpost

/-! ### Payloads -/

/-- `for x in value`; `none` where the value cannot be iterated over. -/
def elements : Json → Option (List Json)
  | .arr xs => some xs
  | .str s => some (s.toList.map fun c ↦ .str (String.singleton c))
  | .obj fields => some (fields.map fun field ↦ .str field.1)
  | .null | .bool _ | .int _ | .float _ _ => none

/-- `if items:` and the loop over them, for `items = work.get(key, [])`; `none` where one of the two
raises. -/
def itemsOf (work : Json) (key : String) : Option (List Json) :=
  match work.get? key with
  | none => none
  | some items =>
    let items := items.getD (.arr [])
    if items.truthy then elements items else some []

/-- `work.get(key)` of an object. -/
def field (work : Json) (key : String) : Json := ((work.get? key).join).getD .null

/-- What `run_check` reads of a check; `none` where it is no object. -/
def checkOf : Json → Option Checks.Check
  | .obj fields =>
    let check := Json.obj fields
    some {
      stateId := field check "state_id"
      kind := field check "kind"
      target := field check "target"
      params := field check "params"
      secretParams := field check "secret_params"
      timeoutMs := field check "timeout_ms" }
  | _ => none

/-- What `discover_device` reads of a device; `none` where it is no object. -/
def deviceOf : Json → Option Snmp.Device
  | .obj fields =>
    let device := Json.obj fields
    some {
      deviceId := field device "device_id"
      params := field device "params"
      timeoutMs := field device "timeout_ms" }
  | _ => none

/-- `run_check(c)` -/
def runItem (intError : Json → String) (item : Json) (run : Checks.Attempt) :
    Except Unit Checks.Result :=
  match checkOf item with
  | none => .error ()
  | some check => Checks.runCheck intError check run

/-- `discover_device(d)` -/
def discoverItem {ι ν : Type} (item : Json) (net : Snmp.DeviceNet ι ν) :
    Except Unit (Json × Snmp.SnmpResult ι ν) :=
  match deviceOf item with
  | none => .error ()
  | some device =>
    match Snmp.discoverDevice device net with
    | .error _ => .error ()
    | .ok result => .ok result

/-- `detail["ptr"] = name`, where there is a name to write. -/
def withPtr (result : Checks.Result) : Option String → Checks.Result
  | none => result
  | some name =>
    { result with details := ((Dict.ofList result.details).set "ptr" (.str name)).items }

/-! ### The state -/

/-- A cycle with a cadence of its own. -/
inductive Duty
  | snmp | sweep
  deriving DecidableEq

/-- What work is fetched for. -/
inductive Job
  /-- `fetch_work`. -/
  | checks
  /-- `fetch_snmp_work` or `fetch_sweep_work`. -/
  | duty (duty : Duty)
  deriving DecidableEq

/-- `snmp_interval` and `next_snmp`, `sweep_interval` and `next_sweep`. -/
structure Cadence where
  /-- The seconds between two cycles, as the core last sent them. -/
  interval : ℤ
  /-- The reading of the clock from which the cycle is due. -/
  next : Binary64

/-- What the reading of the clock is for. -/
inductive Reading
  /-- `now >= next_snmp`, and the same of the sweep. -/
  | due (duty : Duty)
  /-- `next_snmp = now + snmp_interval`, behind the cycle. -/
  | next (duty : Duty)
  /-- `now >= next_hello`. -/
  | helloDue
  /-- `next_hello = now + 300`. -/
  | helloNext
  deriving DecidableEq

/-- How the loop ends: an exception, a cancellation, or the exit of the process for a new binary. -/
inductive End
  | crashed | stopped | replaced
  deriving DecidableEq

/-- What a post carries. -/
inductive Payload (ι ν : Type)
  /-- `post_results`. -/
  | checks (results : List Checks.Result)
  /-- `post_snmp_results`: each device with its `device_id`. -/
  | snmp (results : List (Json × Snmp.SnmpResult ι ν))
  /-- `post_discovered`: each prefix with the hosts that answered. -/
  | sweep (results : List (Json × List IpHost))

/-- Where `_loop` waits, or which reading of the clock comes next. -/
inductive Pc (ι ν : Type)
  /-- `hello`, at the start or in the loop. -/
  | hello (startup : Bool)
  /-- `self_update`. -/
  | updating (startup : Bool)
  /-- The fetch of work. -/
  | fetching (job : Job)
  /-- The `gather` of `run_check`. -/
  | checking (work : Json) (items : List Json)
  /-- The lookup of `attach_ptrs`. -/
  | naming (work : Json) (results : List Checks.Result)
  /-- The post of a batch. -/
  | posting (work : Json) (results : List Checks.Result)
  /-- The `gather` of a cycle, with the new interval. -/
  | cycling (duty : Duty) (interval : ℤ) (items : List Json)
  /-- The post of a cycle. -/
  | reporting (duty : Duty) (interval : ℤ) (payload : Payload ι ν)
  /-- The sleep behind an exception of the batch. -/
  | backingOff
  /-- The sleep at the end of a pass. -/
  | sleeping
  /-- The clock is read. -/
  | reading (what : Reading)
  /-- The `finally`. -/
  | closing (why : End)
  /-- The loop is over. -/
  | ended (why : End)

/-- The variables of `_loop`; `fast` is the `FastRunner` with its task. -/
structure Agent (ι ν : Type) where
  /-- `poll`, the seconds of a sleep. -/
  poll : ℤ
  /-- The cadence of the SNMP cycle. -/
  snmp : Cadence
  /-- The cadence of the sweep. -/
  sweep : Cadence
  /-- `next_hello`. -/
  nextHello : Binary64
  /-- The last answer to a `hello`. -/
  info : Json
  /-- `fast`, with its `fast_task`; `none` while there is neither. -/
  fast : Option Runner
  /-- What `_loop` awaits. -/
  pc : Pc ι ν

variable {ι ν : Type}

/-- The cadence of a cycle. -/
def Agent.cadence (a : Agent ι ν) : Duty → Cadence
  | .snmp => a.snmp
  | .sweep => a.sweep

/-- Another cadence for a cycle. -/
def Agent.setCadence (a : Agent ι ν) (duty : Duty) (c : Cadence) : Agent ι ν :=
  match duty with
  | .snmp => { a with snmp := c }
  | .sweep => { a with sweep := c }

/-- `next_snmp = now` or `next_sweep = now`. -/
def Agent.setNext (a : Agent ι ν) (duty : Duty) (next : Binary64) : Agent ι ν :=
  a.setCadence duty { a.cadence duty with next := next }

/-- What stands outside the model: whether this is the single-file binary, and the text of what
`int` raises. -/
structure Env where
  /-- `sys.frozen`: an update is only possible where it is set. -/
  frozen : Bool
  /-- The text of the exception that `int` of a value raises, which a result may carry. -/
  intError : Json → String

/-! ### The stretches of code -/

/-- The number can be added to a reading of the clock: it is none too large for a float. The sum is
then one of floats, and rounded. -/
def fits (n : ℤ) : Bool := |n| < 2 ^ 1024 - 2 ^ 970

/-- The `finally`, up to its `await`s. -/
def Agent.close (why : End) (a : Agent ι ν) : Agent ι ν :=
  { a with fast := a.fast.map fun r ↦ { r with stopping := true }, pc := .closing why }

/-- The top of the loop: the lane is started once, when the core has said that it has the
endpoints. -/
def Agent.top (a : Agent ι ν) : Agent ι ν :=
  match a.fast with
  | some _ => { a with pc := .fetching .checks }
  | none =>
    match a.info.get? "fast" with
    | none => a.close .crashed
    | some fast =>
      if (fast.getD .null).truthy then
        { a with fast := some (Runner.init a.poll), pc := .fetching .checks }
      else { a with pc := .fetching .checks }

/-- A `hello` block that ends well. -/
def Agent.helloOk (startup : Bool) (a : Agent ι ν) : Agent ι ν :=
  if startup then a.top else { a with pc := .reading .helloNext }

/-- A `hello` block that raised. -/
def Agent.helloFailed (startup : Bool) (a : Agent ι ν) : Agent ι ν :=
  if startup then { a with info := .obj [] }.top else { a with pc := .reading .helloNext }

/-- `_maybe_update` -/
def Agent.maybeUpdate (env : Env) (startup : Bool) (a : Agent ι ν) : Agent ι ν :=
  match a.info.get? "update_to" with
  | none => a.helloFailed startup
  | some target =>
    if (target.getD .null).truthy && env.frozen then { a with pc := .updating startup }
    else a.helloOk startup

/-- The rest of a `hello` block; only the one at the start takes over the poll interval. -/
def Agent.afterHello (env : Env) (startup : Bool) (answer : Option Json) (a : Agent ι ν) :
    Agent ι ν :=
  match answer with
  | none => a.helloFailed startup
  | some info =>
    if startup then
      match (info.get? "poll_interval_seconds").bind (Snmp.nextInterval a.poll) with
      | none => a.helloFailed startup
      | some poll => { a with info := info, poll := poll }.maybeUpdate env startup
    else { a with info := info }.maybeUpdate env startup

/-- The handler of the loop's first `try`. -/
def Agent.pollError (a : Agent ι ν) : Agent ι ν := { a with pc := .backingOff }

/-- What follows the batch: the flags of the work, and the first of the cycles. -/
def Agent.afterBatch (work : Json) (a : Agent ι ν) : Agent ι ν :=
  let a := if (field work "sweep_pending").truthy then a.setNext .sweep 0 else a
  let a := if (field work "snmp_pending").truthy then a.setNext .snmp 0 else a
  { a with pc := .reading (.due .snmp) }

/-- The loop from its answer on work. -/
def Agent.afterWork (answer : Option Json) (a : Agent ι ν) : Agent ι ν :=
  match answer with
  | none => a.pollError
  | some work =>
    match itemsOf work "checks" with
    | none => a.pollError
    | some [] => a.afterBatch work
    | some items => { a with pc := .checking work items }

/-- From the results of the checks to `attach_ptrs`' lookup, or to the post where there is none. -/
def Agent.afterChecks (work : Json) (results : Except Unit (List Checks.Result))
    (a : Agent ι ν) : Agent ι ν :=
  match results with
  | .error () => a.pollError
  | .ok results =>
    match ((field work "dns").orElse (.obj [])).get? "resolve" with
    | none => a.pollError
    | some resolve =>
      if (resolve.getD .null).truthy then { a with pc := .naming work results }
      else { a with pc := .posting work results }

/-- The reading that follows a cycle's part of the loop. -/
def Duty.after : Duty → Reading
  | .snmp => .due .sweep
  | .sweep => .helloDue

/-- `"devices"` and `"prefixes"`. -/
def Duty.key : Duty → String
  | .snmp => "devices"
  | .sweep => "prefixes"

/-- A cycle that raised: the interval stays. -/
def Agent.cycleError (duty : Duty) (a : Agent ι ν) : Agent ι ν :=
  { a with pc := .reading (.next duty) }

/-- A cycle that returned its interval. -/
def Agent.cycleDone (duty : Duty) (interval : ℤ) (a : Agent ι ν) : Agent ι ν :=
  { a.setCadence duty { a.cadence duty with interval := interval } with
    pc := .reading (.next duty) }

/-- `_snmp_cycle` and `_sweep_cycle` from their answer on work. -/
def Agent.afterDutyWork (duty : Duty) (answer : Option Json) (a : Agent ι ν) : Agent ι ν :=
  match answer with
  | none => a.cycleError duty
  | some work =>
    match (work.get? "interval_seconds").bind (Snmp.nextInterval (a.cadence duty).interval),
        itemsOf work duty.key with
    | some interval, some [] => a.cycleDone duty interval
    | some interval, some items => { a with pc := .cycling duty interval items }
    | _, _ => a.cycleError duty

/-- A cycle from its results to their post. -/
def Agent.afterGather (duty : Duty) (interval : ℤ) (payload : Except Unit (Payload ι ν))
    (a : Agent ι ν) : Agent ι ν :=
  match payload with
  | .error () => a.cycleError duty
  | .ok payload => { a with pc := .reporting duty interval payload }

/-- The end of a pass. -/
def Agent.rest (a : Agent ι ν) : Agent ι ν :=
  if 0 < a.poll && !fits a.poll then a.close .crashed else { a with pc := .sleeping }

/-- The code after a reading of the clock. -/
def Agent.read (now : Binary64) (a : Agent ι ν) : Reading → Agent ι ν
  | .due duty =>
    if (a.cadence duty).next ≤ now then { a with pc := .fetching (.duty duty) }
    else { a with pc := .reading duty.after }
  | .next duty =>
    let interval := (a.cadence duty).interval
    if fits interval then
      { a.setNext duty (now + .ofRat interval) with pc := .reading duty.after }
    else a.close .crashed
  | .helloDue => if a.nextHello ≤ now then { a with pc := .hello false } else a.rest
  | .helloNext => { a with nextHello := now + 300 }.rest

/-! ### The machine -/

/-- What can happen next. -/
inductive Event (ι ν : Type)
  /-- The answer to a `hello`, `none` when it raised. -/
  | helloed (answer : Option Json)
  /-- Whether `self_update` got as far as its exit. -/
  | updated (ok : Bool)
  /-- The answer to a fetch of work, `none` when it raised. -/
  | fetched (answer : Option Json)
  /-- The checkers' runs. -/
  | checked (runs : List Checks.Attempt)
  /-- The name `attach_ptrs` writes into each result, `none` in all when it raised. -/
  | named (names : Option (List (Option String)))
  /-- What the polls of the devices meet. -/
  | polled (nets : List (Snmp.DeviceNet ι ν))
  /-- What answers the ping of a sweep. -/
  | swept (ping : Ping)
  /-- Whether a post was received; otherwise it raised. -/
  | posted (ok : Bool)
  /-- What `time.monotonic()` says. -/
  | clock (now : Binary64)
  /-- The end of a sleep. -/
  | slept
  /-- A step of the fast lane. -/
  | lane (e : FastLane.Event)
  /-- The task is cancelled. -/
  | stop
  /-- The end of the `finally` block, with the lane's own end awaited. -/
  | closed

/-- Another task gets to run. -/
def Pc.awaits : Pc ι ν → Bool
  | .reading _ | .ended _ => false
  | _ => true

/-- The task can be cancelled. -/
def Pc.cancellable : Pc ι ν → Bool
  | .reading _ | .closing _ | .ended _ => false
  | _ => true

/-- The steps the lane takes by itself: it is the loop that stops it. -/
def ofLane : FastLane.Event → Bool
  | .stop => false
  | _ => true

variable (env : Env)

/-- One step. -/
def Agent.step (a : Agent ι ν) : Event ι ν → Option (Agent ι ν)
  | .helloed answer =>
    match a.pc with
    | .hello startup => some (a.afterHello env startup answer)
    | _ => none
  | .updated ok =>
    match a.pc with
    | .updating startup =>
      some (if ok then { a with pc := .ended .replaced } else a.helloFailed startup)
    | _ => none
  | .fetched answer =>
    match a.pc with
    | .fetching .checks => some (a.afterWork answer)
    | .fetching (.duty duty) => some (a.afterDutyWork duty answer)
    | _ => none
  | .checked runs =>
    match a.pc with
    | .checking work items =>
      if runs.length = items.length then
        some (a.afterChecks work (gatherAll (List.zipWith (runItem env.intError) items runs)))
      else none
    | _ => none
  | .named names =>
    match a.pc, names with
    | .naming _ _, none => some a.pollError
    | .naming work results, some names =>
      if names.length = results.length then
        some { a with pc := .posting work (List.zipWith withPtr results names) }
      else none
    | _, _ => none
  | .polled nets =>
    match a.pc with
    | .cycling .snmp interval items =>
      if nets.length = items.length then
        some (a.afterGather .snmp interval
          ((gatherAll (List.zipWith discoverItem items nets)).map .snmp))
      else none
    | _ => none
  | .swept ping =>
    match a.pc with
    | .cycling .sweep interval items =>
      some (a.afterGather .sweep interval ((gatherAll (items.map (sweepPrefix ping))).map .sweep))
    | _ => none
  | .posted ok =>
    match a.pc with
    | .posting work _ => some (if ok then a.afterBatch work else a.pollError)
    | .reporting duty interval _ =>
      some (if ok then a.cycleDone duty interval else a.cycleError duty)
    | _ => none
  | .clock now =>
    match a.pc with
    | .reading what => some (a.read now what)
    | _ => none
  | .slept =>
    match a.pc with
    | .backingOff | .sleeping => some a.top
    | _ => none
  | .lane e =>
    if a.pc.awaits && ofLane e then
      (a.fast.bind fun r ↦ FastLane.lane.step r e).map fun r ↦ { a with fast := some r }
    else none
  | .stop => if a.pc.cancellable then some (a.close .stopped) else none
  | .closed =>
    match a.pc with
    | .closing why => some { a with pc := .ended why }
    | _ => none

/-- The agent. -/
def agent : Machine (Agent ι ν) (Event ι ν) := ⟨Agent.step env⟩

/-- The agent once it has sent its first `hello`, with the configured poll interval. -/
def Agent.init (pollSeconds : ℤ) (start : Binary64) : Agent ι ν where
  poll := pollSeconds
  snmp := ⟨900, 0⟩
  sweep := ⟨600, 0⟩
  nextHello := start + 300
  info := .null
  fast := none
  pc := .hello true

/-! ### A short run -/

/-- An agent that is not the single-file binary. -/
def lab : Env := ⟨false, fun _ ↦ ""⟩

/-- Work with a check in it, and a sweep asked for. -/
def oneCheck : Json :=
  .obj [("checks", .arr [.obj [("state_id", .int 1), ("kind", .str "tcp")]]),
    ("sweep_pending", .bool true)]

/-- A pass beside the lane: a batch, an SNMP cycle that fails, a sweep of nothing and a `hello` that
fails; the agent is then cancelled. -/
def onePass : List (Event Unit Unit) :=
  [.helloed (some (.obj [("fast", .bool true)])), .fetched (some oneCheck),
    .lane (.fetched none (fun _ ↦ 0) 0 0), .checked [fun _ _ _ _ ↦ .error "timed out"],
    .posted true, .clock 10, .fetched none, .clock 11, .clock 12,
    .fetched (some (.obj [("interval_seconds", .int 60)])), .clock 13, .clock 301,
    .helloed none, .clock 302, .slept, .stop]

end Outpost
