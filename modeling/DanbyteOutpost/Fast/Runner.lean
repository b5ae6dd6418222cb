import DanbyteOutpost.Data.Binary64
import DanbyteOutpost.Data.Dict
import DanbyteOutpost.Data.Json
import DanbyteOutpost.Machine.Run

/-!
# The fast lane

`FastRunner` as a machine. Its `run()` loop, the probe tasks it creates and the client it talks to
interleave at `await`s only, so a step of the machine is one stretch of code between two of them:

* `wake` - the loop comes back from its sleep: `tick`, then a flush if one is due, then a refresh if
  one is due, up to the next `await` (`Pc` says which);
* `posted`, `fetched` - the post or the fetch the loop is waiting for ends;
* `begin`, `answer` - a probe task runs up to its checker's first `await`, and from the checker's
  answer to its end;
* `stop` - the agent shuts down.

An `_Entry` is an object that a probe keeps hold of after `refresh` has deleted or replaced it in
`entries`, so entries live in a heap and `entries` maps a state id to an object's identity. The
clocks are readings the event carries; they are floats, as are the intervals, and their sums are
rounded. A number of seconds that is too large for a float cannot be added to a reading: there `run`
raises, and the lane's task is over (`Pc.raised`), while the probes it has created run on.
-/

namespace FastLane

/-- A check status. -/
inductive Status
  | up | down | degraded | unknown
  deriving DecidableEq

/-- A check of the fast-work payload: its fields, defaults not yet applied, and
`str(check.get("state_id") or "")`. -/
structure FastCheck where
  /-- Under which the entry is kept and the samples are reported. -/
  stateId : String
  /-- `interval_ms`, whatever the core sent. -/
  intervalMs : Json
  /-- `kind`, whatever the core sent. -/
  kind : Json
  /-- The fields that only the checker reads. -/
  others : List (String × Json) := []

/-- What `_probe` reads of a `CheckOutcome`; `error` is the text of its `detail["error"]`, where
there is one. -/
structure CheckOutcome where
  /-- Its `status`. -/
  status : Status
  /-- Its `latency_ms`. -/
  latencyMs : Option ℚ
  /-- What its details say went wrong. -/
  error : Option String
  deriving DecidableEq

/-- A buffered sample. -/
structure Sample where
  /-- The wall clock in milliseconds, read when the probe began. -/
  t : ℤ
  /-- The status the checker gave. -/
  status : Status
  /-- Left out of the sample where the checker gave none. -/
  latencyMs : Option ℚ
  /-- The detail, left out where it is empty. -/
  error : Option String
  deriving DecidableEq

/-- The `fast-work` payload. `checks` is `none` when it cannot be iterated over, and an element is
`none` when it is no object. -/
structure Work where
  /-- `refresh_seconds`, whatever the core sent. -/
  refreshSeconds : Json
  /-- `flush_seconds`, whatever the core sent. -/
  flushSeconds : Json
  /-- The list of checks. -/
  checks : Option (List (Option FastCheck))

/-- `_Entry`. -/
structure Entry where
  /-- The check as last sent. -/
  check : FastCheck
  /-- The reading of the monotonic clock from which a tick may start a probe. -/
  due : Binary64
  /-- The seconds between two starts. -/
  interval : Binary64
  /-- Whether the last sample was reachable; `None` before the first. -/
  lastClass : Option Bool
  /-- A probe is out. -/
  running : Bool

/-- A probe task: created by `tick` and not yet run, or waiting for its checker since `at`. -/
inductive Phase
  /-- `asyncio.create_task`, and no more. -/
  | created
  /-- The check it was begun with, and the reading of the wall clock. -/
  | awaiting (check : FastCheck) (at_ : ℤ)

/-- A probe task and the entry object it was created for. -/
structure Probe where
  /-- The object, which the task holds on to when the entry has been replaced or dropped. -/
  entry : ℕ
  /-- How far it has got. -/
  phase : Phase

/-- Samples per state id: the buffer, and a batch to post. -/
abbrev Batch := Dict String (List Sample)

/-- Where `run()` waits. -/
inductive Pc
  /-- The first `refresh`'s fetch. -/
  | booting
  /-- `asyncio.sleep`. -/
  | sleeping
  /-- The post of a flush, after which the loop goes on with the reading `now_m`. -/
  | flushing (results : Batch) (nowM : Binary64)
  /-- The fetch of a refresh. -/
  | refreshing
  /-- The post of the last flush. -/
  | closing (results : Batch)
  /-- `run()` has returned. -/
  | finished
  /-- Nowhere: an exception has ended it. -/
  | raised

/-- The `FastRunner`, its entry objects and its tasks. -/
structure Runner where
  /-- All `_Entry` objects, by a number of their own. -/
  heap : ℕ → Entry
  /-- How many there are. -/
  fresh : ℕ
  /-- `entries`: the object listed under each state id. -/
  entries : Dict String ℕ
  /-- `buffer`: the samples that wait for a flush, by state id. -/
  buffer : Batch
  /-- `refresh_seconds`. -/
  refreshSeconds : ℤ
  /-- `flush_seconds`. -/
  flushSeconds : ℤ
  /-- `flush_now`: a sample told of a change. -/
  flushNow : Bool
  /-- The probes that were completed. -/
  probes : ℕ
  /-- `stop()` was called. -/
  stopping : Bool
  /-- The probe tasks that have not ended. -/
  tasks : List Probe
  /-- Where `run()` waits. -/
  pc : Pc
  /-- `next_refresh`. -/
  nextRefresh : Binary64
  /-- `next_flush`. -/
  nextFlush : Binary64

/-- Assign to the attributes of an entry object. -/
def Runner.setEntry (id : ℕ) (e : Entry) (r : Runner) : Runner :=
  { r with heap := Function.update r.heap id e }

/-- `self.entries[sid] = e`, for a new object. -/
def Runner.addEntry (sid : String) (e : Entry) (r : Runner) : Runner :=
  { r with
    heap := Function.update r.heap r.fresh e
    fresh := r.fresh + 1
    entries := r.entries.set sid r.fresh }

/-! ### `refresh` -/

/-- `max(int(check.get("interval_ms") or 1000), 200) / 1000`; `none` when `int` raises, and when
the quotient is too large for a float. -/
def intervalOf (check : FastCheck) : Option Binary64 :=
  (check.intervalMs.orElse (.int 1000)).pyInt.bind fun n ↦
    Binary64.ofRat? ((max n 200 : ℤ) / 1000)

/-- `_Entry(check)`, with the clock at `now`. -/
def Entry.new (check : FastCheck) (now : Binary64) : Option Entry :=
  (intervalOf check).map fun interval ↦
    { check := check, due := now, interval := interval, lastClass := none, running := false }

/-- `_Entry.refresh(check)`: the check is replaced before the interval is computed, which may
raise. -/
def Entry.refresh (e : Entry) (check : FastCheck) : Entry × Bool :=
  match intervalOf check with
  | none => ({ e with check := check }, false)
  | some interval => ({ e with check := check, interval := interval }, true)

/-- The body of the loop over the payload's checks: `none` for `keep` when it raised. -/
def refreshOne (created : String → Binary64) (item : Option FastCheck) (r : Runner)
    (keep : List String) : Runner × Option (List String) :=
  match item with
  | none => (r, none)
  | some check =>
    if check.stateId = "" then (r, some keep)
    else
      match r.entries.get? check.stateId with
      | none =>
        match Entry.new check (created check.stateId) with
        | none => (r, none)
        | some e => (r.addEntry check.stateId e, some (check.stateId :: keep))
      | some id =>
        let (e, ok) := (r.heap id).refresh check
        (r.setEntry id e, if ok then some (check.stateId :: keep) else none)

/-- The loop over the payload's checks. -/
def refreshChecks (created : String → Binary64) :
    List (Option FastCheck) → Runner → List String → Runner × Option (List String)
  | [], r, keep => (r, some keep)
  | item :: items, r, keep =>
    match refreshOne created item r keep with
    | (r', none) => (r', none)
    | (r', some keep') => refreshChecks created items r' keep'

/-- What `refresh` does with a payload, and whether it came to its end. `created` gives the clock
at the creation of each entry. -/
def Runner.refresh (created : String → Binary64) (work : Work) (r : Runner) : Runner × Bool :=
  match (work.refreshSeconds.orElse (.int r.refreshSeconds)).pyInt with
  | none => (r, false)
  | some refreshSeconds =>
    let r := { r with refreshSeconds := refreshSeconds }
    match (work.flushSeconds.orElse (.int r.flushSeconds)).pyInt with
    | none => (r, false)
    | some flushSeconds =>
      let r := { r with flushSeconds := flushSeconds }
      match work.checks with
      | none => (r, false)
      | some checks =>
        match refreshChecks created checks r [] with
        | (r, none) => (r, false)
        | (r, some keep) =>
          ({ r with
              entries := r.entries.restrict fun sid ↦ decide (sid ∈ keep)
              buffer := r.buffer.restrict fun sid ↦
                !r.entries.contains sid || decide (sid ∈ keep) }, true)

/-! ### `tick` and `_probe` -/

/-- Start the probe of an entry; the next one is due an interval from now. -/
def Runner.launch (now : Binary64) (id : ℕ) (r : Runner) : Runner :=
  let e := r.heap id
  { r.setEntry id { e with running := true, due := now + e.interval } with
    tasks := r.tasks ++ [⟨id, .created⟩] }

/-- The body of `tick`'s loop for one entry. -/
def tickOne (now : Binary64) (r : Runner) (id : ℕ) : Runner :=
  if (r.heap id).due ≤ now ∧ (r.heap id).running = false then r.launch now id else r

/-- `tick()`: the entries one after the other, in the order of the work list. -/
def Runner.tick (now : Binary64) (r : Runner) : Runner :=
  (r.entries.items.map Prod.snd).foldl (tickOne now) r

/-- The kinds of `CHECKER_REGISTRY`. -/
def registeredKinds : List String :=
  ["icmp", "tcp", "http", "udp", "ssh", "snmp", "telnet", "tls_cert"]

/-- `get_checker(kind)`: whether there is one; `none` when the lookup raises, on a kind that cannot
be a key. -/
def getChecker : Json → Option Bool
  | .str kind => some (decide (kind ∈ registeredKinds))
  | .arr _ | .obj _ => none
  | _ => some false

/-- `CheckOutcome.unknown(error)`. -/
def CheckOutcome.unknown (error : String) : CheckOutcome :=
  { status := .unknown, latencyMs := none, error := if error = "" then none else some error }

/-- The text of a kind that is no container. -/
def kindText : Json → String
  | .null => "None"
  | .bool b => if b then "True" else "False"
  | .int n => toString n
  | .float _ text => text
  | .str s => s
  | .arr _ | .obj _ => ""

/-- The outcome of a probe whose kind has no checker. -/
def unavailable (kind : Json) : CheckOutcome :=
  .unknown s!"kind '{kindText kind}' not available on this Outpost"

/-- The outcome of a checker's run: its own, or `unknown` with the exception it raised. -/
def outcomeOf : Except String CheckOutcome → CheckOutcome
  | .ok oc => oc
  | .error exc => .unknown exc

/-- `oc.status in _REACHABLE`. -/
def Status.reachable : Status → Bool
  | .up | .degraded => true
  | .down | .unknown => false

/-- The sample of an outcome. It has the error only where that says something: an exception may have
no text. -/
def sampleOf (at_ : ℤ) (oc : CheckOutcome) : Sample :=
  { t := at_
    status := oc.status
    latencyMs := oc.latencyMs
    error := (oc.error.filter fun text ↦ !text.isEmpty).map fun text ↦
      String.ofList (text.toList.take 300) }

/-- `_probe` from the outcome to its end. -/
def Runner.complete (id : ℕ) (check : FastCheck) (at_ : ℤ) (oc : CheckOutcome) (r : Runner) :
    Runner :=
  let e := r.heap id
  let reachable := oc.status.reachable
  { r.setEntry id { e with lastClass := some reachable, running := false } with
    probes := r.probes + 1
    buffer := r.buffer.set check.stateId
      ((r.buffer.get? check.stateId).getD [] ++ [sampleOf at_ oc])
    flushNow := r.flushNow || (e.lastClass == some (!reachable)) }

/-! ### `flush` and the loop of `run()` -/

/-- The batch a flush takes out of the buffer. -/
def Runner.results (r : Runner) : Batch :=
  r.buffer.filterMapValues fun samples ↦ if samples.isEmpty then none else some samples

/-- `flush` up to its post: the buffer is swapped for an empty one. -/
def Runner.swap (r : Runner) : Runner :=
  { r with buffer := Dict.empty, flushNow := false }

/-- Samples kept per check when a post fails. -/
def bufferCap : ℕ := 600

/-- A failed post: the samples go back in front of what arrived since, and each check keeps its
newest. -/
def requeue (results buffer : Batch) : Batch :=
  (results.items.foldl
    (fun b e ↦ b.set e.1 (e.2 ++ (b.get? e.1).getD [])) buffer).mapValues
      fun samples ↦ samples.drop (samples.length - bufferCap)

/-- `flush` after its post. -/
def Runner.postDone (results : Batch) (ok : Bool) (r : Runner) : Runner :=
  if ok then r else { r with buffer := requeue results r.buffer }

/-- `now + seconds`; `none` when the number of seconds is too large for a float. -/
def later (now : Binary64) (seconds : ℤ) : Option Binary64 :=
  (Binary64.ofRat? seconds).map (now + ·)

/-- The loop after its flush: a refresh when it is due, else the sleep. -/
def Runner.afterFlush (nowM : Binary64) (r : Runner) : Runner :=
  if r.nextRefresh ≤ nowM then
    match later nowM r.refreshSeconds with
    | none => { r with pc := .raised }
    | some nextRefresh => { r with nextRefresh := nextRefresh, pc := .refreshing }
  else { r with pc := .sleeping }

/-- A flush in the loop, up to its post or past it when there is nothing to post. -/
def Runner.flush (nowM : Binary64) (r : Runner) : Runner :=
  if r.results.items.isEmpty then r.swap.afterFlush nowM
  else { r.swap with pc := .flushing r.results nowM }

/-- The flush after the loop. -/
def Runner.lastFlush (r : Runner) : Runner :=
  if r.results.items.isEmpty then { r.swap with pc := .finished }
  else { r.swap with pc := .closing r.results }

/-- The loop from its sleep to the next `await`. -/
def Runner.wake (tickAt nowM : Binary64) (r : Runner) : Runner :=
  if r.stopping then r.lastFlush
  else
    let r := r.tick tickAt
    if r.flushNow = true ∨ r.nextFlush ≤ nowM then
      match later nowM r.flushSeconds with
      | none => { r with pc := .raised }
      | some nextFlush => { r with nextFlush := nextFlush }.flush nowM
    else r.afterFlush nowM

/-- What can happen next, with the clock readings and the answers it brings. -/
inductive Event
  /-- The sleep of the loop is over; `tickAt` is the reading of `tick`, `nowM` that of the loop. -/
  | wake (tickAt nowM : Binary64)
  /-- The task `i` runs for the first time, and reads the wall clock. -/
  | begin (i : ℕ) (at_ : ℤ)
  /-- The checker of the task `i` returns, or raises. -/
  | answer (i : ℕ) (reply : Except String CheckOutcome)
  /-- The post under way comes back, or raises. -/
  | posted (ok : Bool)
  /-- `work` is `none` when the fetch raised; `nowRefresh` and `nowFlush` are the readings `run()`
  takes after its first refresh. -/
  | fetched (work : Option Work) (created : String → Binary64) (nowRefresh nowFlush : Binary64)
  /-- `stop()`. -/
  | stop

/-- `run` from the end of its first refresh to its first sleep. -/
def Runner.arm (nowRefresh nowFlush : Binary64) (r : Runner) : Runner :=
  match later nowRefresh r.refreshSeconds with
  | none => { r with pc := .raised }
  | some nextRefresh =>
    match later nowFlush r.flushSeconds with
    | none => { r with pc := .raised }
    | some nextFlush =>
      { r with nextRefresh := nextRefresh, nextFlush := nextFlush, pc := .sleeping }

/-- The refresh a fetch ends in; an exception leaves what was done so far. -/
def Runner.afterFetch (work : Option Work) (created : String → Binary64) (r : Runner) : Runner :=
  match work with
  | none => r
  | some work => (r.refresh created work).1

/-- The first stretch of `_probe`, from the task's creation. -/
def Runner.beginProbe (i : ℕ) (id : ℕ) (at_ : ℤ) (r : Runner) : Runner :=
  let check := (r.heap id).check
  match getChecker check.kind with
  | none => { r with tasks := r.tasks.eraseIdx i }
  | some true => { r with tasks := r.tasks.set i ⟨id, .awaiting check at_⟩ }
  | some false =>
    { r with tasks := r.tasks.eraseIdx i }.complete id check at_ (unavailable check.kind)

/-- One step. -/
def Runner.step (r : Runner) : Event → Option Runner
  | .wake tickAt nowM =>
    match r.pc with
    | .sleeping => some (r.wake tickAt nowM)
    | _ => none
  | .begin i at_ =>
    match r.tasks[i]? with
    | some ⟨id, .created⟩ => some (r.beginProbe i id at_)
    | _ => none
  | .answer i reply =>
    match r.tasks[i]? with
    | some ⟨id, .awaiting check at_⟩ =>
      some ({ r with tasks := r.tasks.eraseIdx i }.complete id check at_ (outcomeOf reply))
    | _ => none
  | .posted ok =>
    match r.pc with
    | .flushing results nowM => some ((r.postDone results ok).afterFlush nowM)
    | .closing results => some { r.postDone results ok with pc := .finished }
    | _ => none
  | .fetched work created nowRefresh nowFlush =>
    match r.pc with
    | .booting => some ((r.afterFetch work created).arm nowRefresh nowFlush)
    | .refreshing => some { r.afterFetch work created with pc := .sleeping }
    | _ => none
  | .stop => some { r with stopping := true }

/-- The fast lane. -/
def lane : Machine Runner Event := ⟨Runner.step⟩

/-- A `FastRunner` whose `run()` has just been started, built with the poll interval
`flush_seconds`. The first object is a placeholder that no entry refers to. -/
def Runner.init (flushSeconds : ℤ) : Runner where
  heap _ := ⟨⟨"", .null, .null, []⟩, 0, 0, none, false⟩
  fresh := 0
  entries := Dict.empty
  buffer := Dict.empty
  refreshSeconds := 15
  flushSeconds := flushSeconds
  flushNow := false
  probes := 0
  stopping := false
  tasks := []
  pc := .booting
  nextRefresh := 0
  nextFlush := 0

/-! ### Payloads and answers of example runs -/

/-- A payload of one check that leaves the cadences as they are. -/
def oneCheck : Work :=
  { refreshSeconds := .null
    flushSeconds := .null
    checks := some [some { stateId := "7", intervalMs := .null, kind := .str "tcp" }] }

/-- A payload without checks. -/
def noCheck : Work := { oneCheck with checks := some [] }

/-- An outcome to run with. -/
def isUp : CheckOutcome := { status := .up, latencyMs := none, error := none }

end FastLane
