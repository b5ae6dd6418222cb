import DanbyteOutpost.Fast.Runner
import DanbyteOutpost.Machine.RetryLedger

/-!
# What the steps of the fast lane do to the samples

For one state id, its part of the buffer (`bufferOf`) and its part of the post in flight
(`inFlightOf`) are a retry buffer in the sense of `LedgerOp`: every step of the lane is one
operation on them (`opOf`, `step_move`). What is said of samples over whole runs rests on this one
lemma; the steps are not opened again.

## The lemmas

* Frames: what `tick`, a flush, a refresh and the end of a probe leave alone, and what they write.
* Case lemmas: `wake_cases`, `fetched_cases`, `posted_cases`, `answer_cases` and the like say all
  that one step can do.
* `Grows` is what going through a payload does, and `Refreshed` the specification of a refresh:
  objects are only added, those there were keep their check's state id, and the buffer loses the
  samples of what is listed no more.
* `step_move` is the one the books rest on.

Two state ids never share an object (`Coherent`), which is what lets the steps be seen check by
check.
-/

namespace FastLane

/-- A new entry has the check it was made of. -/
theorem Entry.check_of_new {check : FastCheck} {now : Binary64} {e : Entry}
    (h : Entry.new check now = some e) : e.check = check := by
  obtain ⟨interval, -, rfl⟩ := Option.map_eq_some_iff.1 h
  rfl

/-- A refreshed entry has the new check, and is running if it was. -/
theorem Entry.refresh_fst (e : Entry) (check : FastCheck) :
    (e.refresh check).1.check = check ∧ (e.refresh check).1.running = e.running := by
  rw [Entry.refresh]
  split <;> exact ⟨rfl, rfl⟩

namespace Runner

/-- What the buffer holds for a check. -/
def bufferOf (r : Runner) (sid : String) : List Sample := (r.buffer.get? sid).getD []

/-- The batch of the post the loop is waiting for. -/
def posting (r : Runner) : Batch :=
  match r.pc with
  | .flushing results _ | .closing results => results
  | _ => Dict.empty

/-- What the post in flight holds for a check. -/
def inFlightOf (r : Runner) (sid : String) : List Sample := (r.posting.get? sid).getD []

/-- `sid in self.entries`. -/
def listed (r : Runner) (sid : String) : Bool := r.entries.contains sid

/-- The step is a refresh that takes `sid` away. -/
def drops (r : Runner) (e : Event) (sid : String) : Bool :=
  match r.step e with
  | some r' => r.listed sid && !r'.listed sid
  | none => false

/-- The step is a refresh that lists `sid`, which was not listed before it. -/
def relists (r : Runner) (e : Event) (sid : String) : Bool :=
  match r.step e with
  | some r' => !r.listed sid && r'.listed sid
  | none => false

/-- The sample a probe completes with in the step, and the state id it is buffered for. -/
def completion (r : Runner) : Event → Option (String × Sample)
  | .begin i at_ =>
    match r.tasks[i]? with
    | some ⟨id, .created⟩ =>
      let check := (r.heap id).check
      if getChecker check.kind = some false then
        some (check.stateId, sampleOf at_ (unavailable check.kind))
      else none
    | _ => none
  | .answer i reply =>
    match r.tasks[i]? with
    | some ⟨_, .awaiting check at_⟩ => some (check.stateId, sampleOf at_ (outcomeOf reply))
    | _ => none
  | _ => none

/-- The sample a probe of `sid` completes with in the step. -/
def completionOf (sid : String) (r : Runner) (e : Event) : Option Sample :=
  match r.completion e with
  | some (sid', sample) => if sid' = sid then some sample else none
  | none => none

/-- A loop iteration begun now flushes: it is the last one, or a flush is due and the time of the
next can be computed. -/
def flushDue (nowM : Binary64) (r : Runner) : Prop :=
  r.stopping = true ∨
    (r.flushNow = true ∨ r.nextFlush ≤ nowM) ∧ (later nowM r.flushSeconds).isSome = true

instance (nowM : Binary64) (r : Runner) : Decidable (r.flushDue nowM) :=
  inferInstanceAs (Decidable (_ ∨ (_ ∨ _) ∧ _))

/-- The step as an operation on the samples of one check. -/
def opOf (sid : String) (r : Runner) (e : Event) : LedgerOp Sample :=
  match e with
  | .wake _ nowM => if r.flushDue nowM then .take else .keep
  | .posted ok => if ok then .ack else .nack bufferCap
  | .fetched .. => if r.drops e sid then .clear else .keep
  | .stop => .keep
  | .begin .. | .answer .. =>
    match r.completionOf sid e with
    | some sample => .produce sample
    | none => .keep

/-! ### Entry objects -/

@[simp] theorem setEntry_entries (id : ℕ) (e : Entry) (r : Runner) :
    (r.setEntry id e).entries = r.entries := rfl

@[simp] theorem setEntry_heap_self (id : ℕ) (e : Entry) (r : Runner) :
    (r.setEntry id e).heap id = e :=
  Function.update_self ..

theorem setEntry_heap_ne (e : Entry) (r : Runner) {id id' : ℕ} (h : id' ≠ id) :
    (r.setEntry id e).heap id' = r.heap id' :=
  Function.update_of_ne h ..

@[simp] theorem addEntry_entries (sid : String) (e : Entry) (r : Runner) :
    (r.addEntry sid e).entries = r.entries.set sid r.fresh := rfl

@[simp] theorem addEntry_heap_new (sid : String) (e : Entry) (r : Runner) :
    (r.addEntry sid e).heap r.fresh = e :=
  Function.update_self ..

/-- A new object is none of those there were. -/
theorem addEntry_heap_old (sid : String) (e : Entry) (r : Runner) {id : ℕ} (h : id < r.fresh) :
    (r.addEntry sid e).heap id = r.heap id :=
  Function.update_of_ne h.ne ..

/-! ### `tick` -/

/-- What `tick` writes for one entry: that object, and the tasks. -/
theorem tickOne_frame (now : Binary64) (r : Runner) (id : ℕ) :
    tickOne now r id =
      { r with heap := (tickOne now r id).heap, tasks := (tickOne now r id).tasks } := by
  rw [tickOne]
  split <;> rfl

theorem tick_frame (now : Binary64) (r : Runner) :
    r.tick now = { r with heap := (r.tick now).heap, tasks := (r.tick now).tasks } := by
  rw [tick]
  induction r.entries.items.map Prod.snd generalizing r with
  | nil => rfl
  | cons id ids ih =>
    rw [List.foldl_cons, ih, tickOne_frame]

@[simp] theorem tick_buffer (now : Binary64) (r : Runner) : (r.tick now).buffer = r.buffer := by
  rw [tick_frame]

@[simp] theorem tick_entries (now : Binary64) (r : Runner) : (r.tick now).entries = r.entries := by
  rw [tick_frame]

@[simp] theorem tick_fresh (now : Binary64) (r : Runner) : (r.tick now).fresh = r.fresh := by
  rw [tick_frame]

@[simp] theorem tick_flushNow (now : Binary64) (r : Runner) :
    (r.tick now).flushNow = r.flushNow := by
  rw [tick_frame]

@[simp] theorem tick_nextFlush (now : Binary64) (r : Runner) :
    (r.tick now).nextFlush = r.nextFlush := by
  rw [tick_frame]

@[simp] theorem tick_flushSeconds (now : Binary64) (r : Runner) :
    (r.tick now).flushSeconds = r.flushSeconds := by
  rw [tick_frame]

@[simp] theorem tick_results (now : Binary64) (r : Runner) : (r.tick now).results = r.results := by
  rw [results, tick_buffer, results]

/-! ### Flushing -/

/-- After its flush the loop asks for work, sleeps, or raises: nothing else changes. -/
theorem afterFlush_cases (nowM : Binary64) (r : Runner) :
    (∃ nextRefresh, later nowM r.refreshSeconds = some nextRefresh ∧
      r.afterFlush nowM = { r with nextRefresh := nextRefresh, pc := .refreshing }) ∨
    r.afterFlush nowM = { r with pc := .raised } ∨
    r.afterFlush nowM = { r with pc := .sleeping } := by
  rw [afterFlush]
  split
  · rcases later nowM r.refreshSeconds with - | nextRefresh
    · exact .inr (.inl rfl)
    · exact .inl ⟨nextRefresh, rfl, rfl⟩
  · exact .inr (.inr rfl)

@[simp] theorem afterFlush_buffer (nowM : Binary64) (r : Runner) :
    (r.afterFlush nowM).buffer = r.buffer := by
  obtain ⟨nextRefresh, -, h⟩ | h | h := afterFlush_cases nowM r <;> rw [h]

@[simp] theorem afterFlush_posting (nowM : Binary64) (r : Runner) :
    (r.afterFlush nowM).posting = Dict.empty := by
  obtain ⟨nextRefresh, -, h⟩ | h | h := afterFlush_cases nowM r <;> rw [h] <;> rfl

@[simp] theorem afterFlush_flushNow (nowM : Binary64) (r : Runner) :
    (r.afterFlush nowM).flushNow = r.flushNow := by
  obtain ⟨nextRefresh, -, h⟩ | h | h := afterFlush_cases nowM r <;> rw [h]

/-- A flush swaps the buffer for an empty one and posts what it held. -/
theorem flush_samples (nowM : Binary64) (r : Runner) :
    (r.flush nowM).buffer = Dict.empty ∧ (r.flush nowM).posting = r.results := by
  rw [flush]
  split
  case isTrue hempty =>
    rw [afterFlush_buffer, afterFlush_posting, Dict.eq_empty_of_isEmpty hempty]
    exact ⟨rfl, rfl⟩
  case isFalse => exact ⟨rfl, rfl⟩

theorem lastFlush_samples (r : Runner) :
    r.lastFlush.buffer = Dict.empty ∧ r.lastFlush.posting = r.results := by
  rw [lastFlush]
  split
  case isTrue hempty =>
    rw [Dict.eq_empty_of_isEmpty hempty]
    exact ⟨rfl, rfl⟩
  case isFalse => exact ⟨rfl, rfl⟩

/-- **What a loop iteration does**: the last flush; a tick and a flush; a tick and no flush; or a
tick, after which the time of the next flush cannot be computed. -/
theorem wake_cases (tickAt nowM : Binary64) (r : Runner) :
    (r.stopping = true ∧ r.wake tickAt nowM = r.lastFlush) ∨
    r.stopping = false ∧
      ((r.flushDue nowM ∧ ∃ nextFlush,
        r.wake tickAt nowM = { r.tick tickAt with nextFlush := nextFlush }.flush nowM) ∨
      (¬ r.flushDue nowM ∧ r.wake tickAt nowM = (r.tick tickAt).afterFlush nowM) ∨
      (¬ r.flushDue nowM ∧ r.wake tickAt nowM = { r.tick tickAt with pc := .raised })) := by
  rcases hstop : r.stopping with - | -
  · refine .inr ⟨rfl, ?_⟩
    rw [wake, if_neg (by rw [hstop]; exact Bool.false_ne_true), flushDue, hstop]
    dsimp only
    rw [tick_flushNow, tick_nextFlush, tick_flushSeconds]
    by_cases hdue : r.flushNow = true ∨ r.nextFlush ≤ nowM
    · rw [if_pos hdue]
      rcases later nowM r.flushSeconds with - | nextFlush
      · exact .inr (.inr ⟨by simp, rfl⟩)
      · exact .inl ⟨.inr ⟨hdue, rfl⟩, nextFlush, rfl⟩
    · rw [if_neg hdue]
      exact .inr (.inl ⟨by simp [hdue], rfl⟩)
  · exact .inl ⟨rfl, by rw [wake, if_pos hstop]⟩

/-- A pass in which a flush is due takes the whole buffer. -/
theorem wake_of_flushDue {r : Runner} {nowM : Binary64} (tickAt : Binary64)
    (h : r.flushDue nowM) :
    (r.wake tickAt nowM).buffer = Dict.empty ∧ (r.wake tickAt nowM).posting = r.results := by
  obtain ⟨-, heq⟩ | ⟨-, ⟨-, nextFlush, heq⟩ | ⟨hnot, -⟩ | ⟨hnot, -⟩⟩ := wake_cases tickAt nowM r
  · rw [heq]
    exact lastFlush_samples r
  · rw [heq, ← tick_results tickAt r]
    exact flush_samples ..
  · exact absurd h hnot
  · exact absurd h hnot

/-- A loop iteration that does not flush leaves the samples where they are. -/
theorem wake_of_not_flushDue {r : Runner} {nowM : Binary64} (tickAt : Binary64)
    (h : ¬ r.flushDue nowM) :
    (r.wake tickAt nowM).buffer = r.buffer ∧ (r.wake tickAt nowM).posting = Dict.empty ∧
      (r.wake tickAt nowM).flushNow = r.flushNow := by
  obtain ⟨hstop, -⟩ | ⟨-, ⟨hdue, -⟩ | ⟨-, heq⟩ | ⟨-, heq⟩⟩ := wake_cases tickAt nowM r
  · exact absurd (.inl hstop) h
  · exact absurd hdue h
  · rw [heq, afterFlush_buffer, tick_buffer, afterFlush_posting, afterFlush_flushNow, tick_flushNow]
    exact ⟨rfl, rfl, rfl⟩
  · rw [heq]
    exact ⟨tick_buffer tickAt r, rfl, tick_flushNow tickAt r⟩

/-- A batch has the samples of every check that has some in the buffer. -/
theorem get?_results (r : Runner) (sid : String) :
    r.results.get? sid = if r.bufferOf sid = [] then none else some (r.bufferOf sid) := by
  rw [results, Dict.get?_filterMapValues, bufferOf]
  rcases r.buffer.get? sid with - | samples
  · rfl
  · simp [List.isEmpty_iff]

/-- A failed batch comes back in front of what was buffered meanwhile, and the oldest samples beyond
the cap are dropped. -/
theorem get?_requeue (results buffer : Batch) (sid : String) :
    (requeue results buffer).get? sid =
      (((results.get? sid).map fun samples ↦ samples ++ (buffer.get? sid).getD []).or
        (buffer.get? sid)).map fun samples ↦ samples.drop (samples.length - bufferCap) := by
  rw [requeue, Dict.get?_mapValues, Dict.get?_foldl_merge (fun v old ↦ v ++ old.getD [])
    results.nodup]
  rfl

theorem getD_requeue (results buffer : Batch) (sid : String) :
    ((requeue results buffer).get? sid).getD [] =
      let q := (results.get? sid).getD [] ++ (buffer.get? sid).getD []
      q.drop (q.length - bufferCap) := by
  rw [get?_requeue]
  rcases results.get? sid with - | samples <;> rcases buffer.get? sid with - | samples' <;> simp

/-! ### Refreshing -/

/-- Every listed entry is an object that exists, of a check with that state id. -/
def Coherent (r : Runner) : Prop :=
  ∀ sid id, r.entries.get? sid = some id → id < r.fresh ∧ (r.heap id).check.stateId = sid

/-- What going through a payload does: the cadences are set, objects are created for state ids that
had none, and those of the others get a new check. -/
structure Grows (r r' : Runner) : Prop where
  /-- It writes no more than this. -/
  frame : r' = { r with
    heap := r'.heap
    fresh := r'.fresh
    entries := r'.entries
    refreshSeconds := r'.refreshSeconds
    flushSeconds := r'.flushSeconds }
  /-- Objects are only added. -/
  fresh : r.fresh ≤ r'.fresh
  /-- A state id keeps the object it had. -/
  old : ∀ {sid id}, r.entries.get? sid = some id → r'.entries.get? sid = some id
  /-- One that had none gets a new object, if it gets one. -/
  new : ∀ {sid id}, r.entries.get? sid = none → r'.entries.get? sid = some id → r.fresh ≤ id
  /-- The flag of an object is not touched. -/
  running : ∀ {id}, id < r.fresh → (r'.heap id).running = (r.heap id).running
  /-- An object keeps its state id, or it is listed under the one it has now. -/
  stateId : ∀ {id}, id < r.fresh → (r'.heap id).check.stateId = (r.heap id).check.stateId ∨
    r.entries.get? (r'.heap id).check.stateId = some id

theorem Grows.refl (r : Runner) : Grows r r where
  frame := rfl
  fresh := le_rfl
  old := id
  new := fun h h' ↦ by rw [h] at h'; cases h'
  running := fun _ ↦ rfl
  stateId := fun _ ↦ .inl rfl

/-- An object from before is listed as it was before. -/
theorem Grows.of_old {r r' : Runner} (h : Grows r r') {sid : String} {id : ℕ}
    (hid : id < r.fresh) (hsid : r'.entries.get? sid = some id) :
    r.entries.get? sid = some id := by
  rcases hget : r.entries.get? sid with - | id'
  · exact absurd (h.new hget hsid) (Nat.not_le.2 hid)
  · rw [← hsid, h.old hget]

theorem Grows.trans {r r' r'' : Runner} (h : Grows r r') (h' : Grows r' r'') : Grows r r'' where
  frame := by rw [h'.frame, h.frame]
  fresh := h.fresh.trans h'.fresh
  old := fun hsid ↦ h'.old (h.old hsid)
  new := by
    intro sid id hnone hsid
    rcases hget : r'.entries.get? sid with - | id'
    · exact h.fresh.trans (h'.new hget hsid)
    · have hid : id' = id := Option.some.inj ((h'.old hget).symm.trans hsid)
      exact hid ▸ h.new hnone hget
  running := fun hid ↦ (h'.running (hid.trans_le h.fresh)).trans (h.running hid)
  stateId := by
    intro id hid
    rcases h'.stateId (hid.trans_le h.fresh) with heq | hget
    · rw [heq]
      exact h.stateId hid
    · exact .inr (h.of_old hid hget)

/-- The cadences are of no concern to the entries. -/
theorem Grows.cadence (r : Runner) (n m : ℤ) :
    Grows r { r with refreshSeconds := n, flushSeconds := m } where
  frame := rfl
  fresh := le_rfl
  old := id
  new := fun h h' ↦ (Grows.refl r).new h h'
  running := fun _ ↦ rfl
  stateId := fun _ ↦ .inl rfl

/-- A check that is not listed gets an object of its own. -/
theorem Grows.addEntry {r : Runner} {sid : String} (hnone : r.entries.get? sid = none)
    (e : Entry) : Grows r (r.addEntry sid e) where
  frame := rfl
  fresh := Nat.le_succ _
  old := by
    intro sid' id hget
    rw [addEntry_entries, Dict.get?_set_ne _ _ fun heq ↦ ?_, hget]
    rw [heq, hget] at hnone
    cases hnone
  new := by
    intro sid' id hnone' hget
    rw [addEntry_entries, Dict.get?_set, hnone'] at hget
    split at hget
    · exact (Option.some.inj hget).le
    · cases hget
  running := fun hid ↦ by rw [addEntry_heap_old _ _ _ hid]
  stateId := fun hid ↦ .inl (by rw [addEntry_heap_old _ _ _ hid])

/-- An object may be rewritten for its own check, if it stays as busy as it is. -/
theorem Grows.setEntry {r : Runner} {id : ℕ} {e : Entry}
    (hget : r.entries.get? e.check.stateId = some id)
    (hrunning : e.running = (r.heap id).running) : Grows r (r.setEntry id e) where
  frame := rfl
  fresh := le_rfl
  old := fun h ↦ h
  new := fun h h' ↦ by rw [setEntry_entries, h] at h'; cases h'
  running := by
    intro id' _
    by_cases hid : id' = id
    · rw [hid, setEntry_heap_self, hrunning]
    · rw [setEntry_heap_ne _ _ hid]
  stateId := by
    intro id' _
    by_cases hid : id' = id
    · refine .inr ?_
      rw [hid, setEntry_heap_self, hget]
    · exact .inl (by rw [setEntry_heap_ne _ _ hid])

/-- A new object is listed under the `state_id` of its check, so the state stays coherent. -/
theorem Coherent.addEntry {r : Runner} (h : r.Coherent) (e : Entry) :
    (r.addEntry e.check.stateId e).Coherent := by
  intro sid id hget
  rw [addEntry_entries, Dict.get?_set] at hget
  split at hget
  case isTrue hsid =>
    obtain rfl := Option.some.inj hget
    exact ⟨Nat.lt_succ_self _, by rw [addEntry_heap_new, hsid]⟩
  case isFalse =>
    obtain ⟨hlt, hstate⟩ := h sid id hget
    exact ⟨hlt.trans (Nat.lt_succ_self _), by rw [addEntry_heap_old _ _ _ hlt, hstate]⟩

/-- And so does an object that is rewritten for the same `state_id`. -/
theorem Coherent.setEntry {r : Runner} (h : r.Coherent) {id : ℕ} {e : Entry}
    (hstate : e.check.stateId = (r.heap id).check.stateId) : (r.setEntry id e).Coherent := by
  intro sid id' hget
  refine ⟨(h sid id' hget).1, ?_⟩
  by_cases hid : id' = id
  · rw [hid, setEntry_heap_self, hstate, ← hid]
    exact (h sid id' hget).2
  · rw [setEntry_heap_ne _ _ hid]
    exact (h sid id' hget).2

/-- One check of the payload: what it does to the entries, and that a state id it lists for the
first time is kept. -/
theorem refreshOne_spec (created : String → Binary64) (item : Option FastCheck) (r : Runner)
    (keep : List String) :
    let out := refreshOne created item r keep
    Grows r out.1 ∧ (r.Coherent → out.1.Coherent) ∧
      ∀ keep' ∈ out.2, keep ⊆ keep' ∧
        ∀ sid, r.entries.get? sid = none → out.1.entries.get? sid ≠ none → sid ∈ keep' := by
  -- what cannot be read, and what has no `state_id`, is passed over
  have hsame : ∀ out : Option (List String), (∀ keep' ∈ out, keep ⊆ keep') → Grows r r ∧
      (r.Coherent → r.Coherent) ∧ ∀ keep' ∈ out, keep ⊆ keep' ∧
        ∀ sid, r.entries.get? sid = none → r.entries.get? sid ≠ none → sid ∈ keep' :=
    fun out hout ↦ ⟨.refl r, id, fun keep' hk ↦ ⟨hout keep' hk, fun sid h h' ↦ absurd h h'⟩⟩
  unfold refreshOne
  rcases item with - | check
  · exact hsame none (by simp)
  dsimp only
  by_cases hempty : check.stateId = ""
  · rw [if_pos hempty]
    exact hsame (some keep) (by simp)
  rw [if_neg hempty]
  rcases hget : r.entries.get? check.stateId with - | id
  · rcases hnew : Entry.new check (created check.stateId) with - | e
    · exact hsame none (by simp)
    · -- a new object for a check that was not listed
      obtain rfl := Entry.check_of_new hnew
      refine ⟨.addEntry hget e, fun h ↦ h.addEntry e, ?_⟩
      rintro keep' ⟨⟩
      refine ⟨List.subset_cons_self _ _, fun sid hnone hsome ↦ ?_⟩
      dsimp only at hsome
      rw [addEntry_entries, Dict.get?_set] at hsome
      split at hsome
      case isTrue hsid => exact hsid ▸ List.mem_cons_self
      case isFalse => exact absurd hnone hsome
  -- the entry of a check that is listed is written, and keeps its `state_id`
  · obtain ⟨hcheck, hrunning⟩ := Entry.refresh_fst (r.heap id) check
    refine ⟨.setEntry (by rw [hcheck, hget]) hrunning, fun h ↦ h.setEntry ?_, fun keep' hk ↦ ?_⟩
    · rw [hcheck, (h _ _ hget).2]
    · refine ⟨?_, fun sid h h' ↦ absurd h h'⟩
      dsimp only at hk
      split at hk
      · obtain rfl := Option.some.inj hk
        exact List.subset_cons_self _ _
      · cases hk

/-- What the loop over the checks does to the state: it only grows, everything stays listed that
was, and where it does not raise, what it has kept is listed. -/
theorem refreshChecks_spec (created : String → Binary64) (items : List (Option FastCheck))
    (r : Runner)
    (keep : List String) :
    let out := refreshChecks created items r keep
    Grows r out.1 ∧ (r.Coherent → out.1.Coherent) ∧
      ∀ keep' ∈ out.2, keep ⊆ keep' ∧
        ∀ sid, r.entries.get? sid = none → out.1.entries.get? sid ≠ none → sid ∈ keep' := by
  induction items generalizing r keep with
  | nil =>
    refine ⟨.refl r, id, ?_⟩
    rintro keep' ⟨⟩
    exact ⟨List.Subset.refl _, fun sid h h' ↦ absurd h h'⟩
  | cons item items ih =>
    have hone := refreshOne_spec created item r keep
    rw [refreshChecks]
    rcases hout : refreshOne created item r keep with ⟨r', - | keep'⟩ <;> rw [hout] at hone
    · exact ⟨hone.1, hone.2.1, by simp⟩
    · obtain ⟨hgrow, hcoh, hkeep⟩ := hone
      obtain ⟨hgrow', hcoh', hkeep'⟩ := ih r' keep'
      refine ⟨hgrow.trans hgrow', fun h ↦ hcoh' (hcoh h), fun keep'' hk ↦ ?_⟩
      obtain ⟨hsub, hlist⟩ := hkeep keep' rfl
      obtain ⟨hsub', hlist'⟩ := hkeep' keep'' hk
      refine ⟨List.Subset.trans hsub hsub', fun sid hnone hsome ↦ ?_⟩
      by_cases hmid : r'.entries.get? sid = none
      · exact hlist' sid hmid hsome
      · exact hsub' (hlist sid hnone hmid)

/-- What a refresh does to the entries and the samples. -/
structure Refreshed (r r' : Runner) : Prop where
  /-- No task comes or goes. -/
  tasks : r'.tasks = r.tasks
  /-- Objects are only added. -/
  fresh : r.fresh ≤ r'.fresh
  /-- A state id that is listed before and after has the same object. -/
  same : ∀ {sid id id'}, r.entries.get? sid = some id → r'.entries.get? sid = some id' → id' = id
  /-- The flag of an object is not touched. -/
  running : ∀ {id}, id < r.fresh → (r'.heap id).running = (r.heap id).running
  /-- An object keeps its state id, or it was listed under the one it has now. -/
  stateId : ∀ {id}, id < r.fresh → (r'.heap id).check.stateId = (r.heap id).check.stateId ∨
    r.entries.get? (r'.heap id).check.stateId = some id
  /-- Entries and objects go on belonging together. -/
  coherent : r.Coherent → r'.Coherent
  /-- Samples go with the entry that is dropped, and no others go. -/
  buffer : ∀ sid, r'.buffer.get? sid =
    if r.listed sid && !r'.listed sid then none else r.buffer.get? sid

/-- A check is unlisted exactly if there is no entry of it. -/
theorem listed_eq_false {r : Runner} {sid : String} :
    r.listed sid = false ↔ r.entries.get? sid = none := by
  rw [listed, Dict.contains, Option.isSome_eq_false_iff, Option.isNone_iff_eq_none]

theorem listed_of_get? {r : Runner} {sid : String} {id : ℕ} (h : r.entries.get? sid = some id) :
    r.listed sid = true := by
  rw [listed, Dict.contains, h]
  rfl

/-- A refresh that raises takes nothing away. -/
theorem Grows.refreshed {r r' : Runner} (h : Grows r r') (hcoh : r.Coherent → r'.Coherent) :
    Refreshed r r' where
  tasks := by rw [h.frame]
  fresh := h.fresh
  same := fun hsid hsid' ↦ Option.some.inj (hsid'.symm.trans (h.old hsid))
  running := h.running
  stateId := h.stateId
  coherent := hcoh
  buffer := by
    intro sid
    have hbuf : r'.buffer = r.buffer := by rw [h.frame]
    rw [hbuf, if_neg]
    rw [Bool.and_eq_true, Bool.not_eq_true', listed_eq_false, not_and]
    intro hlisted hnone
    obtain ⟨id, hid⟩ := Option.isSome_iff_exists.1 hlisted
    rw [h.old hid] at hnone
    cases hnone

/-- A refresh that comes to its end: what it does not keep is deleted with its samples. -/
theorem Grows.refreshed_restrict {r r' : Runner} (h : Grows r r')
    (hcoh : r.Coherent → r'.Coherent) {keep : List String}
    (hkeep : ∀ sid, r.entries.get? sid = none → r'.entries.get? sid ≠ none → sid ∈ keep) :
    Refreshed r { r' with
      entries := r'.entries.restrict fun sid ↦ decide (sid ∈ keep)
      buffer := r'.buffer.restrict fun sid ↦
        !r'.entries.contains sid || decide (sid ∈ keep) } where
  tasks := by
    show r'.tasks = r.tasks
    rw [h.frame]
  fresh := h.fresh
  same := by
    intro sid id id' hsid hsid'
    rw [Dict.get?_restrict] at hsid'
    split at hsid'
    · exact Option.some.inj (hsid'.symm.trans (h.old hsid))
    · cases hsid'
  running := h.running
  stateId := h.stateId
  coherent := by
    intro hr sid id hget
    rw [Dict.get?_restrict] at hget
    split at hget
    · exact hcoh hr sid id hget
    · cases hget
  buffer := by
    intro sid
    have hbuf : r'.buffer = r.buffer := by rw [h.frame]
    simp only [Dict.get?_restrict, hbuf, listed, Dict.contains]
    -- what was listed before, kept or not, is deleted with its samples only if it is not kept
    by_cases hmem : sid ∈ keep
    · have hold : r'.entries.get? sid = none → r.entries.get? sid = none := by
        intro hnone
        rcases hget : r.entries.get? sid with - | id
        · rfl
        · rw [h.old hget] at hnone
          cases hnone
      rcases hget' : r'.entries.get? sid with - | id <;> simp [hmem, hold, hget']
    · rcases hget : r.entries.get? sid with - | id
      · have hnone : r'.entries.get? sid = none :=
          not_not.1 fun hsome ↦ hmem (hkeep sid hget hsome)
        simp [hnone]
      · simp [h.old hget, hmem]

/-- The spec lemma of a refresh, whether it raises or not. -/
theorem refresh_refreshed (created : String → Binary64) (work : Work) (r : Runner) :
    Refreshed r (r.refresh created work).1 := by
  rw [refresh]
  rcases (work.refreshSeconds.orElse (.int r.refreshSeconds)).pyInt with - | n
  · exact (Grows.refl r).refreshed id
  dsimp only
  rcases (work.flushSeconds.orElse (.int r.flushSeconds)).pyInt with - | m
  · exact (Grows.cadence r n r.flushSeconds).refreshed id
  dsimp only
  rcases work.checks with - | checks
  · exact (Grows.cadence r n m).refreshed id
  dsimp only
  have hspec :=
    refreshChecks_spec created checks { r with refreshSeconds := n, flushSeconds := m } []
  rcases hout : refreshChecks created checks { r with refreshSeconds := n, flushSeconds := m } []
    with ⟨r', - | keep⟩ <;> rw [hout] at hspec
  · exact ((Grows.cadence r n m).trans hspec.1).refreshed hspec.2.1
  · exact ((Grows.cadence r n m).trans hspec.1).refreshed_restrict hspec.2.1
      (hspec.2.2 keep rfl).2

/-- And of a fetch, which leaves everything as it is where it fails. -/
theorem afterFetch_refreshed (work : Option Work) (created : String → Binary64) (r : Runner) :
    Refreshed r (r.afterFetch work created) := by
  rcases work with - | work
  · exact (Grows.refl r).refreshed id
  · exact refresh_refreshed created work r

/-- The times of the first refresh and the first flush: the rest of the lane stays. -/
theorem arm_cases (nowRefresh nowFlush : Binary64) (r : Runner) :
    (∃ nextRefresh nextFlush, r.arm nowRefresh nowFlush =
      { r with nextRefresh := nextRefresh, nextFlush := nextFlush, pc := .sleeping }) ∨
    r.arm nowRefresh nowFlush = { r with pc := .raised } := by
  unfold arm
  rcases later nowRefresh r.refreshSeconds with - | nextRefresh
  · exact .inr rfl
  rcases later nowFlush r.flushSeconds with - | nextFlush
  · exact .inr rfl
  · exact .inl ⟨nextRefresh, nextFlush, rfl⟩

/-- The `fetched` step: a refresh, after which the loop sleeps, or raises before its first sleep. -/
theorem fetched_cases {r r' : Runner} {work : Option Work} {created : String → Binary64}
    {nowRefresh nowFlush : Binary64}
    (h : r.step (.fetched work created nowRefresh nowFlush) = some r') :
    (∃ nextRefresh nextFlush, r' = { r.afterFetch work created with
      nextRefresh := nextRefresh, nextFlush := nextFlush, pc := .sleeping }) ∨
    r' = { r.afterFetch work created with pc := .raised } := by
  rw [step] at h
  split at h
  case h_1 =>
    rw [← Option.some.inj h]
    exact arm_cases nowRefresh nowFlush _
  case h_2 =>
    rw [← Option.some.inj h]
    generalize r.afterFetch work created = r₁
    exact .inl ⟨r₁.nextRefresh, r₁.nextFlush, rfl⟩
  case h_3 => cases h

/-- Where the `fetched` step is taken, nothing is in flight. -/
theorem posting_of_fetched {r r' : Runner} {work : Option Work} {created : String → Binary64}
    {nowRefresh nowFlush : Binary64}
    (h : r.step (.fetched work created nowRefresh nowFlush) = some r') :
    r.posting = Dict.empty := by
  rw [step] at h
  split at h
  case h_1 hpc => rw [posting, hpc]
  case h_2 hpc => rw [posting, hpc]
  case h_3 => cases h

/-- The `fetched` step, for the entries and the samples. -/
theorem fetched_step {r r' : Runner} {work : Option Work} {created : String → Binary64}
    {nowRefresh nowFlush : Binary64}
    (h : r.step (.fetched work created nowRefresh nowFlush) = some r') :
    Refreshed r r' ∧ r.posting = Dict.empty ∧ r'.posting = Dict.empty := by
  have href := afterFetch_refreshed work created r
  refine ⟨?_, posting_of_fetched h, ?_⟩
  · obtain ⟨nextRefresh, nextFlush, rfl⟩ | rfl := fetched_cases h <;>
      exact ⟨href.tasks, href.fresh, href.same, href.running, href.stateId, href.coherent,
        href.buffer⟩
  · obtain ⟨nextRefresh, nextFlush, rfl⟩ | rfl := fetched_cases h <;> rfl

/-! ### Probes -/

/-- A completed probe leaves its sample behind those of its check, and the other checks alone. -/
theorem complete_bufferOf (id : ℕ) (check : FastCheck) (at_ : ℤ) (oc : CheckOutcome) (r : Runner)
    (sid : String) :
    (r.complete id check at_ oc).bufferOf sid =
      if check.stateId = sid then r.bufferOf sid ++ [sampleOf at_ oc] else r.bufferOf sid := by
  simp only [bufferOf, complete, Dict.get?_set]
  split
  case isTrue hsid => rw [hsid, Option.getD_some]
  case isFalse => rfl

/-- What the beginning of a probe can be: an exception at the look-up of the checker, the end of a
probe whose kind has none, or the wait for the checker's answer. -/
theorem begin_cases {r r' : Runner} {i : ℕ} {at_ : ℤ} (h : r.step (.begin i at_) = some r') :
    ∃ id, r.tasks[i]? = some ⟨id, .created⟩ ∧
      ((getChecker (r.heap id).check.kind = none ∧ r' = { r with tasks := r.tasks.eraseIdx i }) ∨
      (getChecker (r.heap id).check.kind = some true ∧
        r' = { r with tasks := r.tasks.set i ⟨id, .awaiting (r.heap id).check at_⟩ }) ∨
      (getChecker (r.heap id).check.kind = some false ∧
        r' = { r with tasks := r.tasks.eraseIdx i }.complete id (r.heap id).check at_
          (unavailable (r.heap id).check.kind))) := by
  rw [step] at h
  split at h
  case h_1 id htask =>
    obtain rfl := Option.some.inj h
    refine ⟨id, htask, ?_⟩
    unfold beginProbe
    dsimp only
    rcases getChecker (r.heap id).check.kind with - | - | -
    · exact .inl ⟨rfl, rfl⟩
    · exact .inr (.inr ⟨rfl, rfl⟩)
    · exact .inr (.inl ⟨rfl, rfl⟩)
  case h_2 => cases h

/-- What the answer of a checker can be: the end of the probe that waits for it. -/
theorem answer_cases {r r' : Runner} {i : ℕ} {reply : Except String CheckOutcome}
    (h : r.step (.answer i reply) = some r') :
    ∃ id check at_, r.tasks[i]? = some ⟨id, .awaiting check at_⟩ ∧
      r' = { r with tasks := r.tasks.eraseIdx i }.complete id check at_ (outcomeOf reply) := by
  rw [step] at h
  split at h
  case h_1 id check at_ htask => exact ⟨id, check, at_, htask, (Option.some.inj h).symm⟩
  case h_2 => cases h

/-- A probe that completes appends its sample to those of its check. -/
theorem complete_move {r r' : Runner} {tasks : List Probe} {id : ℕ} {check : FastCheck} {at_ : ℤ}
    {oc : CheckOutcome} (h : r' = { r with tasks := tasks }.complete id check at_ oc)
    (sid : String) :
    (r'.inFlightOf sid, r'.bufferOf sid) =
      (match (if check.stateId = sid then some (sampleOf at_ oc) else none) with
        | some sample => LedgerOp.produce sample
        | none => .keep).move (r.inFlightOf sid) (r.bufferOf sid) := by
  have hflight : r'.inFlightOf sid = r.inFlightOf sid := by rw [h]; rfl
  rw [hflight, h, complete_bufferOf]
  split <;> rfl

/-- The step that ends a post. -/
theorem posted_cases {r r' : Runner} {ok : Bool} (h : r.step (.posted ok) = some r') :
    ∃ results, r.posting = results ∧ r'.buffer = (r.postDone results ok).buffer ∧
      r'.posting = Dict.empty := by
  rw [step] at h
  split at h
  case h_1 results nowM hpc =>
    obtain rfl := Option.some.inj h
    exact ⟨results, by rw [posting, hpc], afterFlush_buffer .., afterFlush_posting ..⟩
  case h_2 results hpc =>
    obtain rfl := Option.some.inj h
    exact ⟨results, by rw [posting, hpc], rfl, rfl⟩
  case h_3 => cases h

/-- What the buffer has of a check behind a post: what it had, where the post succeeded, and the
batch in front of that, where it failed. -/
theorem postDone_bufferOf (results : Batch) (ok : Bool) (r : Runner) (sid : String) :
    ((r.postDone results ok).buffer.get? sid).getD [] =
      if ok then r.bufferOf sid
      else
        let q := (results.get? sid).getD [] ++ r.bufferOf sid
        q.drop (q.length - bufferCap) := by
  cases ok with
  | true => rfl
  | false =>
    rw [postDone, if_neg Bool.false_ne_true, if_neg Bool.false_ne_true]
    dsimp only
    rw [getD_requeue, bufferOf]

/-- **A step is one operation on the samples of each check.** -/
theorem step_move {r r' : Runner} {e : Event} (h : r.step e = some r') (sid : String) :
    (r'.inFlightOf sid, r'.bufferOf sid) =
      (r.opOf sid e).move (r.inFlightOf sid) (r.bufferOf sid) := by
  cases e with
  | wake tickAt nowM =>
    rw [step] at h
    split at h
    case h_2 => cases h
    case h_1 hpc =>
      obtain rfl := Option.some.inj h
      have hflight : r.inFlightOf sid = [] := by
        rw [inFlightOf, posting, hpc]
        rfl
      rw [opOf, hflight]
      -- a tick touches no sample: what moves them is the flush, where it is due
      by_cases hdue : r.flushDue nowM
      · obtain ⟨hbuffer, hposting⟩ := wake_of_flushDue tickAt hdue
        have hposted : (r.wake tickAt nowM).inFlightOf sid = r.bufferOf sid := by
          rw [inFlightOf, hposting, get?_results]
          by_cases hnil : r.bufferOf sid = [] <;> simp [hnil]
        have hswapped : (r.wake tickAt nowM).bufferOf sid = [] := by
          rw [bufferOf, hbuffer]
          rfl
        rw [if_pos hdue, hposted, hswapped]
        rfl
      · obtain ⟨hbuffer, hposting, -⟩ := wake_of_not_flushDue tickAt hdue
        have hposted : (r.wake tickAt nowM).inFlightOf sid = [] := by
          rw [inFlightOf, hposting]
          rfl
        have hkept : (r.wake tickAt nowM).bufferOf sid = r.bufferOf sid := by
          rw [bufferOf, hbuffer, bufferOf]
        rw [if_neg hdue, hposted, hkept]
        rfl
  | begin i at_ =>
    obtain ⟨id, htask, ⟨hkind, rfl⟩ | ⟨hkind, rfl⟩ | ⟨hkind, rfl⟩⟩ := begin_cases h
    · simp only [opOf, completionOf, completion, htask, hkind]
      rfl
    · simp only [opOf, completionOf, completion, htask, hkind]
      rfl
    · simp only [opOf, completionOf, completion, htask, hkind]
      exact complete_move rfl sid
  | answer i reply =>
    obtain ⟨id, check, at_, htask, rfl⟩ := answer_cases h
    simp only [opOf, completionOf, completion, htask]
    exact complete_move rfl sid
  | posted ok =>
    obtain ⟨results, hposting, hbuffer, hafter⟩ := posted_cases h
    have hbefore : r.inFlightOf sid = (results.get? sid).getD [] := by rw [inFlightOf, hposting]
    have hnone : r'.inFlightOf sid = [] := by
      rw [inFlightOf, hafter]
      rfl
    rw [hnone, hbefore, bufferOf, hbuffer, postDone_bufferOf]
    cases ok with
    | true => rfl
    | false => simp only [opOf, LedgerOp.move, Bool.false_eq_true, if_false]
  | fetched work created nowRefresh nowFlush =>
    obtain ⟨href, hbefore, hafter⟩ := fetched_step h
    have hdrops : r.drops (.fetched work created nowRefresh nowFlush) sid =
        (r.listed sid && !r'.listed sid) := by rw [drops, h]
    rw [opOf, hdrops, bufferOf, href.buffer, inFlightOf, hafter, inFlightOf, hbefore]
    split <;> rfl
  | stop =>
    obtain rfl := Option.some.inj h
    rfl

end Runner

end FastLane
