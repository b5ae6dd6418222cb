import DanbyteOutpost.Fast.Steps
import Mathlib.Data.List.Perm.Basic

/-!
# The probes in flight

A probe outlives the entry it was started for: a refresh may delete the entry, and make a new one
for the same check, while the probe waits for the network. `Sound` is what holds of the probe tasks
in every run all the same. `Exclusive` says that there is at most one task per check; it is kept by
every step but a refresh that lists a check again while a probe of it is in flight.

## Soundness

A task holds the identity of an entry object; `sidOf` is the state id it reports under.

* An entry that is listed is an object that exists, of the check it is listed for (`Coherent`).
* The object of a task exists, and is of the check that the task reports for, whatever refreshes
  have made of it since (`Sound.named`).

Every step is one of few moves on the tasks (`TaskMove`), so an invariant of them takes a case for
each: the loop starts tasks (`Sound.launch`), a refresh writes entries (`Sound.refresh`), and a
task begins, waits and ends (`Sound.begin`, `Sound.complete`, `Sound.erase`).
-/

namespace FastLane

namespace Runner

/-- The state id a probe task reports for. -/
def sidOf (r : Runner) (p : Probe) : String :=
  match p.phase with
  | .created => (r.heap p.entry).check.stateId
  | .awaiting check _ => check.stateId

/-- The entries and the tasks are left alone. -/
structure SameTasks (r r' : Runner) : Prop where
  /-- The objects. -/
  heap : r'.heap = r.heap
  /-- How many there are. -/
  fresh : r'.fresh = r.fresh
  /-- Which of them are listed. -/
  entries : r'.entries = r.entries
  /-- The probes that are out. -/
  tasks : r'.tasks = r.tasks

/-- What a step does to the entries and the tasks. -/
inductive TaskMove (r r' : Runner) : Prop
  /-- Nothing. -/
  | same (h : SameTasks r r')
  /-- A tick starts what is due. -/
  | tick (now : Binary64) (h : SameTasks (r.tick now) r')
  /-- A refresh goes through a payload. -/
  | refresh (h : Refreshed r r')
  /-- A task runs for the first time, reads the clock and waits for its checker. -/
  | begin (i id : ℕ) (at_ : ℤ) (htask : r.tasks[i]? = some ⟨id, .created⟩)
      (h : r' = { r with tasks := r.tasks.set i ⟨id, .awaiting (r.heap id).check at_⟩ })
  /-- A task ends without a sample: `get_checker` raised. -/
  | abandon (i : ℕ) (p : Probe) (htask : r.tasks[i]? = some p)
      (h : r' = { r with tasks := r.tasks.eraseIdx i })
  /-- A task ends with a sample. -/
  | complete (i : ℕ) (p : Probe) (check : FastCheck) (at_ : ℤ) (oc : CheckOutcome)
      (htask : r.tasks[i]? = some p)
      (h : r' = { r with tasks := r.tasks.eraseIdx i }.complete p.entry check at_ oc)

theorem SameTasks.trans {r r' r'' : Runner} (h : SameTasks r r') (h' : SameTasks r' r'') :
    SameTasks r r'' :=
  ⟨h'.heap.trans h.heap, h'.fresh.trans h.fresh, h'.entries.trans h.entries,
    h'.tasks.trans h.tasks⟩

theorem SameTasks.sidOf {r r' : Runner} (h : SameTasks r r') (p : Probe) :
    r'.sidOf p = r.sidOf p := by
  rw [Runner.sidOf, Runner.sidOf, h.heap]

/-- What follows a flush is of no concern to the probes. -/
theorem afterFlush_sameTasks (nowM : Binary64) (r : Runner) : SameTasks r (r.afterFlush nowM) := by
  obtain ⟨nextRefresh, -, h⟩ | h | h := afterFlush_cases nowM r <;>
    rw [h] <;> exact ⟨rfl, rfl, rfl, rfl⟩

/-- A flush is of no concern to the probes. -/
theorem flush_sameTasks (nowM : Binary64) (r : Runner) : SameTasks r (r.flush nowM) := by
  have hswap : SameTasks r r.swap := ⟨rfl, rfl, rfl, rfl⟩
  rw [flush]
  split
  · exact hswap.trans (afterFlush_sameTasks nowM r.swap)
  · exact ⟨rfl, rfl, rfl, rfl⟩

theorem lastFlush_sameTasks (r : Runner) : SameTasks r r.lastFlush := by
  rw [lastFlush]
  split <;> exact ⟨rfl, rfl, rfl, rfl⟩

/-- Until it is told to stop, the loop ticks when it wakes, and does no more to the entries. -/
theorem wake_ticks {r : Runner} (tickAt nowM : Binary64) (hstop : r.stopping = false) :
    SameTasks (r.tick tickAt) (r.wake tickAt nowM) := by
  obtain ⟨hstop', -⟩ | ⟨-, ⟨-, nextFlush, h⟩ | ⟨-, h⟩ | ⟨-, h⟩⟩ := wake_cases tickAt nowM r
  · rw [hstop] at hstop'
    cases hstop'
  · rw [h]
    have hnext : SameTasks (r.tick tickAt) { r.tick tickAt with nextFlush := nextFlush } :=
      ⟨rfl, rfl, rfl, rfl⟩
    exact hnext.trans (flush_sameTasks nowM _)
  · exact h ▸ afterFlush_sameTasks nowM _
  · exact h ▸ ⟨rfl, rfl, rfl, rfl⟩

/-- A pass of the loop is `tick` and what does not concern the probes; or not even that, when the
loop is to stop. -/
theorem wake_sameTasks (tickAt nowM : Binary64) (r : Runner) :
    SameTasks r (r.wake tickAt nowM) ∨ SameTasks (r.tick tickAt) (r.wake tickAt nowM) := by
  rcases hstop : r.stopping with - | -
  · exact .inr (wake_ticks tickAt nowM hstop)
  · rw [wake, if_pos hstop]
    exact .inl (lastFlush_sameTasks r)

/-- The end of a post is of no concern to the probes. -/
theorem postDone_sameTasks (results : Batch) (ok : Bool) (r : Runner) :
    SameTasks r (r.postDone results ok) := by
  cases ok <;> exact ⟨rfl, rfl, rfl, rfl⟩

theorem posted_sameTasks {r r' : Runner} {ok : Bool} (h : r.step (.posted ok) = some r') :
    SameTasks r r' := by
  rw [step] at h
  split at h
  case h_1 results nowM hpc =>
    exact Option.some.inj h ▸
      (postDone_sameTasks results ok r).trans (afterFlush_sameTasks nowM _)
  case h_2 results hpc =>
    exact Option.some.inj h ▸
      (postDone_sameTasks results ok r).trans ⟨rfl, rfl, rfl, rfl⟩
  case h_3 => cases h

/-- The step in which the loop comes back from its sleep. -/
theorem wake_step {r r' : Runner} {tickAt nowM : Binary64}
    (h : r.step (.wake tickAt nowM) = some r') :
    SameTasks r r' ∨ SameTasks (r.tick tickAt) r' := by
  rw [step] at h
  split at h
  case h_1 => exact Option.some.inj h ▸ wake_sameTasks tickAt nowM r
  case h_2 => cases h

/-- The inversion of the step function, by what becomes of the tasks: it is what the invariants
below split on. -/
theorem step_taskMove {r r' : Runner} {e : Event} (h : r.step e = some r') : TaskMove r r' := by
  cases e with
  | wake tickAt nowM => exact (wake_step h).elim .same (.tick tickAt)
  | begin i at_ =>
    obtain ⟨id, htask, ⟨-, h⟩ | ⟨-, h⟩ | ⟨-, h⟩⟩ := begin_cases h
    · exact .abandon i _ htask h
    · exact .begin i id at_ htask h
    · exact .complete i _ _ at_ _ htask h
  | answer i reply =>
    obtain ⟨id, check, at_, htask, h⟩ := answer_cases h
    exact .complete i _ check at_ _ htask h
  | posted ok => exact .same (posted_sameTasks h)
  | fetched work created nowRefresh nowFlush => exact .refresh (fetched_step h).1
  | stop => exact Option.some.inj h ▸ .same ⟨rfl, rfl, rfl, rfl⟩

/-- What every launch of a listed entry keeps, `tick` keeps. -/
theorem tick_invariant {I : Runner → Prop} (now : Binary64)
    (hlaunch : ∀ r sid id, r.entries.get? sid = some id → (r.heap id).running = false → I r →
      I (r.launch now id)) {r : Runner} (h : I r) : I (r.tick now) := by
  have hlist : ∀ ids : List ℕ, (∀ id ∈ ids, ∃ sid, r.entries.get? sid = some id) →
      ∀ r' : Runner, r'.entries = r.entries → I r' → I (ids.foldl (tickOne now) r') := by
    intro ids
    induction ids with
    | nil => exact fun _ _ _ h ↦ h
    | cons id ids ih =>
      intro hids r' hentries h
      obtain ⟨sid, hsid⟩ := hids id List.mem_cons_self
      refine ih (fun id' hid' ↦ hids id' (List.mem_cons_of_mem _ hid')) _ ?_ ?_
      · rw [tickOne_frame]
        exact hentries
      · rw [tickOne]
        split
        case isTrue hdue => exact hlaunch r' sid id (by rw [hentries, hsid]) hdue.2 h
        case isFalse => exact h
  refine hlist _ (fun id hid ↦ ?_) r rfl h
  obtain ⟨⟨sid, _⟩, hmem, rfl⟩ := List.mem_map.1 hid
  exact ⟨sid, Dict.get?_of_mem hmem⟩

/-- A refresh changes the check of an entry object for one of the same `state_id`. -/
theorem Refreshed.stateId_eq {r r' : Runner} (h : Refreshed r r') (hcoh : r.Coherent) {id : ℕ}
    (hid : id < r.fresh) : (r'.heap id).check.stateId = (r.heap id).check.stateId := by
  rcases h.stateId hid with heq | hget
  · exact heq
  · exact (hcoh _ _ hget).2.symm

/-! ### Soundness -/

/-- Every task belongs to an object that exists, of the check it reports for. -/
structure Sound (r : Runner) : Prop where
  /-- The entries name objects that exist, each under its own state id. -/
  coherent : r.Coherent
  /-- So do the tasks. -/
  allocated : ∀ p ∈ r.tasks, p.entry < r.fresh
  /-- A task reports for the state id that its object has now, though a refresh may have replaced
  the check in between. -/
  named : ∀ p ∈ r.tasks, r.sidOf p = (r.heap p.entry).check.stateId

/-- A runner without entries and tasks is sound. -/
theorem sound_init (flushSeconds : ℤ) : (Runner.init flushSeconds).Sound where
  coherent := fun _ _ h ↦ by cases h
  allocated := fun _ h ↦ by cases h
  named := fun _ h ↦ by cases h

/-- A step that does not concern the probes keeps the runner sound. -/
theorem SameTasks.sound {r r' : Runner} (h : SameTasks r r') (hs : r.Sound) : r'.Sound where
  coherent := by
    intro sid id hget
    rw [h.entries] at hget
    rw [h.fresh, h.heap]
    exact hs.coherent sid id hget
  allocated := by
    rw [h.tasks, h.fresh]
    exact hs.allocated
  named := by
    intro p hp
    rw [h.tasks] at hp
    rw [h.sidOf, h.heap]
    exact hs.named p hp

/-- A launch leaves the checks of the entries. -/
theorem launch_heap_stateId (now : Binary64) (id : ℕ) (r : Runner) (id' : ℕ) :
    ((r.launch now id).heap id').check.stateId = (r.heap id').check.stateId := by
  show ((r.setEntry id _).heap id').check.stateId = _
  by_cases hid : id' = id
  · rw [hid, setEntry_heap_self]
  · rw [setEntry_heap_ne _ _ hid]

theorem complete_heap_stateId (id : ℕ) (check : FastCheck) (at_ : ℤ) (oc : CheckOutcome)
    (r : Runner) (id' : ℕ) :
    ((r.complete id check at_ oc).heap id').check.stateId = (r.heap id').check.stateId := by
  show ((r.setEntry id _).heap id').check.stateId = _
  by_cases hid : id' = id
  · rw [hid, setEntry_heap_self]
  · rw [setEntry_heap_ne _ _ hid]

/-- A task reports for the same check as long as its object is of the same check. -/
theorem sidOf_congr {r r' : Runner} {p : Probe}
    (h : (r'.heap p.entry).check.stateId = (r.heap p.entry).check.stateId) :
    r'.sidOf p = r.sidOf p := by
  obtain ⟨id, phase⟩ := p
  cases phase with
  | created => exact h
  | awaiting check at_ => rfl

/-- A launch keeps the runner sound: its task is of an entry that is listed. -/
theorem Sound.launch {r : Runner} (hs : r.Sound) (now : Binary64) {sid : String} {id : ℕ}
    (hid : r.entries.get? sid = some id) : (r.launch now id).Sound where
  coherent := by
    intro sid' id' hget
    rw [launch_heap_stateId]
    exact hs.coherent sid' id' hget
  allocated := by
    intro p hp
    rcases List.mem_append.1 hp with hp | hp
    · exact hs.allocated p hp
    · rw [List.mem_singleton.1 hp]
      exact (hs.coherent sid id hid).1
  named := by
    intro p hp
    rw [sidOf_congr (launch_heap_stateId now id r p.entry), launch_heap_stateId]
    rcases List.mem_append.1 hp with hp | hp
    · exact hs.named p hp
    · rw [List.mem_singleton.1 hp]
      rfl

/-- A refresh does, since objects are only added; a task keeps the one it has. -/
theorem Sound.refresh {r r' : Runner} (hs : r.Sound) (h : Refreshed r r') : r'.Sound where
  coherent := h.coherent hs.coherent
  allocated := by
    rw [h.tasks]
    exact fun p hp ↦ (hs.allocated p hp).trans_le h.fresh
  named := by
    intro p hp
    rw [h.tasks] at hp
    have heq := h.stateId_eq hs.coherent (hs.allocated p hp)
    rw [sidOf_congr heq, heq]
    exact hs.named p hp

/-- Tasks may end. -/
theorem Sound.erase {r : Runner} (hs : r.Sound) (i : ℕ) :
    Sound { r with tasks := r.tasks.eraseIdx i } where
  coherent := hs.coherent
  allocated := fun p hp ↦ hs.allocated p (List.mem_of_mem_eraseIdx hp)
  named := fun p hp ↦ hs.named p (List.mem_of_mem_eraseIdx hp)

theorem Sound.complete {r : Runner} (hs : r.Sound) (id : ℕ) (check : FastCheck) (at_ : ℤ)
    (oc : CheckOutcome) : (r.complete id check at_ oc).Sound where
  coherent := by
    intro sid' id' hget
    rw [complete_heap_stateId]
    exact hs.coherent sid' id' hget
  allocated := hs.allocated
  named := by
    intro p hp
    rw [sidOf_congr (complete_heap_stateId id check at_ oc r p.entry), complete_heap_stateId]
    exact hs.named p hp

/-- The beginning of a probe does: it has read its check off its entry. -/
theorem Sound.begin {r : Runner} (hs : r.Sound) {i id : ℕ} (at_ : ℤ)
    (htask : r.tasks[i]? = some ⟨id, .created⟩) :
    Sound { r with tasks := r.tasks.set i ⟨id, .awaiting (r.heap id).check at_⟩ } where
  coherent := hs.coherent
  allocated := by
    intro p hp
    rcases List.mem_or_eq_of_mem_set hp with hp | rfl
    · exact hs.allocated p hp
    · exact hs.allocated ⟨id, .created⟩ (List.mem_of_getElem? htask)
  named := by
    intro p hp
    rcases List.mem_or_eq_of_mem_set hp with hp | rfl
    · exact hs.named p hp
    · rfl

theorem sound_step {r r' : Runner} {e : Event} (hs : r.Sound) (h : r.step e = some r') :
    r'.Sound := by
  cases step_taskMove h with
  | same h => exact h.sound hs
  | tick now h => exact h.sound (tick_invariant now (fun r sid id hid _ hs ↦ hs.launch now hid) hs)
  | refresh h => exact hs.refresh h
  | begin i id at_ htask h => exact h ▸ hs.begin at_ htask
  | abandon i p _ h => exact h ▸ hs.erase i
  | complete i p check at_ oc _ h => exact h ▸ (hs.erase i).complete p.entry check at_ oc

theorem sound_run {flushSeconds : ℤ} {es : List Event} {r : Runner}
    (hrun : lane.exec (Runner.init flushSeconds) es = some r) : r.Sound :=
  lane.exec_invariant' (fun _ _ _ _ hs h ↦ sound_step hs h) (Machine.meets_true _ es)
    (sound_init flushSeconds) hrun

/-! ### One probe at a time -/

/-- No two tasks report for one check, and a check whose current entry has a task is running. -/
structure Exclusive (r : Runner) : Prop where
  /-- Tasks and entries belong together. -/
  sound : r.Sound
  /-- Where an entry is listed for its state id, a task is of that entry, which is marked. -/
  current : ∀ p ∈ r.tasks, ∀ id, r.entries.get? (r.sidOf p) = some id →
    p.entry = id ∧ (r.heap id).running = true
  /-- No state id has two tasks. -/
  nodup : (r.tasks.map r.sidOf).Nodup

/-- No refresh lists a check, not listed before it, while a probe of it is in flight. -/
def relistsIdle (r : Runner) (e : Event) : Prop :=
  ∀ p ∈ r.tasks, r.relists e (r.sidOf p) = false

instance (r : Runner) (e : Event) : Decidable (r.relistsIdle e) :=
  inferInstanceAs (Decidable (∀ p ∈ r.tasks, _))

/-- Without tasks there are no two of one check. -/
theorem exclusive_init (flushSeconds : ℤ) : (Runner.init flushSeconds).Exclusive where
  sound := sound_init flushSeconds
  current := fun _ h ↦ by cases h
  nodup := List.nodup_nil

/-- A step that does not concern the probes keeps them apart. -/
theorem SameTasks.exclusive {r r' : Runner} (h : SameTasks r r') (hx : r.Exclusive) :
    r'.Exclusive where
  sound := h.sound hx.sound
  current := by
    intro p hp id hget
    rw [h.tasks] at hp
    rw [h.entries, h.sidOf] at hget
    rw [h.heap]
    exact hx.current p hp id hget
  nodup := by
    rw [h.tasks, List.map_congr_left fun p _ ↦ h.sidOf p]
    exact hx.nodup

/-- `tick` launches an idle entry, which has no task; and no task of another entry is of the same
check. -/
theorem Exclusive.launch {r : Runner} (hx : r.Exclusive) (now : Binary64) {sid : String} {id : ℕ}
    (hid : r.entries.get? sid = some id) (hidle : (r.heap id).running = false) :
    (r.launch now id).Exclusive := by
  have hsid : (r.heap id).check.stateId = sid := (hx.sound.coherent sid id hid).2
  have hkeep : ∀ p, (r.launch now id).sidOf p = r.sidOf p :=
    fun p ↦ sidOf_congr (launch_heap_stateId now id r p.entry)
  -- a task of this check would have its entry running
  have hfree : ∀ p ∈ r.tasks, r.sidOf p ≠ sid := by
    intro p hp heq
    have hrunning := (hx.current p hp id (by rw [heq, hid])).2
    rw [hidle] at hrunning
    cases hrunning
  have hrunning : ((r.launch now id).heap id).running = true := by
    show ((r.setEntry id _).heap id).running = true
    rw [setEntry_heap_self]
  refine ⟨hx.sound.launch now hid, fun p hp id' hget ↦ ?_, ?_⟩
  · rw [hkeep] at hget
    rcases List.mem_append.1 hp with hp | hp
    · obtain ⟨hentry, hrun⟩ := hx.current p hp id' hget
      have hne : id' ≠ id := by
        rintro rfl
        rw [hidle] at hrun
        cases hrun
      refine ⟨hentry, ?_⟩
      show ((r.setEntry id _).heap id').running = true
      rw [setEntry_heap_ne _ _ hne]
      exact hrun
    · obtain rfl := List.mem_singleton.1 hp
      have hget' : r.entries.get? sid = some id' := by rw [← hsid]; exact hget
      obtain rfl : id = id' := Option.some.inj (hid.symm.trans hget')
      exact ⟨rfl, hrunning⟩
  · show ((r.tasks ++ [(⟨id, .created⟩ : Probe)]).map (r.launch now id).sidOf).Nodup
    rw [List.map_congr_left fun p _ ↦ hkeep p, List.map_append, List.nodup_append]
    refine ⟨hx.nodup, List.nodup_singleton _, ?_⟩
    intro s hs s' hs'
    obtain ⟨p, hp, rfl⟩ := List.mem_map.1 hs
    rw [List.map_singleton, List.mem_singleton] at hs'
    rw [hs']
    exact fun heq ↦ hfree p hp (heq.trans hsid)

/-- A refresh keeps the probes apart if it lists no check anew while a probe of it is in flight: an
entry made anew is idle and would be launched beside it. -/
theorem Exclusive.refresh {r r' : Runner} {e : Event} (hx : r.Exclusive)
    (hstep : r.step e = some r') (hidle : r.relistsIdle e) (h : Refreshed r r') :
    r'.Exclusive := by
  have hkeep : ∀ p ∈ r.tasks, r'.sidOf p = r.sidOf p :=
    fun p hp ↦ sidOf_congr (h.stateId_eq hx.sound.coherent (hx.sound.allocated p hp))
  refine ⟨hx.sound.refresh h, fun p hp id hget ↦ ?_, ?_⟩
  · rw [h.tasks] at hp
    rw [hkeep p hp] at hget
    have hlisted : r.listed (r.sidOf p) = true := by
      have hnot := hidle p hp
      rw [relists, hstep] at hnot
      simpa [listed_of_get? hget] using hnot
    obtain ⟨id', hget'⟩ := Option.isSome_iff_exists.1 hlisted
    obtain ⟨hentry, hrunning⟩ := hx.current p hp id' hget'
    obtain rfl := h.same hget' hget
    refine ⟨hentry, ?_⟩
    rw [h.running (hx.sound.coherent _ _ hget').1, hrunning]
  · rw [h.tasks, List.map_congr_left hkeep]
    exact hx.nodup

/-- A task that ends leaves the others apart. -/
theorem Exclusive.erase {r : Runner} (hx : r.Exclusive) (i : ℕ) :
    Exclusive { r with tasks := r.tasks.eraseIdx i } where
  sound := hx.sound.erase i
  current := fun p hp ↦ hx.current p (List.mem_of_mem_eraseIdx hp)
  nodup := hx.nodup.sublist ((List.eraseIdx_sublist r.tasks i).map _)

/-- Once a task has ended, no task is left for its check. -/
theorem Exclusive.ne_of_mem_erase {r : Runner} (hx : r.Exclusive) {i : ℕ} {p q : Probe}
    (htask : r.tasks[i]? = some p) (hq : q ∈ r.tasks.eraseIdx i) : r.sidOf q ≠ r.sidOf p := by
  obtain ⟨hi, rfl⟩ := List.getElem?_eq_some_iff.1 htask
  have hperm := (List.getElem_cons_eraseIdx_perm hi).map r.sidOf
  have hnd := hperm.nodup_iff.2 hx.nodup
  rw [List.map_cons, List.nodup_cons] at hnd
  exact fun heq ↦ hnd.1 (heq ▸ List.mem_map_of_mem hq)

/-- The end of a probe makes its entry idle, and by then its task is gone. -/
theorem Exclusive.complete {r : Runner} (hx : r.Exclusive) {i : ℕ} {p : Probe}
    (htask : r.tasks[i]? = some p) (check : FastCheck) (at_ : ℤ) (oc : CheckOutcome) :
    ({ r with tasks := r.tasks.eraseIdx i }.complete p.entry check at_ oc).Exclusive := by
  have hx' := hx.erase i
  have hkeep : ∀ q, ({ r with tasks := r.tasks.eraseIdx i }.complete p.entry check at_ oc).sidOf q =
      r.sidOf q := fun q ↦
    sidOf_congr (complete_heap_stateId p.entry check at_ oc _ q.entry)
  refine ⟨hx'.sound.complete p.entry check at_ oc, fun q hq id hget ↦ ?_, ?_⟩
  · rw [hkeep] at hget
    have hq' : q ∈ r.tasks.eraseIdx i := hq
    obtain ⟨hentry, hrunning⟩ := hx'.current q hq' id hget
    -- an object two tasks share would give them one check
    have hne : id ≠ p.entry := by
      rintro rfl
      refine hx.ne_of_mem_erase htask hq' ?_
      rw [hx.sound.named q (List.mem_of_mem_eraseIdx hq'), hentry,
        hx.sound.named p (List.mem_of_getElem? htask)]
    refine ⟨hentry, ?_⟩
    show ((Runner.setEntry p.entry _ _).heap id).running = true
    rw [setEntry_heap_ne _ _ hne]
    exact hrunning
  · show ((r.tasks.eraseIdx i).map _).Nodup
    rw [List.map_congr_left fun q _ ↦ hkeep q]
    exact hx'.nodup

theorem Exclusive.begin {r : Runner} (hx : r.Exclusive) {i id : ℕ} (at_ : ℤ)
    (htask : r.tasks[i]? = some ⟨id, .created⟩) :
    Exclusive { r with tasks := r.tasks.set i ⟨id, .awaiting (r.heap id).check at_⟩ } where
  sound := hx.sound.begin at_ htask
  current := by
    intro p hp id' hget
    rcases List.mem_or_eq_of_mem_set hp with hp | rfl
    · exact hx.current p hp id' hget
    · exact hx.current ⟨id, .created⟩ (List.mem_of_getElem? htask) id' hget
  nodup := by
    obtain ⟨hi, hp⟩ := List.getElem?_eq_some_iff.1 htask
    have hsame : (r.tasks.set i ⟨id, .awaiting (r.heap id).check at_⟩).map r.sidOf =
        r.tasks.map r.sidOf := by
      have hname : r.sidOf ⟨id, .awaiting (r.heap id).check at_⟩ = r.sidOf r.tasks[i] := by
        rw [hp]
        rfl
      have hlen : i < (r.tasks.map r.sidOf).length := by rwa [List.length_map]
      rw [List.map_set, hname, ← List.getElem_map r.sidOf (h := hlen), List.set_getElem_self]
    show ((r.tasks.set i ⟨id, .awaiting (r.heap id).check at_⟩).map r.sidOf).Nodup
    rw [hsame]
    exact hx.nodup

/-- The step lemma, under the condition on refreshes. -/
theorem exclusive_step {r r' : Runner} {e : Event} (hidle : r.relistsIdle e) (hx : r.Exclusive)
    (hstep : r.step e = some r') : r'.Exclusive := by
  cases step_taskMove hstep with
  | same h => exact h.exclusive hx
  | tick now h =>
    exact h.exclusive (tick_invariant now
      (fun r sid id hid hfree hx ↦ hx.launch now hid hfree) hx)
  | refresh h => exact hx.refresh hstep hidle h
  | begin i id at_ htask h => exact h ▸ hx.begin at_ htask
  | abandon i p _ h => exact h ▸ hx.erase i
  | complete i p check at_ oc htask h => exact h ▸ hx.complete htask check at_ oc

end Runner

end FastLane
