import DanbyteOutpost.Fast.HalfApplied

/-!
# The cadence of a check

A probe starts in a `tick` that finds its entry due and idle, and the entry is due again an interval
later. Nothing else moves that moment: a refresh only replaces the check and the interval of an
entry it keeps (`Spares`), so two starts of a check that stays listed are the interval of the
earlier one apart (`starts_spaced`). The moment is a sum of floats. That its rounding never brings
it before the start itself needs the reading to be a float (`Binary64.le_add_of_nonneg`); that it
can bring it a little before the exact sum is `starts_closer`.

## The invariant

`Steady` is the invariant of a run: no interval is below the shortest one (`Spaced`), and a task
marks its entry as running (`Busy`). A start makes its entry due at the sum of the start and the
interval, as floats are added; no step in between brings that forward (`step_delays`), and the
check keeps its entry while it stays listed (`due_of_staysListed`).

## The rounding

The sum is rounded to the nearest float, so it can be short of the exact one by the share of 2^-53
at most. `starts_spaced` states both: the bound on the sum the program computes, and the one on
the time that passes. `starts_across_refresh` is a run in which the check is probed before a
refresh slows it down, and again after it.
-/

namespace FastLane

/-- 200 ms, as a float. -/
def shortest : Binary64 := .ofRat (200 / 1000)

/-- An interval is 200 ms at least. -/
theorem le_intervalOf {check : FastCheck} {interval : Binary64}
    (h : intervalOf check = some interval) : shortest ≤ interval := by
  obtain ⟨n, -, h⟩ := Option.bind_eq_some_iff.1 h
  obtain ⟨-, rfl⟩ := Binary64.ofRat?_eq_some_iff.1 h
  have hmax : (200 : ℚ) ≤ ((max n 200 : ℤ) : ℚ) := by exact_mod_cast le_max_right n 200
  exact Binary64.ofRat_mono (div_le_div_of_nonneg_right hmax (by norm_num))

/-- The float is a little more than 200 ms. -/
theorem le_shortest_val : 1 / 5 ≤ shortest.val := by decide +kernel

/-! ### The range -/

/-- The moment an entry is due again is no infinity while the clock is of ordinary size. -/
theorem due_lt_range {check : FastCheck} {interval now : Binary64}
    (h : intervalOf check = some interval) (hnow : now.val < 2 ^ 970) :
    (now + interval).val < 2 ^ 1024 := by
  obtain ⟨n, -, hconv⟩ := Option.bind_eq_some_iff.1 h
  exact Binary64.add_val_lt hnow (Binary64.val_lt_of_ofRat? hconv)

/-- Nor is the moment of the next refresh or flush. -/
theorem later_lt_range {now moment : Binary64} {seconds : ℤ}
    (h : later now seconds = some moment) (hnow : now.val < 2 ^ 970) :
    moment.val < 2 ^ 1024 := by
  obtain ⟨a, hconv, rfl⟩ := Option.map_eq_some_iff.1 h
  exact Binary64.add_val_lt hnow (Binary64.val_lt_of_ofRat? hconv)

namespace Runner

variable {r r' : Runner} {created : String → Binary64}

/-! ### Starts -/

/-- The entry after its probe has been started at `now`. -/
def launched (now : Binary64) (e : Entry) : Entry :=
  { e with running := true, due := now + e.interval }

/-- The moment a probe of the check is started in the step: the reading of the `tick` that creates
its task. -/
def startOf (sid : String) (r : Runner) (e : Event) : Option Binary64 :=
  match e, r.step e, r.entries.get? sid with
  | .wake tickAt _, some r', some id =>
    if (r'.tasks.drop r.tasks.length).any fun p ↦ p.entry = id then some tickAt else none
  | _, _, _ => none

/-- An entry is launched by a pass over some of the entries if it is among them, due and idle; the
others are as they were. -/
theorem foldl_tickOne_heap (now : Binary64) (ids : List ℕ) (r : Runner) (id : ℕ) :
    (ids.foldl (tickOne now) r).heap id =
      if id ∈ ids ∧ (r.heap id).due ≤ now ∧ (r.heap id).running = false then
        launched now (r.heap id)
      else r.heap id := by
  induction ids generalizing r with
  | nil => simp
  | cons id' ids ih =>
    rw [List.foldl_cons, ih, tickOne]
    by_cases hid : id = id'
    · subst hid
      by_cases hdue : (r.heap id).due ≤ now ∧ (r.heap id).running = false
      · -- it is running from now on, so that the rest of the loop passes it over
        have hheap : (r.launch now id).heap id = launched now (r.heap id) :=
          setEntry_heap_self ..
        have hidle : ¬ (id ∈ ids ∧ (launched now (r.heap id)).due ≤ now ∧
            (launched now (r.heap id)).running = false) := by simp [launched]
        rw [if_pos hdue, hheap, if_neg hidle, if_pos ⟨List.mem_cons_self, hdue⟩]
      · rw [if_neg hdue, if_neg fun h ↦ hdue h.2, if_neg fun h ↦ hdue h.2]
    · have hheap : (if (r.heap id').due ≤ now ∧ (r.heap id').running = false then r.launch now id'
          else r).heap id = r.heap id := by
        split
        · exact setEntry_heap_ne _ _ hid
        · rfl
      simp only [hheap, List.mem_cons, hid, false_or]

/-- What a tick does to an entry. -/
theorem tick_heap (now : Binary64) (r : Runner) (id : ℕ) :
    (r.tick now).heap id =
      if id ∈ r.entries.items.map Prod.snd ∧ (r.heap id).due ≤ now ∧
        (r.heap id).running = false then launched now (r.heap id)
      else r.heap id :=
  foldl_tickOne_heap ..

/-- The pass puts a task behind the others for each entry that it launches, and for no other. -/
theorem foldl_tickOne_tasks (now : Binary64) (ids : List ℕ) (r : Runner) :
    ∃ started, (ids.foldl (tickOne now) r).tasks = r.tasks ++ started ∧
      ∀ p ∈ started, p.entry ∈ ids ∧ (r.heap p.entry).due ≤ now ∧
        (r.heap p.entry).running = false := by
  induction ids generalizing r with
  | nil => exact ⟨[], by simp, fun _ h ↦ absurd h List.not_mem_nil⟩
  | cons id ids ih =>
    obtain ⟨started, htasks, hstarted⟩ := ih (tickOne now r id)
    have hback : ∀ id', (((tickOne now r id).heap id').due ≤ now ∧
        ((tickOne now r id).heap id').running = false) →
        (r.heap id').due ≤ now ∧ (r.heap id').running = false := by
      intro id' h
      have hheap := foldl_tickOne_heap now [id] r id'
      rw [List.foldl_cons, List.foldl_nil] at hheap
      rw [hheap] at h
      split at h
      case isTrue hdue => exact hdue.2
      case isFalse => exact h
    rw [List.foldl_cons, htasks, tickOne]
    split
    case isTrue hdue =>
      refine ⟨⟨id, .created⟩ :: started, ?_, List.forall_mem_cons.2
        ⟨⟨List.mem_cons_self, hdue⟩, fun p hp ↦ ?_⟩⟩
      · show r.tasks ++ [_] ++ started = _
        rw [List.append_assoc]
        rfl
      · obtain ⟨hmem, hp⟩ := hstarted p hp
        exact ⟨List.mem_cons_of_mem _ hmem, hback p.entry hp⟩
    case isFalse =>
      refine ⟨started, rfl, fun p hp ↦ ?_⟩
      obtain ⟨hmem, hp⟩ := hstarted p hp
      exact ⟨List.mem_cons_of_mem _ hmem, hback p.entry hp⟩

/-- A start finds the entry due and idle, and leaves it running and due an interval later. -/
theorem startOf_cases {sid : String} {e : Event} {t : Binary64} (h : r.startOf sid e = some t)
    (hstep : r.step e = some r') :
    ∃ id, r.entries.get? sid = some id ∧ (r.heap id).due ≤ t ∧ (r.heap id).running = false ∧
      r'.heap id = launched t (r.heap id) ∧ r'.entries = r.entries := by
  cases e with
  | wake tickAt nowM =>
    unfold startOf at h
    rw [hstep] at h
    rcases hget : r.entries.get? sid with - | id
    · rw [hget] at h
      cases h
    rw [hget] at h
    dsimp only at h
    split at h
    case isFalse => cases h
    case isTrue hany =>
    obtain rfl := Option.some.inj h
    obtain ⟨p, hp, hid⟩ := List.any_eq_true.1 hany
    obtain rfl := of_decide_eq_true hid
    rcases wake_step hstep with hsame | hsame
    · rw [hsame.tasks, List.drop_length] at hp
      exact absurd hp List.not_mem_nil
    · obtain ⟨started, htasks, hstarted⟩ :=
        foldl_tickOne_tasks tickAt (r.entries.items.map Prod.snd) r
      have hp' : p ∈ started := by
        rw [hsame.tasks, tick, htasks, List.drop_left] at hp
        exact hp
      obtain ⟨hmem, hdue, hidle⟩ := hstarted p hp'
      refine ⟨p.entry, rfl, hdue, hidle, ?_, by rw [hsame.entries, tick_entries]⟩
      rw [hsame.heap, tick_heap, if_pos ⟨hmem, hdue, hidle⟩]
  | begin i at_ => cases h
  | answer i reply => cases h
  | posted ok => cases h
  | fetched work created nowRefresh nowFlush => cases h
  | stop => cases h

/-! ### What a refresh leaves alone -/

/-- Every entry object is probed every 200 ms at most. -/
def Spaced (r : Runner) : Prop := ∀ id < r.fresh, shortest ≤ (r.heap id).interval

/-- The entry objects keep their schedule and their class, whatever check and interval they get. -/
structure Retunes (r r' : Runner) : Prop where
  /-- Objects are only added. -/
  fresh : r.fresh ≤ r'.fresh
  /-- Those that existed are due when they were. -/
  due : ∀ id < r.fresh, (r'.heap id).due = (r.heap id).due
  /-- And they know the class they knew. -/
  lastClass : ∀ id < r.fresh, (r'.heap id).lastClass = (r.heap id).lastClass
  /-- A new interval is no shorter than the shortest. -/
  spaced : r.Spaced → r'.Spaced

/-- With the objects and their number the same, nothing has been retuned. -/
theorem Retunes.of_heap (hheap : r'.heap = r.heap) (hfresh : r'.fresh = r.fresh) :
    Retunes r r' where
  fresh := hfresh.ge
  due := fun _ _ ↦ by rw [hheap]
  lastClass := fun _ _ ↦ by rw [hheap]
  spaced := by
    rw [Spaced, Spaced, hheap, hfresh]
    exact id

/-- Two refreshes in a row leave alone what both do. -/
theorem Retunes.trans {r'' : Runner} (h : Retunes r r') (h' : Retunes r' r'') : Retunes r r'' where
  fresh := h.fresh.trans h'.fresh
  due := fun id hid ↦ (h'.due id (hid.trans_le h.fresh)).trans (h.due id hid)
  lastClass := fun id hid ↦ (h'.lastClass id (hid.trans_le h.fresh)).trans (h.lastClass id hid)
  spaced := fun hr ↦ h'.spaced (h.spaced hr)

/-- A check of the payload replaces the check and the interval of its entry, or makes a new entry
object; it does not touch when any entry is due. -/
theorem refreshOne_retunes (created : String → Binary64) (item : Option FastCheck) (r : Runner)
    (keep : List String) : Retunes r (refreshOne created item r keep).1 := by
  obtain ⟨-, ⟨-, hr⟩ | ⟨check, -, -, ⟨-, -, hr⟩ | ⟨e, -, hnew, hr⟩ | ⟨id, -, hr⟩⟩⟩ :=
    refreshOne_cases created item r keep
  · rw [hr]
    exact .of_heap rfl rfl
  · rw [hr]
    exact .of_heap rfl rfl
  · rw [hr]
    refine ⟨Nat.le_succ _, fun id hid ↦ ?_, fun id hid ↦ ?_, fun hspaced id hid ↦ ?_⟩
    · rw [addEntry_heap_old _ _ _ hid]
    · rw [addEntry_heap_old _ _ _ hid]
    · rcases Nat.lt_succ_iff_lt_or_eq.1 hid with hid | rfl
      · rw [addEntry_heap_old _ _ _ hid]
        exact hspaced id hid
      · obtain ⟨interval, hinterval, rfl⟩ := Option.map_eq_some_iff.1 hnew
        rw [addEntry_heap_new]
        exact le_intervalOf hinterval
  · have hheap : ∀ id', (r.setEntry id ((r.heap id).refresh check).1).heap id' =
        { r.heap id' with
          check := ((r.setEntry id ((r.heap id).refresh check).1).heap id').check
          interval := if id' = id then (intervalOf check).getD (r.heap id).interval
            else (r.heap id').interval } := by
      intro id'
      by_cases hid : id' = id
      · rw [hid, setEntry_heap_self, Entry.refresh_eq, if_pos rfl]
      · rw [setEntry_heap_ne _ _ hid, if_neg hid]
    rw [hr]
    refine ⟨le_rfl, fun id' _ ↦ by rw [hheap], fun id' _ ↦ by rw [hheap], fun hspaced id' hid' ↦ ?_⟩
    rw [hheap]
    dsimp only
    split
    case isTrue hid =>
      rcases hinterval : intervalOf check with - | interval
      · exact hspaced id (hid ▸ hid')
      · exact le_intervalOf hinterval
    case isFalse => exact hspaced id' hid'

/-- The loop over the checks is that for each of them, up to the one that raises. -/
theorem refreshChecks_retunes (created : String → Binary64) (items : List (Option FastCheck))
    (r : Runner)
    (keep : List String) : Retunes r (refreshChecks created items r keep).1 := by
  induction items generalizing r keep with
  | nil => exact .of_heap rfl rfl
  | cons item items ih =>
    have hone := refreshOne_retunes created item r keep
    rw [refreshChecks]
    rcases hout : refreshOne created item r keep with ⟨r', - | keep'⟩ <;> rw [hout] at hone
    · exact hone
    · exact hone.trans (ih r' keep')

/-- And a refresh is that loop, and what takes away the entries that were dropped; the objects
stay. -/
theorem refresh_retunes (created : String → Binary64) (work : Work) (r : Runner) :
    Retunes r (r.refresh created work).1 := by
  rw [refresh]
  rcases (work.refreshSeconds.orElse (.int r.refreshSeconds)).pyInt with - | n
  · exact .of_heap rfl rfl
  dsimp only
  rcases (work.flushSeconds.orElse (.int r.flushSeconds)).pyInt with - | m
  · exact .of_heap rfl rfl
  dsimp only
  rcases work.checks with - | items
  · exact .of_heap rfl rfl
  dsimp only
  have hloop := refreshChecks_retunes created items
    { r with refreshSeconds := n, flushSeconds := m } []
  rcases hout : refreshChecks created items { r with refreshSeconds := n, flushSeconds := m } []
    with ⟨r', - | keep⟩ <;> rw [hout] at hloop
  · exact ⟨hloop.fresh, hloop.due, hloop.lastClass, hloop.spaced⟩
  · exact ⟨hloop.fresh, hloop.due, hloop.lastClass, hloop.spaced⟩

/-- The step in which a fetch ends is a refresh, or less. -/
theorem fetched_retunes {work : Option Work} {nowRefresh nowFlush : Binary64}
    (h : r.step (.fetched work created nowRefresh nowFlush) = some r') : Retunes r r' := by
  have hretunes : Retunes r (r.afterFetch work created) := by
    cases work with
    | none => exact .of_heap rfl rfl
    | some work => exact refresh_retunes created work r
  obtain ⟨nextRefresh, nextFlush, rfl⟩ | rfl := fetched_cases h
  · exact ⟨hretunes.fresh, hretunes.due, hretunes.lastClass, hretunes.spaced⟩
  · exact ⟨hretunes.fresh, hretunes.due, hretunes.lastClass, hretunes.spaced⟩

/-- For a check, everything but what it is and how often it is probed stays: its entry, when that is
due, its probe, its class, its samples. -/
structure Spares (sid : String) (r r' : Runner) : Prop where
  /-- It has the entry object it had. -/
  entry : r'.entries.get? sid = r.entries.get? sid
  /-- That is due when it was. -/
  due : ∀ id, r.entries.get? sid = some id → (r'.heap id).due = (r.heap id).due
  /-- Its probe goes on. -/
  running : ∀ id, r.entries.get? sid = some id → (r'.heap id).running = (r.heap id).running
  /-- It knows the class it knew. -/
  lastClass : ∀ id, r.entries.get? sid = some id → (r'.heap id).lastClass = (r.heap id).lastClass
  /-- No task comes or goes. -/
  tasks : r'.tasks = r.tasks
  /-- Its samples stay in the buffer. -/
  buffer : r'.bufferOf sid = r.bufferOf sid

/-- So a refresh that keeps a check spares it: `due`, `running` and `last_class` of its entry are
the same, and so are its samples. -/
theorem fetched_spares {sid : String} {work : Option Work} {nowRefresh nowFlush : Binary64}
    (hcoh : r.Coherent) (h : r.step (.fetched work created nowRefresh nowFlush) = some r')
    (hlisted : r.listed sid = true) (hlisted' : r'.listed sid = true) : Spares sid r r' := by
  have hretunes := fetched_retunes h
  obtain ⟨hrefreshed, -⟩ := fetched_step h
  obtain ⟨id, hid⟩ := Option.isSome_iff_exists.1 hlisted
  obtain ⟨id', hid'⟩ := Option.isSome_iff_exists.1 hlisted'
  have hlt : ∀ id, r.entries.get? sid = some id → id < r.fresh :=
    fun id hid ↦ (hcoh sid id hid).1
  refine ⟨?_, fun id hid ↦ hretunes.due id (hlt id hid),
    fun id hid ↦ hrefreshed.running (hlt id hid),
    fun id hid ↦ hretunes.lastClass id (hlt id hid), hrefreshed.tasks, ?_⟩
  · rw [hid', hid, hrefreshed.same hid hid']
  · rw [bufferOf, hrefreshed.buffer, hlisted, hlisted']
    rfl

/-! ### Any step -/

/-- No entry object comes to be due earlier. -/
structure Delays (r r' : Runner) : Prop where
  /-- Objects are only added. -/
  fresh : r.fresh ≤ r'.fresh
  /-- Those that existed are due when they were, or later. -/
  due : r.Spaced → ∀ id < r.fresh, (r.heap id).due ≤ (r'.heap id).due
  /-- No interval comes to be shorter than the shortest. -/
  spaced : r.Spaced → r'.Spaced

theorem Retunes.delays (h : Retunes r r') : Delays r r' :=
  ⟨h.fresh, fun _ id hid ↦ (h.due id hid).ge, h.spaced⟩

/-- Nor does `tick`, which only puts off the entries it launches. Here the moment of a launch comes
in: it is not before the entry was due, and the interval is not negative. -/
theorem tick_delays (now : Binary64) (r : Runner) : Delays r (r.tick now) where
  fresh := by rw [tick_fresh]
  due := by
    intro hspaced id hid
    rw [tick_heap]
    split
    case isTrue hdue =>
      have hinterval : 0 < (r.heap id).interval.val := 
        lt_of_lt_of_le (by norm_num) (le_shortest_val.trans (hspaced id hid))
      show (r.heap id).due ≤ now + (r.heap id).interval
      exact hdue.2.1.trans (Binary64.le_add_of_nonneg hinterval.le)
    case isFalse => exact le_rfl
  spaced := by
    intro hspaced id hid
    rw [tick_fresh] at hid
    rw [tick_heap]
    split
    · exact hspaced id hid
    · exact hspaced id hid

/-- Nor does the end of a probe, which does not write `due` at all. -/
theorem complete_delays (tasks : List Probe) (id : ℕ) (check : FastCheck) (at_ : ℤ)
    (oc : CheckOutcome) (r : Runner) :
    Delays r ({ r with tasks := tasks }.complete id check at_ oc) := by
  have hheap : ∀ id',
      (({ r with tasks := tasks }.complete id check at_ oc).heap id').due = (r.heap id').due ∧
        (({ r with tasks := tasks }.complete id check at_ oc).heap id').interval =
          (r.heap id').interval := by
    intro id'
    show ((Runner.setEntry id _ _).heap id').due = _ ∧
        ((Runner.setEntry id _ _).heap id').interval = _
    by_cases hid : id' = id
    · rw [hid, setEntry_heap_self]
      exact ⟨rfl, rfl⟩
    · rw [setEntry_heap_ne _ _ hid]
      exact ⟨rfl, rfl⟩
  refine ⟨le_rfl, fun _ id' _ ↦ (hheap id').1.ge, fun hspaced id' hid' ↦ ?_⟩
  rw [(hheap id').2]
  exact hspaced id' hid'

/-- So no step of the lane brings forward when an entry is due. -/
theorem step_delays {e : Event} (h : r.step e = some r') : Delays r r' := by
  cases e with
  | wake tickAt nowM =>
    rcases wake_step h with hsame | hsame
    · exact (Retunes.of_heap hsame.heap hsame.fresh).delays
    · obtain ⟨hfresh, hdue, hspaced⟩ := tick_delays tickAt r
      have hrest := (Retunes.of_heap hsame.heap hsame.fresh).delays
      refine ⟨hfresh.trans hrest.fresh, fun hr id hid ↦ ?_, fun hr ↦ hrest.spaced (hspaced hr)⟩
      exact (hdue hr id hid).trans (hrest.due (hspaced hr) id (hid.trans_le hfresh))
  | begin i at_ =>
    obtain ⟨id, -, ⟨-, rfl⟩ | ⟨-, rfl⟩ | ⟨-, rfl⟩⟩ := begin_cases h
    · exact Retunes.delays (.of_heap rfl rfl)
    · exact Retunes.delays (.of_heap rfl rfl)
    · exact complete_delays _ id _ at_ _ r
  | answer i reply =>
    obtain ⟨id, check, at_, -, rfl⟩ := answer_cases h
    exact complete_delays _ id check at_ _ r
  | posted ok =>
    have hsame := posted_sameTasks h
    exact (Retunes.of_heap hsame.heap hsame.fresh).delays
  | fetched work created nowRefresh nowFlush => exact (fetched_retunes h).delays
  | stop =>
    obtain rfl := Option.some.inj h
    exact Retunes.delays (.of_heap rfl rfl)

/-- A check that stays listed keeps its entry object. -/
theorem step_get? {e : Event} {sid : String} {id : ℕ} (h : r.step e = some r')
    (hid : r.entries.get? sid = some id) (hlisted : r'.listed sid = true) :
    r'.entries.get? sid = some id := by
  cases step_taskMove h with
  | same h => rw [h.entries, hid]
  | tick now h => rw [h.entries, tick_entries, hid]
  | refresh h =>
    obtain ⟨id', hid'⟩ := Option.isSome_iff_exists.1 hlisted
    rw [hid', h.same hid hid']
  | begin i id' at_ _ h => rw [h, hid]
  | abandon i p _ h => rw [h, hid]
  | complete i p check at_ oc _ h =>
    rw [h]
    exact hid

/-! ### One probe of an entry object at a time -/

/-- Each probe is of a running entry object, and no two are of one object. -/
structure Busy (r : Runner) : Prop where
  /-- The flag is set as long as there is a task. -/
  running : ∀ p ∈ r.tasks, (r.heap p.entry).running = true
  /-- An object has one task at most. -/
  nodup : (r.tasks.map Probe.entry).Nodup

/-- A launched entry has a task and is running; no other entry is affected. -/
theorem Busy.launch (hb : r.Busy) (now : Binary64) {id : ℕ} (hidle : (r.heap id).running = false) :
    (r.launch now id).Busy := by
  have hfree : ∀ p ∈ r.tasks, p.entry ≠ id := by
    rintro p hp rfl
    rw [hb.running p hp] at hidle
    cases hidle
  constructor
  · intro p hp
    show ((r.setEntry id _).heap p.entry).running = true
    rcases List.mem_append.1 hp with hp | hp
    · rw [setEntry_heap_ne _ _ (hfree p hp), hb.running p hp]
    · rw [List.mem_singleton.1 hp, setEntry_heap_self]
  · show ((r.tasks ++ [(⟨id, .created⟩ : Probe)]).map Probe.entry).Nodup
    rw [List.map_append, List.nodup_append]
    refine ⟨hb.nodup, List.nodup_singleton _, ?_⟩
    intro id' hid' id'' hid''
    obtain ⟨p, hp, rfl⟩ := List.mem_map.1 hid'
    rw [List.map_singleton, List.mem_singleton] at hid''
    exact hid'' ▸ hfree p hp

theorem Busy.erase (hb : r.Busy) (i : ℕ) : Busy { r with tasks := r.tasks.eraseIdx i } where
  running := fun p hp ↦ hb.running p (List.mem_of_mem_eraseIdx hp)
  nodup := hb.nodup.sublist ((List.eraseIdx_sublist r.tasks i).map _)

/-- The step lemma of `Busy`: an entry with a task is running, so `tick` passes over it, and
`running` is unset only where the task ends. -/
theorem busy_step {e : Event} (hs : r.Sound) (hb : r.Busy) (h : r.step e = some r') :
    r'.Busy := by
  -- what leaves the tasks alone leaves their entries running
  have hsame : ∀ {r r' : Runner}, SameTasks r r' → r.Busy → r'.Busy := by
    intro r r' h hb
    refine ⟨fun p hp ↦ ?_, by rw [h.tasks]; exact hb.nodup⟩
    rw [h.tasks] at hp
    rw [h.heap, hb.running p hp]
  cases step_taskMove h with
  | same h => exact hsame h hb
  | tick now h =>
    exact hsame h (tick_invariant now (fun r sid id _ hidle hb ↦ hb.launch now hidle) hb)
  | refresh h =>
    refine ⟨fun p hp ↦ ?_, by rw [h.tasks]; exact hb.nodup⟩
    rw [h.tasks] at hp
    rw [h.running (hs.allocated p hp), hb.running p hp]
  | begin i id at_ htask h =>
    obtain ⟨hi, hp⟩ := List.getElem?_eq_some_iff.1 htask
    rw [h]
    refine ⟨fun p hp ↦ ?_, ?_⟩
    · rcases List.mem_or_eq_of_mem_set hp with hp | rfl
      -- the task goes on, of the same entry
      · exact hb.running p hp
      · exact hb.running ⟨id, .created⟩ (List.mem_of_getElem? htask)
    · have hentries : (r.tasks.set i ⟨id, .awaiting (r.heap id).check at_⟩).map Probe.entry =
          r.tasks.map Probe.entry := by
        have hlen : i < (r.tasks.map Probe.entry).length := by rwa [List.length_map]
        have hentry : (r.tasks.map Probe.entry)[i] = id := by rw [List.getElem_map, hp]
        rw [List.map_set, ← hentry, List.set_getElem_self]
      show ((r.tasks.set i ⟨id, .awaiting (r.heap id).check at_⟩).map Probe.entry).Nodup
      rw [hentries]
      exact hb.nodup
  | abandon i p _ h => exact h ▸ hb.erase i
  | complete i p check at_ oc htask h =>
    rw [h]
    refine ⟨fun q hq ↦ ?_, (hb.erase i).nodup⟩
    -- the entry that is freed is of no other task
    have hne : q.entry ≠ p.entry := by
      obtain ⟨hi, rfl⟩ := List.getElem?_eq_some_iff.1 htask
      have hperm := (List.getElem_cons_eraseIdx_perm hi).map Probe.entry
      have hnd := hperm.nodup_iff.2 hb.nodup
      rw [List.map_cons, List.nodup_cons] at hnd
      exact fun heq ↦ hnd.1 (heq ▸ List.mem_map_of_mem hq)
    show ((Runner.setEntry p.entry _ _).heap q.entry).running = true
    rw [setEntry_heap_ne _ _ hne]
    exact (hb.erase i).running q hq

/-! ### Whole runs -/

/-- What holds of the schedule in every state of every run. -/
structure Steady (r : Runner) : Prop where
  /-- Tasks and entries belong together. -/
  sound : r.Sound
  /-- A task marks its entry. -/
  busy : r.Busy
  /-- No interval is below 200 ms. -/
  spaced : r.Spaced

/-- The step lemma of whole runs, from those of its parts. -/
theorem steady_step {e : Event} (hs : r.Steady) (h : r.step e = some r') : r'.Steady :=
  ⟨sound_step hs.sound h, busy_step hs.sound hs.busy h, (step_delays h).spaced hs.spaced⟩

/-- A new runner has no entries, so there is nothing to be steady about. -/
theorem steady_init (flushSeconds : ℤ) : (Runner.init flushSeconds).Steady where
  sound := sound_init flushSeconds
  busy := ⟨fun _ h ↦ absurd h List.not_mem_nil, List.nodup_nil⟩
  spaced := fun _ h ↦ absurd h (Nat.not_lt_zero _)

theorem steady_run {flushSeconds : ℤ} {es : List Event}
    (hrun : lane.exec (Runner.init flushSeconds) es = some r) : r.Steady :=
  lane.exec_invariant' (fun _ _ _ _ hs h ↦ steady_step hs h) (Machine.meets_true _ es)
    (steady_init flushSeconds) hrun

/-- The check is listed after the step. -/
def staysListed (sid : String) (r : Runner) (e : Event) : Prop :=
  ∀ r' ∈ r.step e, r'.listed sid = true

instance (sid : String) (r : Runner) (e : Event) : Decidable (staysListed sid r e) :=
  inferInstanceAs (Decidable (∀ r' ∈ r.step e, _))

/-- The step is no refresh, or one that spares the check. -/
def sparesIn (sid : String) (r : Runner) (e : Event) : Prop :=
  ∀ work created nowRefresh nowFlush, e = .fetched work created nowRefresh nowFlush →
    ∀ r' ∈ r.step e, Spares sid r r'

/-- While a check stays listed, its entry is due no earlier than at first. -/
theorem due_of_staysListed {es : List Event} {sid : String} {id : ℕ} {bound : Binary64}
    (hs : r.Steady) (hid : r.entries.get? sid = some id) (hdue : bound ≤ (r.heap id).due)
    (hlisted : lane.Meets (staysListed sid) r es) (hrun : lane.exec r es = some r') :
    r'.Steady ∧ r'.entries.get? sid = some id ∧ bound ≤ (r'.heap id).due := by
  refine lane.exec_invariant' (P := staysListed sid)
    (I := fun r ↦ r.Steady ∧ r.entries.get? sid = some id ∧ bound ≤ (r.heap id).due)
    ?_ hlisted ⟨hs, hid, hdue⟩ hrun
  rintro r e r' hstays ⟨hs, hid, hdue⟩ hstep
  refine ⟨steady_step hs hstep, step_get? hstep hid (hstays r' hstep), hdue.trans ?_⟩
  exact (step_delays hstep).due hs.spaced id (hs.sound.coherent sid id hid).1

/-- A float sum with an interval falls short of the exact sum by one part in `2 ^ 53` at most. -/
theorem le_add_val {t interval : Binary64} {q : ℚ} (ht : 0 ≤ t.val) (hq : q ≤ interval.val)
    (hshort : 1 / 5 ≤ q) : (t.val + q) * (1 - 2 ^ (-53 : ℤ)) ≤ (t + interval).val := by
  have hpos : 0 ≤ t.val + interval.val := by linarith
  have hnormal : 2 ^ (-1022 : ℤ) ≤ |t.val + interval.val| := by
    rw [abs_of_nonneg hpos]
    calc (2 : ℚ) ^ (-1022 : ℤ) ≤ 2 ^ (-3 : ℤ) := zpow_le_zpow_right₀ one_le_two (by norm_num)
      _ = 1 / 8 := by norm_num
      _ ≤ t.val + interval.val := by linarith
  have hround := (abs_le.1 (Binary64.abs_round_sub_le_mul hnormal)).1
  rw [abs_of_nonneg hpos] at hround
  rw [Binary64.add_val]
  have hscale : (t.val + q) * (1 - 2 ^ (-53 : ℤ)) ≤
      (t.val + interval.val) * (1 - 2 ^ (-53 : ℤ)) :=
    mul_le_mul_of_nonneg_right (by linarith) (by norm_num)
  linarith

/-- **Two starts of a check that stays listed** are the interval of the earlier one apart, and 200
ms at least, as floats are added; the earlier probe is over by the later one, and the refreshes
between them spare the check. The time between the starts is short of the interval by the rounding
of that one sum at most. -/
theorem starts_spaced {flushSeconds : ℤ} {es₁ es₂ : List Event} {e₁ e₂ : Event}
    {r₁ r₁' r₂ : Runner} {sid : String} {t₁ t₂ : Binary64}
    (hrun : lane.exec (Runner.init flushSeconds) es₁ = some r₁) (hstep : r₁.step e₁ = some r₁')
    (hbetween : lane.exec r₁' es₂ = some r₂) (hlisted : lane.Meets (staysListed sid) r₁' es₂)
    (hstart₁ : r₁.startOf sid e₁ = some t₁) (hstart₂ : r₂.startOf sid e₂ = some t₂) :
    ∃ id, r₁.entries.get? sid = some id ∧ r₂.entries.get? sid = some id ∧
      t₁ + (r₁.heap id).interval ≤ t₂ ∧ t₁ + shortest ≤ t₂ ∧
      (0 ≤ t₁.val →
        (t₁.val + (r₁.heap id).interval.val) * (1 - 2 ^ (-53 : ℤ)) ≤ t₂.val ∧
        (t₁.val + 200 / 1000) * (1 - 2 ^ (-53 : ℤ)) ≤ t₂.val) ∧
      (∀ p ∈ r₂.tasks, p.entry ≠ id) ∧ lane.Meets (sparesIn sid) r₁' es₂ := by
  have hs := steady_run hrun
  obtain ⟨id, hid, -, -, hheap, hentries⟩ := startOf_cases hstart₁ hstep
  have hid' : r₁'.entries.get? sid = some id := by rw [hentries, hid]
  -- the start sets the moment, and nothing brings it forward until the next one
  have hbound : t₁ + (r₁.heap id).interval ≤ (r₁'.heap id).due := by
    rw [hheap]
    exact le_rfl
  obtain ⟨hs₂, hid₂, hdue⟩ :=
    due_of_staysListed (steady_step hs hstep) hid' hbound hlisted hbetween
  obtain ⟨r₂', hstep₂⟩ : ∃ r₂', r₂.step e₂ = some r₂' := by
    rcases hstep₂ : r₂.step e₂ with - | r₂'
    · unfold startOf at hstart₂
      rw [hstep₂] at hstart₂
      cases e₂ <;> cases hstart₂
    · exact ⟨r₂', rfl⟩
  obtain ⟨id', hget, hle, hidle, -, -⟩ := startOf_cases hstart₂ hstep₂
  obtain rfl := Option.some.inj (hid₂.symm.trans hget)
  have hinterval : shortest ≤ (r₁.heap id).interval :=
    hs.spaced id (hs.sound.coherent sid id hid).1
  have hlater : t₁ + (r₁.heap id).interval ≤ t₂ := hdue.trans hle
  refine ⟨id, hid, hid₂, hlater, ?_, fun hpos ↦ ⟨?_, ?_⟩, ?_, ?_⟩
  · exact (Binary64.add_le_add_left hinterval t₁).trans hlater
  · exact (le_add_val hpos le_rfl (le_shortest_val.trans hinterval)).trans hlater
  · have hval : (200 / 1000 : ℚ) ≤ (r₁.heap id).interval.val := by
      have : (1 / 5 : ℚ) ≤ (r₁.heap id).interval.val := le_shortest_val.trans hinterval
      linarith
    exact (le_add_val hpos hval (by norm_num)).trans hlater
  -- the later start found the entry idle, and its tasks mark it as running
  · rintro p hp rfl
    rw [hs₂.busy.running p hp] at hidle
    cases hidle
  -- any refresh in between found the check listed
  · refine (Machine.meets_iff hbetween).2 fun es e es' u hes hu ↦ ?_
    rintro work created nowRefresh nowFlush rfl r' hr'
    rw [hes, Machine.meets_append hu] at hlisted
    obtain ⟨hsu, hidu, -⟩ :=
      due_of_staysListed (steady_step hs hstep) hid' hbound hlisted.1 hu
    exact fetched_spares hsu.sound.coherent hr' (listed_of_get? hidu) (hlisted.2.1 r' hr')

/-- A check that is probed every 200 ms. -/
def brisk : Work :=
  { oneCheck with
    checks := some [some { stateId := "7", intervalMs := .int 200, kind := .str "tcp" }] }

/-- The reading 100000.1, and the one 200 ms later. -/
def tenth : Binary64 := .ofRat (1000001 / 10)

/-- Its second probe starts as soon as the float sum allows, which is before 200 ms have passed. -/
theorem starts_closer :
    ∃ r₁ r₁' r₂, lane.exec (Runner.init 15) [.fetched (some brisk) (fun _ ↦ tenth) tenth tenth] =
        some r₁ ∧
      r₁.step (.wake tenth tenth) = some r₁' ∧
      lane.exec r₁' [.begin 0 0, .answer 0 (.ok isUp)] = some r₂ ∧
      lane.Meets (staysListed "7") r₁' [.begin 0 0, .answer 0 (.ok isUp)] ∧
      r₁.startOf "7" (.wake tenth tenth) = some tenth ∧
      ∃ later : Binary64, r₂.startOf "7" (.wake later later) = some later ∧
        tenth ≤ later ∧ later.val - tenth.val < 200 / 1000 := by
  obtain ⟨r₁, hrun, hstart₁, r₁', hstep, hlisted, r₂, hbetween, hstart₂, hle, hlt⟩ :
      ∃ r₁ ∈ lane.exec (Runner.init 15) [.fetched (some brisk) (fun _ ↦ tenth) tenth tenth],
        r₁.startOf "7" (.wake tenth tenth) = some tenth ∧
        ∃ r₁' ∈ r₁.step (.wake tenth tenth),
        lane.Meets (staysListed "7") r₁' [.begin 0 0, .answer 0 (.ok isUp)] ∧
        ∃ r₂ ∈ lane.exec r₁' [.begin 0 0, .answer 0 (.ok isUp)],
          r₂.startOf "7" (.wake (tenth + shortest) (tenth + shortest)) =
              some (tenth + shortest) ∧
            tenth ≤ tenth + shortest ∧ (tenth + shortest).val - tenth.val < 200 / 1000 := by
    decide +kernel
  exact ⟨r₁, r₁', r₂, hrun, hstep, hbetween, hlisted, hstart₁, _, hstart₂, hle, hlt⟩

/-- What comes between two starts of a check: a refresh that changes its interval while the earlier
probe is running, and the answer. -/
def slowed : List Event :=
  [.begin 0 0, .wake 15 15, .fetched (some brisk) (fun _ ↦ 15) 0 0, .answer 0 (.ok isUp)]

/-- A check that is probed every second at first, and is refreshed before it is probed again. -/
theorem starts_across_refresh :
    ∃ r₁ r₁' r₂, lane.exec (Runner.init 15) [.fetched (some oneCheck) (fun _ ↦ 0) 0 0] = some r₁ ∧
      r₁.step (.wake 0 0) = some r₁' ∧ lane.exec r₁' slowed = some r₂ ∧
      ∃ id, r₁.entries.get? "7" = some id ∧ r₂.entries.get? "7" = some id ∧
        0 + (r₁.heap id).interval ≤ 16 ∧ 0 + shortest ≤ 16 ∧
        (0 ≤ (0 : Binary64).val →
          ((0 : Binary64).val + (r₁.heap id).interval.val) * (1 - 2 ^ (-53 : ℤ)) ≤
            (16 : Binary64).val ∧
          ((0 : Binary64).val + 200 / 1000) * (1 - 2 ^ (-53 : ℤ)) ≤ (16 : Binary64).val) ∧
        (∀ p ∈ r₂.tasks, p.entry ≠ id) ∧ lane.Meets (sparesIn "7") r₁' slowed := by
  obtain ⟨r₁, hrun, hstart₁, r₁', hstep, hlisted, r₂, hbetween, hstart₂⟩ :
      ∃ r₁ ∈ lane.exec (Runner.init 15) [.fetched (some oneCheck) (fun _ ↦ 0) 0 0],
        r₁.startOf "7" (.wake 0 0) = some 0 ∧ ∃ r₁' ∈ r₁.step (.wake 0 0),
        lane.Meets (staysListed "7") r₁' slowed ∧
        ∃ r₂ ∈ lane.exec r₁' slowed, r₂.startOf "7" (.wake 16 16) = some 16 := by
    decide +kernel
  exact ⟨r₁, r₁', r₂, hrun, hstep, hbetween,
    starts_spaced hrun hstep hbetween hlisted hstart₁ hstart₂⟩

end Runner

end FastLane
