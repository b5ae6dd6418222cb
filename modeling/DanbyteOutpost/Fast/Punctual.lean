import DanbyteOutpost.Fast.Cadence

/-!
# When a check is probed

`starts_spaced` says how far apart two probes of a check are at least. Here is when a probe is
started: `Turn` is what a witness of the run knows of a check, which is when its next probe is due
and whether the last one is still out, and `probe_starts_iff` says that a pass of the loop starts a
probe exactly when the witness expects it. What the other checks do, what posts fail and what the
refreshes say of the others is no part of it.

## The proof

The witness and the lane agree in every state of a run (`turnOf`, `turn_step`): the moment a probe
is due is that of the entry that is listed, and the probe is out while a task of the entry is.
Each kind of step has a lemma of its own: a pass of the loop starts the probe and sets the moment
(`turn_wake`), a refresh lists the check, takes it away or changes its interval (`turn_fetched`),
and the answer ends the probe (`turn_answer`). All other steps are about other things
(`turnOf_congr`).

`startOf_wake_iff` is the statement about one state; with the agreement it becomes the one about
runs.
-/

namespace FastLane

namespace Runner

variable {r r' : Runner} {created : String → Binary64} {sid : String}

/-- When the next probe of a check is due, and whether the last one is still out. -/
structure Turn where
  /-- The moment from which a tick may start the next probe. -/
  due : Binary64
  /-- The last probe has not ended. -/
  out : Bool
  deriving DecidableEq

/-- The entry object whose probe ends in the step. A probe whose kind cannot be looked up is over
without an end. -/
def ended (r : Runner) : Event → Option ℕ
  | .begin i _ =>
    (r.tasks[i]?).bind fun p ↦
      if getChecker (r.heap p.entry).check.kind = some false then some p.entry else none
  | .answer i _ => (r.tasks[i]?).map Probe.entry
  | _ => none

/-- The witness of a check: a start puts off its turn by an interval, added as floats are, an end
lets it start again, and a listing gives it a new turn. -/
def turn (sid : String) (r : Runner) (e : Event) (turn : Option Turn) : Option Turn :=
  match e with
  | .wake .. =>
    match r.startOf sid e, r.entries.get? sid with
    | some t, some id => some ⟨t + (r.heap id).interval, true⟩
    | _, _ => turn
  | .fetched _ created _ _ =>
    if r.drops e sid then none
    else if r.relists e sid then some ⟨created sid, false⟩
    else turn
  | .begin .. | .answer .. =>
    if (r.ended e).any fun id ↦ r.entries.get? sid = some id then
      turn.map fun turn ↦ { turn with out := false }
    else turn
  | .posted _ | .stop => turn

/-- The turn of a check, as its entry has it. -/
def turnOf (r : Runner) (sid : String) : Option Turn :=
  (r.entries.get? sid).map fun id ↦ ⟨(r.heap id).due, (r.heap id).running⟩

/-- A turn is read off the entry of the check and nothing else. -/
theorem turnOf_congr (hentries : r'.entries = r.entries) (hheap : r'.heap = r.heap) :
    r'.turnOf sid = r.turnOf sid := by
  rw [turnOf, turnOf, hentries, hheap]

/-! ### A pass of the loop -/

/-- A tick passes over no entry that is due and idle. -/
theorem foldl_tickOne_started (now : Binary64) (ids : List ℕ) (r : Runner) :
    ∃ started, (ids.foldl (tickOne now) r).tasks = r.tasks ++ started ∧
      ∀ id ∈ ids, (r.heap id).due ≤ now → (r.heap id).running = false →
        ∃ p ∈ started, p.entry = id := by
  induction ids generalizing r with
  | nil => exact ⟨[], by simp, fun _ h ↦ absurd h List.not_mem_nil⟩
  | cons id ids ih =>
    obtain ⟨started, htasks, hstarted⟩ := ih (tickOne now r id)
    rw [List.foldl_cons, htasks]
    have hkeep : ∀ id' ∈ ids, id' ≠ id → (r.heap id').due ≤ now → (r.heap id').running = false →
        ∃ p ∈ started, p.entry = id' := by
      intro id' hid' hne hdue hidle
      have hheap : (tickOne now r id).heap id' = r.heap id' := by
        rw [tickOne]
        split
        · exact setEntry_heap_ne _ _ hne
        · rfl
      exact hstarted id' hid' (hheap.symm ▸ hdue) (hheap.symm ▸ hidle)
    by_cases hdue : (r.heap id).due ≤ now ∧ (r.heap id).running = false
    · refine ⟨⟨id, .created⟩ :: started, ?_, ?_⟩
      · rw [tickOne, if_pos hdue]
        show r.tasks ++ [_] ++ started = _
        rw [List.append_assoc]
        rfl
      · intro id' hid' hdue' hidle'
        by_cases hne : id' = id
        · exact ⟨_, List.mem_cons_self, hne.symm⟩
        · obtain ⟨p, hp, hentry⟩ :=
            hkeep id' ((List.mem_cons.1 hid').resolve_left hne) hne hdue' hidle'
          exact ⟨p, List.mem_cons_of_mem _ hp, hentry⟩
    · refine ⟨started, by rw [tickOne, if_neg hdue], ?_⟩
      intro id' hid' hdue' hidle'
      have hne : id' ≠ id := fun heq ↦ hdue (heq ▸ ⟨hdue', hidle'⟩)
      exact hkeep id' ((List.mem_cons.1 hid').resolve_left hne) hne hdue' hidle'

theorem pass_of_wake {tickAt nowM : Binary64} (hstep : r.step (.wake tickAt nowM) = some r') :
    r.pc = .sleeping ∧ r' = r.wake tickAt nowM := by
  rw [step] at hstep
  split at hstep
  case h_1 hpc => exact ⟨hpc, (Option.some.inj hstep).symm⟩
  case h_2 => cases hstep

/-- In a pass, a check is started if one of the new tasks is of its entry. -/
theorem startOf_wake {tickAt nowM : Binary64} {id : ℕ}
    (hstep : r.step (.wake tickAt nowM) = some r') (hget : r.entries.get? sid = some id) :
    r.startOf sid (.wake tickAt nowM) =
      if (r'.tasks.drop r.tasks.length).any fun p ↦ p.entry = id then some tickAt else none := by
  unfold startOf
  rw [hstep, hget]

/-- A pass starts a probe of a check exactly when its entry is due and idle. -/
theorem startOf_wake_iff {tickAt nowM : Binary64} (hpc : r.pc = .sleeping) :
    r.startOf sid (.wake tickAt nowM) = some tickAt ↔
      r.stopping = false ∧ ∃ turn ∈ r.turnOf sid, turn.due ≤ tickAt ∧ turn.out = false := by
  have hstep : r.step (.wake tickAt nowM) = some (r.wake tickAt nowM) := by rw [step, hpc]
  constructor
  · intro hstart
    obtain ⟨id, hget, hdue, hidle, -⟩ := startOf_cases hstart hstep
    refine ⟨Bool.eq_false_iff.2 fun hstop ↦ ?_, ⟨_, _⟩, Option.map_eq_some_iff.2 ⟨id, hget, rfl⟩,
      hdue, hidle⟩
    have htasks : (r.wake tickAt nowM).tasks = r.tasks := by
      rw [wake, if_pos hstop, (lastFlush_sameTasks r).tasks]
    rw [startOf_wake hstep hget, htasks, List.drop_length] at hstart
    cases hstart
  · intro hready
    obtain ⟨hstop, turn, hturn, hdue, hidle⟩ := hready
    obtain ⟨id, hget, rfl⟩ := Option.map_eq_some_iff.1 hturn
    obtain ⟨started, htasks, hstarted⟩ :=
      foldl_tickOne_started tickAt (r.entries.items.map Prod.snd) r
    have hmem : id ∈ r.entries.items.map Prod.snd :=
      List.mem_map.2 ⟨(sid, id), Dict.mem_items_iff.2 hget, rfl⟩
    obtain ⟨p, hp, hentry⟩ := hstarted id hmem hdue hidle
    have hdrop : (r.wake tickAt nowM).tasks.drop r.tasks.length = started := by
      rw [(wake_ticks tickAt nowM hstop).tasks, tick, htasks, List.drop_left]
    rw [startOf_wake hstep hget, hdrop, if_pos]
    exact List.any_eq_true.2 ⟨p, hp, decide_eq_true hentry⟩

/-- A start takes the turn; without one it stays. -/
theorem turn_wake {tickAt nowM : Binary64} (hstep : r.step (.wake tickAt nowM) = some r') :
    r'.turnOf sid = turn sid r (.wake tickAt nowM) (r.turnOf sid) := by
  rcases hstart : r.startOf sid (.wake tickAt nowM) with - | t
  · rw [turn, hstart]
    obtain ⟨hpc, rfl⟩ := pass_of_wake hstep
    by_cases hstop : r.stopping = true
    · have hsame : SameTasks r (r.wake tickAt nowM) := by
        rw [wake, if_pos hstop]
        exact lastFlush_sameTasks r
      exact turnOf_congr hsame.entries hsame.heap
    · rw [Bool.not_eq_true] at hstop
      have hsame := wake_ticks tickAt nowM hstop
      rw [turnOf_congr hsame.entries hsame.heap, turnOf, turnOf, tick_entries]
      refine Option.map_congr fun id hget ↦ ?_
      have hidle : ¬ ((r.heap id).due ≤ tickAt ∧ (r.heap id).running = false) := fun hdue ↦ by
        have hsome : r.startOf sid (.wake tickAt nowM) = some tickAt :=
          (startOf_wake_iff hpc).2 ⟨hstop, _, Option.map_eq_some_iff.2 ⟨id, hget, rfl⟩, hdue⟩
        rw [hstart] at hsome
        cases hsome
      rw [tick_heap, if_neg fun h ↦ hidle h.2]
  · obtain ⟨id, hget, -, -, hheap, hentries⟩ := startOf_cases hstart hstep
    rw [turn, hstart, hget, turnOf, hentries, hget, Option.map_some, hheap]
    rfl

/-! ### A refresh -/

/-- An entry of the check, where there is one, has not been probed since the refresh made it. -/
def Unprobed (created : String → Binary64) (sid : String) (r : Runner) : Prop :=
  ∀ turn ∈ r.turnOf sid, turn = ⟨created sid, false⟩

/-- A check that was not listed is listed with an entry that is due from its creation and idle, and
it stays so while the payload goes on. -/
theorem refreshOne_unprobed (item : Option FastCheck) (keep : List String) (hcoh : r.Coherent)
    (h : r.Unprobed created sid) : (refreshOne created item r keep).1.Unprobed created sid := by
  obtain ⟨-, ⟨-, hr⟩ | ⟨check, -, -, ⟨-, -, hr⟩ | ⟨e, -, hnew, hr⟩ | ⟨id, -, hr⟩⟩⟩ :=
    refreshOne_cases created item r keep
  · rwa [hr]
  · rwa [hr]
  · rw [hr]
    obtain ⟨interval, -, rfl⟩ := Option.map_eq_some_iff.1 hnew
    intro turn hturn
    obtain ⟨id, hget, rfl⟩ := Option.map_eq_some_iff.1 hturn
    rw [addEntry_entries, Dict.get?_set] at hget
    split at hget
    case isTrue hsid =>
      obtain rfl := Option.some.inj hget
      rw [addEntry_heap_new, hsid]
    case isFalse =>
      rw [addEntry_heap_old _ _ _ (hcoh sid id hget).1]
      exact h _ (Option.map_eq_some_iff.2 ⟨id, hget, rfl⟩)
  · rw [hr]
    intro turn hturn
    obtain ⟨id', hget, rfl⟩ := Option.map_eq_some_iff.1 hturn
    rw [← h _ (Option.map_eq_some_iff.2 ⟨id', hget, rfl⟩)]
    by_cases hid : id' = id
    · rw [hid, setEntry_heap_self, Entry.refresh_eq]
    · rw [setEntry_heap_ne _ _ hid]

/-- The loop over the payload, one check at a time. -/
theorem refreshChecks_unprobed (items : List (Option FastCheck)) (keep : List String)
    (hcoh : r.Coherent) (h : r.Unprobed created sid) :
    (refreshChecks created items r keep).1.Unprobed created sid := by
  induction items generalizing r keep with
  | nil => exact h
  | cons item items ih =>
    have hone := refreshOne_unprobed item keep hcoh h
    have hcoh' := (refreshOne_spec created item r keep).2.1 hcoh
    rw [refreshChecks]
    rcases hout : refreshOne created item r keep with ⟨r', - | keep'⟩ <;> rw [hout] at hone hcoh'
    · exact hone
    · exact ih keep' hcoh' hone

/-- And the refresh, which only takes entries away behind the loop. -/
theorem refresh_unprobed (work : Work) (hcoh : r.Coherent) (h : r.entries.get? sid = none) :
    (r.refresh created work).1.Unprobed created sid := by
  have hnone : ∀ r' : Runner, r'.entries = r.entries → r'.Unprobed created sid := by
    intro r' hentries turn hturn
    rw [turnOf, hentries, h] at hturn
    cases hturn
  rw [refresh]
  rcases (work.refreshSeconds.orElse (.int r.refreshSeconds)).pyInt with - | n
  · exact hnone r rfl
  dsimp only
  rcases (work.flushSeconds.orElse (.int r.flushSeconds)).pyInt with - | m
  · exact hnone _ rfl
  dsimp only
  rcases work.checks with - | items
  · exact hnone _ rfl
  dsimp only
  have hloop := refreshChecks_unprobed items []
    (r := { r with refreshSeconds := n, flushSeconds := m }) hcoh
    (hnone _ rfl : Unprobed created sid _)
  rcases hout : refreshChecks created items { r with refreshSeconds := n, flushSeconds := m } []
    with ⟨r', - | keep⟩ <;> rw [hout] at hloop
  · exact hloop
  · intro turn hturn
    obtain ⟨id, hget, rfl⟩ := Option.map_eq_some_iff.1 hturn
    have hget' : r'.entries.get? sid = some id := by
      rw [Dict.get?_restrict] at hget
      split at hget
      case isTrue => exact hget
      case isFalse => cases hget
    exact hloop _ (Option.map_eq_some_iff.2 ⟨id, hget', rfl⟩)

theorem fetched_unprobed {work : Option Work} {nowRefresh nowFlush : Binary64} (hcoh : r.Coherent)
    (hstep : r.step (.fetched work created nowRefresh nowFlush) = some r')
    (h : r.entries.get? sid = none) : r'.Unprobed created sid := by
  have hafter : (r.afterFetch work created).Unprobed created sid := by
    cases work with
    | none =>
      intro turn hturn
      rw [turnOf, afterFetch, h] at hturn
      cases hturn
    | some work => exact refresh_unprobed work hcoh h
  obtain ⟨nextRefresh, nextFlush, rfl⟩ | rfl := fetched_cases hstep
  · exact hafter
  · exact hafter

/-- A refresh takes a turn away, gives a new one, or leaves it as it was. -/
theorem turn_fetched {work : Option Work} {nowRefresh nowFlush : Binary64} (hcoh : r.Coherent)
    (hstep : r.step (.fetched work created nowRefresh nowFlush) = some r') :
    r'.turnOf sid =
      turn sid r (.fetched work created nowRefresh nowFlush) (r.turnOf sid) := by
  rw [turn, drops, relists, hstep]
  dsimp only
  by_cases hlisted' : r'.listed sid = true
  · by_cases hlisted : r.listed sid = true
    · have hspares := fetched_spares hcoh hstep hlisted hlisted'
      rw [if_neg (by simp [hlisted']), if_neg (by simp [hlisted]), turnOf, turnOf, hspares.entry]
      exact Option.map_congr fun id hget ↦ by rw [hspares.due id hget, hspares.running id hget]
    · obtain ⟨id, hget⟩ := Option.isSome_iff_exists.1 hlisted'
      have hturn : r'.turnOf sid = some ⟨(r'.heap id).due, (r'.heap id).running⟩ := by
        rw [turnOf, hget]
        rfl
      have hnone := listed_eq_false.1 (Bool.not_eq_true _ ▸ hlisted)
      rw [if_neg (by simp [hlisted]), if_pos (by simp [hlisted, hlisted']), hturn,
        fetched_unprobed hcoh hstep hnone _ hturn]
  · have hnone' := listed_eq_false.1 (Bool.not_eq_true _ ▸ hlisted')
    rw [turnOf, hnone', Option.map_none]
    by_cases hlisted : r.listed sid = true
    · rw [if_pos (by simp [hlisted, hlisted'])]
    · rw [if_neg (by simp [hlisted]), if_neg (by simp [hlisted']), turnOf,
        listed_eq_false.1 (Bool.not_eq_true _ ▸ hlisted), Option.map_none]

/-! ### The end of a probe -/

/-- The end of a probe of an entry that is still the check's gives it back its turn; the end of
another changes no turn. -/
theorem turnOf_complete (tasks : List Probe) (id : ℕ) (check : FastCheck) (at_ : ℤ)
    (oc : CheckOutcome) :
    ({ r with tasks := tasks }.complete id check at_ oc).turnOf sid =
      if r.entries.get? sid = some id then
        (r.turnOf sid).map fun turn ↦ { turn with out := false }
      else r.turnOf sid := by
  show (r.entries.get? sid).map _ = _
  rw [turnOf]
  rcases hget : r.entries.get? sid with - | id'
  · rw [if_neg (by simp)]
    rfl
  show some (Turn.mk ((Runner.setEntry id _ _).heap id').due
    ((Runner.setEntry id _ _).heap id').running) = _
  by_cases hid : id' = id
  · rw [hid, setEntry_heap_self, if_pos rfl]
    rfl
  · rw [setEntry_heap_ne _ _ hid, if_neg fun h ↦ hid (Option.some.inj h)]
    rfl

/-- A probe that begins without a checker ends in the same step; another leaves the turn as it
is. -/
theorem turn_begin {i : ℕ} {at_ : ℤ} (hstep : r.step (.begin i at_) = some r') :
    r'.turnOf sid = turn sid r (.begin i at_) (r.turnOf sid) := by
  obtain ⟨id, htask, h⟩ := begin_cases hstep
  rw [turn, ended, htask, Option.bind_some]
  rcases h with ⟨hkind, rfl⟩ | ⟨hkind, rfl⟩ | ⟨hkind, rfl⟩
  · rw [hkind]
    rfl
  · rw [hkind]
    rfl
  · rw [turnOf_complete, if_pos hkind]
    simp

theorem turn_answer {i : ℕ} {reply : Except String CheckOutcome}
    (hstep : r.step (.answer i reply) = some r') :
    r'.turnOf sid = turn sid r (.answer i reply) (r.turnOf sid) := by
  obtain ⟨id, check, at_, htask, rfl⟩ := answer_cases hstep
  rw [turn, ended, htask, turnOf_complete]
  simp

/-! ### Whole runs -/

/-- The step lemma: the turn that is read off the state is the one that an observer of the events
writes down. -/
theorem turn_step {e : Event} (hcoh : r.Coherent) (hstep : r.step e = some r') :
    r'.turnOf sid = turn sid r e (r.turnOf sid) := by
  cases e with
  | wake tickAt nowM => exact turn_wake hstep
  | begin i at_ => exact turn_begin hstep
  | answer i reply => exact turn_answer hstep
  | posted ok =>
    have hsame := posted_sameTasks hstep
    exact turnOf_congr hsame.entries hsame.heap
  | fetched work created nowRefresh nowFlush => exact turn_fetched hcoh hstep
  | stop =>
    obtain rfl := Option.some.inj hstep
    rfl

/-- **The loop is punctual**: in every run, a pass starts a probe of a check exactly when the check
is listed, its last probe has ended, and the interval of its last start, or the moment of its
listing where there is none, has passed.

Only the check's own start, answer and listing move its turn, which is what `turn` writes down from
the events alone. -/
theorem probe_starts_iff {flushSeconds : ℤ} {es : List Event}
    (hrun : lane.exec (Runner.init flushSeconds) es = some r) {tickAt nowM : Binary64}
    (hstep : r.step (.wake tickAt nowM) = some r') (sid : String) :
    r.startOf sid (.wake tickAt nowM) = some tickAt ↔ r.stopping = false ∧
      ∃ t ∈ lane.observe (turn sid) (Runner.init flushSeconds) es none,
        t.due ≤ tickAt ∧ t.out = false := by
  have hinv := lane.exec_invariant (P := fun _ _ ↦ True) (f := turn sid)
    (I := fun r t ↦ r.Sound ∧ r.turnOf sid = t)
    (fun r e r' t _ h hstep ↦
      ⟨sound_step h.1 hstep, by rw [turn_step h.1.coherent hstep, h.2]⟩)
    (h := none) (Machine.meets_true _ es) ⟨sound_init flushSeconds, rfl⟩ hrun
  rw [← hinv.2]
  exact startOf_wake_iff (pass_of_wake hstep).1

/-- A check that is up has been probed once. -/
def probedOnce : List Event :=
  [.fetched (some oneCheck) (fun _ ↦ 0) 0 0, .wake 0 0, .begin 0 0, .answer 0 (.ok isUp)]

/-- A check that was probed at 0, with an interval of a second, is probed again at 1. -/
theorem probe_starts_iff_again :
    ∃ r r', lane.exec (Runner.init 15) probedOnce = some r ∧ r.step (.wake 1 1) = some r' ∧
      r.startOf "7" (.wake 1 1) = some 1 := by
  have hsome : (lane.exec (Runner.init 15) (probedOnce ++ [.wake 1 1])).isSome = true := by
    decide +kernel
  obtain ⟨r', hrun'⟩ := Option.isSome_iff_exists.1 hsome
  obtain ⟨r, hrun, hstep⟩ := Machine.exec_snoc.1 hrun'
  have hstop : (lane.exec (Runner.init 15) probedOnce).map (·.stopping) = some false := by
    decide +kernel
  rw [hrun] at hstop
  have hturn : lane.observe (turn "7") (Runner.init 15) probedOnce none = some ⟨1, false⟩ := by
    decide +kernel
  exact ⟨r, r', hrun, hstep,
    (probe_starts_iff hrun hstep "7").2 ⟨Option.some.inj hstop, _, hturn, le_rfl, rfl⟩⟩

end Runner

end FastLane
