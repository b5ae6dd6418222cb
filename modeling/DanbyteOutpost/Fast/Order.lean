import DanbyteOutpost.Fast.Delivery
import DanbyteOutpost.Fast.Probes

/-!
# One probe at a time, and samples in order

The samples of a check come from probes that are never in flight together, so they complete in the
order they started, and their start times are in order when the wall clock is. The books of the
check carry the order over to what is buffered and posted. A refresh that lists a check again while
a probe of it is still in flight breaks this: the new entry is idle, and `tick` starts a second
probe next to the first.

## The two halves

That no two probes of a check are in flight together is `Exclusive`, which every step keeps but
the one that is excluded. That samples come in order takes a second invariant (`Timed`): the
samples a check has completed are in order of their start times, and a probe that is in flight
started no earlier than the last of them. The books of the check (`Balanced`) say that what was
posted and what is buffered is a part of those samples, in their order.

`relisted_two_probes` is the run that the condition is there for.
-/

namespace FastLane

/-- The readings of the wall clock a run has taken. -/
def readings (_ : Runner) : Event → List ℤ → List ℤ
  | .begin _ at_, ts => ts ++ [at_]
  | _, ts => ts

namespace Runner

/-- A probe of `sid`, started at `at_`, is waiting for its checker. -/
def Waits (r : Runner) (sid : String) (at_ : ℤ) : Prop :=
  ∃ p ∈ r.tasks, ∃ check, p.phase = .awaiting check at_ ∧ check.stateId = sid

/-- A task that waits behind `tick` has waited before: the new ones have not read the clock. -/
theorem waits_tick {r : Runner} {now : Binary64} {sid : String} {at_ : ℤ}
    (h : (r.tick now).Waits sid at_) : r.Waits sid at_ := by
  refine tick_invariant (I := fun r' ↦ r'.Waits sid at_ → r.Waits sid at_) now ?_ id h
  rintro r' _ id _ _ hI ⟨p, hp, check, hphase, hsid⟩
  rcases List.mem_append.1 hp with hp | hp
  · exact hI ⟨p, hp, check, hphase, hsid⟩
  · rw [List.mem_singleton.1 hp] at hphase
    cases hphase

theorem Waits.of_subset {r r' : Runner} {sid : String} {at_ : ℤ} (h : r'.Waits sid at_)
    (htasks : r'.tasks ⊆ r.tasks) : r.Waits sid at_ := by
  obtain ⟨p, hp, hcheck⟩ := h
  exact ⟨p, htasks hp, hcheck⟩

theorem Waits.of_eq {r r' : Runner} {sid : String} {at_ : ℤ} (h : r'.Waits sid at_)
    (htasks : r'.tasks = r.tasks) : r.Waits sid at_ :=
  h.of_subset fun _ hp ↦ htasks ▸ hp

/-- A probe that waits after a step waited before it, or was begun by it. -/
theorem waits_step {r r' : Runner} {e : Event} (h : r.step e = some r') {sid : String} {at_ : ℤ}
    (hwait : r'.Waits sid at_) : r.Waits sid at_ ∨ ∃ i, e = .begin i at_ := by
  cases e with
  | begin i at' =>
    obtain ⟨id, htask, ⟨-, rfl⟩ | ⟨-, rfl⟩ | ⟨-, rfl⟩⟩ := begin_cases h
    · exact .inl (hwait.of_subset (List.eraseIdx_subset))
    · obtain ⟨p, hp, check, hphase, hsid⟩ := hwait
      rcases List.mem_or_eq_of_mem_set hp with hp | rfl
      · exact .inl ⟨p, hp, check, hphase, hsid⟩
      · injection hphase with _ hat
        exact .inr ⟨i, by rw [hat]⟩
    · exact .inl (hwait.of_subset (List.eraseIdx_subset))
  | answer i reply =>
    obtain ⟨id, check, at', htask, rfl⟩ := answer_cases h
    exact .inl (hwait.of_subset (List.eraseIdx_subset))
  | wake tickAt nowM =>
    rcases wake_step h with hsame | hsame
    · exact .inl (hwait.of_eq hsame.tasks)
    · exact .inl (waits_tick (hwait.of_eq hsame.tasks))
  | posted ok => exact .inl (hwait.of_eq (posted_sameTasks h).tasks)
  | fetched => exact .inl (hwait.of_eq (fetched_step h).1.tasks)
  | stop =>
    obtain rfl := Option.some.inj h
    exact .inl hwait

/-- A probe that completes was waiting, or completes as it begins; no probe of its check is left. -/
theorem completionOf_step {r r' : Runner} {e : Event} (hx : r.Exclusive) (h : r.step e = some r')
    {sid : String} {sample : Sample} (hc : r.completionOf sid e = some sample) :
    (r.Waits sid sample.t ∨ ∃ i, e = .begin i sample.t) ∧ ∀ at_, ¬ r'.Waits sid at_ := by
  have hgone : ∀ {i p check at_ oc}, r.tasks[i]? = some p → r.sidOf p = sid →
      ∀ at', ¬ ({ r with tasks := r.tasks.eraseIdx i }.complete p.entry check at_ oc).Waits sid
        at' := by
    rintro i p check at_ oc htask hsid at' ⟨q, hq, check', hphase, hcheck⟩
    refine hx.ne_of_mem_erase htask hq ?_
    rw [hsid, sidOf, hphase]
    exact hcheck
  cases e with
  | begin i at_ =>
    obtain ⟨id, htask, ⟨hkind, rfl⟩ | ⟨hkind, rfl⟩ | ⟨hkind, rfl⟩⟩ := begin_cases h
    · simp [completionOf, completion, htask, hkind] at hc
    · simp [completionOf, completion, htask, hkind] at hc
    · simp only [completionOf, completion, htask, hkind, if_true, Option.ite_none_right_eq_some,
        Option.some.injEq] at hc
      obtain ⟨hsid, rfl⟩ := hc
      exact ⟨.inr ⟨i, rfl⟩, hgone htask hsid⟩
  | answer i reply =>
    obtain ⟨id, check, at_, htask, rfl⟩ := answer_cases h
    simp only [completionOf, completion, htask, Option.ite_none_right_eq_some,
      Option.some.injEq] at hc
    obtain ⟨hsid, rfl⟩ := hc
    exact ⟨.inl ⟨_, List.mem_of_getElem? htask, check, rfl, hsid⟩, hgone htask hsid⟩
  | wake | posted | fetched | stop => simp [completionOf, completion] at hc

end Runner

/-- The samples completed so far are in order, and those of the probe still out will follow. -/
structure Timed (sid : String) (r : Runner) (ts : List ℤ) (samples : List Sample) : Prop where
  /-- The times do not go back. -/
  sorted : (samples.map Sample.t).Pairwise (· ≤ ·)
  /-- Each of them was read from the clock by a probe that has begun. -/
  read : ∀ s ∈ samples, s.t ∈ ts
  /-- So was that of the probe which is still out. -/
  started : ∀ at_, r.Waits sid at_ → at_ ∈ ts
  /-- And none of the samples is later than that. -/
  waiting : ∀ at_, r.Waits sid at_ → ∀ s ∈ samples, s.t ≤ at_

/-- A step reads the wall clock if a probe begins in it, once. -/
theorem readings_step (r : Runner) (e : Event) (ts : List ℤ) :
    readings r e ts = ts ∨ ∃ i at_, e = .begin i at_ ∧ readings r e ts = ts ++ [at_] := by
  cases e with
  | begin i at_ => exact .inr ⟨i, at_, rfl, rfl⟩
  | _ => exact .inl rfl

theorem subset_readings (r : Runner) (e : Event) (ts : List ℤ) : ts ⊆ readings r e ts := by
  rcases readings_step r e ts with h | ⟨i, at_, -, h⟩ <;> rw [h]
  · exact List.Subset.refl _
  · exact List.subset_append_left _ _

theorem mem_readings_begin (r : Runner) (i : ℕ) (at_ : ℤ) (ts : List ℤ) :
    at_ ∈ readings r (.begin i at_) ts :=
  List.mem_append_right _ List.mem_cons_self

/-- The step lemma: with one probe of a check at a time, the samples come in the order of the
readings, and a probe that still waits has the last of them. -/
theorem timed_step {sid : String} {r r' : Runner} {e : Event} {ts : List ℤ}
    {samples : List Sample} (hx : r.Exclusive) (hstep : r.step e = some r')
    (hclock : (readings r e ts).Pairwise (· ≤ ·)) (h : Timed sid r ts samples) :
    Timed sid r' (readings r e ts) (completed sid r e samples) := by
  -- a reading taken in this step is no earlier than any before it
  have hlate : ∀ i at_, e = .begin i at_ → ∀ s ∈ samples, s.t ≤ at_ := by
    rintro i at_ rfl s hs
    exact (List.pairwise_append.1 hclock).2.2 _ (h.read s hs) _ List.mem_cons_self
  have hread : ∀ at_, (r.Waits sid at_ ∨ ∃ i, e = .begin i at_) → at_ ∈ readings r e ts := by
    rintro at_ (hwait | ⟨i, rfl⟩)
    · exact subset_readings r e ts (h.started at_ hwait)
    · exact mem_readings_begin r i at_ ts
  rcases hc : r.completionOf sid e with - | sample
  · rw [completed, hc, Option.toList_none, List.append_nil]
    refine ⟨h.sorted, fun s hs ↦ subset_readings r e ts (h.read s hs),
      fun at_ hwait ↦ hread at_ (Runner.waits_step hstep hwait), fun at_ hwait ↦ ?_⟩
    rcases Runner.waits_step hstep hwait with hwait | ⟨i, he⟩
    · exact h.waiting at_ hwait
    · exact hlate i at_ he
  · obtain ⟨hfrom, hnone⟩ := Runner.completionOf_step hx hstep hc
    rw [completed, hc, Option.toList_some]
    refine ⟨?_, fun s hs ↦ ?_, fun at_ hwait ↦ absurd hwait (hnone at_),
      fun at_ hwait ↦ absurd hwait (hnone at_)⟩
    · rw [List.map_append, List.pairwise_append]
      refine ⟨h.sorted, List.pairwise_singleton _ _, fun t ht t' ht' ↦ ?_⟩
      obtain ⟨s, hs, rfl⟩ := List.mem_map.1 ht
      rw [List.map_singleton, List.mem_singleton] at ht'
      rw [ht']
      rcases hfrom with hwait | ⟨i, he⟩
      · exact h.waiting _ hwait s hs
      · exact hlate i _ he s hs
    · rcases List.mem_append.1 hs with hs | hs
      · exact subset_readings r e ts (h.read s hs)
      · rw [List.mem_singleton.1 hs]
        exact hread _ hfrom

theorem timed_init (sid : String) (flushSeconds : ℤ) :
    Timed sid (Runner.init flushSeconds) [] [] where
  sorted := List.Pairwise.nil
  read := fun _ hs ↦ absurd hs List.not_mem_nil
  started := fun _ ⟨_, hp, _⟩ ↦ absurd hp List.not_mem_nil
  waiting := fun _ _ _ hs ↦ absurd hs List.not_mem_nil

/-- A run whose refreshes list no check again while a probe of it is in flight. -/
theorem exclusive_run {flushSeconds : ℤ} {es : List Event} {r : Runner}
    (hrun : lane.exec (Runner.init flushSeconds) es = some r)
    (hidle : lane.Meets Runner.relistsIdle (Runner.init flushSeconds) es) : r.Exclusive :=
  lane.exec_invariant' (fun _ _ _ hidle hx hstep ↦ Runner.exclusive_step hidle hx hstep) hidle
    (Runner.exclusive_init flushSeconds) hrun

/-- The run lemma, under the condition that keeps probes of one check apart. -/
theorem timed_run {flushSeconds : ℤ} {es : List Event} {r : Runner}
    (hrun : lane.exec (Runner.init flushSeconds) es = some r)
    (hidle : lane.Meets Runner.relistsIdle (Runner.init flushSeconds) es) (sid : String)
    (hclock : (lane.observe readings (Runner.init flushSeconds) es []).Pairwise (· ≤ ·)) :
    Timed sid r (lane.observe readings (Runner.init flushSeconds) es [])
      (lane.observe (completed sid) (Runner.init flushSeconds) es []) := by
  have h := lane.exec_invariant
    (f := fun r e h ↦ (readings r e h.1, completed sid r e h.2))
    (I := fun r h ↦ r.Exclusive ∧ (h.1.Pairwise (· ≤ ·) → Timed sid r h.1 h.2)) ?_
    (h := ([], [])) hidle
    ⟨Runner.exclusive_init flushSeconds, fun _ ↦ timed_init sid flushSeconds⟩ hrun
  · rw [Machine.observe_prod readings (completed sid)] at h
    exact h.2 hclock
  · intro r e r' h hidle hI hstep
    refine ⟨Runner.exclusive_step hidle hI.1 hstep, fun hclock ↦ ?_⟩
    refine timed_step hI.1 hstep hclock (hI.2 ?_)
    rcases readings_step r e h.1 with hts | ⟨i, at_, -, hts⟩
    · exact hts ▸ hclock
    · rw [hts] at hclock
      exact (List.pairwise_append.1 hclock).1

/-- **One probe at a time.** In a run whose refreshes list no check again while a probe of it is in
flight, no two probes of a check are ever in flight together; and what was posted of a check, then
what is in the post in flight, then what is in the buffer has non-decreasing start times, provided
the wall clock never goes back.

The `running` flag is one of the entry object, and a refresh that lists a check again makes a new
object. Where it does so while a probe of the old one is out, a second probe is started beside
it. -/
theorem one_probe_at_a_time {flushSeconds : ℤ} {es : List Event} {r : Runner}
    (hrun : lane.exec (Runner.init flushSeconds) es = some r)
    (hidle : lane.Meets Runner.relistsIdle (Runner.init flushSeconds) es) :
    (r.tasks.map r.sidOf).Nodup ∧
      ∀ sid, (lane.observe readings (Runner.init flushSeconds) es []).Pairwise (· ≤ ·) →
        ((lane.observe (received sid) (Runner.init flushSeconds) es [] ++ r.inFlightOf sid ++
          r.bufferOf sid).map Sample.t).Pairwise (· ≤ ·) := by
  refine ⟨(exclusive_run hrun hidle).nodup, fun sid hclock ↦ ?_⟩
  obtain ⟨hbal, hacc, -⟩ := balanced_run hrun sid
  have hheld := Ledger.map_snd_held_sublist hacc
  rw [Ledger.held, List.map_append, List.map_append, hbal.delivered, hbal.inFlight, hbal.buffered,
    hbal.produced] at hheld
  exact (timed_run hrun hidle sid hclock).sorted.sublist (hheld.map Sample.t)

/-- A run in which a check is taken away, with a sample of it in the buffer, and listed again once
its probe has ended. -/
def listedAgain : List Event :=
  [.fetched (some oneCheck) (fun _ ↦ 0) 0 0, .wake 0 0, .begin 0 1, .answer 0 (.ok isUp),
    .wake 15 15, .begin 0 15000, .posted true, .answer 0 (.error "timed out"),
    .fetched (some noCheck) (fun _ ↦ 15) 0 0, .wake 30 30,
    .fetched (some oneCheck) (fun _ ↦ 30) 0 0, .wake 31 31, .begin 0 31000, .answer 0 (.ok isUp),
    .wake 46 46, .begin 0 46000, .answer 0 (.ok isUp)]

/-- A check that is dropped and listed again once its probe is over: its samples, delivered or not,
stay in order. -/
theorem one_probe_at_a_time_listedAgain : ∃ r ∈ lane.exec (Runner.init 15) listedAgain,
    (r.tasks.map r.sidOf).Nodup ∧
      ((lane.observe (received "7") (Runner.init 15) listedAgain [] ++ r.inFlightOf "7" ++
        r.bufferOf "7").map Sample.t).Pairwise (· ≤ ·) ∧
      r.inFlightOf "7" ≠ [] ∧ r.bufferOf "7" ≠ [] := by
  have hlast : ∃ r ∈ lane.exec (Runner.init 15) listedAgain,
      r.inFlightOf "7" ≠ [] ∧ r.bufferOf "7" ≠ [] := by decide +kernel
  obtain ⟨r, hrun, hheld⟩ := hlast
  have hidle : lane.Meets Runner.relistsIdle (Runner.init 15) listedAgain := by decide +kernel
  obtain ⟨hnodup, hsorted⟩ := one_probe_at_a_time hrun hidle
  exact ⟨r, hrun, hnodup, hsorted "7" (by decide +kernel), hheld⟩

/-- A run in which a check is taken away and listed again while its first probe waits. -/
def relisted : List Event :=
  [.fetched (some oneCheck) (fun _ ↦ 0) 0 0, .wake 0 0, .begin 0 1, .wake 15 15,
    .fetched (some noCheck) (fun _ ↦ 15) 0 0, .wake 30 30,
    .fetched (some oneCheck) (fun _ ↦ 30) 0 0, .wake 31 31, .begin 1 31000]

/-- When a probe that waits for its checker was started. -/
def Probe.startedAt (p : Probe) : Option ℤ :=
  match p.phase with
  | .created => none
  | .awaiting _ at_ => some at_

/-- Both probes wait at the end of the run, and when the second is answered first the buffer is out
of order. -/
theorem relisted_two_probes :
    (∃ r ∈ lane.exec (Runner.init 15) relisted, r.tasks.map r.sidOf = ["7", "7"] ∧
      r.tasks.map Probe.startedAt = [some 1, some 31000]) ∧
    (lane.observe readings (Runner.init 15) relisted []).Pairwise (· ≤ ·) ∧
    ∃ r ∈ lane.exec (Runner.init 15) (relisted ++ [.answer 1 (.ok isUp), .answer 0 (.ok isUp)]),
      (r.bufferOf "7").map Sample.t = [31000, 1] := by
  decide +kernel

end FastLane
