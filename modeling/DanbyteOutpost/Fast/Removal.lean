import DanbyteOutpost.Fast.Probes

/-!
# A check the core took away

A refresh that no longer lists a check deletes its entry and what the buffer holds of it. It cannot
reach a probe of the check that is in flight: when that probe completes it buffers its sample under
the deleted state id, the next flush posts it, and a post that fails puts it back. So the samples of
a removed check stay away exactly when no probe completes for a check that is not listed
(`removed_stays_away_iff`).

## What can bring it back

A sample of a check that is gone would have to come from the buffer, from the batch in flight or
from a probe in flight. The refresh clears the first. A batch in flight when the refresh comes
cannot be, since the loop does one thing at a time (`Pc`). So only a probe can, and whether it
does is the condition: each completion is of a check that is listed (`completesListed`). Being
away is kept by all the other steps (`Runner.away_step`).

The theorem is exact over every prefix of the run, and `droppedInFlight_posted` is a run that
fails it.
-/

namespace FastLane

/-- Whether a refresh took `sid` away and none has listed it since. -/
def removed (sid : String) (r : Runner) (e : Event) (gone : Bool) : Bool :=
  if r.drops e sid then true else if r.relists e sid then false else gone

namespace Runner

/-- There is nothing of `sid` in the buffer or in the post in flight. -/
def Away (r : Runner) (sid : String) : Prop :=
  r.bufferOf sid = [] ∧ r.posting.get? sid = none

/-- A probe that completes in the step is of a listed check. -/
def completesListed (r : Runner) (e : Event) : Prop :=
  ∀ c ∈ r.completion e, r.listed c.1 = true

instance (r : Runner) (sid : String) : Decidable (r.Away sid) := inferInstanceAs (Decidable (_ ∧ _))

instance (r : Runner) (e : Event) : Decidable (r.completesListed e) :=
  inferInstanceAs (Decidable (∀ c ∈ r.completion e, _))

end Runner

/-- What the observer calls removed is not listed. -/
theorem unlisted_of_removed {sid : String} {r r' : Runner} {e : Event} {gone : Bool}
    (hstep : r.step e = some r') (hgone : gone = true → r.listed sid = false)
    (h : removed sid r e gone = true) : r'.listed sid = false := by
  rcases hl : r.listed sid <;> rcases hl' : r'.listed sid <;>
    simp_all [removed, Runner.drops, Runner.relists]

theorem removed_of_unlisted {sid : String} {r r' : Runner} {e : Event} {gone : Bool}
    (hstep : r.step e = some r') (hgone : r.listed sid = true ∨ gone = true)
    (h : r'.listed sid = false) : removed sid r e gone = true := by
  rcases hl : r.listed sid <;> simp_all [removed, Runner.drops, Runner.relists]

/-- A removed check is not listed. -/
theorem unlisted_run {flushSeconds : ℤ} {es : List Event} {r : Runner} {sid : String}
    (hrun : lane.exec (Runner.init flushSeconds) es = some r)
    (h : lane.observe (removed sid) (Runner.init flushSeconds) es false = true) :
    r.listed sid = false :=
  lane.exec_invariant (I := fun r gone ↦ gone = true → r.listed sid = false)
    (fun _ _ _ _ _ hI hstep ↦ unlisted_of_removed hstep hI) (Machine.meets_true _ es)
    (fun h ↦ absurd h Bool.false_ne_true) hrun h

/-- A task after a step is of a check that is listed then, or had a task before. -/
theorem Runner.task_step {r r' : Runner} {e : Event} (hs : r.Sound) (hstep : r.step e = some r')
    {p : Probe} (hp : p ∈ r'.tasks) :
    r'.listed (r'.sidOf p) = true ∨ ∃ q ∈ r.tasks, r.sidOf q = r'.sidOf p := by
  cases step_taskMove hstep with
  | same h => exact .inr ⟨p, h.tasks ▸ hp, (h.sidOf p).symm⟩
  | tick now h =>
    have htick := tick_invariant now (r := r) (I := fun t ↦ t.Sound ∧ ∀ p ∈ t.tasks,
      t.listed (t.sidOf p) = true ∨ ∃ q ∈ r.tasks, r.sidOf q = t.sidOf p) ?_
      ⟨hs, fun p hp ↦ .inr ⟨p, hp, rfl⟩⟩
    · rw [h.tasks] at hp
      rw [h.sidOf, listed, h.entries]
      exact htick.2 p hp
    · rintro t sid id hid - ⟨hts, htasks⟩
      refine ⟨hts.launch now hid, fun p hp ↦ ?_⟩
      rw [sidOf_congr (launch_heap_stateId now id t p.entry)]
      rcases List.mem_append.1 hp with hp | hp
      · exact htasks p hp
      · refine .inl ?_
        rw [List.mem_singleton.1 hp]
        have hname : t.sidOf ⟨id, .created⟩ = sid := (hts.coherent sid id hid).2
        rw [hname]
        exact listed_of_get? hid
  | refresh h =>
    rw [h.tasks] at hp
    exact .inr ⟨p, hp, (sidOf_congr (h.stateId_eq hs.coherent (hs.allocated p hp))).symm⟩
  | begin i id at_ htask h =>
    subst h
    rcases List.mem_or_eq_of_mem_set hp with hp | rfl
    · exact .inr ⟨p, hp, rfl⟩
    · exact .inr ⟨⟨id, .created⟩, List.mem_of_getElem? htask, rfl⟩
  | abandon i q _ h =>
    subst h
    exact .inr ⟨p, List.mem_of_mem_eraseIdx hp, rfl⟩
  | complete i q check at_ oc _ h =>
    subst h
    exact .inr ⟨p, List.mem_of_mem_eraseIdx hp,
      (sidOf_congr (complete_heap_stateId q.entry check at_ oc _ p.entry)).symm⟩

/-- A check that has a task is listed or was removed. -/
theorem listed_or_removed_run {flushSeconds : ℤ} {es : List Event} {r : Runner} {sid : String}
    (hrun : lane.exec (Runner.init flushSeconds) es = some r) {p : Probe} (hp : p ∈ r.tasks)
    (hsid : r.sidOf p = sid) :
    r.listed sid = true ∨
      lane.observe (removed sid) (Runner.init flushSeconds) es false = true := by
  have h := lane.exec_invariant (P := fun _ _ ↦ True) (f := removed sid)
    (I := fun r gone ↦ r.Sound ∧ ∀ p ∈ r.tasks, r.sidOf p = sid →
      r.listed sid = true ∨ gone = true) (h := false) ?_ (Machine.meets_true _ es)
    ⟨Runner.sound_init flushSeconds, fun _ h ↦ absurd h List.not_mem_nil⟩ hrun
  · exact h.2 p hp hsid
  · rintro r e r' gone - ⟨hs, hI⟩ hstep
    refine ⟨Runner.sound_step hs hstep, fun p hp hsid ↦ ?_⟩
    rcases hl : r'.listed sid
    · refine .inr (removed_of_unlisted hstep ?_ hl)
      rcases Runner.task_step hs hstep hp with hlisted | ⟨q, hq, hname⟩
      · rw [hsid, hl] at hlisted
        cases hlisted
      · exact hI q hq (hname.trans hsid)
    · exact .inl rfl

/-- The probe that completes in a step has a task of its check. -/
theorem Runner.task_of_completion {r r' : Runner} {e : Event} (hstep : r.step e = some r')
    {c : String × Sample} (hc : r.completion e = some c) : ∃ p ∈ r.tasks, r.sidOf p = c.1 := by
  cases e with
  | begin i at_ =>
    obtain ⟨id, htask, ⟨hkind, -⟩ | ⟨hkind, -⟩ | ⟨hkind, -⟩⟩ := begin_cases hstep <;>
      simp only [completion, htask, hkind, reduceCtorEq, if_false, Option.some.injEq,
        Bool.true_eq_false, if_true] at hc
    exact ⟨_, List.mem_of_getElem? htask, congrArg Prod.fst hc⟩
  | answer i reply =>
    obtain ⟨id, check, at_, htask, -⟩ := answer_cases hstep
    simp only [completion, htask, Option.some.injEq] at hc
    exact ⟨_, List.mem_of_getElem? htask, congrArg Prod.fst hc⟩
  | wake | posted | fetched | stop => cases hc

/-! ### What is away stays away -/

/-- A sample completed for a check that is not listed stays in the buffer. -/
theorem Runner.completion_buffered {r r' : Runner} {e : Event} (hstep : r.step e = some r')
    {sid : String} {sample : Sample} (hc : r.completion e = some (sid, sample)) :
    r'.bufferOf sid ≠ [] ∧ r'.listed sid = r.listed sid := by
  have hof : r.completionOf sid e = some sample := by
    rw [completionOf, hc]
    exact if_pos rfl
  have hmove := step_move hstep sid
  cases e with
  | begin i at_ =>
    rw [opOf, hof, LedgerOp.move, Prod.mk.injEq] at hmove
    refine ⟨by rw [hmove.2]; exact List.append_ne_nil_of_right_ne_nil _ (List.cons_ne_nil _ _), ?_⟩
    obtain ⟨id, htask, ⟨-, rfl⟩ | ⟨-, rfl⟩ | ⟨-, rfl⟩⟩ := begin_cases hstep <;> rfl
  | answer i reply =>
    rw [opOf, hof, LedgerOp.move, Prod.mk.injEq] at hmove
    refine ⟨by rw [hmove.2]; exact List.append_ne_nil_of_right_ne_nil _ (List.cons_ne_nil _ _), ?_⟩
    obtain ⟨id, check, at_, htask, rfl⟩ := answer_cases hstep
    rfl
  | wake | posted | fetched | stop => cases hc

/-- Posting goes on as it was, ends, or takes what the buffer held. -/
theorem Runner.posting_step {r r' : Runner} {e : Event} (hstep : r.step e = some r') :
    r'.posting = r.posting ∨ r'.posting = Dict.empty ∨ r'.posting = r.results := by
  cases e with
  | wake tickAt nowM =>
    rw [step] at hstep
    split at hstep
    case h_1 =>
      obtain rfl := Option.some.inj hstep
      by_cases hdue : r.flushDue nowM
      · exact .inr (.inr (wake_of_flushDue tickAt hdue).2)
      · exact .inr (.inl (wake_of_not_flushDue tickAt hdue).2.1)
    case h_2 => cases hstep
  | begin i at_ =>
    obtain ⟨id, htask, ⟨-, rfl⟩ | ⟨-, rfl⟩ | ⟨-, rfl⟩⟩ := begin_cases hstep <;> exact .inl rfl
  | answer i reply =>
    obtain ⟨id, check, at_, htask, rfl⟩ := answer_cases hstep
    exact .inl rfl
  | posted ok =>
    obtain ⟨results, -, -, hafter⟩ := posted_cases hstep
    exact .inr (.inl hafter)
  | fetched => exact .inr (.inl (fetched_step hstep).2.2)
  | stop =>
    obtain rfl := Option.some.inj hstep
    exact .inl rfl

/-- What is posted next to the buffer of a check that is away has nothing of it. -/
theorem Runner.posting_away {r r' : Runner} {e : Event} (hstep : r.step e = some r') {sid : String}
    (h : r.Away sid) : r'.posting.get? sid = none := by
  rcases posting_step hstep with heq | heq | heq <;> rw [heq]
  · exact h.2
  · exact Dict.get?_empty sid
  · rw [get?_results, if_pos h.1]

/-- A step keeps away what was away, unless a probe completes for it. -/
theorem Runner.away_step {r r' : Runner} {e : Event} (hstep : r.step e = some r') {sid : String}
    (hc : r.completionOf sid e = none) (h : r.Away sid) : r'.Away sid := by
  refine ⟨?_, posting_away hstep h⟩
  have hmove := congrArg Prod.snd (step_move hstep sid)
  have hflight : r.inFlightOf sid = [] := by
    rw [inFlightOf, h.2]
    rfl
  rw [hflight, h.1] at hmove
  refine hmove.trans ?_
  cases e with
  | wake | fetched =>
    rw [opOf]
    split <;> rfl
  | begin | answer =>
    rw [opOf, hc]
    rfl
  | posted ok => cases ok <;> rfl
  | stop => rfl

/-- A step in which a check is taken away leaves nothing of it behind. -/
theorem Runner.away_of_drop {r r' : Runner} {e : Event} (hstep : r.step e = some r') {sid : String}
    (hl : r.listed sid = true) (hl' : r'.listed sid = false) : r'.Away sid := by
  have hkept : r'.entries = r.entries → False := fun heq ↦ by
    rw [listed, heq] at hl'
    rw [listed, hl'] at hl
    cases hl
  cases e with
  | fetched =>
    obtain ⟨href, -, hafter⟩ := fetched_step hstep
    refine ⟨?_, by rw [hafter]; rfl⟩
    rw [bufferOf, href.buffer, hl, hl']
    rfl
  | wake =>
    rcases wake_step hstep with hsame | hsame
    · exact (hkept hsame.entries).elim
    · exact (hkept (hsame.entries.trans (tick_entries _ r))).elim
  | begin =>
    obtain ⟨id, htask, ⟨-, rfl⟩ | ⟨-, rfl⟩ | ⟨-, rfl⟩⟩ := begin_cases hstep <;>
      exact (hkept rfl).elim
  | answer =>
    obtain ⟨id, check, at_, htask, rfl⟩ := answer_cases hstep
    exact (hkept rfl).elim
  | posted => exact (hkept (posted_sameTasks hstep).entries).elim
  | stop =>
    obtain rfl := Option.some.inj hstep
    exact (hkept rfl).elim

/-- The run lemma: what is not listed is away, if every probe completes while its check is
listed. -/
theorem away_run {flushSeconds : ℤ} {es : List Event} {r : Runner}
    (hrun : lane.exec (Runner.init flushSeconds) es = some r)
    (hc : lane.Meets Runner.completesListed (Runner.init flushSeconds) es) {sid : String}
    (hsid : r.listed sid = false) : r.Away sid := by
  refine lane.exec_invariant' (I := fun r ↦ r.listed sid = false → r.Away sid) ?_ hc
    (fun _ ↦ ⟨rfl, rfl⟩) hrun hsid
  intro r e r' hc hI hstep hsid'
  rcases hl : r.listed sid
  · refine Runner.away_step hstep ?_ (hI hl)
    rw [Runner.completionOf]
    rcases hcomp : r.completion e with - | ⟨sid', sample⟩
    · rfl
    · refine if_neg ?_
      rintro rfl
      rw [hc _ hcomp] at hl
      cases hl
  · exact Runner.away_of_drop hstep hl hsid'

/-- **Removal.** The samples of removed checks stay away, after every step of a run, exactly when
every probe that completes in it is of a listed check.

The end of a probe does not ask whether its check is still listed, and `setdefault` puts the sample
under a state id that the refresh has just cleared. -/
theorem removed_stays_away_iff {flushSeconds : ℤ} {es : List Event} {r : Runner}
    (hrun : lane.exec (Runner.init flushSeconds) es = some r) :
    (∀ es₁ es₂ r₁, es = es₁ ++ es₂ → lane.exec (Runner.init flushSeconds) es₁ = some r₁ →
      ∀ sid, lane.observe (removed sid) (Runner.init flushSeconds) es₁ false = true →
        r₁.Away sid) ↔
      lane.Meets Runner.completesListed (Runner.init flushSeconds) es := by
  constructor
  · intro h
    refine (Machine.meets_iff hrun).2 fun es₁ e es₂ u hes hu c hc ↦ ?_
    subst hes
    obtain ⟨_, hu', hrest⟩ := Machine.exec_append.1 hrun
    obtain rfl := Option.some.inj (hu.symm.trans hu')
    obtain ⟨u', hstep, -⟩ := Machine.exec_cons.1 hrest
    by_contra hl
    have hl : u.listed c.1 = false := Bool.eq_false_iff.2 hl
    obtain ⟨hbuffered, hlisted⟩ := Runner.completion_buffered hstep hc
    obtain ⟨p, hp, hname⟩ := Runner.task_of_completion hstep hc
    have hgone : lane.observe (removed c.1) (Runner.init flushSeconds) es₁ false = true := by
      rcases listed_or_removed_run hu hp hname with hyes | hyes
      · rw [hl] at hyes
        cases hyes
      · exact hyes
    refine hbuffered (h (es₁ ++ [e]) es₂ u' (by simp) (Machine.exec_snoc.2 ⟨u, hu, hstep⟩) c.1 ?_).1
    rw [Machine.observe_snoc hu hstep]
    exact removed_of_unlisted hstep (.inr hgone) (hlisted.trans hl)
  · rintro hc es₁ es₂ r₁ rfl hrun₁ sid hgone
    exact away_run hrun₁ ((Machine.meets_append hrun₁).1 hc).1 (unlisted_run hrun₁ hgone)

/-- A run in which a check is taken away while samples of it wait for the next post. -/
def droppedIdle : List Event :=
  [.fetched (some oneCheck) (fun _ ↦ 0) 0 0, .wake 0 0, .begin 0 0, .answer 0 (.ok isUp),
    .wake 15 15, .posted false, .fetched (some noCheck) (fun _ ↦ 15) 0 0, .wake 40 40]

/-- A check that is dropped while no probe of it is in flight leaves nothing behind. -/
theorem removed_stays_away_droppedIdle : ∃ r ∈ lane.exec (Runner.init 15) droppedIdle,
    r.listed "7" = false ∧ r.Away "7" := by
  have hsome : (lane.exec (Runner.init 15) droppedIdle).isSome = true := by decide +kernel
  obtain ⟨r, hrun⟩ := Option.isSome_iff_exists.1 hsome
  have hlisted : lane.Meets Runner.completesListed (Runner.init 15) droppedIdle := by
    decide +kernel
  have hgone : lane.observe (removed "7") (Runner.init 15) droppedIdle false = true := by
    decide +kernel
  refine ⟨r, hrun, unlisted_run hrun hgone, ?_⟩
  exact (removed_stays_away_iff hrun).2 hlisted droppedIdle [] r (by rw [List.append_nil]) hrun
    "7" hgone

/-- A run in which a check is taken away while its probe is in flight. -/
def droppedInFlight : List Event :=
  [.fetched (some oneCheck) (fun _ ↦ 0) 0 0, .wake 0 0, .begin 0 0, .wake 15 15,
    .fetched (some noCheck) (fun _ ↦ 15) 0 0, .answer 0 (.ok isUp)]

/-- The sample is in the buffer, and the next flush posts it, after the refresh that took the check
away. -/
theorem droppedInFlight_posted :
    lane.observe (removed "7") (Runner.init 15) (droppedInFlight ++ [.wake 40 40]) false = true ∧
    (∃ r ∈ lane.exec (Runner.init 15) droppedInFlight,
      r.bufferOf "7" = [sampleOf 0 isUp] ∧ ¬ r.Away "7") ∧
    ∃ r ∈ lane.exec (Runner.init 15) (droppedInFlight ++ [.wake 40 40]),
      r.posting.get? "7" = some [sampleOf 0 isUp] := by
  decide +kernel

end FastLane
