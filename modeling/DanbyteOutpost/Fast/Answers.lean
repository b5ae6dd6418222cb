import DanbyteOutpost.Checks.RunCheck
import DanbyteOutpost.Fast.Probes

/-!
# A sample for each probe

A probe that has started ends in one sample, the one `run_check` would report, and frees its entry.
The exception is a kind that cannot be looked up: its task ends at once without a sample, and its
entry is running ever after.

## Two halves

Of a batch, a result for each check is a matter of whether the lookups of all kinds return
(`Checks.runBatch_reports_iff`). Of the lane it is a statement about every step of a run: a probe
that begins is looked up, and one that ends leaves its sample and a free entry (`Serves`). Both
fail for the same kinds, so `every_check_answered` has them side by side.

* `agrees_outcomeOf`: the lane's outcome of an attempt and that of a batch are the same.
* `complete_finishes`: what the end of a probe leaves behind.
* `arrayKind_unanswered`: a kind that is a list, in either of them.
-/

namespace FastLane

open Checks (Hashable Check Attempt hashable_iff)

namespace Runner

/-- The task ends with one sample of its check, and its entry is free again. -/
structure Finishes (r r' : Runner) (i id : ℕ) (check : FastCheck) (sample : Sample) : Prop where
  /-- The task is gone, and no other. -/
  tasks : r'.tasks = r.tasks.eraseIdx i
  /-- The entry can be probed again. -/
  running : (r'.heap id).running = false
  /-- Its check has one sample more, at the end; the others have what they had. -/
  buffer : ∀ sid, r'.bufferOf sid =
    if check.stateId = sid then r.bufferOf sid ++ [sample] else r.bufferOf sid

/-- The status and the latency of a sample are those of any result `run_check` gives a check of the
kind whose guarded part ends in `reply`. -/
def Agrees (kind : Json) (reply : Except String CheckOutcome) (sample : Sample) : Prop :=
  ∀ (intError : Json → String) (check : Check) (run : Attempt) (result : Checks.Result),
    check.kind = kind → (check.guarded intError run).map (·.toCheckOutcome) = reply →
      Checks.runCheck intError check run = .ok result →
        sample.status = result.status ∧ sample.latencyMs = result.latencyMs

/-- What a step does for the probes: each that goes on waits for its checker or ends, and the others
stay. -/
def serves (r : Runner) (e : Event) (r' : Runner) : Prop :=
  match e with
  | .begin i at_ => ∃ id, r.tasks[i]? = some ⟨id, .created⟩ ∧
      ((getChecker (r.heap id).check.kind = some true ∧
          r' = { r with tasks := r.tasks.set i ⟨id, .awaiting (r.heap id).check at_⟩ }) ∨
        ∃ sample : Sample, getChecker (r.heap id).check.kind = some false ∧
          sample.status = .unknown ∧ (∀ reply, Agrees (r.heap id).check.kind reply sample) ∧
            Finishes r r' i id (r.heap id).check sample)
  | .answer i reply => ∃ id check at_ sample, r.tasks[i]? = some ⟨id, .awaiting check at_⟩ ∧
      Agrees check.kind reply sample ∧ Finishes r r' i id check sample
  | _ => r.tasks <+: r'.tasks

/-- The check of a probe that begins can be looked up. -/
def looksUp (r : Runner) : Event → Prop
  | .begin i _ => ∀ p ∈ r.tasks[i]?, Hashable (r.heap p.entry).check.kind
  | _ => True

instance (r : Runner) (e : Event) : Decidable (r.looksUp e) :=
  match e with
  | .begin i _ => inferInstanceAs (Decidable (∀ p ∈ r.tasks[i]?, _))
  | .wake .. | .answer .. | .posted .. | .fetched .. | .stop => inferInstanceAs (Decidable True)

/-! ### The two lanes agree -/

/-- A kind without a checker is answered alike: `unknown` in both. -/
theorem agrees_unavailable {kind : Json} (hkind : getChecker kind = some false) (at_ : ℤ)
    (reply : Except String CheckOutcome) : Agrees kind reply (sampleOf at_ (unavailable kind)) := by
  rintro intError check run result rfl - hresult
  rw [Checks.runCheck, hkind] at hresult
  cases hresult
  exact ⟨rfl, rfl⟩

/-- And so is what a checker returns or raises, since both guard the same call and turn what it
raises into the same `unknown`. -/
theorem agrees_outcomeOf {kind : Json} (hkind : getChecker kind = some true) (at_ : ℤ)
    (reply : Except String CheckOutcome) : Agrees kind reply (sampleOf at_ (outcomeOf reply)) := by
  rintro intError check run result rfl rfl hresult
  rw [Checks.runCheck, hkind] at hresult
  cases hresult
  rcases check.guarded intError run with e | oc
  · exact ⟨rfl, rfl⟩
  · exact ⟨rfl, rfl⟩

/-! ### Steps -/

/-- The probes that wait for a checker are of kinds that have one. -/
def HasCheckers (r : Runner) : Prop :=
  ∀ p ∈ r.tasks, ∀ check at_, p.phase = .awaiting check at_ → getChecker check.kind = some true

theorem HasCheckers.of_tasks {r r' : Runner} (h : r.HasCheckers) (htasks : r'.tasks = r.tasks) :
    r'.HasCheckers := by
  intro p hp
  rw [htasks] at hp
  exact h p hp

/-- `tick` puts new tasks behind those there are. -/
theorem tick_tasks (now : Binary64) (r : Runner) : r.tasks <+: (r.tick now).tasks := by
  refine tick_invariant (I := fun r' ↦ r.tasks <+: r'.tasks) now ?_ (List.prefix_refl _)
  intro r' _ _ _ _ h
  exact h.trans (List.prefix_append _ _)

theorem mem_tick_tasks {now : Binary64} {r : Runner} {p : Probe} (h : p ∈ (r.tick now).tasks) :
    p ∈ r.tasks ∨ p.phase = .created := by
  refine tick_invariant (I := fun r' ↦ ∀ p ∈ r'.tasks, p ∈ r.tasks ∨ p.phase = .created) now ?_
    (fun p hp ↦ .inl hp) p h
  intro r' _ id _ _ h p hp
  rcases List.mem_append.1 hp with hp | hp
  · exact h p hp
  · exact .inr (List.mem_singleton.1 hp ▸ rfl)

/-- A task comes from an earlier one, or has just been created, or waits for the checker that was
found for it. -/
theorem step_hasCheckers {r r' : Runner} {e : Event} (h : r.HasCheckers)
    (hstep : r.step e = some r') : r'.HasCheckers := by
  cases e with
  | wake tickAt nowM =>
    rcases wake_step hstep with hsame | hsame
    · exact h.of_tasks hsame.tasks
    · intro p hp check at_ hphase
      rw [hsame.tasks] at hp
      rcases mem_tick_tasks hp with hp | hcreated
      · exact h p hp check at_ hphase
      · rw [hcreated] at hphase
        cases hphase
  | begin i at_ =>
    obtain ⟨id, htask, ⟨-, rfl⟩ | ⟨hkind, rfl⟩ | ⟨-, rfl⟩⟩ := begin_cases hstep
    · exact fun p hp ↦ h p (List.mem_of_mem_eraseIdx hp)
    · intro p hp check at_' hphase
      rcases List.mem_or_eq_of_mem_set hp with hp | rfl
      · exact h p hp check at_' hphase
      · cases hphase
        exact hkind
    · exact fun p hp ↦ h p (List.mem_of_mem_eraseIdx hp)
  | answer i reply =>
    obtain ⟨id, check, at_, htask, rfl⟩ := answer_cases hstep
    exact fun p hp ↦ h p (List.mem_of_mem_eraseIdx hp)
  | posted ok => exact h.of_tasks (posted_sameTasks hstep).tasks
  | fetched work created nowRefresh nowFlush => exact h.of_tasks (fetched_step hstep).1.tasks
  | stop =>
    obtain rfl := Option.some.inj hstep
    exact h

/-- The end of a probe leaves one sample, behind those that its check has, and one task less. -/
theorem complete_finishes {r r' : Runner} {i id : ℕ} {check : FastCheck} {at_ : ℤ}
    {oc : CheckOutcome}
    (h : r' = { r with tasks := r.tasks.eraseIdx i }.complete id check at_ oc) :
    Finishes r r' i id check (sampleOf at_ oc) := by
  subst h
  refine ⟨rfl, ?_, fun sid ↦ complete_bufferOf id check at_ oc _ sid⟩
  show ((Runner.setEntry id _ _).heap id).running = false
  rw [setEntry_heap_self]

/-- A step serves the probes exactly when it looks no kind up that cannot be. -/
theorem serves_iff {r r' : Runner} {e : Event} (h : r.HasCheckers) (hstep : r.step e = some r') :
    r.serves e r' ↔ r.looksUp e := by
  have hkept : r'.tasks = r.tasks → r.tasks <+: r'.tasks :=
    fun htasks ↦ ⟨[], (List.append_nil _).trans htasks.symm⟩
  cases e with
  | wake tickAt nowM =>
    refine iff_of_true ?_ trivial
    show r.tasks <+: r'.tasks
    rcases wake_step hstep with hsame | hsame
    · exact hkept hsame.tasks
    · rw [hsame.tasks]
      exact tick_tasks tickAt r
  -- the beginning of a probe is where its kind is looked up
  | begin i at_ =>
    obtain ⟨id, htask, hcases⟩ := begin_cases hstep
    have hlooks : r.looksUp (.begin i at_) ↔ getChecker (r.heap id).check.kind ≠ none := by
      show (∀ p ∈ r.tasks[i]?, _) ↔ _
      rw [htask, ← hashable_iff]
      simp
    rw [hlooks]
    constructor
    · rintro ⟨id', htask', hserved⟩ hnone
      obtain rfl : id' = id := congrArg Probe.entry (Option.some.inj (htask'.symm.trans htask))
      rcases hserved with ⟨hkind, -⟩ | ⟨_, hkind, -⟩
      · exact Option.some_ne_none _ (hkind.symm.trans hnone)
      · exact Option.some_ne_none _ (hkind.symm.trans hnone)
    · intro hsome
      rcases hcases with ⟨hkind, -⟩ | ⟨hkind, rfl⟩ | ⟨hkind, hr'⟩
      · exact absurd hkind hsome
      · exact ⟨id, htask, .inl ⟨hkind, rfl⟩⟩
      · exact ⟨id, htask, .inr ⟨_, hkind, rfl, agrees_unavailable hkind at_,
          complete_finishes hr'⟩⟩
  -- its end finds the checker that was found then
  | answer i reply =>
    refine iff_of_true ?_ trivial
    obtain ⟨id, check, at_, htask, hr'⟩ := answer_cases hstep
    have hkind := h _ (List.mem_of_getElem? htask) check at_ rfl
    exact ⟨id, check, at_, _, htask, agrees_outcomeOf hkind at_ reply, complete_finishes hr'⟩
  | posted ok =>
    refine iff_of_true ?_ trivial
    show r.tasks <+: r'.tasks
    exact hkept (posted_sameTasks hstep).tasks
  | fetched work created nowRefresh nowFlush =>
    refine iff_of_true ?_ trivial
    show r.tasks <+: r'.tasks
    exact hkept (fetched_step hstep).1.tasks
  | stop =>
    obtain rfl := Option.some.inj hstep
    exact iff_of_true (List.prefix_refl _) trivial

end Runner

open Runner (serves looksUp)

/-- Every step of the run serves the probes. -/
def Serves (flushSeconds : ℤ) (es : List Event) : Prop :=
  lane.Meets (fun r e ↦ ∀ r' ∈ r.step e, r.serves e r') (Runner.init flushSeconds) es

/-- A batch has a result for each check exactly when each kind can be looked up; and a run of the
fast lane has a sample for each probe, which frees its entry, exactly when the kind of each probe
that begins can be.

The one kind that is not looked up is an array or an object: a `dict` raises on it, outside of every
`try`. In a batch `gather` loses the other results with it; on the lane the entry stays marked as
running. -/
theorem every_check_answered (intError : Json → String) (checks : List (Check × Attempt))
    {flushSeconds : ℤ} {es : List Event} {r : Runner}
    (hrun : lane.exec (Runner.init flushSeconds) es = some r) :
    ((∃ results, Checks.runBatch intError checks = .ok results ∧
        List.Forall₂ (fun c result ↦ Checks.Reports intError c.1 c.2 result) checks results) ↔
      ∀ c ∈ checks, Hashable c.1.kind) ∧
    (Serves flushSeconds es ↔ lane.Meets looksUp (Runner.init flushSeconds) es) := by
  refine ⟨Checks.runBatch_reports_iff checks, ?_⟩
  rw [Serves, Machine.meets_iff hrun, Machine.meets_iff hrun]
  refine forall₅_congr fun es₁ e es₂ u hes ↦ forall_congr' fun hu ↦ ?_
  have hcheckers : u.HasCheckers :=
    lane.exec_invariant' (fun _ _ _ _ h hstep ↦ Runner.step_hasCheckers h hstep)
      (Machine.meets_true _ es₁) (fun _ hp ↦ absurd hp List.not_mem_nil) hu
  -- the step is one of the run's, so it can be taken
  obtain ⟨u', hstep⟩ : ∃ u', u.step e = some u' := by
    rw [hes, Machine.exec_append] at hrun
    obtain ⟨v, hv, hrest⟩ := hrun
    obtain rfl := Option.some.inj (hv.symm.trans hu)
    obtain ⟨u', hstep, -⟩ := Machine.exec_cons.1 hrest
    exact ⟨u', hstep⟩
  rw [← Runner.serves_iff hcheckers hstep, hstep]
  simp

/-- A payload of one check. -/
def kindWork (kind : Json) : Work :=
  { oneCheck with checks := some [some { stateId := "7", intervalMs := .null, kind := kind }] }

/-- The probe of a check that is listed once; `answered` says whether its checker answers. -/
def probedOnce (kind : Json) (answered : Bool) : List Event :=
  [.fetched (some (kindWork kind)) (fun _ ↦ 0) 0 0, .wake 0 0, .begin 0 0] ++
    if answered then [.answer 0 (.ok isUp)] else []

/-- A check in a batch, of a kind that is or is not a text. -/
def batchCheck (kind : Json) : Check := ⟨.str "7", kind, .str "192.0.2.7", .null, .null, .null⟩

/-- Every attempt is up. -/
def isUpAttempt : Attempt := fun _ _ _ _ ↦ .ok ⟨isUp, []⟩

/-- A kind that is an array costs the result of another check, and leaves its own running without a
probe. -/
theorem arrayKind_unanswered :
    ¬ (∃ results, Checks.runBatch (fun _ ↦ "") [(batchCheck (.str "tcp"), isUpAttempt),
      (batchCheck (.arr [.str "tcp"]), isUpAttempt)] = .ok results) ∧
    ∃ r ∈ lane.exec (Runner.init 15) (probedOnce (.arr [.str "tcp"]) false),
      r.tasks.isEmpty = true ∧ r.bufferOf "7" = [] ∧
        ∃ id ∈ r.entries.get? "7", (r.heap id).running = true := by
  constructor
  · rintro ⟨results, h⟩
    cases h
  · decide +kernel

/-- Two checks, of a kind there is and of one there is not, are answered on both lanes. -/
theorem every_check_answered_tcp :
    (∃ results, Checks.runBatch (fun _ ↦ "") [(batchCheck (.str "tcp"), isUpAttempt),
        (batchCheck (.str "exec"), isUpAttempt)] = .ok results ∧
      List.Forall₂ (fun c result ↦ Checks.Reports (fun _ ↦ "") c.1 c.2 result)
        [(batchCheck (.str "tcp"), isUpAttempt), (batchCheck (.str "exec"), isUpAttempt)]
        results) ∧
    Serves 15 (probedOnce (.str "tcp") true) ∧ Serves 15 (probedOnce (.str "exec") false) := by
  have hsome (kind : Json) (answered : Bool)
      (h : (lane.exec (Runner.init 15) (probedOnce kind answered)).isSome = true) :
      ∃ r, lane.exec (Runner.init 15) (probedOnce kind answered) = some r :=
    Option.isSome_iff_exists.1 h
  obtain ⟨r, hrun⟩ := hsome (.str "tcp") true (by decide +kernel)
  obtain ⟨r', hrun'⟩ := hsome (.str "exec") false (by decide +kernel)
  have htcp := every_check_answered (fun _ ↦ "") [(batchCheck (.str "tcp"), isUpAttempt),
    (batchCheck (.str "exec"), isUpAttempt)] hrun
  have hexec := every_check_answered (fun _ ↦ "") [] hrun'
  exact ⟨htcp.1.2 (by decide), htcp.2.2 (by decide +kernel), hexec.2.2 (by decide +kernel)⟩

end FastLane
