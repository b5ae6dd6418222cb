import DanbyteOutpost.Fast.Changes

/-!
# Outages and the end of the lane

Two more facts about the samples of a check. While the posts fail, what is kept of it stays within
the cap and what has arrived since the buffer was last taken (`held_bounded`). And when the lane has
been stopped and its last post has not failed, all that its probes saw has been delivered but what
was evicted or taken away before, and what completed after the last flush (`finished_delivered`).

`Backlog` counts the samples of a check that completed since the buffer was taken, and those of
the round before, so the bound of `held_bounded` does not mention how long the core has been away.

The lane ends where its loop looks at `stopping` and posts the buffer a last time. From there on
the buffer has what completed too late for that post, and nothing else (`Leaving`); an observer
collects it (`late`), so that the end of the lane is one equation about what was delivered and
what was not.
-/

namespace FastLane

/-- What was produced since the last two flushes. -/
def backlog (sid : String) (r : Runner) (e : Event) (b : Backlog) : Backlog :=
  b.apply (r.opOf sid e)

/-- The lane is past its last flush. -/
def Runner.left (r : Runner) : Bool :=
  match r.pc with
  | .closing _ | .finished => true
  | _ => false

/-- The samples that complete after the last flush. -/
def late (sid : String) (r : Runner) (e : Event) (samples : List Sample) : List Sample :=
  if r.left then samples ++ (r.completionOf sid e).toList else samples

/-- The post of the last flush fails. -/
def lastPostFails (r : Runner) (e : Event) : Bool :=
  match r.pc, e with
  | .closing _, .posted false => true
  | _, _ => false

namespace Runner

variable {r r' : Runner} {e : Event} {sid : String}

/-- The cap of a failed post is `_BUFFER_CAP`. -/
theorem opOf_eq_nack {cap : ℕ} (h : r.opOf sid e = .nack cap) : cap = bufferCap := by
  cases e with
  | posted ok =>
    cases ok with
    | true => cases h
    | false => exact (LedgerOp.nack.inj h).symm
  | wake | fetched =>
    rw [opOf] at h
    split at h <;> cases h
  | stop => cases h
  | begin | answer =>
    rw [opOf] at h
    split at h <;> cases h

/-- The buffer is taken while nothing is in flight. -/
theorem inFlightOf_of_take (hstep : r.step e = some r') (h : r.opOf sid e = .take) :
    r.inFlightOf sid = [] := by
  cases e with
  | wake tickAt nowM =>
    rw [step] at hstep
    split at hstep
    case h_2 => cases hstep
    case h_1 hpc =>
      rw [inFlightOf, posting, hpc]
      rfl
  | posted ok => cases ok <;> cases h
  | fetched =>
    rw [opOf] at h
    split at h <;> cases h
  | stop => cases h
  | begin | answer =>
    rw [opOf] at h
    split at h <;> cases h

end Runner

/-- **Outages.** In every run, however often the posts fail, a check has at most 600 samples in the
buffer besides those that completed since the buffer was last taken, and at most 600 in the post in
flight besides those that had completed between the two flushes before.

The bound does not depend on how long the outage lasts: a failed post cuts every list, and between
two flushes only completions add to one. -/
theorem held_bounded {flushSeconds : ℤ} {es : List Event} {r : Runner} (sid : String)
    (hrun : lane.exec (Runner.init flushSeconds) es = some r) :
    let b := lane.observe (backlog sid) (Runner.init flushSeconds) es ⟨0, 0⟩
    (r.bufferOf sid).length ≤ 600 + b.since ∧ (r.inFlightOf sid).length ≤ 600 + b.before := by
  refine lane.exec_invariant (P := fun _ _ ↦ True) (f := backlog sid)
    (I := fun r b ↦ (r.bufferOf sid).length ≤ 600 + b.since ∧
      (r.inFlightOf sid).length ≤ 600 + b.before)
    (fun r e r' b _ hI hstep ↦ ?_) (Machine.meets_true _ es) ⟨Nat.zero_le _, Nat.zero_le _⟩ hrun
  have hmove := Runner.step_move hstep sid
  have hle := LedgerOp.length_move_le (r.opOf sid e) (fun c hc ↦ Runner.opOf_eq_nack hc)
    (fun htake ↦ Runner.inFlightOf_of_take hstep htake) hI.1 hI.2
  rw [← hmove] at hle
  exact hle

/-- In the run with a failed post, the bound allows 601 samples. -/
theorem held_bounded_retried : ∃ r, lane.exec (Runner.init 15) retried = some r ∧
    (r.bufferOf "7").length ≤ 600 + 1 := by
  have hsome : (lane.exec (Runner.init 15) retried).isSome = true := by decide +kernel
  obtain ⟨r, hrun⟩ := Option.isSome_iff_exists.1 hsome
  exact ⟨r, hrun, (held_bounded "7" hrun).1.trans (by decide +kernel)⟩

/-! ### The end -/

namespace Runner

variable {r r' : Runner} {e : Event} {sid : String}

theorem afterFlush_left (nowM : Binary64) (r : Runner) : (r.afterFlush nowM).left = false := by
  obtain ⟨nextRefresh, -, h⟩ | h | h := afterFlush_cases nowM r <;> rw [h] <;> rfl

theorem wake_left (tickAt nowM : Binary64) (hstop : r.stopping = false) :
    (r.wake tickAt nowM).left = false := by
  obtain ⟨hstop', -⟩ | ⟨-, ⟨-, nextFlush, h⟩ | ⟨-, h⟩ | ⟨-, h⟩⟩ := wake_cases tickAt nowM r
  · rw [hstop] at hstop'
    cases hstop'
  · rw [h, flush]
    split
    · exact afterFlush_left _ _
    · rfl
  · rw [h, afterFlush_left]
  · rw [h]
    rfl

/-- Probes run on without the loop. -/
theorem pc_of_completion (hstep : r.step e = some r')
    (he : (∃ i at_, e = .begin i at_) ∨ ∃ i reply, e = .answer i reply) : r'.pc = r.pc := by
  rcases he with ⟨i, at_, rfl⟩ | ⟨i, reply, rfl⟩
  · obtain ⟨id, -, ⟨-, rfl⟩ | ⟨-, rfl⟩ | ⟨-, rfl⟩⟩ := begin_cases hstep <;> rfl
  · obtain ⟨id, check, at_, -, rfl⟩ := answer_cases hstep
    rfl

/-- The lane leaves its loop by a flush of the buffer. -/
theorem take_of_left (hstep : r.step e = some r') (h : r.left = false) (h' : r'.left = true) :
    r.opOf sid e = .take := by
  cases e with
  | wake tickAt nowM =>
    rw [step] at hstep
    split at hstep
    case h_2 => cases hstep
    case h_1 =>
      cases hstep
      rcases hstop : r.stopping with - | -
      · rw [wake_left tickAt nowM hstop] at h'
        cases h'
      · exact if_pos (.inl hstop)
  | begin i at_ =>
    rw [left, pc_of_completion hstep (.inl ⟨i, at_, rfl⟩), ← left, h] at h'
    cases h'
  | answer i reply =>
    rw [left, pc_of_completion hstep (.inr ⟨i, reply, rfl⟩), ← left, h] at h'
    cases h'
  | posted ok =>
    rw [step] at hstep
    split at hstep
    case h_1 =>
      cases hstep
      rw [afterFlush_left] at h'
      cases h'
    case h_2 hpc =>
      rw [left, hpc] at h
      cases h
    case h_3 => cases hstep
  | fetched =>
    obtain ⟨nextRefresh, nextFlush, rfl⟩ | rfl := fetched_cases hstep <;> cases h'
  | stop =>
    cases hstep
    exact absurd (h.symm.trans h') Bool.false_ne_true

/-- After the loop, a probe that completes appends its sample, and nothing else happens to the
buffer unless the last post fails. -/
theorem left_step (hstep : r.step e = some r') (hleft : r.left = true)
    (hpost : lastPostFails r e = false) :
    r'.left = true ∧ r'.bufferOf sid = r.bufferOf sid ++ (r.completionOf sid e).toList := by
  have hmove := (Prod.mk.inj (step_move hstep sid)).2
  cases e with
  -- the loop has been left, so it cannot wake or fetch
  | wake =>
    rw [step] at hstep
    split at hstep
    case h_1 hpc =>
      rw [left, hpc] at hleft
      cases hleft
    case h_2 => cases hstep
  | begin i at_ =>
    refine ⟨by rw [left, pc_of_completion hstep (.inl ⟨i, at_, rfl⟩)]; exact hleft, ?_⟩
    rw [hmove, opOf]
    rcases r.completionOf sid (.begin i at_) with - | sample
    · exact (List.append_nil _).symm
    · rfl
  | answer i reply =>
    refine ⟨by rw [left, pc_of_completion hstep (.inr ⟨i, reply, rfl⟩)]; exact hleft, ?_⟩
    rw [hmove, opOf]
    rcases r.completionOf sid (.answer i reply) with - | sample
    · exact (List.append_nil _).symm
    · rfl
  -- the last post, which has not failed, puts nothing back
  | posted ok =>
    have hbuffer : ok = true → r'.bufferOf sid = r.bufferOf sid ++ [] := by
      intro hok
      rw [hmove, hok, List.append_nil]
      rfl
    rw [step] at hstep
    split at hstep
    case h_1 hpc =>
      rw [left, hpc] at hleft
      cases hleft
    case h_2 results hpc =>
      have hok : ok = true := by
        cases ok
        · simp only [lastPostFails, hpc, Bool.true_eq_false] at hpost
        · rfl
      cases hstep
      exact ⟨rfl, hbuffer hok⟩
    case h_3 => cases hstep
  | fetched =>
    rw [step] at hstep
    split at hstep
    case h_1 hpc | h_2 hpc =>
      rw [left, hpc] at hleft
      cases hleft
    case h_3 => cases hstep
  | stop =>
    cases hstep
    exact ⟨hleft, (List.append_nil _).symm⟩

end Runner

/-- What is in the buffer once the loop is left is what completed since. -/
structure Leaving (sid : String) (r : Runner) (samples : List Sample) : Prop where
  /-- Before that there is nothing to count. -/
  running : r.left = false → samples = []
  /-- Behind it no flush takes anything, so what completes stays. -/
  left : r.left = true → r.bufferOf sid = samples

/-- The step lemma of the end: what completes once the last flush has taken the buffer is all that
the buffer has. -/
theorem leaving_step {sid : String} {r r' : Runner} {e : Event} {samples : List Sample}
    (hpost : lastPostFails r e = false) (h : Leaving sid r samples) (hstep : r.step e = some r') :
    Leaving sid r' (late sid r e samples) := by
  rcases hleft : r.left with - | -
  · have hnil := h.running hleft
    rw [late, if_neg (by rw [hleft]; exact Bool.false_ne_true), hnil]
    refine ⟨fun _ ↦ rfl, fun hleft' ↦ ?_⟩
    have hmove := (Prod.mk.inj (Runner.step_move hstep sid)).2
    rwa [Runner.take_of_left hstep hleft hleft'] at hmove
  · obtain ⟨hleft', hbuffer⟩ := Runner.left_step hstep hleft hpost
    rw [late, if_pos hleft]
    refine ⟨fun hrunning ↦ ?_, fun _ ↦ by rw [hbuffer, h.left hleft]⟩
    rw [hleft'] at hrunning
    cases hrunning

/-- **The end of the lane.** When the lane has finished and its last post did not fail, the samples
of a check that were delivered, and then those that completed after the last flush, are all that
its probes completed with, in order and each once, without those evicted by a failed post before or
taken away with the check. -/
theorem finished_delivered {flushSeconds : ℤ} {es : List Event} {r : Runner} {sid : String}
    (hrun : lane.exec (Runner.init flushSeconds) es = some r) (hfinished : r.pc = .finished)
    (hpost : lane.Meets (fun r e ↦ lastPostFails r e = false) (Runner.init flushSeconds) es) :
    let L := lane.observe (account sid) (Runner.init flushSeconds) es Ledger.empty
    L.produced = lane.observe (completed sid) (Runner.init flushSeconds) es [] ∧
    lane.observe (received sid) (Runner.init flushSeconds) es [] ++
        lane.observe (late sid) (Runner.init flushSeconds) es [] =
      (L.numbered.filter fun x ↦ decide (x.1 ∉ L.lost)).map Prod.snd := by
  intro L
  obtain ⟨hbal, hacc, -⟩ := balanced_run hrun sid
  have hleaving := lane.exec_invariant (f := late sid) (I := Leaving sid)
    (fun r e r' samples hp hI hstep ↦ leaving_step hp hI hstep) (h := []) hpost
    ⟨fun _ ↦ rfl, fun h ↦ by cases h⟩ hrun
  refine ⟨hbal.produced, ?_⟩
  have hflight : L.inFlight.map Prod.snd = [] := by
    rw [hbal.inFlight, Runner.inFlightOf, Runner.posting, hfinished]
    rfl
  have hbuffered := hleaving.left (by rw [Runner.left, hfinished])
  rw [← hacc, Ledger.held, List.map_append, List.map_append, hflight, List.append_nil,
    hbal.delivered, hbal.buffered, hbuffered]

/-- A run that is stopped while a second probe is running. -/
def stopped : List Event :=
  [.fetched (some oneCheck) (fun _ ↦ 0) 0 0,
    .wake 0 0, .begin 0 0, .answer 0 (.ok isUp), .wake 10 10, .begin 0 10000, .stop,
    .wake 11 11, .answer 0 (.error "timed out"), .posted true]

/-- A lane that is stopped with a sample in its buffer delivers it on the way out. -/
theorem finished_delivered_stopped : ∃ r, lane.exec (Runner.init 15) stopped = some r ∧
    lane.observe (received "7") (Runner.init 15) stopped [] ++
        lane.observe (late "7") (Runner.init 15) stopped [] =
      [{ t := 0, status := .up, latencyMs := none, error := none },
        { t := 10000, status := .unknown, latencyMs := none, error := some "timed out" }] := by
  have hfinished : (lane.exec (Runner.init 15) stopped).any
      (fun r ↦ match r.pc with | .finished => true | _ => false) = true := by
    decide +kernel
  obtain ⟨r, hrun, hr⟩ := Option.any_eq_true _ _ |>.1 hfinished
  have hpost : lane.Meets (fun r e ↦ lastPostFails r e = false) (Runner.init 15) stopped := by
    decide +kernel
  split at hr
  case h_1 hpc => exact ⟨r, hrun, (finished_delivered hrun hpc hpost).2.trans (by decide +kernel)⟩
  case h_2 => cases hr

end FastLane
