import DanbyteOutpost.Fast.Steps

/-!
# Nothing a probe saw is lost on the way to the core

The books of one check are kept in a `Ledger` (`account`), by the operation each step is on the
check's samples. `Balanced` says what the books have to do with the run: they hold the samples its
probes completed with, those successful posts delivered, and those the lane still has. The law of
the ledger is then a law of the run: as long as no refresh takes the check away, only samples that
a failed flush evicted are missing.

## The books

The ledger of a check is not part of the lane: it is what an observer makes of the run, by one
operation for each step. `Balanced` relates it to the lane, and is kept since `step_move` says of
every step which operation it is. That no sample is delivered twice, that the order is kept, and
that nothing is lost but what is written down as lost is then the law of the ledger
(`Ledger.accounted_apply`).

`delivered_in_order` puts it together for a run in which the check stays listed; the samples that
were evicted are the oldest at the time.
-/

namespace FastLane

/-- The books of a check. -/
def account (sid : String) (r : Runner) (e : Event) (L : Ledger Sample) : Ledger Sample :=
  L.apply (r.opOf sid e)

/-- The samples the probes of a check completed with, in the order of completion. -/
def completed (sid : String) (r : Runner) (e : Event) (samples : List Sample) : List Sample :=
  samples ++ (r.completionOf sid e).toList

/-- The samples of a check that posts delivered. -/
def received (sid : String) (r : Runner) : Event → List Sample → List Sample
  | .posted true, samples => samples ++ r.inFlightOf sid
  | _, samples => samples

/-- The books `L` of a check agree with the lane and with what was seen of the run. -/
structure Balanced (sid : String) (r : Runner) (probed posted : List Sample)
    (L : Ledger Sample) : Prop where
  /-- What the books say was produced is what the probes completed with. -/
  produced : L.produced = probed
  /-- What they say was delivered is what the posts carried. -/
  delivered : L.delivered.map Prod.snd = posted
  /-- What they say is in flight is in the post under way. -/
  inFlight : L.inFlight.map Prod.snd = r.inFlightOf sid
  /-- And the rest is in the buffer, in the same order. -/
  buffered : L.buffered.map Prod.snd = r.bufferOf sid

theorem balanced_init (sid : String) (flushSeconds : ℤ) :
    Balanced sid (Runner.init flushSeconds) [] [] Ledger.empty :=
  ⟨rfl, rfl, rfl, rfl⟩

/-- The ledger is told of each sample that a probe of the check completes with. -/
theorem produced_account (sid : String) (r : Runner) (e : Event) (L : Ledger Sample) :
    (account sid r e L).produced = L.produced ++ (r.completionOf sid e).toList := by
  cases e with
  | wake | fetched =>
    rw [account, Runner.opOf]
    split <;> exact (List.append_nil _).symm
  | posted ok => cases ok <;> exact (List.append_nil _).symm
  | stop => exact (List.append_nil _).symm
  | begin | answer =>
    rw [account, Runner.opOf]
    rcases r.completionOf sid _ with - | sample
    · exact (List.append_nil _).symm
    · rfl

theorem delivered_account {sid : String} {r : Runner} {L : Ledger Sample}
    (hflight : L.inFlight.map Prod.snd = r.inFlightOf sid) (e : Event) :
    (account sid r e L).delivered.map Prod.snd = received sid r e (L.delivered.map Prod.snd) := by
  cases e with
  | wake | fetched =>
    rw [account, Runner.opOf]
    split <;> rfl
  | posted ok =>
    cases ok with
    | true => exact (List.map_append ..).trans (by rw [hflight]; rfl)
    | false => rfl
  | stop => rfl
  | begin | answer =>
    rw [account, Runner.opOf]
    rcases r.completionOf sid _ with - | sample <;> rfl

/-- The step lemma: each step of the lane is one operation of the ledger, and leaves the buffer and
the batch in flight equal to what the ledger holds. -/
theorem balanced_step {sid : String} {r r' : Runner} {e : Event} {probed posted : List Sample}
    {L : Ledger Sample} (h : Balanced sid r probed posted L) (hstep : r.step e = some r') :
    Balanced sid r' (completed sid r e probed) (received sid r e posted) (account sid r e L) := by
  have hmove := L.values_apply (r.opOf sid e)
  rw [h.inFlight, h.buffered, ← Runner.step_move hstep sid, Prod.mk.injEq] at hmove
  refine ⟨?_, ?_, hmove.1, hmove.2⟩
  · rw [produced_account, h.produced, completed]
  · rw [delivered_account h.inFlight, h.delivered]

/-- Only a failed post evicts. -/
theorem evicted_account {sid : String} {r : Runner} {e : Event} (he : ∀ ok, e ≠ .posted ok)
    (L : Ledger Sample) : (account sid r e L).evicted = L.evicted := by
  cases e with
  | wake | fetched =>
    rw [account, Runner.opOf]
    split <;> rfl
  | posted ok => exact absurd rfl (he ok)
  | stop => rfl
  | begin | answer =>
    rw [account, Runner.opOf]
    rcases r.completionOf sid _ with - | sample <;> rfl

/-- The books of any run are lawful, and agree with it. -/
theorem balanced_run {flushSeconds : ℤ} {es : List Event} {r : Runner}
    (hrun : lane.exec (Runner.init flushSeconds) es = some r) (sid : String) :
    let L := lane.observe (account sid) (Runner.init flushSeconds) es Ledger.empty
    Balanced sid r (lane.observe (completed sid) (Runner.init flushSeconds) es [])
      (lane.observe (received sid) (Runner.init flushSeconds) es []) L ∧
    L.Accounted ∧ L.LostProduced := by
  have h := lane.exec_invariant (P := fun _ _ ↦ True)
    (f := fun r e h ↦ (completed sid r e h.1, received sid r e h.2.1, account sid r e h.2.2))
    (I := fun r h ↦ Balanced sid r h.1 h.2.1 h.2.2 ∧ h.2.2.Accounted ∧ h.2.2.LostProduced)
    (fun r e r' h _ hI hstep ↦ ⟨balanced_step hI.1 hstep,
      Ledger.accounted_apply hI.2.1 hI.2.2 _, Ledger.lostProduced_apply hI.2.1 hI.2.2 _⟩)
    (h := ([], [], Ledger.empty)) (Machine.meets_true _ es)
    ⟨balanced_init sid flushSeconds, Ledger.accounted_empty, Ledger.lostProduced_empty⟩ hrun
  rw [Machine.observe_prod (completed sid)
    (fun r e h ↦ (received sid r e h.1, account sid r e h.2)), Machine.observe_prod] at h
  exact h

/-- Books are cleared by a refresh that takes the check away, and by nothing else. -/
theorem cleared_account {sid : String} {r : Runner} {e : Event} (hkept : r.drops e sid = false)
    (L : Ledger Sample) : (account sid r e L).cleared = L.cleared := by
  cases e with
  | wake =>
    rw [account, Runner.opOf]
    split <;> rfl
  | fetched => rw [account, Runner.opOf, hkept, if_neg Bool.false_ne_true]; rfl
  | posted ok => cases ok <;> rfl
  | stop => rfl
  | begin | answer =>
    rw [account, Runner.opOf]
    rcases r.completionOf sid _ with - | sample <;> rfl

/-- In a run that never drops the check, nothing is cleared from its ledger. -/
theorem cleared_run {flushSeconds : ℤ} {es : List Event} {r : Runner} {sid : String}
    (hrun : lane.exec (Runner.init flushSeconds) es = some r)
    (hkept : lane.Meets (fun r e ↦ r.drops e sid = false) (Runner.init flushSeconds) es) :
    (lane.observe (account sid) (Runner.init flushSeconds) es Ledger.empty).cleared = [] :=
  lane.exec_invariant (I := fun _ L ↦ L.cleared = [])
    (fun _ _ _ L hkept hL _ ↦ (cleared_account hkept L).trans hL) hkept rfl hrun

/-- **Delivery.** As long as no refresh takes a check away, what posts delivered of it, then what
is in the post in flight, then what is in the buffer, is what its probes completed with, in order
and each sample once, without the samples evicted. Only a failed post evicts, and what it evicts are
the oldest of the samples it puts back and of those that arrived meanwhile, over the newest 600.

This is the law of the retry buffer (`Ledger.accounted_apply`) at the lane's own steps:
`Balanced` carries the books of a check along the run. -/
theorem delivered_in_order {flushSeconds : ℤ} {es : List Event} {r : Runner} {sid : String}
    (hrun : lane.exec (Runner.init flushSeconds) es = some r)
    (hkept : lane.Meets (fun r e ↦ r.drops e sid = false) (Runner.init flushSeconds) es) :
    let L := lane.observe (account sid) (Runner.init flushSeconds) es Ledger.empty
    Balanced sid r (lane.observe (completed sid) (Runner.init flushSeconds) es [])
      (lane.observe (received sid) (Runner.init flushSeconds) es []) L ∧
    L.delivered ++ L.inFlight ++ L.buffered =
      L.numbered.filter (fun x ↦ decide (x.1 ∉ L.evicted.map Prod.fst)) ∧
    (∀ e r', (∀ ok, e ≠ .posted ok) → r.step e = some r' →
      (account sid r e L).evicted = L.evicted) ∧
    (∀ r', r.step (.posted true) = some r' →
      (account sid r (.posted true) L).evicted = L.evicted) ∧
    ∀ r', r.step (.posted false) = some r' →
      let q := r.inFlightOf sid ++ r.bufferOf sid
      r'.inFlightOf sid = [] ∧ r'.bufferOf sid = q.drop (q.length - 600) ∧
      ∃ gone, (account sid r (.posted false) L).evicted = L.evicted ++ gone ∧
        gone.map Prod.snd = q.take (q.length - 600) := by
  intro L
  obtain ⟨hbal, hacc, -⟩ := balanced_run hrun sid
  have hcleared := cleared_run hrun hkept
  refine ⟨hbal, ?_, fun e r' he _ ↦ evicted_account he L, fun r' _ ↦ rfl, fun r' hstep ↦ ?_⟩
  · have hlost : L.lost = L.evicted.map Prod.fst := by rw [Ledger.lost, hcleared, List.append_nil]
    rw [← hlost]
    exact hacc
  · have hmove := Runner.step_move hstep sid
    rw [Runner.opOf, if_neg Bool.false_ne_true, LedgerOp.move, Prod.mk.injEq] at hmove
    refine ⟨hmove.1, hmove.2, L.outstanding.take (L.excess bufferCap), rfl, ?_⟩
    have hout : L.outstanding.map Prod.snd = r.inFlightOf sid ++ r.bufferOf sid := by
      rw [Ledger.outstanding, List.map_append, hbal.inFlight, hbal.buffered]
    have hlen : L.outstanding.length = (r.inFlightOf sid ++ r.bufferOf sid).length := by
      rw [← hout, List.length_map]
    rw [List.map_take, hout, Ledger.excess, hlen]
    rfl

/-- A run whose first post fails while a second probe is answered. -/
def retried : List Event :=
  [.fetched (some oneCheck) (fun _ ↦ 0) 0 0,
    .wake 0 0, .begin 0 0, .answer 0 (.ok isUp),
    .wake 20 20, .begin 0 20000, .answer 0 (.error "timed out"), .posted false,
    .fetched none (fun _ ↦ 0) 0 0, .wake 40 40, .posted true]

/-- A batch that failed once is delivered with the sample that came meanwhile, in order. -/
theorem delivered_in_order_retried : ∃ r, lane.exec (Runner.init 15) retried = some r ∧
    (lane.observe (account "7") (Runner.init 15) retried Ledger.empty).delivered.map Prod.snd =
      [{ t := 0, status := .up, latencyMs := none, error := none },
        { t := 20000, status := .unknown, latencyMs := none, error := some "timed out" }] := by
  have hsome : (lane.exec (Runner.init 15) retried).isSome = true := by decide +kernel
  obtain ⟨r, hrun⟩ := Option.isSome_iff_exists.1 hsome
  have hkept : lane.Meets (fun r e ↦ r.drops e "7" = false) (Runner.init 15) retried := by
    decide +kernel
  exact ⟨r, hrun, (delivered_in_order hrun hkept).1.delivered.trans (by decide +kernel)⟩

end FastLane
