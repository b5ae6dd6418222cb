import DanbyteOutpost.Fast.Delivery
import DanbyteOutpost.Fast.Probes

/-!
# Changes that wait for the next flush

A check's samples change class where one of them differs in reachability from the one before. The
lane is to flush at once while it holds a sample that differs from what the core was told last
(`flush_now`). `InStep` is the invariant behind it: with `flush_now` unset, the samples of the
buffer are of the class of the sample before them. A failed post breaks it when its batch carried a
change (`InStep.failed_iff` says exactly when), and so does a probe whose entry does not know the
class of the check's last sample.

## What may leave a change behind

* `losesNoChange`: a post that fails puts its batch back. With `flush_now` unset since the batch
  was taken, nothing will hurry what it told of; so the batch must not have told of anything
  (`tidings`), unless a change came meanwhile.
* `knowsChange`: a probe compares with what its entry was told last. An entry that was made for a
  check listed again knows nothing.

Both are conditions on the state before the step. `change_flushed` is the law of a run whose steps
meet them, and says of the first that it is no more than is needed: behind a failed post the
property holds exactly if it was met.
-/

namespace FastLane

/-- Whether the check is reachable by the last of its samples. -/
def classOf (samples : List Sample) : Option Bool :=
  samples.getLast?.map fun sample ↦ sample.status.reachable

namespace Runner

/-- The loop waits for a post. -/
def flushing (r : Runner) : Bool :=
  match r.pc with
  | .flushing .. | .closing _ => true
  | _ => false

/-- The `last_class` of the entry whose probe the step runs. -/
def knownClass (r : Runner) : Event → Option Bool
  | .begin i _ | .answer i _ => r.tasks[i]?.bind fun p ↦ (r.heap p.entry).lastClass
  | _ => none

/-- A sample that a probe of `sid` completes with is no change, or `flush_now` is set, or the entry
knows the class that it changes. `posted` are the samples of `sid` delivered so far. -/
def knowsChange (sid : String) (r : Runner) (posted : List Sample) (e : Event) : Prop :=
  ∀ sample ∈ r.completionOf sid e, ∀ c ∈ classOf (posted ++ r.inFlightOf sid),
    sample.status.reachable = c ∨ r.flushNow = true ∨ r.knownClass e = some c

/-- What the batch in flight has to tell of `sid`: its samples, but for the oldest ones that have
made room for newer ones if its post fails. The last one counts in any case, for what arrived
meanwhile was no change to it. -/
def tidings (sid : String) (r : Runner) : List Sample :=
  let batch := r.inFlightOf sid
  batch.drop (min (batch.length + (r.bufferOf sid).length - bufferCap) (batch.length - 1))

/-- No post fails, with `flush_now` unset, whose batch tells of a change of `sid`: of a sample that
differs in reachability from the last one delivered. -/
def losesNoChange (sid : String) (r : Runner) (posted : List Sample) : Event → Prop
  | .posted false => r.flushNow = true ∨ ∀ c ∈ classOf posted,
      ∀ sample ∈ r.tidings sid, sample.status.reachable = c
  | _ => True

instance (sid : String) (r : Runner) (posted : List Sample) (e : Event) :
    Decidable (r.knowsChange sid posted e) :=
  inferInstanceAs (Decidable (∀ sample ∈ r.completionOf sid e, _))

instance (sid : String) (r : Runner) (posted : List Sample) (e : Event) :
    Decidable (r.losesNoChange sid posted e) :=
  match e with
  | .posted false => inferInstanceAs (Decidable (_ ∨ ∀ c ∈ classOf posted, _))
  | .posted true | .wake .. | .begin .. | .answer .. | .fetched .. | .stop =>
    inferInstanceAs (Decidable True)

/-- A flush is due if the buffer holds a sample of `sid` that differs in reachability from the last
one delivered. -/
def FlushesChange (sid : String) (r : Runner) (posted : List Sample) : Prop :=
  ∀ c ∈ classOf posted, ∀ sample ∈ r.bufferOf sid, sample.status.reachable ≠ c → r.flushNow = true

/-- With `flush_now` unset, the samples in the buffer are of the class of the sample before them. -/
def InStep (sid : String) (r : Runner) (posted : List Sample) : Prop :=
  r.flushNow = false → ∀ c ∈ classOf (posted ++ r.inFlightOf sid),
    ∀ sample ∈ r.bufferOf sid, sample.status.reachable = c

/-! ### `flush_now` -/

/-- The end of a post does not write `flush_now`, whether it failed or not. That is the defect:
`flush` has unset it beforehand. -/
theorem posted_flushNow {r r' : Runner} {ok : Bool} (h : r.step (.posted ok) = some r') :
    r'.flushNow = r.flushNow := by
  have hdone : ∀ results, (r.postDone results ok).flushNow = r.flushNow := by
    intro results
    cases ok <;> rfl
  rw [step] at h
  split at h
  · obtain rfl := Option.some.inj h
    rw [afterFlush_flushNow, hdone]
  · obtain rfl := Option.some.inj h
    exact hdone _
  · cases h

theorem refresh_flushNow (created : String → Binary64) (work : Work) (r : Runner) :
    (r.refresh created work).1.flushNow = r.flushNow := by
  rw [refresh]
  split
  · rfl
  dsimp only
  split
  · rfl
  split
  · rfl
  rename_i n _ _ m _ _ checks _
  have hgrow := (refreshChecks_spec created checks
    { r with refreshSeconds := n, flushSeconds := m } []).1
  have hflag := congrArg Runner.flushNow hgrow.frame
  rcases hout : refreshChecks created checks { r with refreshSeconds := n, flushSeconds := m } []
    with ⟨r', - | keep⟩ <;> rw [hout] at hflag
  · exact hflag
  · exact hflag

theorem fetched_flushNow {r r' : Runner} {work : Option Work} {created : String → Binary64}
    {nowRefresh nowFlush : Binary64}
    (h : r.step (.fetched work created nowRefresh nowFlush) = some r') :
    r'.flushNow = r.flushNow := by
  have hfetch : (r.afterFetch work created).flushNow = r.flushNow := by
    rcases work with - | work
    · rfl
    · exact refresh_flushNow created work r
  obtain ⟨nextRefresh, nextFlush, rfl⟩ | rfl := fetched_cases h
  · exact hfetch
  · exact hfetch

/-- A probe that completes sets `flush_now` when its entry knows another class. -/
theorem complete_flushNow {r r' : Runner} {tasks : List Probe} {id : ℕ} {check : FastCheck}
    {at_ : ℤ} {oc : CheckOutcome} (h : r' = { r with tasks := tasks }.complete id check at_ oc) :
    r'.flushNow = (r.flushNow || (r.heap id).lastClass == some (!oc.status.reachable)) := by
  rw [h]
  rfl

/-! ### The invariant -/

variable {sid : String} {posted : List Sample}

/-- A probe that completes keeps the invariant if its sample is no change, or the flag is set, or
its entry knows the class it changes and so sets the flag. -/
theorem InStep.complete {r r' : Runner} {tasks : List Probe} {id : ℕ} {check : FastCheck} {at_ : ℤ}
    {oc : CheckOutcome} (h : r.InStep sid posted)
    (hr' : r' = { r with tasks := tasks }.complete id check at_ oc)
    (hknows : check.stateId = sid → ∀ c ∈ classOf (posted ++ r.inFlightOf sid),
      oc.status.reachable = c ∨ r.flushNow = true ∨ (r.heap id).lastClass = some c) :
    r'.InStep sid posted := by
  intro hoff c hc sample hsample
  rw [complete_flushNow hr', Bool.or_eq_false_iff, beq_eq_false_iff_ne] at hoff
  have hflight : r'.inFlightOf sid = r.inFlightOf sid := by rw [hr']; rfl
  have hbuffer : r'.bufferOf sid =
      if check.stateId = sid then r.bufferOf sid ++ [sampleOf at_ oc] else r.bufferOf sid := by
    rw [hr', complete_bufferOf]
    rfl
  rw [hflight] at hc
  rw [hbuffer] at hsample
  split at hsample
  case isFalse => exact h hoff.1 c hc sample hsample
  case isTrue hsid =>
    rcases List.mem_append.1 hsample with hold | hnew
    · exact h hoff.1 c hc sample hold
    rw [List.mem_singleton.1 hnew]
    show oc.status.reachable = c
    rcases hknows hsid c hc with heq | hon | hlast
    · exact heq
    · exact absurd (hoff.1.symm.trans hon) Bool.false_ne_true
    · -- the entry knows the class `c`, so another one would have set the flag
      by_contra hne
      rw [hlast, Bool.eq_not_of_ne hne, Bool.not_not] at hoff
      exact hoff.2 rfl

/-- Nothing but a probe, a failed post and a flush bears on it. -/
theorem InStep.keep {r r' : Runner} (h : r.InStep sid posted) (hflag : r'.flushNow = r.flushNow)
    (hflight : r'.inFlightOf sid = r.inFlightOf sid)
    (hbuffer : r'.bufferOf sid ⊆ r.bufferOf sid) : r'.InStep sid posted := by
  intro hoff c hc sample hsample
  rw [hflight] at hc
  exact h (hflag.symm.trans hoff) c hc sample (hbuffer hsample)

/-- The class of samples is that of the last one, whatever is in front of it. -/
theorem classOf_append_concat (samples batch : List Sample) (last : Sample) :
    classOf (samples ++ (batch ++ [last])) = some last.status.reachable := by
  rw [classOf, ← List.append_assoc, List.getLast?_concat]
  rfl

/-- **What a failed post puts back is no change exactly if its batch told of none.** The samples of
the buffer are judged by the last of the batch, so they need no looking at. -/
theorem InStep.putBack_iff {r : Runner} (h : r.InStep sid posted) (hoff : r.flushNow = false)
    {c : Bool} (hc : c ∈ classOf posted) :
    let back := r.inFlightOf sid ++ r.bufferOf sid
    (∀ sample ∈ back.drop (back.length - bufferCap), sample.status.reachable = c) ↔
      ∀ sample ∈ r.tidings sid, sample.status.reachable = c := by
  intro back
  have hbuffer := h hoff
  have hlength : back.length = (r.inFlightOf sid).length + (r.bufferOf sid).length :=
    List.length_append
  rw [hlength]
  unfold tidings
  dsimp only
  show (∀ sample ∈ (r.inFlightOf sid ++ r.bufferOf sid).drop _, _) ↔ _
  generalize r.bufferOf sid = buffer at hbuffer ⊢
  -- with an empty batch, the buffer alone is put back
  rcases List.eq_nil_or_concat (r.inFlightOf sid) with hnil | ⟨batch, last, hbatch⟩
  · rw [hnil, List.append_nil] at hbuffer
    rw [hnil]
    exact iff_of_true (fun sample hmem ↦ hbuffer c hc sample (List.mem_of_mem_drop hmem))
      fun sample hmem ↦ absurd (List.mem_of_mem_drop hmem) List.not_mem_nil
  rw [List.concat_eq_append] at hbatch
  rw [hbatch, classOf_append_concat] at hbuffer
  rw [hbatch, List.length_append, List.length_singleton, Nat.add_sub_cancel, List.drop_append]
  constructor
  · intro hback sample hmem
    rcases le_or_gt (batch.length + 1 + buffer.length - bufferCap) batch.length with hle | hlt
    · rw [min_eq_left hle] at hmem
      exact hback sample (List.mem_append_left _ hmem)
    · -- all of the batch has gone, and the newest of the buffer is of the class of its last sample
      rw [min_eq_right hlt.le, List.drop_left, List.mem_singleton] at hmem
      subst hmem
      rcases List.eq_nil_or_concat buffer with rfl | ⟨older, newest, rfl⟩
      · rw [List.length_nil, bufferCap] at hlt
        omega
      · rw [List.concat_eq_append] at hback hbuffer
        have hnewest : newest.status.reachable = c := by
          refine hback newest (List.mem_append_right _ ?_)
          rw [List.drop_append_of_le_length]
          · exact List.mem_append_right _ (List.mem_singleton_self newest)
          · simp only [List.length_append, List.length_singleton, bufferCap]
            omega
        have hsame :=
          hbuffer _ rfl newest (List.mem_append_right _ (List.mem_singleton_self newest))
        rw [← hsame, hnewest]
  -- the last sample of the batch is of the class, and so are those that came after it
  · intro htidings sample hmem
    have hlast : last.status.reachable = c := by
      refine htidings last ?_
      rw [List.drop_append_of_le_length (min_le_right _ _)]
      exact List.mem_append_right _ (List.mem_singleton_self last)
    rcases List.mem_append.1 hmem with hmem | hmem
    · exact htidings sample (List.drop_subset_drop_left _ (min_le_left _ _) hmem)
    · exact hlast ▸ hbuffer _ rfl sample (List.mem_of_mem_drop hmem)

/-- Behind a failed post a change is flushed exactly if its batch told of none. -/
theorem InStep.failed_iff {r r' : Runner} (h : r.InStep sid posted)
    (hstep : r.step (.posted false) = some r') :
    r'.FlushesChange sid posted ↔ r.losesNoChange sid posted (.posted false) := by
  obtain ⟨-, hbuffer⟩ := Prod.mk.inj (step_move hstep sid)
  rw [FlushesChange, hbuffer, posted_flushNow hstep, losesNoChange]
  rcases hoff : r.flushNow with - | -
  · rw [or_iff_right Bool.false_ne_true]
    refine forall₂_congr fun c hc ↦ ?_
    refine Iff.trans ?_ (h.putBack_iff hoff hc)
    exact forall₂_congr fun sample _ ↦ by simp
  · exact iff_of_true (fun _ _ _ _ _ ↦ rfl) (.inl rfl)

/-- The step lemma. -/
theorem inStep_step {r r' : Runner} {e : Event} (hknows : r.knowsChange sid posted e)
    (hloses : r.losesNoChange sid posted e) (h : r.InStep sid posted)
    (hstep : r.step e = some r') : r'.InStep sid (received sid r e posted) := by
  have hmove := step_move hstep sid
  cases e with
  | wake tickAt nowM =>
    rw [opOf] at hmove
    split at hmove
    case isTrue hdue =>
      -- a flush takes the whole buffer
      obtain ⟨-, hbuffer⟩ := Prod.mk.inj hmove
      intro _ _ _ sample hsample
      rw [hbuffer] at hsample
      exact absurd hsample List.not_mem_nil
    case isFalse hdue =>
      obtain ⟨hflight, hbuffer⟩ := Prod.mk.inj hmove
      rw [step] at hstep
      split at hstep
      case h_2 => cases hstep
      case h_1 =>
        obtain rfl := Option.some.inj hstep
        exact h.keep (wake_of_not_flushDue tickAt hdue).2.2 hflight (hbuffer ▸ List.Subset.refl _)
  | begin i at_ =>
    obtain ⟨id, htask, ⟨-, rfl⟩ | ⟨-, rfl⟩ | ⟨hkind, hr'⟩⟩ := begin_cases hstep
    · exact h
    · exact h
    · refine h.complete hr' fun hsid c hc ↦ ?_
      have hsample : r.completionOf sid (.begin i at_) =
          some (sampleOf at_ (unavailable (r.heap id).check.kind)) := by
        simp only [completionOf, completion, htask, hkind, if_true, if_pos hsid]
      have hclass : r.knownClass (.begin i at_) = (r.heap id).lastClass := by
        rw [knownClass, htask, Option.bind_some]
      exact hclass ▸ hknows _ hsample c hc
  | answer i reply =>
    obtain ⟨id, check, at_, htask, hr'⟩ := answer_cases hstep
    refine h.complete hr' fun hsid c hc ↦ ?_
    have hsample : r.completionOf sid (.answer i reply) =
        some (sampleOf at_ (outcomeOf reply)) := by
      simp only [completionOf, completion, htask, if_pos hsid]
    have hclass : r.knownClass (.answer i reply) = (r.heap id).lastClass := by
      rw [knownClass, htask, Option.bind_some]
    exact hclass ▸ hknows _ hsample c hc
  | posted ok =>
    have hflag := posted_flushNow hstep
    intro hoff c hc sample hsample
    rw [hflag] at hoff
    cases ok with
    | true =>
      obtain ⟨hflight, hbuffer⟩ := Prod.mk.inj hmove
      rw [hflight, List.append_nil] at hc
      rw [hbuffer] at hsample
      exact h hoff c hc sample hsample
    | false =>
      -- the samples are back in the buffer, and `flush_now` was unset before the post
      obtain ⟨hflight, hbuffer⟩ := Prod.mk.inj hmove
      rw [hflight, List.append_nil] at hc
      rw [hbuffer] at hsample
      rcases hloses with hon | hall
      · exact absurd (hoff.symm.trans hon) Bool.false_ne_true
      · exact (h.putBack_iff hoff hc).2 (hall c hc) sample hsample
  | fetched work created nowRefresh nowFlush =>
    -- a refresh only takes samples away, those of checks no longer listed
    obtain ⟨href, hbefore, hafter⟩ := fetched_step hstep
    refine h.keep (fetched_flushNow hstep) ?_ ?_
    · rw [inFlightOf, inFlightOf, hbefore, hafter]
    · rw [bufferOf, href.buffer]
      split
      · exact List.nil_subset _
      · exact List.Subset.refl _
  | stop =>
    obtain rfl := Option.some.inj hstep
    exact h

/-- Between flushes nothing is in flight. -/
theorem inFlightOf_of_not_flushing {r : Runner} (h : r.flushing = false) (sid : String) :
    r.inFlightOf sid = [] := by
  have hposting : r.posting = Dict.empty := by
    rw [flushing] at h
    rw [posting]
    cases hpc : r.pc with
    | flushing | closing =>
      rw [hpc] at h
      cases h
    | _ => rfl
  rw [inFlightOf, hposting]
  rfl

end Runner

/-- A step that reports changes of `sid` at once: no failed post, and no probe, leaves one behind
with `flush_now` unset. -/
def reportsChange (sid : String) (r : Runner) (posted : List Sample) (e : Event) : Prop :=
  r.knowsChange sid posted e ∧ r.losesNoChange sid posted e

instance (sid : String) (r : Runner) (posted : List Sample) (e : Event) :
    Decidable (reportsChange sid r posted e) :=
  inferInstanceAs (Decidable (_ ∧ _))

/-- **Changes are flushed at once.** In every run whose steps leave no change behind, while no flush
is under way: if the buffer holds a sample of a check that differs in reachability from the last one
a post delivered, a flush is due. And the condition asks no more of a failed post than that: where a
post fails, this holds behind it exactly if the condition does.

Both halves of the condition are about what `last_class` and `flush_now` do not know: `flush` unsets
the flag before the post, and an entry that was made anew has no class to compare with. -/
theorem change_flushed {flushSeconds : ℤ} {es : List Event} {r : Runner} {sid : String}
    (hrun : lane.exec (Runner.init flushSeconds) es = some r)
    (hreports :
      lane.MeetsWith (received sid) (reportsChange sid) (Runner.init flushSeconds) es []) :
    let posted := lane.observe (received sid) (Runner.init flushSeconds) es []
    (r.flushing = false → r.FlushesChange sid posted) ∧
      ∀ r', r.step (.posted false) = some r' →
        (r'.FlushesChange sid posted ↔ r.losesNoChange sid posted (.posted false)) := by
  intro posted
  have hinv : r.InStep sid posted :=
    lane.exec_invariant_with (I := fun r posted ↦ r.InStep sid posted)
      (fun _ _ _ _ hp hI hstep ↦ Runner.inStep_step hp.1 hp.2 hI hstep) hreports
      (fun _ _ hc ↦ by cases hc) hrun
  refine ⟨fun hidle c hlast sample hmem hne ↦ ?_, fun r' hstep ↦ hinv.failed_iff hstep⟩
  by_contra hoff
  refine hne (hinv (Bool.eq_false_of_not_eq_true hoff) c ?_ sample hmem)
  rw [Runner.inFlightOf_of_not_flushing hidle, List.append_nil]
  exact hlast

/-- A check goes down, and the post that says so fails. -/
def wentDown (ok : Bool) : List Event :=
  [.fetched (some oneCheck) (fun _ ↦ 0) 0 0, .wake 0 0, .begin 0 0, .answer 0 (.ok isUp),
    .wake 15 15, .begin 0 15000, .posted true, .answer 0 (.error "timed out"),
    .fetched none (fun _ ↦ 0) 0 0, .wake 16 16, .posted ok]

/-- The sample that tells is back in the buffer, and `flush_now` is unset. -/
theorem wentDown_held : ∃ r ∈ lane.exec (Runner.init 15) (wentDown false),
    r.flushing = false ∧
      classOf (lane.observe (received "7") (Runner.init 15) (wentDown false) []) = some true ∧
      (∃ sample ∈ r.bufferOf "7", sample.status.reachable ≠ true) ∧ r.flushNow = false := by
  decide +kernel

/-- The change is flushed at once before the post, where the condition is met. -/
theorem change_flushed_wentDown : ∃ r ∈ lane.exec (Runner.init 15) ((wentDown true).take 9),
    r.flushNow = true := by
  have hsome : (lane.exec (Runner.init 15) ((wentDown true).take 9)).isSome = true := by
    decide +kernel
  obtain ⟨r, hrun⟩ := Option.isSome_iff_exists.1 hsome
  have hreports : lane.MeetsWith (received "7") (reportsChange "7") (Runner.init 15)
      ((wentDown true).take 9) [] := by
    decide +kernel
  have hlast : true ∈ classOf
      (lane.observe (received "7") (Runner.init 15) ((wentDown true).take 9) []) := by
    decide +kernel
  have hstate : ∀ r ∈ lane.exec (Runner.init 15) ((wentDown true).take 9), r.flushing = false ∧
      ∃ sample ∈ r.bufferOf "7", sample.status.reachable ≠ true := by
    decide +kernel
  obtain ⟨hidle, sample, hmem, hne⟩ := hstate r hrun
  exact ⟨r, hrun, (change_flushed hrun hreports).1 hidle true hlast sample hmem hne⟩

end FastLane
