import DanbyteOutpost.Data.Streak
import DanbyteOutpost.Snmp.ContextLists
import DanbyteOutpost.Snmp.DefaultRead

/-!
# Contexts that fail in a row

When the contexts of VLANs are given up. How each context ended can be read off the lists of VLANs,
and in which order off the results, so what `_read_contexts` has seen so far is a list of ends
(`ReadState.ends`); its `streak` is the streak of that list, and it aborts when enough failures
stand in a row there (`Counted.step`). From then on nobody passes the gate (`GivenUp.step`).

## The two halves

* Up to the abort, `Counted` is the invariant of the crew of contexts: each VLAN is in one place,
  the tasks that wait have not passed their gate, two at most are under way, and what the read
  counts is what its lists say (`Kept`). The end of one context keeps that (`Kept.settle`), since
  a row of failures forms with the first streak that is long enough (`inARow_concat`).
* From the abort on, `GivenUp` says that a gate that opens is found closed: whatever is still
  asked is asked by a context that was in flight.

`contexts_abort` puts them together for every pool the contexts can come to. Its third part is the
converse of being given up: with nothing cut and nothing late, every VLAN is read or failed.
-/

namespace Snmp

open Coop

/-- How the context of a VLAN ended, by the list the VLAN is on. -/
def VlanLists.endOf (lists : VlanLists) (vid : ℤ) : ContextEnd :=
  if vid ∈ lists.read then .ok else if vid ∈ lists.failed then .failed else .cut

/-- How the contexts ended that were read, in the order in which they did. -/
def ReadState.ends (s : ReadState) : List ContextEnd :=
  s.contexts.results.keys.map s.report.vlans.endOf

/-- Enough contexts failed with no success between them. -/
def FailedInARow (ends : List ContextEnd) : Prop :=
  InARow (fun e ↦ decide (e = .ok)) (fun e ↦ decide (e = .failed)) macContextAbortAfter ends

/-- The failures since the last success. -/
def failedSince (ends : List ContextEnd) : ℕ :=
  streak (fun e ↦ decide (e = .ok)) (fun e ↦ decide (e = .failed)) ends

/-- A context that was read ends the streak. -/
theorem failedSince_ok (ends : List ContextEnd) : failedSince (ends ++ [.ok]) = 0 :=
  streak_concat_of_clears rfl

/-- One that was cut off neither ends it nor adds to it. -/
theorem failedSince_cut (ends : List ContextEnd) :
    failedSince (ends ++ [.cut]) = failedSince ends := by
  rw [failedSince, streak_concat (by rfl)]
  rfl

theorem failedSince_failed (ends : List ContextEnd) :
    failedSince (ends ++ [.failed]) = failedSince ends + 1 := by
  rw [failedSince, streak_concat (by rfl)]
  rfl

/-! ### One context more -/

section Settle

variable {vid : ℤ} {ok : Bool} {rows : List Row} {failure : String} {s : ReadState}

/-- A context that ends gets a place behind those that have ended. -/
theorem settle_keys (hkeys : vid ∉ s.contexts.results.keys) :
    (MacRead.settle vid ok rows failure s).contexts.results.keys =
      s.contexts.results.keys ++ [vid] := by
  rw [results_settle]
  exact Assoc.keys_set_of_not_mem hkeys

theorem mem_keys_settle {vid' : ℤ}
    (h : vid' ∈ (MacRead.settle vid ok rows failure s).contexts.results.keys) :
    vid' = vid ∨ vid' ∈ s.contexts.results.keys := by
  rw [results_settle] at h
  exact Dict.mem_keys_set.1 h

/-- Its VLAN has the end it came to, and the others have theirs. -/
theorem settle_endOf (hfresh : vid ∉ s.report.vlans.all) (vid' : ℤ) :
    (MacRead.settle vid ok rows failure s).report.vlans.endOf vid' =
      if vid' = vid then endFor ok failure else s.report.vlans.endOf vid' := by
  rw [VlanLists.mem_all, not_or, not_or] at hfresh
  obtain ⟨hread, hfailed, -⟩ := hfresh
  rw [MacRead.settle, endFor]
  rcases eq_or_ne vid' vid with rfl | hne
  · rw [if_pos rfl]
    split
    · exact if_pos (List.mem_append_right _ (List.mem_singleton_self _))
    · split
      · exact (if_neg hread).trans (if_neg hfailed)
      · exact (if_neg hread).trans
          (if_pos (List.mem_append_right _ (List.mem_singleton_self _)))
  · have hmem : ∀ {l : List ℤ}, vid' ∈ l ++ [vid] ↔ vid' ∈ l := by
      intro l
      rw [List.mem_append, List.mem_singleton, or_iff_left hne]
    rw [if_neg hne]
    split
    · show (if vid' ∈ s.report.vlans.read ++ [vid] then _ else _) = _
      simp only [hmem]
      rfl
    · split
      · rfl
      · show (if vid' ∈ s.report.vlans.read then _ else
          if vid' ∈ s.report.vlans.failed ++ [vid] then _ else _) = _
        simp only [hmem]
        rfl

/-- A context that is settled is the latest to end. -/
theorem settle_ends (hfresh : vid ∉ s.report.vlans.all) (hkeys : vid ∉ s.contexts.results.keys) :
    (MacRead.settle vid ok rows failure s).ends = s.ends ++ [endFor ok failure] := by
  rw [ReadState.ends, settle_keys hkeys, List.map_append, ReadState.ends]
  refine congrArg₂ (· ++ ·) (List.map_congr_left fun vid' hvid' ↦ ?_) ?_
  · rw [settle_endOf hfresh, if_neg fun heq : vid' = vid ↦ hkeys (heq ▸ hvid')]
  · rw [List.map_singleton, settle_endOf hfresh, if_pos rfl]

/-- The streak goes on as that of the ends does, and a long one is what aborts. -/
structure Kept (s : ReadState) : Prop where
  /-- It is as long as there were failures since the last context that did not fail. -/
  streak : s.contexts.streak.length = failedSince s.ends
  /-- The contexts are given up if and only if enough of them failed in a row. -/
  aborted : s.contexts.aborted ≠ [] ↔ FailedInARow s.ends

/-- The end of a context keeps what the contexts count and what the lists say in step. -/
theorem Kept.settle (h : Kept s) (hfresh : vid ∉ s.report.vlans.all)
    (hkeys : vid ∉ s.contexts.results.keys) : Kept (MacRead.settle vid ok rows failure s) := by
  have hends := @settle_ends vid ok rows failure s hfresh hkeys
  have hrow : FailedInARow (s.ends ++ [endFor ok failure]) ↔
      FailedInARow s.ends ∨ macContextAbortAfter ≤ failedSince (s.ends ++ [endFor ok failure]) :=
    inARow_concat
  have hlong : macContextAbortAfter ≤ failedSince s.ends → FailedInARow s.ends := inARow_of_streak
  rw [← hends] at hrow
  refine ⟨?_, Iff.trans ?_ hrow.symm⟩ <;> rw [hends]
  · -- the streak
    rw [MacRead.settle, endFor]
    split
    · rw [failedSince_ok]
      rfl
    · split
      · rw [failedSince_cut, ← h.streak]
        rfl
      · rw [failedSince_failed, ← h.streak]
        exact List.length_append
  · -- the abort
    rw [aborted_settle]
    rcases hend : endFor ok failure with - | - | -
    · rw [failedSince_ok, or_iff_left (by decide), if_neg (by decide)]
      exact h.aborted
    · have hone : failedSince (s.ends ++ [.failed]) = (s.contexts.streak ++ [vid]).length := by
        rw [List.length_append, h.streak, failedSince_failed, List.length_singleton]
      rw [hone, ← h.aborted, if_pos rfl]
      split
      case isTrue hyes =>
        exact iff_of_true (List.append_ne_nil_of_left_ne_nil hyes _) (.inl hyes)
      case isFalse hno =>
        rw [or_iff_right hno]
        split
        case isTrue hmany =>
          exact iff_of_true (List.append_ne_nil_of_right_ne_nil _ (List.cons_ne_nil _ _)) hmany
        case isFalse hfew => exact iff_of_false (fun hne ↦ hne rfl) hfew
    · rw [failedSince_cut, or_iff_left_of_imp hlong, if_neg (by decide)]
      exact h.aborted

end Settle

/-- The end of a read is told by the results and the lists. -/
theorem Kept.of_eq {s s' : ReadState} (h : Kept s) (hcontexts : s'.contexts = s.contexts)
    (hread : s'.report.vlans.read = s.report.vlans.read)
    (hfailed : s'.report.vlans.failed = s.report.vlans.failed) : Kept s' := by
  have hends : s'.ends = s.ends := by
    show s'.contexts.results.keys.map (fun vid ↦ if vid ∈ s'.report.vlans.read then ContextEnd.ok
      else if vid ∈ s'.report.vlans.failed then .failed else .cut) = _
    rw [hcontexts, hread, hfailed]
    rfl
  exact ⟨by rw [hcontexts, hends]; exact h.streak, by rw [hcontexts, hends]; exact h.aborted⟩

/-! ### The crew -/

/-- The tasks behind the gate. -/
def behindGate (flight : Multiset ContextStage) : Multiset ContextStage :=
  flight.filter fun l ↦ l.passed = true

/-- A task that has passed its gate is behind it. -/
theorem behindGate_cons_of_passed {l : ContextStage} (h : l.passed = true)
    (flight : Multiset ContextStage) : behindGate (l ::ₘ flight) = l ::ₘ behindGate flight :=
  Multiset.filter_cons_of_pos _ h

theorem behindGate_cons_of_gate {l : ContextStage} (h : l.passed = false)
    (flight : Multiset ContextStage) : behindGate (l ::ₘ flight) = behindGate flight :=
  Multiset.filter_cons_of_neg _ (Bool.not_eq_true _ ▸ h)

/-- While a task stands at its gate, those behind theirs are fewer than the pool admits. -/
theorem card_behindGate_lt {l : ContextStage} {flight : Multiset ContextStage} {cap : ℕ}
    (h : (l ::ₘ flight).card ≤ cap) : (behindGate flight).card < cap := by
  have hle : (behindGate flight).card ≤ flight.card :=
    Multiset.card_le_card (Multiset.filter_le _ flight)
  rw [Multiset.card_cons] at h
  omega

/-- What holds of the contexts all along. -/
structure Counted (crew : ContextCrew) : Prop where
  /-- No VLAN has two tasks. -/
  nodup : crew.vids.Nodup
  /-- A task that is not started has its gate before it. -/
  waiting : ∀ l ∈ crew.queue, l.passed = false
  /-- The semaphore. -/
  room : crew.flight.card ≤ macContextConcurrency
  /-- Once aborted, a task less is behind the gate. -/
  last : crew.world.st.contexts.aborted ≠ [] →
    (behindGate crew.flight).card < macContextConcurrency
  /-- What was kept of a context is of one that was entered in a list. -/
  results : ∀ vid ∈ crew.world.st.contexts.results.keys, vid ∈ crew.world.st.report.vlans.all
  /-- And what was entered was kept, unless the context was cut. -/
  listed : ∀ vid, crew.world.st.report.vlans.endOf vid ≠ .cut →
    vid ∈ crew.world.st.contexts.results.keys
  /-- The streak is counted right. -/
  kept : Kept crew.world.st

variable {rd : MacRead} {fuel : ℕ} {allowed : Allowed (net Outcome)} {crew crew' : ContextCrew}

/-- The VLAN of a task under way is on no list. -/
theorem not_mem_all_of_nodup {queue : List ContextStage} {flight : Multiset ContextStage}
    {l : ContextStage} {w : World (net Outcome) ReadState}
    (h : ContextCrew.vids ⟨queue, l ::ₘ flight, w⟩ |>.Nodup) : l.vid ∉ w.st.report.vlans.all := by
  refine Multiset.disjoint_left.1 (Multiset.nodup_add.1 h).2.2 (Multiset.mem_add.2 (.inr ?_))
  exact Multiset.mem_map_of_mem _ (Multiset.mem_cons_self _ _)

namespace Counted

variable {queue : List ContextStage} {flight : Multiset ContextStage} {l l' : ContextStage}
  {w w' : World (net Outcome) ReadState}

/-- A task is started: it is in front of the gate. -/
theorem start (h : Counted ⟨l :: queue, flight, w⟩) (hcard : flight.card < macContextConcurrency)
    (hnodup : ContextCrew.vids ⟨queue, l ::ₘ flight, w⟩ |>.Nodup) :
    Counted ⟨queue, l ::ₘ flight, w⟩ := by
  have hgate : l.passed = false := h.waiting l List.mem_cons_self
  refine ⟨hnodup, fun l' hl' ↦ h.waiting l' (List.mem_cons_of_mem _ hl'), ?_, fun haborted ↦ ?_,
    h.results, h.listed, h.kept⟩
  · rw [Multiset.card_cons]
    exact hcard
  · show (behindGate (l ::ₘ flight)).card < _
    rw [behindGate_cons_of_gate hgate]
    exact h.last haborted

/-- A task goes on. -/
theorem go (h : Counted ⟨queue, l ::ₘ flight, w⟩)
    (hstep : MacRead.ContextStep rd fuel allowed ⟨l, w⟩ ⟨l', w'⟩)
    (hnodup : ContextCrew.vids ⟨queue, l' ::ₘ flight, w'⟩ |>.Nodup) :
    Counted ⟨queue, l' ::ₘ flight, w'⟩ := by
  have hframe := hstep.frame
  have hcontexts : w'.st.contexts = w.st.contexts := hframe.contexts
  have hvlans : w'.st.report.vlans = w.st.report.vlans := hframe.vlans
  have hpassed : l'.passed = true := hframe.passed
  refine ⟨hnodup, h.waiting, ?_, fun haborted ↦ ?_, ?_, ?_,
    h.kept.of_eq hcontexts (congrArg _ hvlans) (congrArg _ hvlans)⟩
  · have hroom := h.room
    rw [Multiset.card_cons] at hroom ⊢
    exact hroom
  · -- a task that has passed the gate did so before
    have haborted' : w.st.contexts.aborted ≠ [] := hcontexts ▸ haborted
    have hl : l.passed = true := hstep.passed_of_closed (.inl haborted')
    have hlast : (behindGate (l ::ₘ flight)).card < _ := h.last haborted'
    show (behindGate (l' ::ₘ flight)).card < _
    rw [behindGate_cons_of_passed hl, Multiset.card_cons] at hlast
    rw [behindGate_cons_of_passed hpassed, Multiset.card_cons]
    exact hlast
  · show ∀ vid ∈ w'.st.contexts.results.keys, vid ∈ w'.st.report.vlans.all
    rw [hcontexts, hvlans]
    exact h.results
  · show ∀ vid, w'.st.report.vlans.endOf vid ≠ .cut → vid ∈ w'.st.contexts.results.keys
    rw [hcontexts, hvlans]
    exact h.listed

/-- A task ends, with its VLAN on a list. -/
theorem stop (h : Counted ⟨queue, l ::ₘ flight, w⟩)
    (hstop : MacRead.ContextStop allowed ⟨l, w⟩ w')
    (hnodup : ContextCrew.vids ⟨queue, flight, w'⟩ |>.Nodup) : Counted ⟨queue, flight, w'⟩ := by
  have hroom : flight.card ≤ macContextConcurrency := by
    have hroom := h.room
    rw [Multiset.card_cons] at hroom
    omega
  have hall : w'.st.report.vlans.all = l.vid ::ₘ w.st.report.vlans.all := hstop.all
  -- the VLAN is on no list yet, so how it ends is the latest end
  have hfresh : l.vid ∉ w.st.report.vlans.all := not_mem_all_of_nodup h.nodup
  have hkeys : l.vid ∉ w.st.contexts.results.keys := fun hmem ↦ hfresh (h.results _ hmem)
  refine ⟨hnodup, h.waiting, hroom, fun _ ↦ card_behindGate_lt h.room, ?_, ?_, ?_⟩
  · show ∀ vid ∈ w'.st.contexts.results.keys, vid ∈ w'.st.report.vlans.all
    intro vid hvid
    rw [hall, Multiset.mem_cons]
    cases hstop with
    | stopped | late => exact .inr (h.results vid hvid)
    | settled => exact (mem_keys_settle hvid).imp id (h.results vid)
  · cases hstop with
    | stopped | late => exact h.listed
    | settled vid' ok rows failure w =>
      intro vid hvid
      have hkeys' : vid' ∉ w.st.contexts.results.keys := hkeys
      have hfresh' : vid' ∉ w.st.report.vlans.all := hfresh
      show vid ∈ (MacRead.settle vid' ok rows failure w.st).contexts.results.keys
      change (MacRead.settle vid' ok rows failure w.st).report.vlans.endOf vid ≠ .cut at hvid
      rw [settle_endOf hfresh'] at hvid
      rw [settle_keys hkeys', List.mem_append, List.mem_singleton]
      split at hvid
      case isTrue heq => exact .inr heq
      case isFalse => exact .inl (h.listed vid hvid)
  · cases hstop with
    | stopped | late => exact h.kept.of_eq rfl rfl rfl
    | settled => exact h.kept.settle hfresh hkeys

/-- The step lemma. -/
theorem step (h : Counted crew)
    (hstep : Crew.Step (rd.contextCourse fuel allowed) macContextConcurrency crew crew') :
    Counted crew' := by
  have hnodup : crew'.vids.Nodup := by
    rw [vids_eq_of_step hstep]
    exact h.nodup
  cases hstep with
  | start hcard => exact h.start hcard hnodup
  | step hstep => exact h.go hstep hnodup
  | stop hstop => exact h.stop hstop hnodup

end Counted

/-! ### From the abort on -/

/-- What comes behind an abort: with `inFlight` behind the gate there, no other VLAN's context is
begun. -/
structure GivenUp (rd : MacRead) (inFlight keys : List ℤ) (log : Log (net Outcome))
    (crew : ContextCrew) : Prop where
  /-- They stay given up. -/
  aborted : crew.world.st.contexts.aborted ≠ []
  /-- A task that is not started has its gate before it, and will not pass it. -/
  waiting : ∀ l ∈ crew.queue, l.passed = false
  /-- Those behind the gate were there before. -/
  flight : ∀ l ∈ crew.flight, l.passed = true → l.vid ∈ inFlight
  /-- No other context brings anything. -/
  results : ∀ vid ∈ crew.world.st.contexts.results.keys, vid ∈ keys ∨ vid ∈ inFlight
  /-- And no other one asks anything. -/
  log : ∃ new, crew.world.log = new ++ log ∧ ∀ e ∈ new, ∃ vid ∈ inFlight, rd.Continues vid e

/-- The step lemma from the abort on: a gate that opens is found closed, so only the contexts in
flight come to their ends. -/
theorem GivenUp.step {inFlight keys : List ℤ} {log : Log (net Outcome)}
    (h : GivenUp rd inFlight keys log crew)
    (hstep : Crew.Step (rd.contextCourse fuel allowed) macContextConcurrency crew crew') :
    GivenUp rd inFlight keys log crew' := by
  cases hstep with
  | @start l queue flight w hcard =>
    refine ⟨h.aborted, fun l' hl' ↦ h.waiting l' (List.mem_cons_of_mem _ hl'), ?_, h.results, h.log⟩
    intro l' hl' hpassed
    rcases Multiset.mem_cons.1 hl' with rfl | hl'
    · exact absurd ((h.waiting l' List.mem_cons_self).symm.trans hpassed) Bool.false_ne_true
    · exact h.flight l' hl' hpassed
  | @step l l' queue flight w w' hstep =>
    have hframe := MacRead.ContextStep.frame hstep
    have hcontexts : w'.st.contexts = w.st.contexts := hframe.contexts
    have hl : l.passed = true := MacRead.ContextStep.passed_of_closed hstep (.inl h.aborted)
    have hmem : l.vid ∈ inFlight := h.flight l (Multiset.mem_cons_self _ _) hl
    refine ⟨?_, h.waiting, ?_, ?_, ?_⟩
    · show w'.st.contexts.aborted ≠ []
      rw [hcontexts]
      exact h.aborted
    · intro l₁ hl₁ hpassed
      rcases Multiset.mem_cons.1 hl₁ with rfl | hl₁
      · have hvid : l₁.vid = l.vid := hframe.vid
        rwa [hvid]
      · exact h.flight l₁ (Multiset.mem_cons_of_mem hl₁) hpassed
    · show ∀ vid ∈ w'.st.contexts.results.keys, _
      rw [hcontexts]
      exact h.results
    · -- what the step says is said of a context that was behind the gate at the abort
      obtain ⟨new, hnew, hall⟩ := h.log
      have hnew' : w.log = new ++ log := hnew
      rcases MacRead.ContextStep.continues hstep hl with hsame | ⟨e, he, hcontinues⟩
      · exact ⟨new, hsame.trans hnew', hall⟩
      · refine ⟨e :: new, he.trans (congrArg (e :: ·) hnew'), fun e' he' ↦ ?_⟩
        rcases List.mem_cons.1 he' with rfl | he'
        · exact ⟨l.vid, hmem, hcontinues⟩
        · exact hall e' he'
  | @stop l queue flight w w' hstop =>
    have hflight : ∀ l' ∈ flight, l'.passed = true → l'.vid ∈ inFlight :=
      fun l' hl' ↦ h.flight l' (Multiset.mem_cons_of_mem hl')
    cases hstop with
    | stopped => exact ⟨h.aborted, h.waiting, hflight, h.results, h.log⟩
    | late vid w haborted =>
      -- nobody looks at the clock at a gate that is closed
      exact absurd haborted h.aborted
    | settled vid ok rows failure w =>
      refine ⟨aborted_settle_ne_nil h.aborted, h.waiting, hflight, fun vid' hvid' ↦ ?_, h.log⟩
      rcases mem_keys_settle hvid' with rfl | hold
      · exact .inr (h.flight _ (Multiset.mem_cons_self _ _) rfl)
      · exact h.results vid' hold

/-! ### The contexts -/

/-- Before any context is read. -/
theorem counted_start {vlans : List ℤ} {s : ReadState} {log : Log (net Outcome)}
    (h : ContextsBegin vlans s) : Counted ⟨vlans.map .gate, 0, ⟨s, log⟩⟩ where
  nodup := by
    have hvids : ContextCrew.vids ⟨vlans.map .gate, 0, ⟨s, log⟩⟩ =
        ↑(vlans ++ s.report.vlans.skipped) := by
      show (↑((vlans.map .gate).map ContextStage.vid) : Multiset ℤ) +
        Multiset.map ContextStage.vid 0 + s.report.vlans.all = _
      rw [List.map_map, VlanLists.all, h.read, h.failed, Multiset.map_zero, add_zero,
        ← Multiset.coe_add,
        Multiset.coe_nil, zero_add, zero_add]
      exact congrArg (· + _) (congrArg _ (List.map_id vlans))
    rw [hvids]
    exact Multiset.coe_nodup.2 h.nodup
  waiting := by
    intro l hl
    obtain ⟨vid, -, rfl⟩ := List.mem_map.1 hl
    rfl
  room := Nat.zero_le _
  last := fun haborted ↦ absurd (congrArg ContextReads.aborted h.contexts) haborted
  results := by
    show ∀ vid ∈ s.contexts.results.keys, _
    rw [h.contexts]
    exact fun vid hvid ↦ absurd hvid List.not_mem_nil
  listed := by
    intro vid hvid
    change s.report.vlans.endOf vid ≠ .cut at hvid
    rw [VlanLists.endOf, h.read, h.failed] at hvid
    exact absurd rfl hvid
  kept := by
    have hends : s.ends = [] := by
      rw [ReadState.ends, h.contexts]
      rfl
    refine ⟨?_, ?_⟩
    · rw [hends, h.contexts]
      rfl
    · rw [hends, h.contexts]
      exact iff_of_false (fun hne ↦ hne rfl) (not_inARow_nil (by decide))

/-- Behind the abort of a pool, with the contexts of `inFlight` under way: what is done is done for
them, of the others none is begun, and those that were not read are skipped. -/
structure MacRead.OnlyFinishes (rd : MacRead) (sur : Surroundings) (vlans : List ℤ)
    (pool : Pool (net Outcome) ReadState) (inFlight : List ℤ) : Prop where
  /-- They are fewer than may be under way: the task that gave up is none of them. -/
  few : inFlight.length ≤ macContextConcurrency - 1
  /-- Each of them waits for an answer in its own context, or in the default one. -/
  parked : List.Forall₂
    (fun p vid ↦ p.query.access = rd.access ∨ p.query.access = rd.contextAuth vid)
    pool.parked inFlight
  /-- The contexts stay given up. -/
  aborted : ∀ pool', pool.Reaches sur.env macContextConcurrency pool' →
    pool'.st.contexts.aborted ≠ []
  /-- All that is asked is asked for them. -/
  log : ∀ pool', pool.Reaches sur.env macContextConcurrency pool' →
    ∃ new, pool'.log = new ++ pool.log ∧ ∀ e ∈ new, ∃ vid ∈ inFlight, rd.Continues vid e
  /-- All that is kept is kept of them. -/
  results : ∀ pool', pool.Reaches sur.env macContextConcurrency pool' →
    ∀ vid ∈ pool'.st.contexts.results.keys,
      vid ∈ pool.st.contexts.results.keys ∨ vid ∈ inFlight
  /-- In the end the others are listed as skipped, and nowhere else. -/
  skipped : ∀ pool', pool.Reaches sur.env macContextConcurrency pool' → pool'.finished = true →
    ∀ vid ∈ vlans, vid ∉ pool.st.contexts.results.keys → vid ∉ inFlight →
      vid ∈ pool'.st.report.vlans.skipped ∧ vid ∉ pool'.st.report.vlans.read ∧
        vid ∉ pool'.st.report.vlans.failed

section Pools

variable {sur : Surroundings} {vlans : List ℤ} {s : ReadState} {log : Log (net Outcome)}
  {pool : Pool (net Outcome) ReadState}

/-- The run lemma: the pool moves as a crew of which all of the above holds. -/
theorem counted_of_reach (hbegin : ContextsBegin vlans s)
    (hpool : rd.ContextsReach sur fuel vlans s log pool) :
    ∃ crew, Crew.Reaches (rd.contextCourse fuel sur.env.allowed) macContextConcurrency
        ⟨vlans.map .gate, 0, ⟨s, log⟩⟩ crew ∧
      pool.Follows (rd.contextCourse fuel sur.env.allowed) crew ∧ Counted crew := by
  obtain ⟨crew, hreaches, hfollows⟩ := Pool.follows_of_reaches sur.env.suits_allowed
    (Pool.follows_start (MacRead.ones_take vlans) s log) hpool
  exact ⟨crew, hreaches, hfollows,
    hreaches.keeps (P := Counted) (fun _ _ h hstep ↦ h.step hstep) (counted_start hbegin)⟩

/-- A crew of which all have ended. -/
theorem vids_of_finished (hfollows : pool.Follows (rd.contextCourse fuel sur.env.allowed) crew)
    (hdone : pool.finished = true) : crew.vids = pool.st.report.vlans.all := by
  rw [Pool.finished, Bool.and_eq_true, List.isEmpty_iff, List.isEmpty_iff] at hdone
  obtain ⟨hqueue, ⟨ls, hls, hparked⟩, hworld⟩ := hfollows
  rw [hdone.1] at hqueue
  rw [hdone.2] at hparked
  obtain rfl := List.forall₂_nil_left_iff.1 hparked
  rw [ContextCrew.vids, List.forall₂_nil_left_iff.1 hqueue, ← hls, hworld]
  exact zero_add _

theorem mem_vids_start (s : ReadState) (log : Log (net Outcome)) {vid : ℤ} (h : vid ∈ vlans) :
    vid ∈ ContextCrew.vids ⟨vlans.map .gate, 0, ⟨s, log⟩⟩ := by
  refine Multiset.mem_add.2 (.inl (Multiset.mem_add.2 (.inl ?_)))
  rw [Multiset.mem_coe, List.map_map]
  exact List.mem_map.2 ⟨vid, h, rfl⟩

/-- A VLAN was not cut off if it is on one of the other two lists. -/
theorem VlanLists.endOf_ne_cut {lists : VlanLists} {vid : ℤ} :
    lists.endOf vid ≠ .cut ↔ vid ∈ lists.read ∨ vid ∈ lists.failed := by
  rw [VlanLists.endOf]
  split
  case isTrue hread => exact iff_of_true nofun (.inl hread)
  case isFalse hread =>
    rw [or_iff_right hread]
    split
    case isTrue hfailed => exact iff_of_true nofun hfailed
    case isFalse hfailed => exact iff_of_false (fun hne ↦ hne rfl) hfailed

/-- Once the contexts have been given up, those that wait are finished and no other is begun. -/
theorem onlyFinishes_of_aborted (hbegin : ContextsBegin vlans s)
    (hpool : rd.ContextsReach sur fuel vlans s log pool)
    (haborted : pool.st.contexts.aborted ≠ []) :
    ∃ inFlight, rd.OnlyFinishes sur vlans pool inFlight := by
  obtain ⟨crew, hreaches, hfollows, hcounted⟩ := counted_of_reach hbegin hpool
  have hconserved := vids_eq_of_reaches hreaches
  obtain ⟨queue, flight, world⟩ := crew
  obtain ⟨hqueue, ⟨ls, hls, hparked⟩, hworld⟩ := id hfollows
  obtain rfl : world = ⟨pool.st, pool.log⟩ := hworld
  obtain rfl : ↑ls = flight := hls
  have hpassed : ∀ l ∈ ls, l.passed = true := by
    intro l hl
    obtain ⟨p, -, hat⟩ := exists_of_mem_forall₂ hparked hl
    exact (MacRead.passed_of_asks hat.asks).1
  have hgiven : GivenUp rd (ls.map ContextStage.vid) pool.st.contexts.results.keys pool.log
      ⟨queue, ls, ⟨pool.st, pool.log⟩⟩ :=
    ⟨haborted, hcounted.waiting, fun l hl _ ↦ List.mem_map_of_mem hl, fun vid hvid ↦ .inl hvid,
      [], rfl, nofun⟩
  -- what the pool comes to, the crew does
  have hlater : ∀ pool', pool.Reaches sur.env macContextConcurrency pool' → ∃ crew',
      pool'.Follows (rd.contextCourse fuel sur.env.allowed) crew' ∧ Counted crew' ∧
        ContextCrew.vids crew' = ContextCrew.vids ⟨vlans.map .gate, 0, ⟨s, log⟩⟩ ∧
          GivenUp rd (ls.map ContextStage.vid) pool.st.contexts.results.keys pool.log crew' := by
    intro pool' hpool'
    obtain ⟨crew', hreaches', hfollows'⟩ :=
      Pool.follows_of_reaches sur.env.suits_allowed hfollows hpool'
    exact ⟨crew', hfollows', hreaches'.keeps (P := Counted)
      (fun _ _ h hstep ↦ h.step hstep) hcounted,
      (vids_eq_of_reaches hreaches').trans hconserved,
      hreaches'.keeps (fun _ _ h hstep ↦ h.step hstep) hgiven⟩
  refine ⟨ls.map ContextStage.vid, ?_, ?_, fun pool' hpool' ↦ ?_, fun pool' hpool' ↦ ?_,
    fun pool' hpool' ↦ ?_, fun pool' hpool' hdone vid hvid hkeys hflight ↦ ?_⟩
  · -- the context whose failure was one too many has ended, so one less is under way
    have hcard : (behindGate ↑ls).card < macContextConcurrency := hcounted.last haborted
    rw [behindGate, Multiset.filter_eq_self.2 hpassed, Multiset.coe_card] at hcard
    rw [List.length_map]
    omega
  · rw [List.forall₂_map_right_iff]
    exact hparked.imp fun p l hat ↦ (MacRead.passed_of_asks hat.asks).2
  · obtain ⟨crew', hfollows', -, -, hgiven'⟩ := hlater pool' hpool'
    have haborted' := hgiven'.aborted
    rwa [hfollows'.world] at haborted'
  · obtain ⟨crew', hfollows', -, -, hgiven'⟩ := hlater pool' hpool'
    have hlog := hgiven'.log
    rwa [hfollows'.world] at hlog
  · obtain ⟨crew', hfollows', -, -, hgiven'⟩ := hlater pool' hpool'
    have hresults := hgiven'.results
    rwa [hfollows'.world] at hresults
  · -- a VLAN that did not end when the contexts were given up, nor was under way, is skipped
    obtain ⟨crew', hfollows', hcounted', hvids, hgiven'⟩ := hlater pool' hpool'
    have hmem := mem_vids_start s log hvid
    rw [← hvids, vids_of_finished hfollows' hdone, VlanLists.mem_all, ← or_assoc,
      ← VlanLists.endOf_ne_cut] at hmem
    have hlisted := hcounted'.listed vid
    have hresults := hgiven'.results vid
    rw [hfollows'.world] at hlisted hresults
    have hcut : ¬ pool'.st.report.vlans.endOf vid ≠ .cut :=
      fun hread ↦ (hresults (hlisted hread)).elim hkeys hflight
    rw [VlanLists.endOf_ne_cut, not_or] at hcut
    exact ⟨hmem.resolve_left (VlanLists.endOf_ne_cut.not.2 (not_or.2 hcut)), hcut⟩

/-- A clock that does not reach the deadline is never late at a gate. -/
theorem inTime_step {deadline : ℚ} {lates : ℕ}
    (hintime : ∀ log check, ¬ allowed.reading log ⟨check, deadline⟩ true) {crew' : ContextCrew}
    (hstep : Crew.Step (rd.contextCourse fuel allowed) macContextConcurrency crew crew')
    (h : crew.world.st.budget.deadline = deadline ∧ lateGates crew.world.log = lates) :
    crew'.world.st.budget.deadline = deadline ∧ lateGates crew'.world.log = lates := by
  cases hstep with
  | start => exact h
  | step hstep =>
    have hframe := MacRead.ContextStep.frame hstep
    exact ⟨hframe.deadline.trans h.1, hframe.lateGates.trans h.2⟩
  | @stop l queue flight w w' hstop =>
    cases hstop with
    | stopped => exact h
    | late vid w haborted huncut hlate =>
      have hdeadline : w.st.budget.deadline = deadline := h.1
      rw [hdeadline] at hlate
      exact absurd hlate (hintime _ _)
    | settled => exact ⟨(congrArg _ budget_settle).trans h.1, h.2⟩

/-- With the deadline not reached, nothing cut and no abort, no VLAN is skipped. -/
theorem none_skipped (hbegin : ContextsBegin vlans s)
    (hpool : rd.ContextsReach sur fuel vlans s log pool) (hdone : pool.finished = true)
    (hintime : ∀ log, sur.clock log < s.budget.deadline)
    (huncut : pool.st.budget.truncated = false) (haborted : pool.st.contexts.aborted = []) :
    pool.st.report.vlans.skipped = s.report.vlans.skipped ∧
      ∀ vid ∈ vlans, vid ∈ pool.st.report.vlans.read ∨ vid ∈ pool.st.report.vlans.failed := by
  obtain ⟨crew, hreaches, hfollows, hcounted⟩ := counted_of_reach hbegin hpool
  have hnever : ∀ log check, ¬ sur.env.allowed.reading log ⟨check, s.budget.deadline⟩ true := by
    intro log check hlate
    have hintime' : sur.env.reading log ⟨check, s.budget.deadline⟩ = false :=
      Surroundings.reading_of_clock (hintime log)
    exact Bool.false_ne_true (hintime'.symm.trans hlate.symm)
  have hskips : Skips s.report.vlans.skipped (lateGates log) crew ∧
      crew.world.st.budget.deadline = s.budget.deadline ∧
        lateGates crew.world.log = lateGates log := by
    refine hreaches.keeps (P := fun c ↦ Skips s.report.vlans.skipped (lateGates log) c ∧
      c.world.st.budget.deadline = s.budget.deadline ∧ lateGates c.world.log = lateGates log)
      (fun c c' h hstep ↦ ⟨h.1.step hstep, inTime_step hnever hstep h.2⟩)
      ⟨skips_start vlans s log, rfl, rfl⟩
  obtain ⟨hskips, -, hlates⟩ := hskips
  have hcounted' := hskips.counted
  rw [hlates, hfollows.world] at hcounted'
  have hkept := hskips.kept
  rw [hfollows.world] at hkept
  have hsame : pool.st.report.vlans.skipped = s.report.vlans.skipped :=
    (hkept.eq_of_length (by have := hcounted' huncut haborted; omega)).symm
  refine ⟨hsame, fun vid hvid ↦ ?_⟩
  have hmem := mem_vids_start s log hvid
  rw [← vids_eq_of_reaches hreaches, vids_of_finished hfollows hdone, VlanLists.mem_all,
    ← or_assoc, hsame] at hmem
  exact hmem.resolve_right fun hin ↦ List.disjoint_of_nodup_append hbegin.nodup hvid hin

end Pools

/-- The contexts of VLANs are given up when so many fail in a row; from then on only those under way
are finished, and none is begun. If none are given up, nothing is cut and the deadline is not
reached, every VLAN is read or failed.

The semaphore lets two contexts go on at once, so that when the last of three failures in a row
is entered one other context at most is behind its gate. -/
theorem contexts_abort (rd : MacRead) (sur : Surroundings) (fuel : ℕ) {vlans : List ℤ}
    {s : ReadState} {log : Log (net Outcome)} (hbegin : ContextsBegin vlans s)
    {pool : Pool (net Outcome) ReadState} (hpool : rd.ContextsReach sur fuel vlans s log pool) :
    (pool.st.contexts.aborted ≠ [] ↔ FailedInARow pool.st.ends) ∧
      (pool.st.contexts.aborted ≠ [] → ∃ inFlight, rd.OnlyFinishes sur vlans pool inFlight) ∧
        (pool.finished = true → (∀ log, sur.clock log < s.budget.deadline) →
          pool.st.budget.truncated = false → ¬ FailedInARow pool.st.ends →
            pool.st.report.vlans.skipped = s.report.vlans.skipped ∧
              ∀ vid ∈ vlans, vid ∈ pool.st.report.vlans.read ∨
                vid ∈ pool.st.report.vlans.failed) := by
  have haborted : pool.st.contexts.aborted ≠ [] ↔ FailedInARow pool.st.ends := by
    obtain ⟨crew, -, hfollows, hcounted⟩ := counted_of_reach hbegin hpool
    have hkept := hcounted.kept.aborted
    rwa [hfollows.world] at hkept
  refine ⟨haborted, onlyFinishes_of_aborted hbegin hpool,
    fun hdone hintime huncut hno ↦ none_skipped hbegin hpool hdone hintime huncut ?_⟩
  by_contra hne
  exact hno (haborted.1 hne)

/-- The first context is read, and from then on nothing is answered. -/
theorem contexts_abort_behind :
    let rd : MacRead :=
      { version := .v2c, community := "public", opts := ⟨.auto, false, 120, 128, []⟩
        ifaces := ⟨Dict.empty, [], []⟩ }
    let sur : Surroundings :=
      { clock := fun _ ↦ 0
        reply := fun _ q ↦
          if q.access = rd.contextAuth 10 then Agent.serve (fun _ ↦ ⟨[], .nil⟩) q
          else .response (some ⟨"RequestTimedOut", ""⟩) 0 "" 0 []
        pick := fun _ ↦ 0 }
    let vlans := [10, 20, 30, 40, 50, 60]
    ∃ s' log', rd.ContextsReach sur 30 vlans (rd.start 0) [] ⟨[], [], s', log'⟩ ∧
      s'.ends = [.ok, .failed, .failed, .failed, .failed] ∧
        s'.report.vlans = ⟨[10], [60], [20, 30, 40, 50]⟩ ∧ s'.contexts.aborted ≠ [] ∧
          FailedInARow s'.ends := by
  intro rd sur vlans
  have hrun : (gather sur.env macContextConcurrency 30 (vlans.map (rd.one 30)) (rd.start 0) []).map
      (fun out ↦ (out.1.ends, out.1.report.vlans, out.1.contexts.aborted)) =
        some ([.ok, .failed, .failed, .failed, .failed], ⟨[10], [60], [20, 30, 40, 50]⟩,
          [20, 30, 40, 50]) := by
    decide +kernel
  obtain ⟨⟨s', log'⟩, hout, heq⟩ := Option.map_eq_some_iff.1 hrun
  obtain ⟨hends, hlists, haborted⟩ :
      s'.ends = _ ∧ s'.report.vlans = _ ∧ s'.contexts.aborted = _ := by
    simpa only [Prod.mk.injEq] using heq
  have hpool : rd.ContextsReach sur 30 vlans (rd.start 0) [] ⟨[], [], s', log'⟩ :=
    Pool.reaches_of_run hout
  have hbegin : ContextsBegin vlans (rd.start 0) := ⟨rfl, rfl, rfl, by decide⟩
  have hne : s'.contexts.aborted ≠ [] := by
    rw [haborted]
    exact List.cons_ne_nil _ _
  exact ⟨s', log', hpool, hends, hlists, hne, (contexts_abort rd sur 30 hbegin hpool).1.1 hne⟩

end Snmp
