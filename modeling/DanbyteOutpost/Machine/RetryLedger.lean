import Mathlib.Data.List.Nodup
import Mathlib.Data.List.Range

/-!
# The account of a bounded retry buffer

An abstract model of a producer that hands batches to an unreliable receiver: items are buffered as
they are produced, the whole buffer is taken into a batch, the batch is acknowledged or comes back
in front of what was buffered meanwhile, and a buffer that has grown past its cap gives up its
oldest items. Every item carries its number in the order of production, so an account can say of
each single item where it is.

`Ledger.Accounted` is the law such a buffer owes its user: what was delivered, then what is in
flight, then what is buffered is exactly what was produced, in order, each item once, without the
items that were given up. It is kept by every operation (`accounted_apply`), so an implementation
meets it as soon as it is shown to apply the operations.

## Why the numbers

Two items may be equal, so that the lists of their values would not tell whether one of them was
delivered twice and the other lost. The numbers are not there in an implementation: `values_apply`
forgets them again, and what an operation does to bare lists is `LedgerOp.move`.

## What follows from the account

* `accounted_apply`, `lostProduced_apply`: the account is kept by each operation, and nothing is
  lost that was not produced.
* `held_nodup`: nothing is held in two places, and nothing is delivered twice.
* `map_snd_held_sublist`: what is held is in the order of production.
* `LedgerOp.length_move_le`: with a cap that is the same for every failure, what waits is bounded
  (`Backlog`).
-/

variable {α : Type*}

/-- Where every item produced so far is. -/
structure Ledger (α : Type*) where
  /-- All items, in the order of production. -/
  produced : List α
  /-- Received, each item with its number in the order of production. -/
  delivered : List (ℕ × α)
  /-- In the batch that is on its way. -/
  inFlight : List (ℕ × α)
  /-- Waiting for the next batch. -/
  buffered : List (ℕ × α)
  /-- Given up because the buffer was over its cap. -/
  evicted : List (ℕ × α)
  /-- Given up because the buffer was cleared. -/
  cleared : List (ℕ × α)

/-- What can happen to a retry buffer. -/
inductive LedgerOp (α : Type*)
  /-- Nothing. -/
  | keep
  /-- An item is buffered. -/
  | produce (x : α)
  /-- The buffer becomes the batch in flight. -/
  | take
  /-- The batch was received. -/
  | ack
  /-- The batch comes back, and what is over the cap goes. -/
  | nack (cap : ℕ)
  /-- What is buffered is given up. -/
  | clear

/-- What an operation does to the batch in flight and the buffer, numbers aside. -/
def LedgerOp.move (flight buffer : List α) : LedgerOp α → List α × List α
  | .keep => (flight, buffer)
  | .produce x => (flight, buffer ++ [x])
  | .take => (flight ++ buffer, [])
  | .ack => ([], buffer)
  | .nack cap => ([], (flight ++ buffer).drop ((flight ++ buffer).length - cap))
  | .clear => (flight, [])

namespace Ledger

/-- Nothing has been produced. -/
def empty : Ledger α := ⟨[], [], [], [], [], []⟩

/-- What waits to be delivered when a batch comes back. -/
def outstanding (L : Ledger α) : List (ℕ × α) := L.inFlight ++ L.buffered

/-- How many of the oldest outstanding items are over the cap. -/
def excess (L : Ledger α) (cap : ℕ) : ℕ := L.outstanding.length - cap

/-- What an operation does to the books. -/
def apply (L : Ledger α) : LedgerOp α → Ledger α
  | .keep => L
  | .produce x => { L with
      produced := L.produced ++ [x]
      buffered := L.buffered ++ [(L.produced.length, x)] }
  | .take => { L with inFlight := L.inFlight ++ L.buffered, buffered := [] }
  | .ack => { L with delivered := L.delivered ++ L.inFlight, inFlight := [] }
  | .nack cap => { L with
      inFlight := []
      buffered := L.outstanding.drop (L.excess cap)
      evicted := L.evicted ++ L.outstanding.take (L.excess cap) }
  | .clear => { L with buffered := [], cleared := L.cleared ++ L.buffered }

/-- The items produced, each with its number. -/
def numbered (L : Ledger α) : List (ℕ × α) := L.produced.zipIdx.map Prod.swap

/-- The numbers of the items given up. -/
def lost (L : Ledger α) : List ℕ := (L.evicted ++ L.cleared).map Prod.fst

/-- What is still accounted for, in the order it is or will be delivered. -/
def held (L : Ledger α) : List (ℕ × α) := L.delivered ++ L.inFlight ++ L.buffered

/-- **The account**: what is held is what was produced, in order, without what was given up. -/
def Accounted (L : Ledger α) : Prop :=
  L.held = L.numbered.filter fun x ↦ decide (x.1 ∉ L.lost)

/-- Nothing was given up that has not been produced. -/
def LostProduced (L : Ledger α) : Prop := ∀ n ∈ L.lost, n < L.produced.length

/-- An operation moves the items as it moves their numbers. -/
theorem values_apply (L : Ledger α) (op : LedgerOp α) :
    ((L.apply op).inFlight.map Prod.snd, (L.apply op).buffered.map Prod.snd) =
      op.move (L.inFlight.map Prod.snd) (L.buffered.map Prod.snd) := by
  cases op <;> simp [apply, LedgerOp.move, outstanding, excess]

/-! ### Numbers -/

/-- The numbers are those from 0 on, in the order of production. -/
theorem map_fst_numbered (L : Ledger α) :
    L.numbered.map Prod.fst = List.range L.produced.length := by
  rw [numbered, List.map_map]
  show L.produced.zipIdx.map Prod.snd = _
  rw [List.zipIdx_map_snd, List.range_eq_range']

theorem map_snd_numbered (L : Ledger α) : L.numbered.map Prod.snd = L.produced := by
  rw [numbered, List.map_map]
  exact List.zipIdx_map_fst 0 L.produced

theorem numbered_nodup (L : Ledger α) : (L.numbered.map Prod.fst).Nodup := by
  rw [map_fst_numbered]
  exact List.nodup_range

/-- A new item gets the next number and comes last; the others keep theirs. -/
theorem numbered_produce (L : Ledger α) (x : α) :
    (L.apply (.produce x)).numbered = L.numbered ++ [(L.produced.length, x)] := by
  simp [numbered, apply, List.zipIdx_append]

/-- Items whose numbers are among those of a prefix are exactly the prefix. -/
theorem filter_not_mem_take {q : List (ℕ × α)} (hnd : (q.map Prod.fst).Nodup) (k : ℕ) :
    q.filter (fun x ↦ decide (x.1 ∉ (q.take k).map Prod.fst)) = q.drop k := by
  have hsplit : q = q.take k ++ q.drop k := (List.take_append_drop k q).symm
  have hdisj : ∀ x ∈ q.drop k, x.1 ∉ (q.take k).map Prod.fst := by
    intro x hx hmem
    rw [hsplit, List.map_append] at hnd
    exact (List.disjoint_of_nodup_append hnd) hmem (List.mem_map_of_mem hx)
  have hfront : ∀ x ∈ q.take k, x.1 ∈ (q.take k).map Prod.fst :=
    fun x hx ↦ List.mem_map_of_mem hx
  generalize (q.take k).map Prod.fst = front at hdisj hfront ⊢
  rw [hsplit, List.filter_append, List.filter_eq_nil_iff.2, List.nil_append,
    List.filter_eq_self.2, ← hsplit]
  · exact fun x hx ↦ decide_eq_true (hdisj x hx)
  · intro x hx
    rw [decide_eq_true_eq, not_not]
    exact hfront x hx

/-! ### The account is kept -/

/-- At the start there is nothing to account for. -/
theorem accounted_empty : (empty : Ledger α).Accounted := rfl

theorem lostProduced_empty : (empty : Ledger α).LostProduced := fun _ h ↦ absurd h List.not_mem_nil

theorem held_nodup {L : Ledger α} (h : L.Accounted) : (L.held.map Prod.fst).Nodup := by
  rw [h]
  exact L.numbered_nodup.sublist (List.filter_sublist.map Prod.fst)

/-- What is held has been produced, so its number is one that was given. -/
theorem lt_of_mem_held {L : Ledger α} (h : L.Accounted) {x : ℕ × α} (hx : x ∈ L.held) :
    x.1 < L.produced.length := by
  rw [h] at hx
  have hmem : x.1 ∈ L.numbered.map Prod.fst := List.mem_map_of_mem (List.mem_filter.1 hx).1
  rwa [map_fst_numbered, List.mem_range] at hmem

/-- Giving up a part of what is held, and holding the rest, keeps the account. -/
theorem accounted_of_give_up {L L' : Ledger α} (h : L.Accounted) (gone : List ℕ)
    (hprod : L'.produced = L.produced) (hlost : ∀ n, n ∈ L'.lost ↔ n ∈ L.lost ∨ n ∈ gone)
    (hheld : L'.held = L.held.filter fun x ↦ decide (x.1 ∉ gone)) : L'.Accounted := by
  rw [Accounted, hheld, h, List.filter_filter, numbered, numbered, hprod]
  refine List.filter_congr fun x _ ↦ ?_
  rw [← Bool.decide_and, decide_eq_decide, hlost, not_or, and_comm]

/-- The oldest `k` items after the delivered ones are the ones `filter` removes. -/
theorem filter_held {L : Ledger α} (h : L.Accounted) (k : ℕ) :
    L.held.filter (fun x ↦ decide (x.1 ∉ (L.outstanding.take k).map Prod.fst)) =
      L.delivered ++ L.outstanding.drop k := by
  have hsplit : L.held = L.delivered ++ L.outstanding := List.append_assoc ..
  have hnd := held_nodup h
  rw [hsplit, List.map_append] at hnd
  rw [hsplit, List.filter_append, filter_not_mem_take (List.Nodup.of_append_right hnd),
    List.filter_eq_self.2]
  intro x hx
  refine decide_eq_true fun hmem ↦ ?_
  refine (List.disjoint_of_nodup_append hnd) (List.mem_map_of_mem hx) ?_
  exact (List.Sublist.map Prod.fst (List.take_sublist k L.outstanding)).subset hmem

/-- Each operation keeps the account: it moves items from one place to another in their order, or
says of them that they are lost. -/
theorem accounted_apply {L : Ledger α} (h : L.Accounted) (hl : L.LostProduced) (op : LedgerOp α) :
    (L.apply op).Accounted := by
  cases op with
  | keep => exact h
  | produce x =>
    have hlost : (L.apply (.produce x)).lost = L.lost := rfl
    have hheld : (L.apply (.produce x)).held = L.held ++ [(L.produced.length, x)] := by
      simp [held, apply]
    have hnew : L.produced.length ∉ L.lost := fun hmem ↦ lt_irrefl _ (hl _ hmem)
    rw [Accounted, hheld, numbered_produce, List.filter_append, hlost, ← h]
    simp [hnew]
  | take =>
    have hheld : (L.apply .take).held = L.held := by simp [held, apply]
    rw [Accounted, hheld]
    exact h
  | ack =>
    have hheld : (L.apply .ack).held = L.held := by simp [held, apply]
    rw [Accounted, hheld]
    exact h
  | nack cap =>
    -- what is over the cap is given up, from the oldest on
    refine accounted_of_give_up h ((L.outstanding.take (L.excess cap)).map Prod.fst) rfl
      (fun n ↦ ?_) ?_
    · simp only [lost, apply, List.map_append, List.mem_append]
      tauto
    · rw [filter_held h]
      simp [held, apply]
  | clear =>
    refine accounted_of_give_up h (L.buffered.map Prod.fst) rfl (fun n ↦ ?_) ?_
    · simp only [lost, apply, List.map_append, List.mem_append]
      tauto
    · have hnd := held_nodup h
      rw [held, List.map_append] at hnd
      have hgone : L.buffered.filter (fun x ↦ decide (x.1 ∉ L.buffered.map Prod.fst)) = [] :=
        List.filter_eq_nil_iff.2 fun x hx ↦ by
          rw [decide_eq_true_eq, not_not]
          exact List.mem_map_of_mem hx
      have hheld : (L.apply .clear).held = L.delivered ++ L.inFlight := by simp [held, apply]
      rw [hheld, held, List.filter_append, hgone, List.append_nil, List.filter_eq_self.2]
      · intro x hx
        exact decide_eq_true fun hmem ↦
          (List.disjoint_of_nodup_append hnd) (List.mem_map_of_mem hx) hmem

theorem lostProduced_apply {L : Ledger α} (h : L.Accounted) (hl : L.LostProduced)
    (op : LedgerOp α) : (L.apply op).LostProduced := by
  have hheld : ∀ x ∈ L.outstanding, x.1 < L.produced.length := fun x hx ↦ by
    refine lt_of_mem_held h ?_
    rw [held, List.append_assoc]
    exact List.mem_append_right _ hx
  intro n hn
  cases op with
  | keep => exact hl n hn
  | produce x =>
    have hlt : n < L.produced.length := hl n hn
    simp only [apply, List.length_append, List.length_singleton]
    omega
  | take => exact hl n hn
  | ack => exact hl n hn
  | nack cap =>
    simp only [lost, apply, List.map_append, List.mem_append] at hn
    rcases hn with (hn | hn) | hn
    · exact hl n (by simp only [lost, List.map_append, List.mem_append]; exact .inl hn)
    · obtain ⟨x, hx, rfl⟩ := List.mem_map.1 hn
      exact hheld x (List.mem_of_mem_take hx)
    · exact hl n (by simp only [lost, List.map_append, List.mem_append]; exact .inr hn)
  | clear =>
    simp only [lost, apply, List.map_append, List.mem_append] at hn
    rcases hn with hn | hn | hn
    · exact hl n (by simp only [lost, List.map_append, List.mem_append]; exact .inl hn)
    · exact hl n (by simp only [lost, List.map_append, List.mem_append]; exact .inr hn)
    · obtain ⟨x, hx, rfl⟩ := List.mem_map.1 hn
      exact hheld x (List.mem_append_right _ hx)

/-- What is held is a part of what was produced, in the order of production. -/
theorem map_snd_held_sublist {L : Ledger α} (h : L.Accounted) :
    (L.held.map Prod.snd).Sublist L.produced := by
  rw [h, ← map_snd_numbered]
  exact List.filter_sublist.map Prod.snd

end Ledger

/-! ### How much is held -/

/-- How many items were produced since the buffer was last taken, and between that and the time it
was taken before. -/
structure Backlog where
  /-- Since it was last taken. -/
  since : ℕ
  /-- Between the two takings before. -/
  before : ℕ

/-- What an operation does to the counts. -/
def Backlog.apply (b : Backlog) : LedgerOp α → Backlog
  | .produce _ => { b with since := b.since + 1 }
  | .take => ⟨0, b.since⟩
  | .keep | .ack | .nack _ | .clear => b

/-- **A retry buffer is bounded**, however long its batches keep coming back: it holds no more than
its cap and what has arrived since it was last taken, and the batch no more than the cap and what
had arrived before. -/
theorem LedgerOp.length_move_le {cap : ℕ} {b : Backlog} {flight buffer : List α} (op : LedgerOp α)
    (hcap : ∀ c, op = .nack c → c = cap) (htake : op = .take → flight = [])
    (hbuffer : buffer.length ≤ cap + b.since) (hflight : flight.length ≤ cap + b.before) :
    (op.move flight buffer).2.length ≤ cap + (b.apply op).since ∧
      (op.move flight buffer).1.length ≤ cap + (b.apply op).before := by
  cases op with
  | keep => exact ⟨hbuffer, hflight⟩
  | produce x =>
    refine ⟨?_, hflight⟩
    rw [LedgerOp.move, List.length_append, List.length_singleton]
    exact Nat.add_le_add_right hbuffer 1
  | take =>
    rw [LedgerOp.move, htake rfl, List.nil_append]
    exact ⟨Nat.zero_le _, hbuffer⟩
  | ack => exact ⟨hbuffer, Nat.zero_le _⟩
  | nack c =>
    obtain rfl := hcap c rfl
    refine ⟨?_, Nat.zero_le _⟩
    rw [LedgerOp.move, List.length_drop, Nat.sub_sub_eq_min]
    exact (Nat.min_le_right _ _).trans (Nat.le_add_right _ _)
  | clear => exact ⟨Nat.zero_le _, hflight⟩
