import DanbyteOutpost.Coop.Stages
import Mathlib.Algebra.BigOperators.Group.List.Basic
import Mathlib.Algebra.GroupWithZero.Nat

/-!
# A stock that tasks share

Tasks take from a stock in their shared state, and a mark in the log accounts for what was taken
since. What a task that waits has taken and not yet accounted for is what its next mark will say if
it is answered with a failure (`Parked.inHand`). A task balances (`Coro.Balances`) if what is
missing from the stock is always accounted for, by a mark or in hand. Of a pool of such tasks the
stock, the marks and what is in hand make the same total at every moment (`Pool.Balances.total`),
whatever the environment answers and whichever task goes on.

## What a program has to show

`Coro.Balances` is read off the text of a program: returning, reading the state and taking a
reading cost nothing, `balances_bind` composes, and only a task that writes the stock or makes a
mark has anything to prove. The mark a failure would lead to is looked for without asking again
(`Res.firstMark`), so that what is in hand is a function of the waiting task and the state alone.

* `Pool.balances_step`: one step of a pool keeps the account.
* `Pool.balances_of_reaches`: so do all the steps from where the pool began.
-/

namespace Coop

variable {I : Interface} {σ α β : Type}

/-- How a stock is accounted for. -/
structure Ledger (I : Interface) (σ : Type) where
  /-- What is left. -/
  stock : σ → ℕ
  /-- What a mark accounts for. -/
  settled : I.Mark → ℕ
  /-- An answer that fails. -/
  failure : I.Reply

/-- The first mark of a course, if it comes to one without waiting. -/
def Res.firstMark : Res I σ α → Option I.Mark
  | done .. | spin | ask .. => none
  | poll _ k => (k false).firstMark
  | mark m _ => some m

/-- The mark that the first part makes is the first of both. -/
theorem Res.firstMark_bind {x : Res I σ α} {f : α → Coro I σ β} {m : I.Mark}
    (h : x.firstMark = some m) : (x.bind f).firstMark = some m := by
  induction x with
  | done a s => cases h
  | spin => cases h
  | poll p k ih => exact ih false h
  | mark m' k => exact h
  | ask q s k => cases h

/-- What a waiting task has taken and not accounted for. -/
def Parked.inHand (L : Ledger I σ) (s : σ) (p : Parked I σ) : ℕ :=
  match (p.resume L.failure s).firstMark with
  | some m => L.settled m
  | none => 0

/-- What the marks of a log amount to. -/
def totalOf (amount : I.Mark → ℕ) : Log I → ℕ
  | [] => 0
  | .marked m :: log => totalOf amount log + amount m
  | .polled _ _ :: log => totalOf amount log
  | .asked _ _ :: log => totalOf amount log

/-- A sum over the marks of the log grows with what is counted of each. -/
theorem totalOf_le {amount amount' : I.Mark → ℕ} {log : Log I}
    (h : ∀ m, .marked m ∈ log → amount m ≤ amount' m) :
    totalOf amount log ≤ totalOf amount' log := by
  induction log with
  | nil => exact le_rfl
  | cons e log ih =>
    have hrest := ih fun m hm ↦ h m (List.mem_cons_of_mem _ hm)
    cases e with
    | polled p yes => exact hrest
    | asked q r => exact hrest
    | marked m => exact Nat.add_le_add hrest (h m List.mem_cons_self)

theorem totalOf_lt {amount amount' : I.Mark → ℕ} {log : Log I}
    (h : ∀ m, .marked m ∈ log → amount m ≤ amount' m) {m : I.Mark} (hm : .marked m ∈ log)
    (hlt : amount m < amount' m) : totalOf amount log < totalOf amount' log := by
  induction log with
  | nil => exact absurd hm List.not_mem_nil
  | cons e log ih =>
    have hbelow : ∀ m, .marked m ∈ log → amount m ≤ amount' m :=
      fun m hm ↦ h m (List.mem_cons_of_mem _ hm)
    cases e with
    | polled p yes => exact ih hbelow ((List.mem_cons.1 hm).resolve_left nofun)
    | asked q r => exact ih hbelow ((List.mem_cons.1 hm).resolve_left nofun)
    | marked m' =>
      rcases List.mem_cons.1 hm with heq | hm
      · cases heq
        exact Nat.add_lt_add_of_le_of_lt (totalOf_le hbelow) hlt
      · exact Nat.add_lt_add_of_lt_of_le (ih hbelow hm) (h m' List.mem_cons_self)

/-- What the marks of a log account for. -/
abbrev Ledger.settledIn (L : Ledger I σ) (log : Log I) : ℕ := totalOf L.settled log

variable {L : Ledger I σ}

/-! ### Tasks -/

/-- The course accounts for `due`: what is in the stock, and what is taken from it. -/
def Res.balances (L : Ledger I σ) : Res I σ α → ℕ → Prop
  | done _ s, due => due = L.stock s
  | spin, _ => True
  | poll _ k, due => ∀ yes, (k yes).balances L due
  | mark m k, due => ∃ left, due = left + L.settled m ∧ k.balances L left
  | ask _ s k, due => ∃ m, due = L.stock s + L.settled m ∧ ∀ s',
      (k L.failure s').firstMark = some m ∧ ∀ r, (k r s').balances L (L.stock s' + L.settled m)

/-- The task accounts for all it takes by the time it ends. -/
def Coro.Balances (L : Ledger I σ) (t : Coro I σ α) : Prop := ∀ s, (t s).balances L (L.stock s)

/-- It does so for `taken` before it, too. -/
def Coro.BalancesWith (L : Ledger I σ) (taken : ℕ) (t : Coro I σ α) : Prop :=
  ∀ s, (t s).balances L (L.stock s + taken)

/-- The task comes to the mark without waiting. -/
def Coro.Marks (m : I.Mark) (t : Coro I σ α) : Prop := ∀ s, (t s).firstMark = some m

/-- Debts are carried over: the second part begins with a clean account. -/
theorem Res.balances_bind {x : Res I σ α} {f : α → Coro I σ β} {due : ℕ}
    (hx : x.balances L due) (hf : ∀ a, (f a).Balances L) : (x.bind f).balances L due := by
  induction x generalizing due with
  | done a s =>
    obtain rfl : due = L.stock s := hx
    exact hf a s
  | spin => trivial
  | poll p k ih => exact fun yes ↦ ih yes (hx yes)
  | mark m k ih =>
    obtain ⟨left, hdue, hk⟩ := hx
    exact ⟨left, hdue, ih hk⟩
  | ask q s k ih =>
    obtain ⟨m, hdue, hk⟩ := hx
    refine ⟨m, hdue, fun s' ↦ ⟨Res.firstMark_bind (hk s').1, fun r ↦ ?_⟩⟩
    exact ih r s' ((hk s').2 r)

namespace Coro

theorem balances_pure (a : α) : (pure a : Coro I σ α).Balances L := fun _ ↦ rfl

theorem balances_bind {t : Coro I σ α} {f : α → Coro I σ β} (ht : t.Balances L)
    (hf : ∀ a, (f a).Balances L) : (t >>= f).Balances L :=
  fun s ↦ Res.balances_bind (ht s) hf

/-- To read the state owes nothing, and pays nothing. -/
theorem balances_get : (get : Coro I σ σ).Balances L := fun _ ↦ rfl

/-- A change that leaves the stock alone. -/
theorem balances_modify {f : σ → σ} (h : ∀ s, L.stock (f s) = L.stock s) :
    (modify f : Coro I σ Unit).Balances L :=
  fun s ↦ (h s).symm

theorem balances_poll (p : I.Probe) : (poll p : Coro I σ Bool).Balances L := fun _ _ ↦ rfl

end Coro

/-! ### Pools -/

/-- A waiting task has in hand what the mark says, and accounts for it once it is answered. -/
def Parked.Owes (L : Ledger I σ) (m : I.Mark) (p : Parked I σ) : Prop :=
  ∀ s, (p.resume L.failure s).firstMark = some m ∧
    ∀ r, (p.resume r s).balances L (L.stock s + L.settled m)

/-- What a waiting task still owes does not depend on the state. -/
theorem Parked.Owes.inHand_eq {m : I.Mark} {p : Parked I σ} (h : p.Owes L m) (s : σ) :
    p.inHand L s = L.settled m := by
  rw [inHand, (h s).1]

/-- What waiting tasks have in hand. -/
def inHandOf (L : Ledger I σ) (s : σ) (ps : List (Parked I σ)) : ℕ :=
  (ps.map (Parked.inHand L s)).sum

/-- What holds of a pool of such tasks all along. -/
structure Pool.Balances (L : Ledger I σ) (total : ℕ) (pool : Pool I σ) : Prop where
  /-- A task that has not begun will take as much from the stock as it accounts for. -/
  queue : ∀ t ∈ pool.queue, t.Balances L
  /-- One that waits has something in hand, which it will account for. -/
  parked : ∀ p ∈ pool.parked, ∃ m, p.Owes L m
  /-- What is left, what was accounted for and what is in hand make up the total. -/
  total : L.stock pool.st + L.settledIn pool.log + inHandOf L pool.st pool.parked = total

/-- What waiting tasks have in hand does not depend on the state. -/
theorem inHandOf_eq {ps : List (Parked I σ)} (h : ∀ p ∈ ps, ∃ m, p.Owes L m) (s s' : σ) :
    inHandOf L s ps = inHandOf L s' ps := by
  refine congrArg List.sum (List.map_congr_left fun p hp ↦ ?_)
  obtain ⟨m, hm⟩ := h p hp
  rw [hm.inHand_eq, hm.inHand_eq]

variable {env : Env I}

/-- A stretch of a task comes to its end, or to where it waits with something in hand. -/
theorem Res.balances_advance {x : Res I σ Unit} {due : ℕ} {log : Log I} (h : x.balances L due)
    {out : Option (Parked I σ) × σ × Log I} (hrun : x.advance env log = some out) :
    (∀ p ∈ out.1.toList, ∃ m, p.Owes L m) ∧
      L.stock out.2.1 + L.settledIn out.2.2 + inHandOf L out.2.1 out.1.toList =
        due + L.settledIn log := by
  induction x generalizing due log with
  | done a s =>
    obtain rfl := Option.some.inj hrun
    obtain rfl : due = L.stock s := h
    exact ⟨fun p hp ↦ absurd hp List.not_mem_nil, rfl⟩
  | spin => cases hrun
  | poll p k ih =>
    have hrest := ih (env.reading log p) (h _) hrun
    exact hrest
  | mark m k ih =>
    obtain ⟨left, rfl, hk⟩ := h
    obtain ⟨howes, htotal⟩ := ih hk hrun
    refine ⟨howes, ?_⟩
    rw [htotal]
    show left + (L.settledIn log + L.settled m) = left + L.settled m + L.settledIn log
    omega
  | ask q s k ih =>
    obtain rfl := Option.some.inj hrun
    obtain ⟨m, rfl, hk⟩ := h
    have howes : Parked.Owes L m ⟨q, k⟩ := hk
    refine ⟨fun p hp ↦ ?_, ?_⟩
    · obtain rfl := List.mem_singleton.1 hp
      exact ⟨m, howes⟩
    · show L.stock s + L.settledIn log + (Parked.inHand L s ⟨q, k⟩ + 0) = _
      rw [howes.inHand_eq]
      omega

variable {cap total : ℕ} {pool pool' : Pool I σ}

/-- A stretch of one task of a pool. -/
theorem Pool.balances_settle (pool : Pool I σ) {due : ℕ} {log : Log I} {x : Res I σ Unit}
    (hqueue : ∀ t ∈ pool.queue, t.Balances L) (hparked : ∀ p ∈ pool.parked, ∃ m, p.Owes L m)
    (hx : x.balances L due) {out : Option (Parked I σ) × σ × Log I}
    (hrun : x.advance env log = some out)
    (htotal : due + L.settledIn log + inHandOf L pool.st pool.parked = total) :
    (pool.settle out).Balances L total := by
  obtain ⟨hnew, hsum⟩ := Res.balances_advance hx hrun
  refine ⟨hqueue, fun p hp ↦ ?_, ?_⟩
  · rcases List.mem_append.1 hp with hp | hp
    · exact hparked p hp
    · exact hnew p hp
  · show L.stock out.2.1 + L.settledIn out.2.2 +
      inHandOf L out.2.1 (pool.parked ++ out.1.toList) = total
    have happend : inHandOf L out.2.1 (pool.parked ++ out.1.toList) =
        inHandOf L out.2.1 pool.parked + inHandOf L out.2.1 out.1.toList := by
      rw [inHandOf, List.map_append, List.sum_append]
      rfl
    rw [happend, inHandOf_eq hparked out.2.1 pool.st]
    omega

/-- The step lemma of a pool. -/
theorem Pool.balances_step (h : pool.Balances L total) (hstep : pool.step env cap = some pool') :
    pool'.Balances L total := by
  rcases step_cases hstep with rfl | ⟨t, out, ht, -, hout, rfl⟩ | ⟨p, i, out, hp, hout, rfl⟩
  · exact h
  · refine Pool.balances_settle { pool with queue := pool.queue.tail }
      (fun t' ht' ↦ h.queue t' (List.mem_of_mem_tail ht')) h.parked
      (h.queue t (List.mem_of_mem_head? ht) pool.st) hout h.total
  · obtain ⟨m, hm⟩ := h.parked p (List.mem_of_getElem? hp)
    refine Pool.balances_settle { pool with parked := pool.parked.eraseIdx i } h.queue
      (fun p' hp' ↦ h.parked p' (List.mem_of_mem_eraseIdx hp')) ((hm pool.st).2 _) hout ?_
    have hsplit : inHandOf L pool.st pool.parked =
        p.inHand L pool.st + inHandOf L pool.st (pool.parked.eraseIdx i) := by
      obtain ⟨hlt, rfl⟩ := List.getElem?_eq_some_iff.1 hp
      exact ((List.getElem_cons_eraseIdx_perm hlt).map (Parked.inHand L pool.st)).sum_eq.symm
    have htotal := h.total
    rw [hsplit, hm.inHand_eq] at htotal
    show L.stock pool.st + L.settled m + L.settledIn pool.log +
      inHandOf L pool.st (pool.parked.eraseIdx i) = total
    omega

/-- The run lemma: the total is the same at every moment of a pool. -/
theorem Pool.balances_of_reaches (h : pool.Balances L total)
    (hreaches : pool.Reaches env cap pool') :
    pool'.Balances L total := by
  induction hreaches with
  | refl => exact h
  | tail _ hlast ih => exact Pool.balances_step ih hlast

end Coop
