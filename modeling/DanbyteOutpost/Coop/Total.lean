import DanbyteOutpost.Coop.Stages
import Mathlib.Algebra.BigOperators.Group.List.Basic
import Mathlib.Algebra.GroupWithZero.Nat

/-!
# Tasks that are sure to end

`Res.within` is `Res.wp` with an account: a task has so many questions to ask at most, and `post` is
told how many it has left. Its laws are those of `wp`, so a program is verified along its text, and
what a part of it has not asked the rest may. A pool of tasks that have an account each is sure to
end, for whatever the environment picks and answers (`gather_total`): a move starts a task, or takes
one question from an account.

## Why an account and not a measure

A measure on the state would have to fall at every wait, though other tasks write the state while
this one waits. The account is private to the task: it is what is left of the number it was given,
and nobody else can spend it. So the accounts of a pool add up, and their sum falls with every
answer.

* `within_bind`: the first part hands on what it has not asked.
* `wp_of_within`: with an account, the task does what `wp` says, and comes to its end.
* `Pool.endsIn_step`: a move of a pool spends, or starts a task.
-/

namespace Coop

variable {I : Interface} {σ α β : Type}

/-- The course asks `n` times at most, and ends as `post` says, whatever the environment and the
others do under the rules. -/
def Res.within (ρ : Rules I σ) (post : α → ℕ → World I σ → Prop) : Res I σ α → ℕ → Log I → Prop
  | done a s, n, log => post a n ⟨s, log⟩
  | spin, _, _ => False
  | poll p k, n, log => ∀ yes, ρ.reading log p yes → (k yes).within ρ post n (.polled p yes :: log)
  | mark m k, n, log => k.within ρ post n (.marked m :: log)
  | ask q s k, n, log => ∃ left, n = left + 1 ∧ ρ.inv ⟨s, log⟩ ∧ ∀ w', ρ.Resumes ⟨s, log⟩ w' →
      ∀ r, ρ.answer w'.log q r → (k r w'.st).within ρ post left (.asked q r :: w'.log)

/-- The task, begun in a world with `n` questions to ask, ends as `post` says. -/
def Coro.within (ρ : Rules I σ) (t : Coro I σ α) (post : α → ℕ → World I σ → Prop) (n : ℕ)
    (w : World I σ) : Prop :=
  (t w.st).within ρ post n w.log

variable {ρ : Rules I σ}

/-! ### The laws -/

/-- A weaker end is come to in as many requests. -/
theorem Res.within_mono {post post' : α → ℕ → World I σ → Prop} {x : Res I σ α} {n : ℕ}
    {log : Log I} (h : x.within ρ post n log)
    (himp : ∀ a left w, log <:+ w.log → post a left w → post' a left w) :
    x.within ρ post' n log := by
  induction x generalizing n log with
  | done a s => exact himp a n _ (List.suffix_refl _) h
  | spin => exact h
  | poll p k ih =>
    exact fun yes hyes ↦ ih yes (h yes hyes) fun a left w hlog ↦
      himp a left w ((List.suffix_cons _ _).trans hlog)
  | mark m k ih => exact ih h fun a left w hlog ↦ himp a left w ((List.suffix_cons _ _).trans hlog)
  | ask q s k ih =>
    obtain ⟨left, rfl, hinv, hrest⟩ := h
    refine ⟨left, rfl, hinv,
      fun w' hw' r hr ↦ ih r w'.st (hrest w' hw' r hr) fun a left' w hlog ↦ ?_⟩
    exact himp a left' w (hw'.log.trans ((List.suffix_cons _ _).trans hlog))

/-- The requests left over by the first part are those the second has. -/
theorem Res.within_bind {post : β → ℕ → World I σ → Prop} {x : Res I σ α} {f : α → Coro I σ β}
    {n : ℕ} {log : Log I} : (x.bind f).within ρ post n log ↔
      x.within ρ (fun a left w ↦ (f a).within ρ post left w) n log := by
  induction x generalizing n log with
  | done a s => exact Iff.rfl
  | spin => exact Iff.rfl
  | poll p k ih => exact forall_congr' fun yes ↦ imp_congr_right fun _ ↦ ih yes
  | mark m k ih => exact ih
  | ask q s k ih =>
    refine exists_congr fun left ↦ and_congr_right fun _ ↦ and_congr_right fun _ ↦ ?_
    refine forall_congr' fun w' ↦ imp_congr_right fun _ ↦ ?_
    exact forall_congr' fun r ↦ imp_congr_right fun _ ↦ ih r w'.st

/-- A task that has an account is sure to end. -/
theorem Res.wp_of_within {post : α → ℕ → World I σ → Prop} {x : Res I σ α} {n : ℕ} {log : Log I}
    (h : x.within ρ post n log) : x.wp ρ (fun a w ↦ ∃ left, post a left w) log := by
  induction x generalizing n log with
  | done a s => exact ⟨n, h⟩
  | spin => exact h.elim
  | poll p k ih => exact fun yes hyes ↦ ih yes (h yes hyes)
  | mark m k ih => exact ih h
  | ask q s k ih =>
    obtain ⟨left, -, hinv, hrest⟩ := h
    exact ⟨hinv, fun w' hw' r hr ↦ ih r w'.st (hrest w' hw' r hr)⟩

namespace Coro

variable {post : β → ℕ → World I σ → Prop} {n : ℕ} {w : World I σ}

theorem within_mono {t : Coro I σ β} {post' : β → ℕ → World I σ → Prop} (h : t.within ρ post n w)
    (himp : ∀ a left w', w.log <:+ w'.log → post a left w' → post' a left w') :
    t.within ρ post' n w :=
  Res.within_mono h himp

/-- A bound on the requests is more than the weakest precondition asks. -/
theorem wp_of_within {t : Coro I σ β} (h : t.within ρ post n w) :
    t.wp ρ (fun b w' ↦ ∃ left, post b left w') w :=
  Res.wp_of_within h

/-- A task in two parts shares out its requests. -/
theorem within_bind {t : Coro I σ α} {f : α → Coro I σ β} : (t >>= f).within ρ post n w ↔
    t.within ρ (fun a left w ↦ (f a).within ρ post left w) n w :=
  Res.within_bind

theorem within_get {post : σ → ℕ → World I σ → Prop} :
    (get : Coro I σ σ).within ρ post n w ↔ post w.st n w := Iff.rfl

theorem within_modify {post : Unit → ℕ → World I σ → Prop} {f : σ → σ} :
    (modify f).within ρ post n w ↔ post () n ⟨f w.st, w.log⟩ := Iff.rfl

theorem within_poll {post : Bool → ℕ → World I σ → Prop} {p : I.Probe} :
    (poll p).within ρ post n w ↔
      ∀ yes, ρ.reading w.log p yes → post yes n ⟨w.st, .polled p yes :: w.log⟩ := Iff.rfl

theorem within_mark {post : Unit → ℕ → World I σ → Prop} {m : I.Mark} :
    (mark m).within ρ post n w ↔ post () n ⟨w.st, .marked m :: w.log⟩ := Iff.rfl

end Coro

/-! ### Pools -/

/-- A task fit for a pool: from the invariant it asks `n` times at most, and keeps the invariant. -/
def Coro.EndsIn (ρ : Rules I σ) (n : ℕ) (t : Coro I σ Unit) : Prop :=
  ∀ w, ρ.inv w → t.within ρ (fun _ _ w' ↦ ρ.inv w') n w

/-- A waiting task that asks `n` times more at most. -/
def Parked.EndsIn (ρ : Rules I σ) (log : Log I) (p : Parked I σ) (n : ℕ) : Prop :=
  ∀ w', ρ.inv w' → log <:+ w'.log → ∀ r, ρ.answer w'.log p.query r →
    (p.resume r w'.st).within ρ (fun _ _ w ↦ ρ.inv w) n (.asked p.query r :: w'.log)

/-- What a waiting task has left does not depend on what others add to the log. -/
theorem Parked.EndsIn.mono {p : Parked I σ} {n : ℕ} {log log' : Log I} (h : p.EndsIn ρ log n)
    (hlog : log <:+ log') : p.EndsIn ρ log' n :=
  fun w' hinv hw' ↦ h w' hinv (hlog.trans hw')

/-- What holds of a pool all along: a task that waits has `accounts` of its own, and all of them
have fewer than `total` moves. -/
structure Pool.EndsIn (ρ : Rules I σ) (n total : ℕ) (pool : Pool I σ) : Prop where
  /-- The invariant of the rules. -/
  inv : ρ.inv ⟨pool.st, pool.log⟩
  /-- A task that is not started asks `n` times at most. -/
  queue : ∀ t ∈ pool.queue, t.EndsIn ρ n
  /-- To start a task is a move, and so is each answer. -/
  parked : ∃ accounts, List.Forall₂ (Parked.EndsIn ρ pool.log) pool.parked accounts ∧
    pool.queue.length * (n + 1) + (accounts.map (· + 1)).sum < total

/-- A pool that is not finished can start a task, or answer one. -/
theorem Pool.step_moves (env : Env I) {cap : ℕ} (hcap : 0 < cap) {pool : Pool I σ}
    (hno : pool.finished = false) :
    (∃ t, pool.queue.head? = some t ∧ pool.step env cap =
      ((t pool.st).advance env pool.log).map { pool with queue := pool.queue.tail }.settle) ∨
    ∃ (p : Parked I σ) (i : ℕ), pool.parked[i]? = some p ∧ pool.step env cap =
      ((p.resume (env.reply pool.log p.query) pool.st).advance env
        (.asked p.query (env.reply pool.log p.query) :: pool.log)).map
          { pool with parked := pool.parked.eraseIdx i }.settle := by
  -- whether there is a task to start decides what may be picked
  rcases hstart : (if pool.parked.length < cap then pool.queue.head? else none) with - | t
  · have hsome : 0 < pool.parked.length := by
      rw [List.length_pos_iff]
      intro hnil
      rw [hnil, List.length_nil, if_pos hcap, List.head?_eq_none_iff] at hstart
      rw [finished, hstart, hnil] at hno
      cases hno
    have hlt : env.pick pool.log % (0 + pool.parked.length) < pool.parked.length := by
      rw [Nat.zero_add]
      exact Nat.mod_lt _ hsome
    refine .inr ⟨_, _, List.getElem?_eq_getElem hlt, ?_⟩
    rw [step]
    simp only [hstart, Option.toList_none, List.length_nil, Nat.sub_zero,
      List.getElem?_eq_getElem hlt]
  · have hhead : pool.queue.head? = some t := by
      split at hstart
      · exact hstart
      · cases hstart
    -- of those that can go on, the first is the task to start
    rcases hchoice : env.pick pool.log % (1 + pool.parked.length) with - | i
    · refine .inl ⟨t, hhead, ?_⟩
      rw [step]
      simp only [hstart, Option.toList_some, List.length_singleton, hchoice]
    · have hlt : i < pool.parked.length := by
        have := Nat.mod_lt (env.pick pool.log) (Nat.zero_lt_succ pool.parked.length)
        rw [Nat.succ_eq_one_add, hchoice] at this
        omega
      refine .inr ⟨_, i, List.getElem?_eq_getElem hlt, ?_⟩
      rw [step]
      simp only [hstart, Option.toList_some, List.length_singleton, hchoice, Nat.add_sub_cancel,
        List.getElem?_eq_getElem hlt]

/-- A stretch of a task ends, and the task has fewer requests left if it waits again. This is what
makes the pool's measure go down. -/
theorem Res.advance_of_within {env : Env I} (henv : env.Obeys ρ) (halone : ¬ ρ.alone)
    {x : Res I σ Unit} {n : ℕ} {log : Log I} (h : x.within ρ (fun _ _ w ↦ ρ.inv w) n log) :
    ∃ out, x.advance env log = some out ∧ ρ.inv ⟨out.2.1, out.2.2⟩ ∧ log <:+ out.2.2 ∧
      ∀ p ∈ out.1, ∃ left < n, p.EndsIn ρ out.2.2 left := by
  induction x generalizing n log with
  | done a s => exact ⟨_, rfl, h, List.suffix_refl _, nofun⟩
  | spin => exact h.elim
  | poll p k ih =>
    obtain ⟨out, hout, hinv, hlog, hparked⟩ := ih _ (h _ (henv.reading log p))
    exact ⟨out, hout, hinv, (List.suffix_cons _ _).trans hlog, hparked⟩
  | mark m k ih =>
    obtain ⟨out, hout, hinv, hlog, hparked⟩ := ih h
    exact ⟨out, hout, hinv, (List.suffix_cons _ _).trans hlog, hparked⟩
  | ask q s k ih =>
    obtain ⟨left, rfl, hinv, hrest⟩ := h
    refine ⟨_, rfl, hinv, List.suffix_refl _, ?_⟩
    rintro p ⟨⟩
    refine ⟨left, Nat.lt_succ_self left, fun w' hw' hlog r hr ↦ ?_⟩
    exact hrest w' ⟨hw', hlog, fun hyes ↦ (halone hyes).elim⟩ r hr

/-- A stretch of one task, which had `m` moves. -/
theorem Pool.endsIn_settle {n m total : ℕ} {pool : Pool I σ} {log : Log I}
    {out : Option (Parked I σ) × σ × Log I} {accounts : List ℕ}
    (hqueue : ∀ t ∈ pool.queue, t.EndsIn ρ n)
    (hparked : List.Forall₂ (Parked.EndsIn ρ log) pool.parked accounts)
    (hinv : ρ.inv ⟨out.2.1, out.2.2⟩) (hlog : log <:+ out.2.2)
    (hnew : ∀ p ∈ out.1, ∃ left < m, p.EndsIn ρ out.2.2 left)
    (htotal : pool.queue.length * (n + 1) + (accounts.map (· + 1)).sum + m < total) :
    (pool.settle out).EndsIn ρ n total := by
  have hparked' : List.Forall₂ (Parked.EndsIn ρ out.2.2) pool.parked accounts :=
    hparked.imp fun p k h ↦ h.mono hlog
  refine ⟨hinv, hqueue, ?_⟩
  show ∃ accounts', List.Forall₂ (Parked.EndsIn ρ out.2.2) (pool.parked ++ out.1.toList) accounts' ∧
    pool.queue.length * (n + 1) + (accounts'.map (· + 1)).sum < total
  rcases hout : out.1 with - | p
  · rw [Option.toList_none, List.append_nil]
    exact ⟨accounts, hparked', by omega⟩
  · obtain ⟨left, hleft, hp⟩ := hnew p hout
    refine ⟨accounts ++ [left], List.rel_append hparked' (.cons hp .nil), ?_⟩
    rw [List.map_append, List.sum_append, List.map_singleton, List.sum_singleton]
    omega

/-- The step lemma of a pool: it moves, and has a move less. -/
theorem Pool.endsIn_step {env : Env I} (henv : env.Obeys ρ) (halone : ¬ ρ.alone) {cap n total : ℕ}
    (hcap : 0 < cap) {pool : Pool I σ} (h : pool.EndsIn ρ n (total + 1))
    (hno : pool.finished = false) :
    ∃ pool', pool.step env cap = some pool' ∧ pool'.EndsIn ρ n total := by
  obtain ⟨accounts, hparked, htotal⟩ := h.parked
  rcases pool.step_moves env hcap hno with ⟨t, ht, hstep⟩ | ⟨p, i, hp, hstep⟩
  · obtain ⟨out, hout, hinv, hlog, hnew⟩ := Res.advance_of_within henv halone
      (h.queue t (List.mem_of_mem_head? ht) _ h.inv)
    rw [hstep, hout]
    refine ⟨_, rfl, endsIn_settle (fun t' ht' ↦ h.queue t' (List.mem_of_mem_tail ht')) hparked hinv
      hlog hnew ?_⟩
    obtain ⟨rest, hrest⟩ := List.head?_eq_some_iff.1 ht
    rw [hrest, List.length_cons, Nat.succ_mul] at htotal
    show pool.queue.tail.length * (n + 1) + _ + n < total
    rw [hrest, List.tail_cons]
    omega
  · obtain ⟨k, hk, hothers, heq⟩ := forall₂_eraseIdx hparked hp
    obtain ⟨out, hout, hinv, hlog, hnew⟩ := Res.advance_of_within henv halone
      (hk ⟨pool.st, pool.log⟩ h.inv (List.suffix_refl _) _ (henv.answer pool.log p.query))
    rw [hstep, hout]
    refine ⟨_, rfl, endsIn_settle h.queue hothers hinv ((List.suffix_cons _ _).trans hlog) hnew ?_⟩
    have hsplit : (accounts.map (· + 1)).sum = k + 1 + ((accounts.eraseIdx i).map (· + 1)).sum := by
      rw [← List.sum_cons, ← List.map_cons (f := (· + 1))]
      exact ((Multiset.coe_eq_coe.1 heq).map _).sum_eq
    show pool.queue.length * (n + 1) + _ + k < total
    omega

/-- The run lemma: a pool whose tasks have an account each is sure to end. -/
theorem gather_total {env : Env I} (henv : env.Obeys ρ) (halone : ¬ ρ.alone) {cap n fuel : ℕ}
    (hcap : 0 < cap) {tasks : List (Coro I σ Unit)} {s : σ} {log : Log I} (hinv : ρ.inv ⟨s, log⟩)
    (htasks : ∀ t ∈ tasks, t.EndsIn ρ n) (hfuel : tasks.length * (n + 1) < fuel) :
    ∃ s' log', gather env cap fuel tasks s log = some (s', log') ∧ ρ.inv ⟨s', log'⟩ := by
  have hpool : ∀ total (pool : Pool I σ), pool.EndsIn ρ n total →
      ∃ s' log', Pool.run env cap total pool = some (s', log') ∧ ρ.inv ⟨s', log'⟩ := by
    intro total
    induction total with
    | zero =>
      intro pool h
      obtain ⟨accounts, -, hnever⟩ := h.parked
      exact absurd hnever (Nat.not_lt_zero _)
    | succ total ih =>
      intro pool h
      rw [Pool.run]
      split
      case isTrue => exact ⟨_, _, rfl, h.inv⟩
      case isFalse hno =>
        obtain ⟨pool', hstep, h'⟩ :=
          Pool.endsIn_step henv halone hcap h (eq_false_of_ne_true hno)
        obtain ⟨s', log', hrun, hinv'⟩ := ih pool' h'
        exact ⟨s', log', Option.bind_eq_some_iff.2 ⟨pool', hstep, hrun⟩, hinv'⟩
  exact hpool fuel _ ⟨hinv, htasks, [], .nil, hfuel⟩

end Coop
