import DanbyteOutpost.Coop.Coro

/-!
# Reasoning about cooperative tasks

`Res.wp` says what a task is sure to bring about under `Rules`: what the environment may answer, and
what other tasks may do to the state while this one waits. They keep the invariant `inv`, which this
task has to give them first; a task that runs alone finds everything as it left it. With `mayStop`
false the task is also sure to end.

The laws are exact where they can be (`wp_bind` is an equivalence), so a program is verified by
rewriting along its text. `run_of_wp` and `gather_of_wp` take the result to the runs of one task and
of a pool of tasks.

## Alone, and among others

The invariant is owed at every wait and may be relied on after it. A task that is alone in its
pool finds its world as it left it (`Rules.Resumes`), so that it may be verified with any
invariant that implies the one of the rules (`wp_of_inv`).

## The laws

* `wp_mono`: a weaker end, and the log at the end has the log at the start in it.
* `wp_bind`: the end of the first part is the precondition of the second.
* `wp_get`, `wp_modify`, `wp_poll`: the statements, one by one.
* `Coro.run_of_wp`, `Coro.run_total_of_wp`: a run alone ends so, if it ends; and it ends where
  `mayStop` is false.
* `gather_of_wp`: in a pool every task ends so, and the invariant holds behind it.
-/

namespace Coop

variable {I : Interface} {σ α β : Type}

/-- The state and what happened so far. -/
structure World (I : Interface) (σ : Type) where
  /-- The state. -/
  st : σ
  /-- What happened so far. -/
  log : Log I

/-- What a task may count on, and what it owes the others. -/
structure Rules (I : Interface) (σ : Type) where
  /-- Which answers it has to be ready for. -/
  answer : Log I → I.Query → I.Reply → Prop
  /-- And which readings. -/
  reading : Log I → I.Probe → Bool → Prop
  /-- What it owes the others when it waits, and finds when it goes on. -/
  inv : World I σ → Prop
  /-- There are no others. -/
  alone : Prop
  /-- A loop of it may run out of fuel. -/
  mayStop : Prop

/-- What a task that waited in `w` may find when it goes on. -/
structure Rules.Resumes (ρ : Rules I σ) (w w' : World I σ) : Prop where
  /-- The invariant, which the others have kept. -/
  inv : ρ.inv w'
  /-- What happened is not undone. -/
  log : w.log <:+ w'.log
  /-- Alone it finds what it left. -/
  same : ρ.alone → w' = w

/-- The course ends as `post` says, whatever the environment and the others do under the rules. -/
def Res.wp (ρ : Rules I σ) (post : α → World I σ → Prop) : Res I σ α → Log I → Prop
  | done a s, log => post a ⟨s, log⟩
  | spin, _ => ρ.mayStop
  | poll p k, log => ∀ yes, ρ.reading log p yes → (k yes).wp ρ post (.polled p yes :: log)
  | mark m k, log => k.wp ρ post (.marked m :: log)
  | ask q s k, log => ρ.inv ⟨s, log⟩ ∧ ∀ w', ρ.Resumes ⟨s, log⟩ w' →
      ∀ r, ρ.answer w'.log q r → (k r w'.st).wp ρ post (.asked q r :: w'.log)

/-- The task, begun in a world, ends as `post` says. -/
def Coro.wp (ρ : Rules I σ) (t : Coro I σ α) (post : α → World I σ → Prop) (w : World I σ) :
    Prop :=
  (t w.st).wp ρ post w.log

variable {ρ : Rules I σ}

/-! ### The laws -/

/-- A weaker end follows; the log at the end has the log at the start in it. -/
theorem Res.wp_mono {post post' : α → World I σ → Prop} {x : Res I σ α} {log : Log I}
    (h : x.wp ρ post log) (himp : ∀ a w, log <:+ w.log → post a w → post' a w) :
    x.wp ρ post' log := by
  induction x generalizing log with
  | done a s => exact himp a _ (List.suffix_refl _) h
  | spin => exact h
  | poll p k ih =>
    exact fun yes hyes ↦ ih yes (h yes hyes) fun a w hlog ↦
      himp a w ((List.suffix_cons _ _).trans hlog)
  | mark m k ih => exact ih h fun a w hlog ↦ himp a w ((List.suffix_cons _ _).trans hlog)
  | ask q s k ih =>
    refine ⟨h.1, fun w' hw' r hr ↦ ih r w'.st (h.2 w' hw' r hr) fun a w hlog ↦ ?_⟩
    exact himp a w (hw'.log.trans ((List.suffix_cons _ _).trans hlog))

/-- The weakest precondition of two parts is that of the first, with that of the second as its
end. -/
theorem Res.wp_bind {post : β → World I σ → Prop} {x : Res I σ α} {f : α → Coro I σ β}
    {log : Log I} :
    (x.bind f).wp ρ post log ↔ x.wp ρ (fun a w ↦ (f a).wp ρ post w) log := by
  induction x generalizing log with
  | done a s => exact Iff.rfl
  | spin => exact Iff.rfl
  | poll p k ih => exact forall_congr' fun yes ↦ imp_congr_right fun _ ↦ ih yes
  | mark m k ih => exact ih
  | ask q s k ih =>
    refine and_congr_right fun _ ↦ forall_congr' fun w' ↦ imp_congr_right fun _ ↦ ?_
    exact forall_congr' fun r ↦ imp_congr_right fun _ ↦ ih r w'.st

/-- A task that runs alone may be verified with an invariant of its own. -/
theorem Res.wp_of_inv (halone : ρ.alone) {inv : World I σ → Prop} (himp : ∀ w, inv w → ρ.inv w)
    {post : α → World I σ → Prop} {x : Res I σ α} {log : Log I}
    (h : x.wp { ρ with inv := inv } post log) : x.wp ρ post log := by
  induction x generalizing log with
  | done a s => exact h
  | spin => exact h
  | poll p k ih => exact fun yes hyes ↦ ih yes (h yes hyes)
  | mark m k ih => exact ih h
  | ask q s k ih =>
    refine ⟨himp _ h.1, fun w' hw' r hr ↦ ih r w'.st (h.2 w' ?_ r hr)⟩
    obtain rfl := hw'.same halone
    exact ⟨h.1, hw'.log, fun _ ↦ rfl⟩

namespace Coro

variable {post : β → World I σ → Prop} {w : World I σ}

/-- Where no other task runs in between, a stronger invariant may be used. -/
theorem wp_of_inv (halone : ρ.alone) {inv : World I σ → Prop} (himp : ∀ w, inv w → ρ.inv w)
    {t : Coro I σ β} (h : t.wp { ρ with inv := inv } post w) : t.wp ρ post w :=
  Res.wp_of_inv halone himp h

theorem wp_mono {t : Coro I σ β} {post' : β → World I σ → Prop} (h : t.wp ρ post w)
    (himp : ∀ a w', w.log <:+ w'.log → post a w' → post' a w') : t.wp ρ post' w :=
  Res.wp_mono h himp

theorem wp_bind {t : Coro I σ α} {f : α → Coro I σ β} :
    (t >>= f).wp ρ post w ↔ t.wp ρ (fun a w ↦ (f a).wp ρ post w) w :=
  Res.wp_bind

theorem wp_map {t : Coro I σ α} {f : α → β} :
    (f <$> t).wp ρ post w ↔ t.wp ρ (fun a w ↦ post (f a) w) w := by
  rw [map_eq_pure_bind, wp_bind]
  exact Iff.rfl

/-- To read the state: the end is to hold of it. -/
theorem wp_get {post : σ → World I σ → Prop} :
    (get : Coro I σ σ).wp ρ post w ↔ post w.st w := Iff.rfl

/-- To write the state: the end is to hold of what is written. -/
theorem wp_modify {post : Unit → World I σ → Prop} {f : σ → σ} :
    (modify f).wp ρ post w ↔ post () ⟨f w.st, w.log⟩ := Iff.rfl

/-- To read the clock: the end is to hold of any reading that the rules admit. -/
theorem wp_poll {post : Bool → World I σ → Prop} {p : I.Probe} :
    (poll p).wp ρ post w ↔
      ∀ yes, ρ.reading w.log p yes → post yes ⟨w.st, .polled p yes :: w.log⟩ := Iff.rfl

end Coro

/-! ### Runs of one task -/

/-- The environment keeps to the rules. -/
structure Env.Obeys (env : Env I) (ρ : Rules I σ) : Prop where
  /-- It gives no other answers. -/
  answer : ∀ log q, ρ.answer log q (env.reply log q)
  /-- And no other readings. -/
  reading : ∀ log p, ρ.reading log p (env.reading log p)

/-- The soundness of the precondition: what comes out of a run meets the end, and where the rules
let nothing stop, something comes out. -/
theorem Res.run_of_wp {env : Env I} (henv : env.Obeys ρ) {post : α → World I σ → Prop}
    {x : Res I σ α} {log : Log I} (h : x.wp ρ post log) :
    (∀ a s log', x.run env log = some (a, s, log') → post a ⟨s, log'⟩) ∧
      (¬ ρ.mayStop → ∃ out, x.run env log = some out) := by
  induction x generalizing log with
  | done a s =>
    refine ⟨fun a' s' log' hrun ↦ ?_, fun _ ↦ ⟨_, rfl⟩⟩
    obtain ⟨rfl, rfl, rfl⟩ : a = a' ∧ s = s' ∧ log = log' := by simpa [Res.run] using hrun
    exact h
  | spin => exact ⟨fun _ _ _ hrun ↦ (Option.some_ne_none _ hrun.symm).elim, fun hno ↦ (hno h).elim⟩
  | poll p k ih => exact ih _ (h _ (henv.reading log p))
  | mark m k ih => exact ih h
  | ask q s k ih =>
    exact ih _ _ (h.2 ⟨s, log⟩ ⟨h.1, List.suffix_refl _, fun _ ↦ rfl⟩ _ (henv.answer log q))

/-- The first half for a task that has come out. -/
theorem Coro.run_of_wp {env : Env I} (henv : env.Obeys ρ) {post : α → World I σ → Prop}
    {t : Coro I σ α} {s : σ} {log : Log I} (h : t.wp ρ post ⟨s, log⟩) {a : α} {s' : σ}
    {log' : Log I} (hrun : t.run env s log = some (a, s', log')) : post a ⟨s', log'⟩ :=
  (Res.run_of_wp henv h).1 a s' log' hrun

/-- Both halves for a task that cannot be stopped. -/
theorem Coro.run_total_of_wp {env : Env I} (henv : env.Obeys ρ) (hstop : ¬ ρ.mayStop)
    {post : α → World I σ → Prop} {t : Coro I σ α} {s : σ} {log : Log I}
    (h : t.wp ρ post ⟨s, log⟩) :
    ∃ a s' log', t.run env s log = some (a, s', log') ∧ post a ⟨s', log'⟩ := by
  obtain ⟨hpost, htotal⟩ := Res.run_of_wp henv h
  obtain ⟨⟨a, s', log'⟩, hrun⟩ := htotal hstop
  exact ⟨a, s', log', hrun, hpost a s' log' hrun⟩

/-! ### Runs of a pool -/

/-- A task fit for a pool: from the invariant, it keeps the invariant. -/
def Coro.Keeps (ρ : Rules I σ) (t : Coro I σ Unit) : Prop :=
  ∀ w, ρ.inv w → t.wp ρ (fun _ w' ↦ ρ.inv w') w

/-- A waiting task that keeps the invariant once it is answered. -/
def Parked.Keeps (ρ : Rules I σ) (log : Log I) (p : Parked I σ) : Prop :=
  ∀ w', ρ.inv w' → log <:+ w'.log → ∀ r, ρ.answer w'.log p.query r →
    (p.resume r w'.st).wp ρ (fun _ w ↦ ρ.inv w) (.asked p.query r :: w'.log)

/-- A waiting task keeps the rules while others add to the log. -/
theorem Parked.Keeps.mono {p : Parked I σ} {log log' : Log I} (h : p.Keeps ρ log)
    (hlog : log <:+ log') : p.Keeps ρ log' :=
  fun w' hinv hw' ↦ h w' hinv (hlog.trans hw')

/-- What holds of a pool all along. -/
structure Pool.Keeps (ρ : Rules I σ) (pool : Pool I σ) : Prop where
  /-- The invariant of the rules. -/
  inv : ρ.inv ⟨pool.st, pool.log⟩
  /-- A task that is not started will keep it. -/
  queue : ∀ t ∈ pool.queue, t.Keeps ρ
  /-- And so will one that waits. -/
  parked : ∀ p ∈ pool.parked, p.Keeps ρ pool.log

/-- A stretch of a task keeps the invariant, and leaves the task in a state that will. -/
theorem Res.advance_of_wp {env : Env I} (henv : env.Obeys ρ) (halone : ¬ ρ.alone)
    {x : Res I σ Unit} {log : Log I} (h : x.wp ρ (fun _ w ↦ ρ.inv w) log)
    {out : Option (Parked I σ) × σ × Log I} (hrun : x.advance env log = some out) :
    ρ.inv ⟨out.2.1, out.2.2⟩ ∧ log <:+ out.2.2 ∧ ∀ p ∈ out.1, p.Keeps ρ out.2.2 := by
  induction x generalizing log with
  | done a s =>
    obtain rfl := Option.some.inj hrun
    exact ⟨h, List.suffix_refl _, fun p hp ↦ (Option.some_ne_none p hp.symm).elim⟩
  | spin => exact (Option.some_ne_none _ hrun.symm).elim
  | poll p k ih =>
    obtain ⟨hinv, hlog, hparked⟩ := ih _ (h _ (henv.reading log p)) hrun
    exact ⟨hinv, (List.suffix_cons _ _).trans hlog, hparked⟩
  | mark m k ih =>
    obtain ⟨hinv, hlog, hparked⟩ := ih h hrun
    exact ⟨hinv, (List.suffix_cons _ _).trans hlog, hparked⟩
  | ask q s k ih =>
    obtain rfl := Option.some.inj hrun
    refine ⟨h.1, List.suffix_refl _, ?_⟩
    rintro p ⟨⟩ w' hinv hlog
    exact h.2 w' ⟨hinv, hlog, fun hyes ↦ (halone hyes).elim⟩

/-- The pool after a stretch keeps the rules if the task that ran does. -/
theorem Pool.keeps_settle {pool : Pool I σ} {log : Log I}
    {out : Option (Parked I σ) × σ × Log I} (hqueue : ∀ t ∈ pool.queue, t.Keeps ρ)
    (hparked : ∀ p ∈ pool.parked, p.Keeps ρ log) (hinv : ρ.inv ⟨out.2.1, out.2.2⟩)
    (hlog : log <:+ out.2.2) (hnew : ∀ p ∈ out.1, p.Keeps ρ out.2.2) :
    (pool.settle out).Keeps ρ := by
  refine ⟨hinv, hqueue, fun p hp ↦ ?_⟩
  rcases List.mem_append.1 hp with hp | hp
  · exact (hparked p hp).mono hlog
  · exact hnew p (Option.mem_toList.1 hp)

/-- The step lemma of a pool. -/
theorem Pool.keeps_step {env : Env I} (henv : env.Obeys ρ) (halone : ¬ ρ.alone) {cap : ℕ}
    {pool pool' : Pool I σ} (h : pool.Keeps ρ) (hstep : pool.step env cap = some pool') :
    pool'.Keeps ρ := by
  rcases step_cases hstep with rfl | ⟨t, out, ht, -, hout, rfl⟩ | ⟨p, i, out, hp, hout, rfl⟩
  · exact h
  · obtain ⟨hinv, hlog, hnew⟩ :=
      Res.advance_of_wp henv halone (h.queue t (List.mem_of_mem_head? ht) _ h.inv) hout
    exact keeps_settle (fun t' ht' ↦ h.queue t' (List.mem_of_mem_tail ht')) h.parked hinv hlog hnew
  · have hwp := h.parked p (List.mem_of_getElem? hp) _ h.inv (List.suffix_refl _) _
      (henv.answer pool.log p.query)
    obtain ⟨hinv, hlog, hnew⟩ := Res.advance_of_wp henv halone hwp hout
    exact keeps_settle h.queue (fun p' hp' ↦ h.parked p' (List.mem_of_mem_eraseIdx hp')) hinv
      ((List.suffix_cons _ _).trans hlog) hnew

/-- The run lemma: a pool whose tasks keep the invariant ends in the invariant. -/
theorem gather_of_wp {env : Env I} (henv : env.Obeys ρ) (halone : ¬ ρ.alone) {cap fuel : ℕ}
    {tasks : List (Coro I σ Unit)} {s s' : σ} {log log' : Log I} (hinv : ρ.inv ⟨s, log⟩)
    (htasks : ∀ t ∈ tasks, t.Keeps ρ) (hrun : gather env cap fuel tasks s log = some (s', log')) :
    ρ.inv ⟨s', log'⟩ := by
  have hpool : ∀ n (pool : Pool I σ), pool.Keeps ρ → Pool.run env cap n pool = some (s', log') →
      ρ.inv ⟨s', log'⟩ := by
    intro n
    induction n with
    | zero => exact fun _ _ hrun ↦ (Option.some_ne_none _ hrun.symm).elim
    | succ n ih =>
      intro pool h hrun
      rw [Pool.run] at hrun
      split at hrun
      · obtain ⟨rfl, rfl⟩ : pool.st = s' ∧ pool.log = log' := by simpa using hrun
        exact h.inv
      · obtain ⟨pool', hstep, hrun'⟩ := Option.bind_eq_some_iff.1 hrun
        exact ih pool' (Pool.keeps_step henv halone h hstep) hrun'
  exact hpool fuel _ ⟨hinv, htasks, fun p hp ↦ absurd hp List.not_mem_nil⟩ hrun

end Coop
