import Mathlib.Logic.Basic
import Mathlib.Data.List.Infix

/-!
# Cooperative tasks

A task is code that runs on a shared state and gives way only where it waits for an answer. Its
course is a tree (`Res`): it ends, it asks and waits (`ask`, the one place where another task may
run), it takes a reading of the environment without waiting (`poll`), or it puts a mark in the log,
which only an observer sees. A loop carries fuel; `spin` is a loop that ran out of it.

An environment answers every question and every reading, and may use all that happened before, the
log, to do so. `Res.run` is a task alone with an environment.

## Why a tree

A coroutine may be interrupted only where it awaits, so what lies between two waits is one step on
the shared state, and no other task sees its middle. `ask` therefore hands the state over and
takes back whatever the others have made of it, while `poll` and `mark` keep it.

* `Coro.get`, `Coro.modify`, `Coro.poll`, `Coro.ask`, `Coro.mark`: what programs are written in,
  with the `do` notation.
* `Pool`, `Pool.step`, `gather`: tasks that wait in a queue behind a limit on how many are under
  way at once; the environment picks which of those that can go on does.
* `Pool.step_cases`: all that one step of a pool can be, once and for all.
* `Res.suffix_of_run`, `Pool.suffix_of_run`: the log is only ever added to.

Nothing here says what a task is for, or what the environment may answer.
-/

namespace Coop

/-- What tasks may do besides working on their state. -/
structure Interface where
  /-- What a task may look at without giving way. -/
  Probe : Type
  /-- What it may ask and wait for. -/
  Query : Type
  /-- What it may be answered. -/
  Reply : Type
  /-- What it may note for an observer. -/
  Mark : Type

variable {I : Interface} {σ α β : Type}

/-- An entry of the log. -/
inductive Event (I : Interface)
  /-- A reading, and what it said. -/
  | polled (p : I.Probe) (yes : Bool)
  /-- A question, with its answer. It is entered when the task goes on, not when it asks. -/
  | asked (q : I.Query) (r : I.Reply)
  /-- A mark. -/
  | marked (m : I.Mark)

/-- What happened, the latest first. -/
abbrev Log (I : Interface) := List (Event I)

/-- The course of a task from one of its steps. -/
inductive Res (I : Interface) (σ α : Type)
  /-- It ends. -/
  | done (a : α) (s : σ)
  /-- A loop has run out of fuel. -/
  | spin
  /-- It takes a reading, and goes on with what that says. -/
  | poll (p : I.Probe) (k : Bool → Res I σ α)
  /-- It leaves a mark, and goes on. -/
  | mark (m : I.Mark) (k : Res I σ α)
  /-- It hands over the state and waits; the rest begins in the state it is given back. -/
  | ask (q : I.Query) (s : σ) (k : I.Reply → σ → Res I σ α)

/-- A task: its course from the state it finds. -/
def Coro (I : Interface) (σ α : Type) := σ → Res I σ α

/-- Go on with `f` where the course ends. -/
def Res.bind (f : α → Coro I σ β) : Res I σ α → Res I σ β
  | done a s => f a s
  | spin => spin
  | poll p k => poll p fun yes ↦ (k yes).bind f
  | mark m k => mark m (k.bind f)
  | ask q s k => ask q s fun r s' ↦ (k r s').bind f

namespace Coro

instance : Monad (Coro I σ) where
  pure a := fun s ↦ .done a s
  bind t f := fun s ↦ (t s).bind f

/-- The state. -/
def get : Coro I σ σ := fun s ↦ .done s s

/-- Change the state. -/
def modify (f : σ → σ) : Coro I σ Unit := fun s ↦ .done () (f s)

/-- Take a reading. -/
def poll (p : I.Probe) : Coro I σ Bool := fun s ↦ .poll p fun yes ↦ .done yes s

/-- Ask, and wait for the answer. -/
def ask (q : I.Query) : Coro I σ I.Reply := fun s ↦ .ask q s fun r s' ↦ .done r s'

/-- Leave a mark in the log. -/
def mark (m : I.Mark) : Coro I σ Unit := fun s ↦ .mark m (.done () s)

/-- Run out of fuel. -/
def spin : Coro I σ α := fun _ ↦ .spin

end Coro

/-- What answers the tasks. -/
structure Env (I : Interface) where
  /-- What a reading says. -/
  reading : Log I → I.Probe → Bool
  /-- What a question is answered. -/
  reply : Log I → I.Query → I.Reply
  /-- Which of several tasks that can go on does. -/
  pick : Log I → ℕ

/-- A course alone with an environment. -/
def Res.run (env : Env I) : Res I σ α → Log I → Option (α × σ × Log I)
  | done a s, log => some (a, s, log)
  | spin, _ => none
  | poll p k, log =>
    let yes := env.reading log p
    (k yes).run env (.polled p yes :: log)
  | mark m k, log => k.run env (.marked m :: log)
  | ask q s k, log =>
    let r := env.reply log q
    (k r s).run env (.asked q r :: log)

/-- A task alone with an environment. -/
def Coro.run (env : Env I) (t : Coro I σ α) (s : σ) (log : Log I) : Option (α × σ × Log I) :=
  (t s).run env log

/-- A computation in two parts runs the second from where the first ends. -/
theorem Res.run_bind {env : Env I} {x : Res I σ α} {f : α → Coro I σ β} {log : Log I} :
    (x.bind f).run env log =
      (x.run env log).bind fun out ↦ (f out.1).run env out.2.1 out.2.2 := by
  induction x generalizing log with
  | done a s => rfl
  | spin => rfl
  | poll p k ih => exact ih _
  | mark m k ih => exact ih
  | ask q s k ih => exact ih _ _

/-- The same of a coroutine, whose first part may wait many times. -/
theorem Coro.run_bind {env : Env I} {t : Coro I σ α} {f : α → Coro I σ β} {s : σ} {log : Log I} :
    (t >>= f).run env s log =
      (t.run env s log).bind fun out ↦ (f out.1).run env out.2.1 out.2.2 :=
  Res.run_bind

/-- To return at once after a computation is that computation. -/
theorem Res.bind_done {x : Res I σ α} : x.bind (fun a s ↦ .done a s) = x := by
  induction x with
  | done a s => rfl
  | spin => rfl
  | poll p k ih => exact congrArg (Res.poll p) (funext ih)
  | mark m k ih => exact congrArg (Res.mark m) ih
  | ask q s k ih => exact congrArg (Res.ask q s) (funext fun r ↦ funext (ih r))

/-- How the parts are grouped does not matter. -/
theorem Res.bind_assoc {γ : Type} {x : Res I σ α} {f : α → Coro I σ β} {g : β → Coro I σ γ} :
    (x.bind f).bind g = x.bind fun a s ↦ (f a s).bind g := by
  induction x with
  | done a s => rfl
  | spin => rfl
  | poll p k ih => exact congrArg (Res.poll p) (funext ih)
  | mark m k ih => exact congrArg (Res.mark m) ih
  | ask q s k ih => exact congrArg (Res.ask q s) (funext fun r ↦ funext (ih r))

instance : LawfulMonad (Coro I σ) :=
  LawfulMonad.mk' _ (fun _ ↦ funext fun _ ↦ Res.bind_done) (fun _ _ ↦ rfl)
    fun _ _ _ ↦ funext fun _ ↦ Res.bind_assoc

/-! ### Many tasks, a few at a time -/

/-- A task that waits for an answer. -/
structure Parked (I : Interface) (σ : Type) where
  /-- What it has asked. -/
  query : I.Query
  /-- How it goes on. -/
  resume : I.Reply → σ → Res I σ Unit

/-- A course up to where it waits or ends: the state and the log there, and what waits. -/
def Res.advance (env : Env I) : Res I σ Unit → Log I → Option (Option (Parked I σ) × σ × Log I)
  | done _ s, log => some (none, s, log)
  | spin, _ => none
  | poll p k, log =>
    let yes := env.reading log p
    (k yes).advance env (.polled p yes :: log)
  | mark m k, log => k.advance env (.marked m :: log)
  | ask q s k, log => some (some ⟨q, k⟩, s, log)

/-- A pool of tasks on one state: those not started, and those that wait. -/
structure Pool (I : Interface) (σ : Type) where
  /-- Those not started, the next one first. -/
  queue : List (Coro I σ Unit)
  /-- Those that wait, in no order that matters. -/
  parked : List (Parked I σ)
  /-- The state they share. -/
  st : σ
  /-- What happened so far. -/
  log : Log I

/-- What the pool does with the task it let go on. -/
def Pool.settle (pool : Pool I σ) (out : Option (Parked I σ) × σ × Log I) : Pool I σ :=
  { pool with parked := pool.parked ++ out.1.toList, st := out.2.1, log := out.2.2 }

/-- One move of a pool that has `cap` tasks under way at most: start the next task, or answer one
that waits. The environment picks; `none` is a task that ran out of fuel. -/
def Pool.step (env : Env I) (cap : ℕ) (pool : Pool I σ) : Option (Pool I σ) :=
  let start := if pool.parked.length < cap then pool.queue.head? else none
  let choice := env.pick pool.log % (start.toList.length + pool.parked.length)
  match start, choice with
  | some t, 0 =>
    ((t pool.st).advance env pool.log).map { pool with queue := pool.queue.tail }.settle
  | start, choice =>
    match pool.parked[choice - start.toList.length]? with
    | none => some pool
    | some p =>
      let r := env.reply pool.log p.query
      ((p.resume r pool.st).advance env (.asked p.query r :: pool.log)).map
        { pool with parked := pool.parked.eraseIdx (choice - start.toList.length) }.settle

/-- Whether every task of the pool has ended. -/
def Pool.finished (pool : Pool I σ) : Bool := pool.queue.isEmpty && pool.parked.isEmpty

/-- The pool until every task has ended. -/
def Pool.run (env : Env I) (cap : ℕ) : ℕ → Pool I σ → Option (σ × Log I)
  | 0, _ => none
  | n + 1, pool =>
    if pool.finished then some (pool.st, pool.log)
    else (pool.step env cap).bind (Pool.run env cap n)

/-- The pool after a number of moves. -/
def Pool.moves (env : Env I) (cap : ℕ) : ℕ → Pool I σ → Option (Pool I σ)
  | 0, pool => some pool
  | n + 1, pool => (pool.step env cap).bind (Pool.moves env cap n)

/-- `asyncio.gather` of tasks behind a semaphore. -/
def gather (env : Env I) (cap fuel : ℕ) (tasks : List (Coro I σ Unit)) (s : σ) (log : Log I) :
    Option (σ × Log I) :=
  Pool.run env cap fuel ⟨tasks, [], s, log⟩

variable {env : Env I}

/-- What a move of a pool can be: none, the start of the next task while there are fewer than `cap`
under way, or the answer to one that waited. -/
theorem Pool.step_cases {cap : ℕ} {pool pool' : Pool I σ} (h : pool.step env cap = some pool') :
    pool' = pool ∨
    (∃ t out, pool.queue.head? = some t ∧ pool.parked.length < cap ∧
      (t pool.st).advance env pool.log = some out ∧
      pool' = { pool with queue := pool.queue.tail }.settle out) ∨
    ∃ p i out, pool.parked[i]? = some p ∧
      (p.resume (env.reply pool.log p.query) pool.st).advance env
        (.asked p.query (env.reply pool.log p.query) :: pool.log) = some out ∧
      pool' = { pool with parked := pool.parked.eraseIdx i }.settle out := by
  rw [step] at h
  dsimp only at h
  split at h
  case h_1 _ _ t hstart _ =>
    obtain ⟨out, hout, rfl⟩ := Option.map_eq_some_iff.1 h
    split at hstart
    case isTrue hcap => exact .inr (.inl ⟨t, out, hstart, hcap, hout, rfl⟩)
    case isFalse => cases hstart
  case h_2 =>
    split at h
    case h_1 => exact .inl (Option.some.inj h).symm
    case h_2 p hp =>
      obtain ⟨out, hout, rfl⟩ := Option.map_eq_some_iff.1 h
      exact .inr (.inr ⟨p, _, out, hp, hout, rfl⟩)

/-! ### The log only grows -/

/-- A run only adds to the log, in front of what is there. -/
theorem Res.suffix_of_run {x : Res I σ α} {log : Log I} {out : α × σ × Log I}
    (h : x.run env log = some out) : log <:+ out.2.2 := by
  induction x generalizing log with
  | done a s => exact Option.some.inj h ▸ List.suffix_refl _
  | spin => cases h
  | poll p k ih => exact (List.suffix_cons _ _).trans (ih _ h)
  | mark m k ih => exact (List.suffix_cons _ _).trans (ih h)
  | ask q s k ih => exact (List.suffix_cons _ _).trans (ih _ _ h)

theorem Res.suffix_of_advance {x : Res I σ Unit} {log : Log I}
    {out : Option (Parked I σ) × σ × Log I} (h : x.advance env log = some out) :
    log <:+ out.2.2 := by
  induction x generalizing log with
  | done a s => exact Option.some.inj h ▸ List.suffix_refl _
  | spin => cases h
  | poll p k ih => exact (List.suffix_cons _ _).trans (ih _ h)
  | mark m k ih => exact (List.suffix_cons _ _).trans (ih h)
  | ask q s k ih => exact Option.some.inj h ▸ List.suffix_refl _

/-- And a step of the pool, which is one stretch of one task. -/
theorem Pool.suffix_of_step {cap : ℕ} {pool pool' : Pool I σ}
    (h : pool.step env cap = some pool') : pool.log <:+ pool'.log := by
  rcases step_cases h with rfl | ⟨t, out, -, -, hout, rfl⟩ | ⟨p, i, out, -, hout, rfl⟩
  · exact List.suffix_refl _
  · exact Res.suffix_of_advance hout
  · exact (List.suffix_cons _ _).trans (Res.suffix_of_advance hout)

theorem Pool.suffix_of_run {cap n : ℕ} {pool : Pool I σ} {s' : σ} {log' : Log I}
    (h : Pool.run env cap n pool = some (s', log')) : pool.log <:+ log' := by
  induction n generalizing pool with
  | zero => cases h
  | succ n ih =>
    rw [Pool.run] at h
    split at h
    · exact (Prod.mk.inj (Option.some.inj h)).2 ▸ List.suffix_refl _
    · obtain ⟨pool', hstep, hrun⟩ := Option.bind_eq_some_iff.1 h
      exact (suffix_of_step hstep).trans (ih hrun)

theorem suffix_of_gather {cap fuel : ℕ} {tasks : List (Coro I σ Unit)} {s s' : σ}
    {log log' : Log I} (h : gather env cap fuel tasks s log = some (s', log')) : log <:+ log' :=
  Pool.suffix_of_run h

end Coop
