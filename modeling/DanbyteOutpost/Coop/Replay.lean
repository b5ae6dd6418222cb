import DanbyteOutpost.Coop.Coro

/-!
# The log determines the run

An environment replays a log when it would take every reading and answer every question in it the
same way. A run's environment replays the run's log; and any other environment that does, and lets
tasks go on in the same order, has the same run.

An environment is a function of the whole log, so nothing is assumed of how its answers hang
together; that they can be read off the log of a run is the content of this module. It is what
turns "the environment would have answered the same" into an equation between two runs: of one
task (`Res.run_of_replays`), of a pool step by step (`Pool.step_of_replays`), and of a whole
`gather` (`gather_of_replays`).
-/

namespace Coop

variable {I : Interface} {σ α : Type}

/-- The environment says what the log says, at every point of it. -/
def Env.Replays (env : Env I) : Log I → Prop
  | [] => True
  | .polled p yes :: log => env.reading log p = yes ∧ env.Replays log
  | .asked q r :: log => env.reply log q = r ∧ env.Replays log
  | .marked _ :: log => env.Replays log

variable {env env' : Env I}

/-- An environment that would have answered the whole log as it did would have answered any earlier
part of it so. -/
theorem Env.Replays.suffix {log log' : Log I} (h : env.Replays log') (hlog : log <:+ log') :
    env.Replays log := by
  obtain ⟨before, rfl⟩ := hlog
  induction before with
  | nil => exact h
  | cons e before ih =>
    cases e with
    | polled p yes => exact ih h.2
    | asked q r => exact ih h.2
    | marked m => exact ih h

/-- What the environment replays at every point of a log, it replays. -/
theorem Env.replays_of_forall {log : Log I}
    (hpoll : ∀ p yes before, .polled p yes :: before <:+ log → env.reading before p = yes)
    (hask : ∀ q r before, .asked q r :: before <:+ log → env.reply before q = r) :
    env.Replays log := by
  induction log with
  | nil => trivial
  | cons e log ih =>
    have hrest : env.Replays log :=
      ih (fun p yes before h ↦ hpoll p yes before (h.trans (List.suffix_cons _ _)))
        fun q r before h ↦ hask q r before (h.trans (List.suffix_cons _ _))
    cases e with
    | polled p yes => exact ⟨hpoll p yes log (List.suffix_refl _), hrest⟩
    | asked q r => exact ⟨hask q r log (List.suffix_refl _), hrest⟩
    | marked m => exact hrest

/-! ### One task -/

/-- A run leaves a log that its own environment replays. -/
theorem Res.replays_of_run {x : Res I σ α} {log : Log I} {out : α × σ × Log I}
    (hlog : env.Replays log) (h : x.run env log = some out) : env.Replays out.2.2 := by
  induction x generalizing log with
  | done a s => exact Option.some.inj h ▸ hlog
  | spin => cases h
  | poll p k ih =>
    have hlog' : env.Replays (.polled p (env.reading log p) :: log) := ⟨rfl, hlog⟩
    exact ih _ hlog' h
  | mark m k ih =>
    have hlog' : env.Replays (.marked m :: log) := hlog
    exact ih hlog' h
  | ask q s k ih =>
    have hlog' : env.Replays (.asked q (env.reply log q) :: log) := ⟨rfl, hlog⟩
    exact ih _ _ hlog' h

/-- An environment that replays the log of a course has the same course. -/
theorem Res.run_of_replays {x : Res I σ α} {log : Log I} {out : α × σ × Log I}
    (h : x.run env log = some out) (hreplays : env'.Replays out.2.2) :
    x.run env' log = some out := by
  induction x generalizing log with
  | done a s => exact h
  | spin => cases h
  | poll p k ih =>
    have hsuffix : .polled p (env.reading log p) :: log <:+ out.2.2 := suffix_of_run h
    have hhere := (hreplays.suffix hsuffix).1
    rw [run, hhere]
    exact ih _ h
  | mark m k ih => exact ih h
  | ask q s k ih =>
    have hsuffix : .asked q (env.reply log q) :: log <:+ out.2.2 := suffix_of_run h
    have hhere := (hreplays.suffix hsuffix).1
    rw [run, hhere]
    exact ih _ _ h

/-! ### A pool -/

theorem Res.replays_of_advance {x : Res I σ Unit} {log : Log I}
    {out : Option (Parked I σ) × σ × Log I} (hlog : env.Replays log)
    (h : x.advance env log = some out) : env.Replays out.2.2 := by
  induction x generalizing log with
  | done a s => exact Option.some.inj h ▸ hlog
  | spin => cases h
  | poll p k ih =>
    have hlog' : env.Replays (.polled p (env.reading log p) :: log) := ⟨rfl, hlog⟩
    exact ih _ hlog' h
  | mark m k ih =>
    have hlog' : env.Replays (.marked m :: log) := hlog
    exact ih hlog' h
  | ask q s k ih => exact Option.some.inj h ▸ hlog

/-- And any environment that replays the log takes the same stretch. -/
theorem Res.advance_of_replays {x : Res I σ Unit} {log : Log I}
    {out : Option (Parked I σ) × σ × Log I} (h : x.advance env log = some out)
    (hreplays : env'.Replays out.2.2) : x.advance env' log = some out := by
  induction x generalizing log with
  | done a s => exact h
  | spin => cases h
  | poll p k ih =>
    have hsuffix : .polled p (env.reading log p) :: log <:+ out.2.2 := suffix_of_advance h
    have hhere := (hreplays.suffix hsuffix).1
    rw [advance, hhere]
    exact ih _ h
  | mark m k ih => exact ih h
  | ask q s k ih => exact h

theorem Pool.replays_of_step {cap : ℕ} {pool pool' : Pool I σ} (hlog : env.Replays pool.log)
    (h : pool.step env cap = some pool') : env.Replays pool'.log := by
  rcases step_cases h with rfl | ⟨t, out, -, -, hout, rfl⟩ | ⟨p, i, out, -, hout, rfl⟩
  · exact hlog
  · exact Res.replays_of_advance hlog hout
  · have hlog' : env.Replays (.asked p.query (env.reply pool.log p.query) :: pool.log) :=
      ⟨rfl, hlog⟩
    exact Res.replays_of_advance hlog' hout

/-- And forwards, if the other environment picks the tasks in the same order. -/
theorem Pool.step_of_replays {cap : ℕ} {pool pool' : Pool I σ} (hpick : env'.pick = env.pick)
    (h : pool.step env cap = some pool') (hreplays : env'.Replays pool'.log) :
    pool.step env' cap = some pool' := by
  rw [step] at h ⊢
  rw [hpick]
  dsimp only at h ⊢
  split at h
  case h_1 =>
    obtain ⟨out, hout, rfl⟩ := Option.map_eq_some_iff.1 h
    exact Option.map_eq_some_iff.2 ⟨out, Res.advance_of_replays hout hreplays, rfl⟩
  case h_2 =>
    split at h
    case h_1 => exact h
    case h_2 p hp =>
      obtain ⟨out, hout, rfl⟩ := Option.map_eq_some_iff.1 h
      have hsuffix : .asked p.query (env.reply pool.log p.query) :: pool.log <:+ out.2.2 :=
        Res.suffix_of_advance hout
      have hhere := (hreplays.suffix hsuffix).1
      rw [hhere]
      exact Option.map_eq_some_iff.2 ⟨out, Res.advance_of_replays hout hreplays, rfl⟩

/-- A run of the pool leaves a log that its own environment replays. -/
theorem Pool.replays_of_run {cap n : ℕ} {pool : Pool I σ} {out : σ × Log I}
    (hlog : env.Replays pool.log) (h : Pool.run env cap n pool = some out) :
    env.Replays out.2 := by
  induction n generalizing pool with
  | zero => cases h
  | succ n ih =>
    rw [Pool.run] at h
    split at h
    · exact Option.some.inj h ▸ hlog
    · obtain ⟨pool', hstep, hrun⟩ := Option.bind_eq_some_iff.1 h
      exact ih (replays_of_step hlog hstep) hrun

/-- And an environment that replays the log runs the pool alike. -/
theorem Pool.run_of_replays {cap n : ℕ} {pool : Pool I σ} {out : σ × Log I}
    (hpick : env'.pick = env.pick) (h : Pool.run env cap n pool = some out)
    (hreplays : env'.Replays out.2) : Pool.run env' cap n pool = some out := by
  induction n generalizing pool with
  | zero => cases h
  | succ n ih =>
    rw [Pool.run] at h ⊢
    split at h
    case isTrue hdone => rwa [if_pos hdone]
    case isFalse hgoes =>
      rw [if_neg hgoes]
      obtain ⟨pool', hstep, hrun⟩ := Option.bind_eq_some_iff.1 h
      have hrest := hreplays.suffix (suffix_of_run hrun)
      exact Option.bind_eq_some_iff.2 ⟨pool', step_of_replays hpick hstep hrest, ih hrun⟩

theorem replays_of_gather {cap fuel : ℕ} {tasks : List (Coro I σ Unit)} {s : σ} {log : Log I}
    {out : σ × Log I} (hlog : env.Replays log) (h : gather env cap fuel tasks s log = some out) :
    env.Replays out.2 :=
  Pool.replays_of_run hlog h

/-- An environment that replays the log of a pool, and picks as the pool's did, has the same run. -/
theorem gather_of_replays {cap fuel : ℕ} {tasks : List (Coro I σ Unit)} {s : σ} {log : Log I}
    {out : σ × Log I} (hpick : env'.pick = env.pick)
    (h : gather env cap fuel tasks s log = some out) (hreplays : env'.Replays out.2) :
    gather env' cap fuel tasks s log = some out :=
  Pool.run_of_replays hpick h hreplays

end Coop
