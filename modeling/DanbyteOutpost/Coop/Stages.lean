import DanbyteOutpost.Coop.Wp
import Mathlib.Data.List.Perm.Basic
import Mathlib.Data.Multiset.ZeroCons
import Mathlib.Logic.Relation

/-!
# The stages of a pool

An abstract machine for a pool. A task is known by the stage it is at; a `Course` says how a task
may go from stage to stage and what it does to the world on its way, and what it may be waiting for
at a stage. `Res.follows` is the proof obligation of a task: from one wait to the next it only does
what its course has steps for. `Pool.follows_of_step` is the simulation: a pool whose tasks follow a
course moves as a crew does, which is the queue of stages, those of the tasks under way, and the
world. So what every step of a crew preserves holds of every state of the pool, and the steps may be
told apart by stage.

## The three layers

* A `Course` is the abstract machine of one task. Its stages are chosen by whoever verifies the
  task, and there may be far fewer of them than there are places in the program.
* `Coro.follows` relates a program to the course, and is composed along its text by `follows_bind`
  as the weakest precondition is.
* A `Crew` has only the stages of the tasks left, the queue of those that have not begun, and the
  world. `Crew.Step` says how a crew moves.

`Pool.reaches_of_run` and `reaches_of_gather` take a run of the program to a run of its crew. From
there on a safety property needs an invariant of crews alone (`Crew.Reaches.keeps`), and the text
of the program is not looked at again.
-/

namespace Coop

variable {I : Interface} {σ L α β : Type}

/-- The stage of a task, in a world. -/
structure Place (I : Interface) (σ L : Type) where
  /-- Where the task is. -/
  stage : L
  /-- The state it finds, and what happened so far. -/
  world : World I σ

/-- What an environment may answer. -/
structure Allowed (I : Interface) where
  /-- To a question, after what happened. -/
  answer : Log I → I.Query → I.Reply → Prop
  /-- To a reading, after what happened. -/
  reading : Log I → I.Probe → Bool → Prop

/-- What tasks do, by the stage each is at. -/
structure Course (I : Interface) (σ L : Type) extends Allowed I where
  /-- What a task may be waiting for at a stage. -/
  asks : L → I.Query → Prop
  /-- From one place to the next, with what the task does to the world. -/
  step : Place I σ L → Place I σ L → Prop
  /-- From its last place to the world it leaves. -/
  stop : Place I σ L → World I σ → Prop

variable {C : Course I σ L}

namespace Course

/-- Steps of a task. -/
def Reaches (C : Course I σ L) : Place I σ L → Place I σ L → Prop := Relation.ReflTransGen C.step

/-- Steps of a task to its end. -/
def Stops (C : Course I σ L) (p : Place I σ L) (w : World I σ) : Prop :=
  ∃ p', C.Reaches p p' ∧ C.stop p' w

theorem Reaches.refl (p : Place I σ L) : C.Reaches p p := Relation.ReflTransGen.refl

theorem Reaches.step {p p' p'' : Place I σ L} (h : C.Reaches p p') (hstep : C.step p' p'') :
    C.Reaches p p'' :=
  Relation.ReflTransGen.tail h hstep

/-- What stops where one gets to has stopped. -/
theorem Reaches.stops {p p' : Place I σ L} {w : World I σ} (h : C.Reaches p p')
    (hstop : C.stop p' w) : C.Stops p w :=
  ⟨p', h, hstop⟩

end Course

/-! ### Tasks that follow a course -/

/-- Since it was at the place `p`, a task has only done what its course has steps for; where it
waits it is at a stage again, and so on from there. `post` is told the place at which the last
stretch began. -/
def Res.follows (C : Course I σ L) (post : α → Place I σ L → World I σ → Prop) :
    Res I σ α → Place I σ L → Log I → Prop
  | done a s, p, log => post a p ⟨s, log⟩
  | spin, _, _ => True
  | poll q k, p, log => ∀ yes, C.reading log q yes → (k yes).follows C post p (.polled q yes :: log)
  | mark m k, p, log => k.follows C post p (.marked m :: log)
  | ask q s k, p, log => ∃ l, C.asks l q ∧ C.Reaches p ⟨l, ⟨s, log⟩⟩ ∧
      ∀ w, log <:+ w.log → ∀ r, C.answer w.log q r →
        (k r w.st).follows C post ⟨l, w⟩ (.asked q r :: w.log)

/-- A task in a world, since it was at a place. -/
def Coro.follows (C : Course I σ L) (t : Coro I σ α)
    (post : α → Place I σ L → World I σ → Prop) (p : Place I σ L) (w : World I σ) : Prop :=
  (t w.st).follows C post p w.log

/-- A weaker end is come to, too; the log at the end has the log at the start in it. -/
theorem Res.follows_mono {post post' : α → Place I σ L → World I σ → Prop} {x : Res I σ α}
    {p : Place I σ L} {log : Log I} (h : x.follows C post p log)
    (himp : ∀ a p w, log <:+ w.log → post a p w → post' a p w) : x.follows C post' p log := by
  induction x generalizing p log with
  | done a s => exact himp a p _ (List.suffix_refl _) h
  | spin => trivial
  | poll q k ih =>
    exact fun yes hyes ↦ ih yes (h yes hyes) fun a p w hlog ↦
      himp a p w ((List.suffix_cons _ _).trans hlog)
  | mark m k ih => exact ih h fun a p w hlog ↦ himp a p w ((List.suffix_cons _ _).trans hlog)
  | ask q s k ih =>
    obtain ⟨l, hasks, hreaches, hrest⟩ := h
    refine ⟨l, hasks, hreaches, fun w hw r hr ↦ ih r w.st (hrest w hw r hr) fun a p w' hlog ↦ ?_⟩
    exact himp a p w' (hw.trans ((List.suffix_cons _ _).trans hlog))

/-- A computation in two parts follows the course if its first part does, up to where the second
does. -/
theorem Res.follows_bind {post : β → Place I σ L → World I σ → Prop} {x : Res I σ α}
    {f : α → Coro I σ β} {p : Place I σ L} {log : Log I} :
    (x.bind f).follows C post p log ↔
      x.follows C (fun a p w ↦ (f a).follows C post p w) p log := by
  induction x generalizing p log with
  | done a s => exact Iff.rfl
  | spin => exact Iff.rfl
  | poll q k ih => exact forall_congr' fun yes ↦ imp_congr_right fun _ ↦ ih yes
  | mark m k ih => exact ih
  | ask q s k ih =>
    refine exists_congr fun l ↦ and_congr_right fun _ ↦ and_congr_right fun _ ↦ ?_
    refine forall_congr' fun w ↦ imp_congr_right fun _ ↦ ?_
    exact forall_congr' fun r ↦ imp_congr_right fun _ ↦ ih r w.st

namespace Coro

variable {post : β → Place I σ L → World I σ → Prop} {p : Place I σ L} {w : World I σ}

theorem follows_mono {t : Coro I σ β} {post' : β → Place I σ L → World I σ → Prop}
    (h : t.follows C post p w) (himp : ∀ a p w', w.log <:+ w'.log → post a p w' → post' a p w') :
    t.follows C post' p w :=
  Res.follows_mono h himp

/-- A task in two parts follows the course in two parts. -/
theorem follows_bind {t : Coro I σ α} {f : α → Coro I σ β} :
    (t >>= f).follows C post p w ↔ t.follows C (fun a p w ↦ (f a).follows C post p w) p w :=
  Res.follows_bind

/-- What is made of the result is of no concern to the course. -/
theorem follows_map {t : Coro I σ α} {f : α → β} :
    (f <$> t).follows C post p w ↔ t.follows C (fun a p w ↦ post (f a) p w) p w := by
  rw [map_eq_pure_bind, follows_bind]
  exact Iff.rfl

theorem follows_get {post : σ → Place I σ L → World I σ → Prop} :
    (get : Coro I σ σ).follows C post p w ↔ post w.st p w := Iff.rfl

/-- To write the state is no step by itself: the next request, or the end, is where the course
looks. -/
theorem follows_modify {post : Unit → Place I σ L → World I σ → Prop} {f : σ → σ} :
    (modify f).follows C post p w ↔ post () p ⟨f w.st, w.log⟩ := Iff.rfl

/-- A reading of the clock is followed whatever it says, as far as the course allows it to say
so. -/
theorem follows_poll {post : Bool → Place I σ L → World I σ → Prop} {q : I.Probe} :
    (poll q).follows C post p w ↔
      ∀ yes, C.reading w.log q yes → post yes p ⟨w.st, .polled q yes :: w.log⟩ := Iff.rfl

theorem follows_mark {post : Unit → Place I σ L → World I σ → Prop} {m : I.Mark} :
    (mark m).follows C post p w ↔ post () p ⟨w.st, .marked m :: w.log⟩ := Iff.rfl

/-- From a stage, a task follows its course to the end. -/
def Takes (C : Course I σ L) (t : Coro I σ Unit) (l : L) : Prop :=
  ∀ w, t.follows C (fun _ p w' ↦ C.Stops p w') ⟨l, w⟩ w

end Coro

/-- A waiting task is at a stage, and follows its course once it is answered. -/
structure Parked.At (C : Course I σ L) (log : Log I) (l : L) (p : Parked I σ) : Prop where
  /-- It waits for what is asked there. -/
  asks : C.asks l p.query
  /-- Whatever the others do in between. -/
  rest : ∀ w, log <:+ w.log → ∀ r, C.answer w.log p.query r →
    (p.resume r w.st).follows C (fun _ p w' ↦ C.Stops p w') ⟨l, w⟩ (.asked p.query r :: w.log)

/-- A waiting task stays at its stage while others add to the log. -/
theorem Parked.At.mono {log log' : Log I} {l : L} {p : Parked I σ} (h : p.At C log l)
    (hlog : log <:+ log') : p.At C log' l :=
  ⟨h.asks, fun w hw ↦ h.rest w (hlog.trans hw)⟩

/-! ### Crews -/

/-- The stages of the tasks not started, and of those under way, and the world. -/
structure Crew (I : Interface) (σ L : Type) where
  /-- In the order in which they are started. -/
  queue : List L
  /-- Which of them goes on is for the environment to say, so there is no order. -/
  flight : Multiset L
  /-- The state they share, and the log. -/
  world : World I σ

/-- A step of a crew that has `cap` tasks under way at most. -/
inductive Crew.Step (C : Course I σ L) (cap : ℕ) : Crew I σ L → Crew I σ L → Prop
  /-- The next one is started, where there is room. -/
  | start {l queue flight w} (h : flight.card < cap) :
    Step C cap ⟨l :: queue, flight, w⟩ ⟨queue, l ::ₘ flight, w⟩
  /-- One of those under way takes a step. -/
  | step {l l' queue flight w w'} (h : C.step ⟨l, w⟩ ⟨l', w'⟩) :
    Step C cap ⟨queue, l ::ₘ flight, w⟩ ⟨queue, l' ::ₘ flight, w'⟩
  /-- One of those under way ends. -/
  | stop {l queue flight w w'} (h : C.stop ⟨l, w⟩ w') :
    Step C cap ⟨queue, l ::ₘ flight, w⟩ ⟨queue, flight, w'⟩

/-- Steps of a crew. -/
def Crew.Reaches (C : Course I σ L) (cap : ℕ) : Crew I σ L → Crew I σ L → Prop :=
  Relation.ReflTransGen (Crew.Step C cap)

variable {cap : ℕ}

/-- The step lemma of crews gives the run lemma. -/
theorem Crew.Reaches.keeps {P : Crew I σ L → Prop}
    (hstep : ∀ crew crew', P crew → Crew.Step C cap crew crew' → P crew') {crew crew' : Crew I σ L}
    (h : Crew.Reaches C cap crew crew') (hP : P crew) : P crew' := by
  induction h with
  | refl => exact hP
  | tail _ hlast ih => exact hstep _ _ ih hlast

/-- One task moving along its course is a move of the crew. -/
theorem Crew.Reaches.of_course {p p' : Place I σ L} (h : C.Reaches p p') (queue : List L)
    (flight : Multiset L) :
    Crew.Reaches C cap ⟨queue, p.stage ::ₘ flight, p.world⟩
      ⟨queue, p'.stage ::ₘ flight, p'.world⟩ := by
  induction h with
  | refl => exact Relation.ReflTransGen.refl
  | tail _ hlast ih => exact ih.tail (.step hlast)

theorem Crew.Reaches.of_stops {p : Place I σ L} {w : World I σ} (h : C.Stops p w) (queue : List L)
    (flight : Multiset L) :
    Crew.Reaches C cap ⟨queue, p.stage ::ₘ flight, p.world⟩ ⟨queue, flight, w⟩ := by
  obtain ⟨p', hreaches, hstop⟩ := h
  exact (of_course hreaches queue flight).tail (.stop hstop)

/-! ### The simulation -/

/-- The environment answers as it may. -/
structure Env.Suits (env : Env I) (allowed : Allowed I) : Prop where
  /-- Every answer of its is allowed. -/
  answer : ∀ log q, allowed.answer log q (env.reply log q)
  /-- And so is every reading. -/
  reading : ∀ log p, allowed.reading log p (env.reading log p)

/-- What an environment does answer. -/
def Env.allowed (env : Env I) : Allowed I where
  answer := fun log q r ↦ r = env.reply log q
  reading := fun log p yes ↦ yes = env.reading log p

/-- An environment suits what it allows itself. -/
theorem Env.suits_allowed (env : Env I) : env.Suits env.allowed := ⟨fun _ _ ↦ rfl, fun _ _ ↦ rfl⟩

/-- The tasks of a pool are at the stages of a crew. -/
structure Pool.Follows (C : Course I σ L) (pool : Pool I σ) (crew : Crew I σ L) : Prop where
  /-- Each task that waits to be started takes the course from the stage it has there. -/
  queue : List.Forall₂ (fun t l ↦ Coro.Takes C t l) pool.queue crew.queue
  /-- Each task that waits for an answer is at the stage it has there. -/
  flight : ∃ ls : List L, ↑ls = crew.flight ∧
    List.Forall₂ (fun p l ↦ Parked.At C pool.log l p) pool.parked ls
  /-- They have one world. -/
  world : crew.world = ⟨pool.st, pool.log⟩

/-- What a stretch of a task that follows its course comes to. -/
theorem Res.follows_of_advance {env : Env I} (henv : env.Suits C.toAllowed) {x : Res I σ Unit}
    {p : Place I σ L} {log : Log I} (h : x.follows C (fun _ p w ↦ C.Stops p w) p log)
    {out : Option (Parked I σ) × σ × Log I} (hrun : x.advance env log = some out) :
    (out.1 = none ∧ C.Stops p ⟨out.2.1, out.2.2⟩) ∨
      ∃ parked l, out.1 = some parked ∧ parked.At C out.2.2 l ∧
        C.Reaches p ⟨l, ⟨out.2.1, out.2.2⟩⟩ := by
  induction x generalizing p log with
  | done a s =>
    obtain rfl := Option.some.inj hrun
    exact .inl ⟨rfl, h⟩
  | spin => cases hrun
  | poll q k ih => exact ih _ (h _ (henv.reading log q)) hrun
  | mark m k ih => exact ih h hrun
  | ask q s k ih =>
    obtain rfl := Option.some.inj hrun
    obtain ⟨l, hasks, hreaches, hrest⟩ := h
    exact .inr ⟨⟨q, k⟩, l, rfl, ⟨hasks, hrest⟩, hreaches⟩

variable {env : Env I} {pool pool' : Pool I σ} {crew : Crew I σ L}

/-- A stretch of one task of the pool, from a place of the crew. -/
theorem Pool.follows_settle (cap : ℕ) (pool : Pool I σ) (henv : env.Suits C.toAllowed)
    {x : Res I σ Unit} {p : Place I σ L} {log : Log I}
    (hx : x.follows C (fun _ p w ↦ C.Stops p w) p log)
    {out : Option (Parked I σ) × σ × Log I} (hrun : x.advance env log = some out)
    (hlog : pool.log <:+ log) {queue : List L}
    (hqueue : List.Forall₂ (fun t l ↦ Coro.Takes C t l) pool.queue queue) {ls : List L}
    (hparked : List.Forall₂ (fun p l ↦ Parked.At C pool.log l p) pool.parked ls) :
    ∃ crew', Crew.Reaches C cap ⟨queue, p.stage ::ₘ ↑ls, p.world⟩ crew' ∧
      (pool.settle out).Follows C crew' := by
  have hsuffix : pool.log <:+ out.2.2 := hlog.trans (Res.suffix_of_advance hrun)
  have hparked' : List.Forall₂ (fun p l ↦ Parked.At C out.2.2 l p) pool.parked ls :=
    hparked.imp fun p l h ↦ h.mono hsuffix
  rcases Res.follows_of_advance henv hx hrun with
    ⟨hnone, hstops⟩ | ⟨parked, l, hsome, hat, hreaches⟩
  · refine ⟨_, .of_stops hstops queue ls, hqueue, ⟨ls, rfl, ?_⟩, rfl⟩
    show List.Forall₂ _ (pool.parked ++ out.1.toList) ls
    rw [hnone, Option.toList_none, List.append_nil]
    exact hparked'
  · refine ⟨_, .of_course hreaches queue ls, hqueue, ⟨ls ++ [l], ?_, ?_⟩, rfl⟩
    · show ((ls ++ [l] : List L) : Multiset L) = ((l :: ls : List L) : Multiset L)
      exact Multiset.coe_eq_coe.2 (List.perm_append_singleton l ls)
    · show List.Forall₂ _ (pool.parked ++ out.1.toList) (ls ++ [l])
      rw [hsome]
      exact List.rel_append hparked' (.cons hat .nil)

/-- Two lists that match, match without the elements at one place; and the one taken out of the
second is the rest's missing member. -/
theorem forall₂_eraseIdx {γ δ : Type} {R : γ → δ → Prop} {xs : List γ} {ys : List δ}
    (h : List.Forall₂ R xs ys) {i : ℕ} {x : γ} (hx : xs[i]? = some x) :
    ∃ y, R x y ∧ List.Forall₂ R (xs.eraseIdx i) (ys.eraseIdx i) ∧
      (ys : Multiset δ) = y ::ₘ ↑(ys.eraseIdx i) := by
  induction h generalizing i with
  | nil => cases hx
  | @cons a b xs ys hab hrest ih =>
    cases i with
    | zero =>
      obtain rfl := Option.some.inj hx
      exact ⟨b, hab, hrest, rfl⟩
    | succ i =>
      obtain ⟨y, hy, herase, heq⟩ := ih hx
      refine ⟨y, hy, .cons hab herase, ?_⟩
      rw [List.eraseIdx_cons_succ, ← Multiset.cons_coe, heq, Multiset.cons_swap, Multiset.cons_coe]

/-- In two lists that match, each element has its partner. -/
theorem exists_of_mem_forall₂ {γ δ : Type} {R : γ → δ → Prop} {xs : List γ} {ys : List δ}
    (h : List.Forall₂ R xs ys) {y : δ} (hy : y ∈ ys) : ∃ x ∈ xs, R x y := by
  induction h with
  | nil => exact absurd hy List.not_mem_nil
  | cons hxy _ ih =>
    rcases List.mem_cons.1 hy with rfl | hy
    · exact ⟨_, List.mem_cons_self, hxy⟩
    · obtain ⟨x, hx, hxy⟩ := ih hy
      exact ⟨x, List.mem_cons_of_mem _ hx, hxy⟩

/-- Items that are paired with the same ones are paired. -/
theorem forall₂_of_common {γ δ ε : Type} {R : γ → δ → Prop} {S : ε → δ → Prop} {T : γ → ε → Prop}
    (himp : ∀ x y z, R x y → S z y → T x z) {xs : List γ} {ys : List δ} {zs : List ε}
    (h : List.Forall₂ R xs ys) (h' : List.Forall₂ S zs ys) : List.Forall₂ T xs zs := by
  induction h generalizing zs with
  | nil =>
    cases h'
    exact .nil
  | cons hxy _ ih =>
    cases h' with
    | cons hzy hrest => exact .cons (himp _ _ _ hxy hzy) (ih hrest)

/-- Some of the items on one side, in whatever order, are paired with some on the other. -/
theorem forall₂_of_subperm {γ δ : Type} {R : γ → δ → Prop} {xs : List γ} {ys ys' : List δ}
    (h : List.Forall₂ R xs ys) (hsub : ys'.Subperm ys) :
    ∃ xs', xs'.Subperm xs ∧ List.Forall₂ R xs' ys' := by
  have hsublist : ∀ {xs : List γ} {ys zs : List δ}, zs.Sublist ys → List.Forall₂ R xs ys →
      ∃ xs', xs'.Sublist xs ∧ List.Forall₂ R xs' zs := by
    intro xs ys zs hzs h
    induction hzs generalizing xs with
    | slnil => exact ⟨[], List.nil_sublist _, .nil⟩
    | cons y _ ih =>
      cases h with
      | cons hxy hrest =>
        obtain ⟨xs', hxs', hpairs⟩ := ih hrest
        exact ⟨xs', hxs'.cons _, hpairs⟩
    | cons_cons y _ ih =>
      cases h with
      | cons hxy hrest =>
        obtain ⟨xs', hxs', hpairs⟩ := ih hrest
        exact ⟨_, hxs'.cons_cons _, .cons hxy hpairs⟩
  obtain ⟨zs, hperm, hzs⟩ := hsub
  obtain ⟨xs', hxs', hpairs⟩ := hsublist hzs h
  obtain ⟨xs'', hpairs'', hperm''⟩ := List.perm_comp_forall₂ hperm.symm hpairs.flip
  exact ⟨xs'', hperm''.subperm.trans hxs'.subperm, hpairs''.flip⟩

/-- The simulation, for a move of the pool. -/
theorem Pool.follows_of_step (henv : env.Suits C.toAllowed) (h : pool.Follows C crew)
    (hstep : pool.step env cap = some pool') :
    ∃ crew', Crew.Reaches C cap crew crew' ∧ pool'.Follows C crew' := by
  obtain ⟨queue, flight, world⟩ := crew
  obtain ⟨hqueue, ⟨ls, hls, hparked⟩, hworld⟩ := h
  obtain rfl : world = ⟨pool.st, pool.log⟩ := hworld
  obtain rfl : ↑ls = flight := hls
  rcases step_cases hstep with rfl | ⟨t, out, ht, hcap, hout, rfl⟩ | ⟨p, i, out, hp, hout, rfl⟩
  · exact ⟨_, .refl, hqueue, ⟨ls, rfl, hparked⟩, rfl⟩
  · obtain ⟨rest, hrest⟩ := List.head?_eq_some_iff.1 ht
    rw [hrest] at hqueue
    cases hqueue with
    | @cons _ l _ ls' htask hqueue =>
    have hcard : Multiset.card (ls : Multiset L) < cap := by
      rw [Multiset.coe_card, ← hparked.length_eq]
      exact hcap
    have hqueue' : List.Forall₂ (fun t l ↦ Coro.Takes C t l) pool.queue.tail ls' := by
      rw [hrest]
      exact hqueue
    obtain ⟨crew', hreaches, hfollows⟩ := Pool.follows_settle cap
      { pool with queue := pool.queue.tail } henv (htask ⟨pool.st, pool.log⟩) hout
      (List.suffix_refl _) hqueue' hparked
    exact ⟨crew', .head (.start hcard) hreaches, hfollows⟩
  · obtain ⟨l, hat, hothers, heq⟩ := forall₂_eraseIdx hparked hp
    obtain ⟨crew', hreaches, hfollows⟩ := Pool.follows_settle cap
      { pool with parked := pool.parked.eraseIdx i } henv
      (hat.rest ⟨pool.st, pool.log⟩ (List.suffix_refl _) _ (henv.answer pool.log p.query)) hout
      (List.suffix_cons _ _) hqueue hothers
    rw [← heq] at hreaches
    exact ⟨crew', hreaches, hfollows⟩

/-! ### Runs -/

/-- The states a pool comes to. -/
def Pool.Reaches (env : Env I) (cap : ℕ) : Pool I σ → Pool I σ → Prop :=
  Relation.ReflTransGen fun pool pool' ↦ pool.step env cap = some pool'

/-- What the pool can come to, the crew can come to along with it: the run lemma of the
simulation. -/
theorem Pool.follows_of_reaches (henv : env.Suits C.toAllowed) (h : pool.Follows C crew)
    (hreaches : pool.Reaches env cap pool') :
    ∃ crew', Crew.Reaches C cap crew crew' ∧ pool'.Follows C crew' := by
  induction hreaches with
  | refl => exact ⟨crew, .refl, h⟩
  | tail _ hlast ih =>
    obtain ⟨crew₁, hreaches₁, h₁⟩ := ih
    obtain ⟨crew₂, hreaches₂, h₂⟩ := follows_of_step henv h₁ hlast
    exact ⟨crew₂, hreaches₁.trans hreaches₂, h₂⟩

/-- A number of steps of the pool is a way to where they lead. -/
theorem Pool.reaches_of_moves {n : ℕ} (h : pool.moves env cap n = some pool') :
    pool.Reaches env cap pool' := by
  induction n generalizing pool with
  | zero =>
    obtain rfl := Option.some.inj h
    exact .refl
  | succ n ih =>
    obtain ⟨pool₁, hstep, hmoves⟩ := Option.bind_eq_some_iff.1 h
    exact .head hstep (ih hmoves)

/-- A run of a pool ends where every task has. -/
theorem Pool.reaches_of_run {n : ℕ} {s' : σ} {log' : Log I}
    (h : Pool.run env cap n pool = some (s', log')) : pool.Reaches env cap ⟨[], [], s', log'⟩ := by
  induction n generalizing pool with
  | zero => cases h
  | succ n ih =>
    rw [Pool.run] at h
    split at h
    case isTrue hdone =>
      obtain ⟨rfl, rfl⟩ : pool.st = s' ∧ pool.log = log' := by simpa using h
      rw [finished, Bool.and_eq_true, List.isEmpty_iff, List.isEmpty_iff] at hdone
      obtain ⟨queue, parked, st, log⟩ := pool
      obtain ⟨rfl, rfl⟩ : queue = [] ∧ parked = [] := hdone
      exact .refl
    case isFalse =>
      obtain ⟨pool', hstep, hrun⟩ := Option.bind_eq_some_iff.1 h
      exact .head hstep (ih hrun)

/-- A course alone, as a pool of one task. -/
theorem Res.reaches_of_run {x : Res I σ Unit} {s' : σ} {log log' : Log I}
    (h : x.run env log = some ((), s', log')) : ∃ out, x.advance env log = some out ∧
      Pool.Reaches env 1 ⟨[], out.1.toList, out.2.1, out.2.2⟩ ⟨[], [], s', log'⟩ := by
  induction x generalizing log with
  | done a s =>
    obtain ⟨rfl, rfl⟩ : s = s' ∧ log = log' := by simpa [run] using h
    exact ⟨_, rfl, .refl⟩
  | spin => cases h
  | poll p k ih => exact ih _ h
  | mark m k ih => exact ih h
  | ask q s k ih =>
    obtain ⟨out, hout, hreaches⟩ := ih (env.reply log q) s h
    have hpick : env.pick log % 1 = 0 := Nat.mod_one _
    have hstep : Pool.step env 1 ⟨[], [⟨q, k⟩], s, log⟩ =
        some ⟨[], out.1.toList, out.2.1, out.2.2⟩ := by
      simp only [Pool.step, List.length_singleton, lt_irrefl, if_false, Option.toList_none,
        List.length_nil, Nat.zero_add, hpick, Nat.sub_zero, List.getElem?_cons_zero, hout,
        Option.map_some, List.eraseIdx_cons_zero, Pool.settle, List.nil_append]
    exact ⟨_, rfl, .head hstep hreaches⟩

/-- A task alone is a pool of one. -/
theorem Coro.reaches_of_run {t : Coro I σ α} {a : α} {s s' : σ} {log log' : Log I}
    (h : t.run env s log = some (a, s', log')) :
    Pool.Reaches env 1 ⟨[t >>= fun _ ↦ pure ()], [], s, log⟩ ⟨[], [], s', log'⟩ := by
  have hrun : ((t >>= fun _ ↦ pure ()) s : Res I σ Unit).run env log = some ((), s', log') := by
    have hbind : ((t >>= fun _ ↦ pure ()) s : Res I σ Unit).run env log =
        (t.run env s log).bind fun out ↦ some ((), out.2) := Coro.run_bind
    rw [hbind, h]
    rfl
  obtain ⟨out, hout, hreaches⟩ := Res.reaches_of_run hrun
  have hpick : env.pick log % 1 = 0 := Nat.mod_one _
  have hstep : Pool.step env 1 ⟨[t >>= fun _ ↦ pure ()], [], s, log⟩ =
      some ⟨[], out.1.toList, out.2.1, out.2.2⟩ := by
    simp only [Pool.step, List.length_nil, Nat.zero_lt_one, if_true, List.head?_cons,
      Option.toList_some, List.length_singleton, Nat.add_zero, hpick, hout, Option.map_some,
      List.tail_cons, Pool.settle, List.nil_append]
  exact .head hstep hreaches

/-- Tasks that follow their course, before any is started. -/
theorem Pool.follows_start {tasks : List (Coro I σ Unit)} {stages : List L}
    (h : List.Forall₂ (fun t l ↦ Coro.Takes C t l) tasks stages) (s : σ) (log : Log I) :
    Pool.Follows C ⟨tasks, [], s, log⟩ ⟨stages, 0, ⟨s, log⟩⟩ :=
  ⟨h, ⟨[], rfl, .nil⟩, rfl⟩

/-- The run lemma: a crew ends as the pool does. -/
theorem reaches_of_gather (henv : env.Suits C.toAllowed) {fuel : ℕ} {tasks : List (Coro I σ Unit)}
    {stages : List L} (h : List.Forall₂ (fun t l ↦ Coro.Takes C t l) tasks stages) {s s' : σ}
    {log log' : Log I} (hrun : gather env cap fuel tasks s log = some (s', log')) :
    Crew.Reaches C cap ⟨stages, 0, ⟨s, log⟩⟩ ⟨[], 0, ⟨s', log'⟩⟩ := by
  obtain ⟨⟨queue, flight, world⟩, hreaches, hend⟩ :=
    Pool.follows_of_reaches henv (Pool.follows_start h s log) (Pool.reaches_of_run hrun)
  obtain ⟨hqueue, ⟨ls, hls, hparked⟩, hworld⟩ := hend
  cases hqueue
  cases hparked
  obtain rfl : world = ⟨s', log'⟩ := hworld
  obtain rfl : 0 = flight := hls
  exact hreaches

end Coop
