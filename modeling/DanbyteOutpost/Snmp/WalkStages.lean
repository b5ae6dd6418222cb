import DanbyteOutpost.Coop.Stages
import DanbyteOutpost.Snmp.WalkSpec

/-!
# A walk as a stage

`walkColumns_follows` is what a walk is to a task that follows a course: at one stage all along, it
looks at the clock, is answered and takes rows (`Walks`), and then it is cut, in which case its
budget says so, or it is not. With an agent that answers each request as a function of it, a walk
that is not cut has one outcome only, that of a walk without a budget.

## Two views of one walk

To a task that shares its state, a walk is a stage at which some things happen (`Walks`): what it
leaves in the shared state is rows taken from the budget, or a budget that is cut. To a reader of
its outcome, a walk that was not cut is the walk without a budget (`WalkCall.bare`), alone, with
an environment that only depends on the request (`fixedEnv`); its outcome is a function of the
agent (`Brings.unique`).

`walkColumns_follows` proves both in one go along the text of the walk.
-/

namespace Snmp

open Coop

variable {M κ σ L α : Type} [DecidableEq κ]

/-! ### The requests of a walk -/

/-- A request of the walk. -/
structure WalkCall.Sends (call : WalkCall κ σ) (q : Query) : Prop where
  /-- It is sent with the walk's credentials, in its context. -/
  access : q.access = call.access
  /-- It asks within the walk's columns. -/
  cursors : ∀ oid ∈ q.cursors, ∃ base ∈ call.bases, base <+: oid
  /-- It asks for something. -/
  nonempty : q.cursors ≠ []

/-- The cursors are in their columns, and the open columns are the walk's. -/
structure Walker.Within (call : WalkCall κ σ) (w : Walker κ) : Prop where
  /-- A cursor is in its column. -/
  cursor : ∀ key, call.base key <+: w.cursor key
  /-- An open column is the walk's. -/
  active : ∀ key ∈ w.active, key ∈ call.columns.keys

variable {call : WalkCall κ σ} {walker : Walker κ}

/-- At the start a walk is within its call. -/
theorem within_start (call : WalkCall κ σ) : call.start.Within call :=
  ⟨fun _ ↦ List.prefix_refl _, fun _ ↦ id⟩

theorem Walker.Within.sends (h : walker.Within call) (hactive : walker.active ≠ []) :
    call.Sends (walker.query call) where
  access := rfl
  cursors := by
    intro oid hoid
    obtain ⟨key, hkey, rfl⟩ := List.mem_map.1 hoid
    exact ⟨call.base key, WalkCall.base_mem (h.active key hkey), h.cursor key⟩
  nonempty := fun hnil ↦ hactive (List.map_eq_nil_iff.1 hnil)

/-- A binding moves a cursor within its column, if at all, and opens none. -/
theorem Taken.within_binding {key : κ} {b : Binding} {t : Taken κ σ} (h : t.walker.Within call) :
    (t.binding call key b).walker.Within call := by
  have hcell : ∀ {index text} {t : Taken κ σ}, t.walker.Within call →
      (t.cell call index key text).walker.Within call := by
    intro index text t h
    cases t.cell_move call index key text with
    | old _ _ heq => exact heq ▸ ⟨h.cursor, h.active⟩
    | new _ _ _ heq => exact heq ▸ ⟨h.cursor, h.active⟩
    | cut _ _ _ _ heq => exact heq ▸ h
  rw [Taken.binding]
  split
  · exact h
  split
  case h_2 => exact h
  case h_1 _ index _ hindex =>
  split
  · exact ⟨h.cursor, h.active⟩
  refine hcell ⟨fun key' ↦ ?_, h.active⟩
  show call.base key' <+: Function.update t.walker.cursor key b.name key'
  rw [Function.update_apply]
  split
  case isTrue heq =>
    subst heq
    rw [indexIn] at hindex
    split at hindex
    case isTrue hin => exact hin.1
    case isFalse => cases hindex
  case isFalse => exact h.cursor key'

theorem Taken.within_bindings {active : List κ} {i : ℕ} {bs : List Binding} {t : Taken κ σ}
    (h : t.walker.Within call) : (t.bindings call active i bs).walker.Within call := by
  induction bs generalizing i t with
  | nil => exact h
  | cons b bs ih =>
    rw [Taken.bindings]
    split
    · exact h
    · dsimp only
      split
      · exact Taken.within_binding h
      · exact ih (Taken.within_binding h)

/-! ### Walks without a budget -/

/-- The walk without its budget. -/
def WalkCall.bare (call : WalkCall κ σ) : WalkCall κ Unit where
  access := call.access
  columns := call.columns
  maxRep := call.maxRep
  retries := call.retries
  budget := none
  capRows := false

/-- An environment with a fixed answer to each request, and time to spare. -/
def fixedEnv (answer : Query → Reply) : Env (net M) where
  reading := fun _ _ ↦ false
  reply := fun _ q ↦ answer q
  pick := fun _ ↦ 0

/-- What a task on no state brings, whenever it is run, with such an agent. -/
def Brings (answer : Query → Reply) (t : Coro (net M) Unit α) (a : α) : Prop :=
  ∀ log, ∃ log', t.run (fixedEnv answer) () log = some (a, (), log')

theorem Brings.unique {answer : Query → Reply} {t : Coro (net M) Unit α} {a b : α}
    (ha : Brings answer t a) (hb : Brings answer t b) : a = b := by
  obtain ⟨log, hlog⟩ := ha []
  obtain ⟨log', hlog'⟩ := hb []
  exact (Prod.mk.inj (Option.some.inj (hlog.symm.trans hlog'))).1

theorem Brings.bind {β : Type} {answer : Query → Reply} {t : Coro (net M) Unit α}
    {f : α → Coro (net M) Unit β} {a : α} {b : β} (ht : Brings answer t a)
    (hf : Brings answer (f a) b) : Brings answer (t >>= f) b := by
  intro log
  obtain ⟨log₁, h₁⟩ := ht log
  obtain ⟨log₂, h₂⟩ := hf log₁
  refine ⟨log₂, ?_⟩
  rw [Coro.run_bind, h₁]
  exact h₂

/-- What was taken of a response without a budget is what was taken with one. -/
structure Taken.Bare (u : Taken κ Unit) (t : Taken κ σ) : Prop where
  /-- The same variables. -/
  walker : u.walker = t.walker
  /-- The same columns have ended. -/
  done : u.done = t.done
  /-- Without a budget nothing is cut. -/
  uncut : u.cut = false

namespace Taken.Bare

variable {t : Taken κ σ} {u : Taken κ Unit}

/-- Without a budget, a cell is set as with one that is not spent. -/
theorem cell (hu : u.Bare t) {index : Oid} {key : κ} {text : String}
    (h : (t.cell call index key text).cut = false) :
    (u.cell call.bare index key text).Bare (t.cell call index key text) := by
  obtain ⟨uwalker, udone, ust, ucut⟩ := u
  obtain ⟨hwalker, hdone, huncut⟩ := hu
  obtain rfl : uwalker = t.walker := hwalker
  obtain rfl : udone = t.done := hdone
  obtain rfl : ucut = false := huncut
  cases t.cell_move call index key text with
  | old row hrow heq =>
    rw [heq, Taken.cell]
    dsimp only
    rw [hrow]
    exact ⟨rfl, rfl, rfl⟩
  | new s hrow _ heq =>
    rw [heq, Taken.cell]
    dsimp only
    rw [hrow]
    exact ⟨rfl, rfl, rfl⟩
  | cut _ _ _ _ heq =>
    -- without a budget there is no cap to run into
    rw [heq] at h
    cases h

theorem binding (hu : u.Bare t) {key : κ} {b : Binding} (h : (t.binding call key b).cut = false) :
    (u.binding call.bare key b).Bare (t.binding call key b) := by
  have hbase : call.bare.base key = call.base key := rfl
  unfold Taken.binding at h ⊢
  rw [hu.walker, hu.done, hbase]
  split
  · exact hu
  case isFalse hopen =>
    rw [if_neg hopen] at h
    split
    case h_2 => exact ⟨rfl, rfl, hu.uncut⟩
    case h_1 text index htext hindex =>
      rw [htext, hindex] at h
      dsimp only at h ⊢
      split
      · exact ⟨rfl, rfl, hu.uncut⟩
      case isFalse hnew =>
        rw [if_neg hnew] at h
        have hmoved : Bare { u with walker := t.walker.moveTo key b.name, done := t.done }
            { t with walker := t.walker.moveTo key b.name } := ⟨rfl, rfl, hu.uncut⟩
        exact hmoved.cell h

/-- A response is taken the same way without a budget, unless the row cap cuts it. -/
theorem bindings {active : List κ} {i : ℕ} {bs : List Binding} (hu : u.Bare t)
    (h : (t.bindings call active i bs).cut = false) :
    (u.bindings call.bare active i bs).Bare (t.bindings call active i bs) := by
  induction bs generalizing i t u with
  | nil => exact hu
  | cons b bs ih =>
    rw [Taken.bindings] at h ⊢
    rw [Taken.bindings]
    split
    · exact hu
    case h_2 key hkey =>
      rw [hkey] at h
      dsimp only at h ⊢
      split at h
      case isTrue hcut => exact absurd (h.symm.trans hcut) Bool.false_ne_true
      case isFalse hno =>
        have hbare := hu.binding (Bool.eq_false_of_not_eq_true hno)
        rw [if_neg hno, if_neg (by rw [hbare.uncut]; exact Bool.false_ne_true)]
        exact ih hbare h

end Taken.Bare

/-! ### A request -/

/-- What a walk does is among the steps of a course at a stage. -/
structure Walks (C : Course (net M) σ L) (call : WalkCall κ σ) (l : L) : Prop where
  /-- It may wait for its requests there. -/
  asks : ∀ q, call.Sends q → C.asks l q
  /-- It may look at the clock. -/
  polled : ∀ ref ∈ call.budget, ∀ w yes,
    C.reading w.log ⟨.request, (ref.get w.st).deadline⟩ yes →
      C.step ⟨l, w⟩ ⟨l, ⟨w.st, .polled ⟨.request, (ref.get w.st).deadline⟩ yes :: w.log⟩⟩
  /-- It may go on with a reply. -/
  asked : ∀ w q r, call.Sends q → C.answer w.log q r →
    C.step ⟨l, w⟩ ⟨l, ⟨w.st, .asked q r :: w.log⟩⟩
  /-- It may take a row from the allowance. -/
  row : ∀ ref ∈ call.cap, ∀ w, (ref.get w.st).rowsLeft ≠ 0 →
    C.step ⟨l, w⟩ ⟨l, ⟨ref.modify WalkBudget.takeRow w.st, w.log⟩⟩

variable {C : Course (net M) σ L} {l : L} {p : Place (net M) σ L} {w : World (net M) σ}

/-- How an attempt at a request ends, and a request: it is cut, or a reply is taken. -/
structure Requested (C : Course (net M) σ L) (call : WalkCall κ σ) (l : L) (q : Query) (a : Attempt)
    (p : Place (net M) σ L) (w : World (net M) σ) : Prop where
  /-- By the steps of the course. -/
  reaches : C.Reaches p ⟨l, w⟩
  /-- Only a budget cuts. -/
  cut : a = .cut → ∃ ref, ref ∈ call.budget
  /-- A reply is taken as it is without a budget. -/
  taken : a ≠ .cut → ∃ log r, C.answer log q r ∧ a = call.bare.outcome r

/-- An attempt stays at its stage, unless the course ends there. -/
theorem attempt_follows (h : Walks C call l) {q : Query} (hq : call.Sends q)
    (hp : C.Reaches p ⟨l, w⟩) : (attempt call q).follows C (Requested C call l q) p w := by
  have hask : ∀ w₁ : World (net M) σ, C.Reaches p ⟨l, w₁⟩ →
      (Coro.ask (I := net M) q >>= fun r ↦ pure (call.outcome r)).follows C
        (Requested C call l q) p w₁ := by
    intro w₁ hp₁
    refine Coro.follows_bind.2 ⟨l, h.asks q hq, hp₁, fun w₂ _ r hr ↦ ?_⟩
    refine ⟨.step (.refl _) (h.asked w₂ q r hq hr), fun hcut ↦ ?_, fun hno ↦ ⟨w₂.log, r, hr, ?_⟩⟩
    · cases r with
      | timedOut =>
        change (if call.budget.isSome then _ else _) = _ at hcut
        split at hcut
        case isTrue hsome => exact Option.isSome_iff_exists.1 hsome
        case isFalse => cases hcut
      | raised text => cases hcut
      | response => cases hcut
    · cases r with
      | timedOut =>
        show (if call.budget.isSome then _ else _) = _
        rw [if_neg fun hsome ↦ hno (if_pos hsome)]
        rfl
      | raised text => rfl
      | response => rfl
  rw [attempt_eq, Coro.follows_bind]
  rw [outOfTime]
  rcases hbudget : call.budget with - | ref
  · exact hask w hp
  · intro yes hyes
    have hpolled := hp.step (h.polled ref hbudget w yes hyes)
    cases yes with
    | false => exact hask ⟨w.st, _⟩ hpolled
    | true => exact ⟨hpolled, fun _ ↦ ⟨ref, hbudget⟩, fun hno ↦ absurd rfl hno⟩

/-- A request with its retries stays there, too. -/
theorem request_follows (h : Walks C call l) {q : Query} (hq : call.Sends q) {left : ℕ}
    (hp : C.Reaches p ⟨l, w⟩) : (request call q left).follows C (Requested C call l q) p w := by
  induction left generalizing p w with
  | zero => exact attempt_follows h hq hp
  | succ left ih =>
    rw [request, Coro.follows_bind]
    refine Coro.follows_mono (attempt_follows h hq hp) fun a p₁ w₁ _ hend ↦ ?_
    split
    · exact ih hend.reaches
    · exact hend

/-- A request without a budget has the agent's one answer. -/
theorem brings_request (answer : Query → Reply) (q : Query) (left : ℕ) :
    Brings answer (request call.bare q left : Coro (net M) Unit Attempt)
      (call.bare.outcome (answer q)) := by
  have hattempt : Brings answer (attempt call.bare q : Coro (net M) Unit Attempt)
      (call.bare.outcome (answer q)) := by
    intro log
    rw [attempt_eq]
    exact ⟨_, rfl⟩
  induction left with
  | zero => exact hattempt
  | succ left ih =>
    refine hattempt.bind ?_
    split
    · exact ih
    · exact fun log ↦ ⟨log, rfl⟩

/-! ### The walk -/

/-- The end of a walk: it is cut, and its budget says so, or not. -/
inductive WalkStops (call : WalkCall κ σ) (out : Walked κ) (w₁ w : World (net M) σ) : Prop
  /-- It is not cut, and nothing more happens. -/
  | told (h : out.stats.truncated = false) (hw : w = w₁)
  /-- It is, and is neither complete nor timed out. -/
  | cut (ref : BudgetRef σ) (href : ref ∈ call.budget) (reason : String)
      (h : out.stats.truncated = true) (hcomplete : out.complete = false)
      (htimeout : out.stats.timeout = false)
      (hw : w = ⟨ref.modify (WalkBudget.stop reason) w₁.st, w₁.log⟩)

/-- The end of a walk of a task that follows a course; `bare` is the walk without its budget. -/
structure WalkFollowed (C : Course (net M) σ L) (call : WalkCall κ σ) (l : L)
    (bare : Coro (net M) Unit (Walked κ)) (out : Walked κ) (p : Place (net M) σ L)
    (w : World (net M) σ) : Prop where
  /-- By the steps of the course. -/
  stops : ∃ w₁, C.Reaches p ⟨l, w₁⟩ ∧ WalkStops call out w₁ w
  /-- If an answer does not depend on when it is asked for, neither does what the walk brings. -/
  fixed : ∀ answer : Query → Reply, (∀ log q r, C.answer log q r → r = answer q) →
    out.stats.truncated = false → Brings answer bare out

/-- The end of a round of a task that follows a course: the walk ends, or it goes on; `bare` is the
round without its budget. -/
inductive RoundFollowed (C : Course (net M) σ L) (call : WalkCall κ σ) (l : L)
    (bare : Coro (net M) Unit (Walked κ ⊕ Walker κ)) :
    Walked κ ⊕ Walker κ → Place (net M) σ L → World (net M) σ → Prop
  /-- The walk ends. -/
  | ended (out : Walked κ) (p : Place (net M) σ L) (w : World (net M) σ)
      (stops : ∃ w₁, C.Reaches p ⟨l, w₁⟩ ∧ WalkStops call out w₁ w)
      (fixed : ∀ answer : Query → Reply, (∀ log q r, C.answer log q r → r = answer q) →
        out.stats.truncated = false → Brings answer bare (.inl out)) :
      RoundFollowed C call l bare (.inl out) p w
  /-- It goes on. -/
  | next (walker' : Walker κ) (p : Place (net M) σ L) (w : World (net M) σ)
      (reaches : C.Reaches p ⟨l, w⟩) (hwithin : walker'.Within call)
      (fixed : ∀ answer : Query → Reply, (∀ log q r, C.answer log q r → r = answer q) →
        Brings answer bare (.inr walker')) :
      RoundFollowed C call l bare (.inr walker') p w

variable {bare : Coro (net M) Unit (Walked κ ⊕ Walker κ)}

theorem cut_follows {ref : BudgetRef σ} (href : ref ∈ call.budget) {reason : String}
    (hp : C.Reaches p ⟨l, w⟩) :
    (Sum.inl <$> walker.cut call reason).follows C (RoundFollowed C call l bare) p w := by
  rw [Coro.follows_map, Walker.cut, Option.mem_def.1 href]
  exact .ended _ _ _ ⟨w, hp, .cut ref href reason rfl rfl rfl rfl⟩
    fun _ _ huncut ↦ Bool.noConfusion huncut

/-- The walk ends uncut, as it does without a budget. -/
theorem ended_of_brings (hp : C.Reaches p ⟨l, w⟩) {out : Walked κ}
    (huncut : out.stats.truncated = false)
    (hbrings : ∀ answer : Query → Reply, (∀ log q r, C.answer log q r → r = answer q) →
      Brings answer bare (.inl out)) : RoundFollowed C call l bare (.inl out) p w :=
  .ended _ _ _ ⟨w, hp, .told huncut rfl⟩ fun answer hfixed _ ↦ hbrings answer hfixed

/-- The step lemma of the loop, for a response with rows: it is taken the same way without a budget,
unless the row cap cuts it. -/
theorem respond_follows (h : Walks C call l) (hwithin : walker.Within call)
    (hp : C.Reaches p ⟨l, w⟩) (binds : List Binding)
    (hbrings : ∀ answer : Query → Reply, (∀ log q r, C.answer log q r → r = answer q) →
      (walker.respond call.bare binds ()).cut = false → Brings answer bare
        (.inr ((walker.respond call.bare binds ()).walker.close
          (walker.respond call.bare binds ()).done))) :
    let t := walker.respond call binds w.st
    (if t.cut then Sum.inl <$> t.walker.cut call "rows"
      else pure (.inr (t.walker.close t.done)) : Coro (net M) σ (Walked κ ⊕ Walker κ)).follows C
        (RoundFollowed C call l bare) p ⟨t.st, w.log⟩ := by
  intro t
  obtain ⟨hp', hcap⟩ : C.Reaches p ⟨l, ⟨t.st, w.log⟩⟩ ∧ (t.cut = true → ∃ ref, ref ∈ call.cap) :=
    Taken.bindings_st (P := fun s ↦ C.Reaches p ⟨l, ⟨s, w.log⟩⟩)
      (fun ref href s hleft hs ↦ hs.step (h.row ref href ⟨s, w.log⟩ hleft)) hp rfl
  split
  case isTrue hcut =>
    obtain ⟨ref, href⟩ := hcap hcut
    exact cut_follows (WalkCall.budget_of_cap href) hp'
  case isFalse huncut =>
    have hwithin' : t.walker.Within call := Taken.within_bindings hwithin
    refine .next _ _ _ hp' ⟨hwithin'.cursor, fun key hkey ↦
      hwithin'.active key (List.mem_of_mem_filter hkey)⟩ fun answer hfixed ↦ ?_
    have hbare : (walker.respond call.bare binds ()).Bare t :=
      Taken.Bare.bindings ⟨rfl, rfl, rfl⟩ (Bool.eq_false_of_not_eq_true huncut)
    rw [← hbare.walker, ← hbare.done]
    exact hbrings answer hfixed hbare.uncut

/-- The step lemma of the loop. -/
theorem walkRound_follows (h : Walks C call l) (hwithin : walker.Within call)
    (hp : C.Reaches p ⟨l, w⟩) :
    (walkRound call walker).follows C
      (RoundFollowed C call l (walkRound call.bare walker)) p w := by
  rw [walkRound, walkRound]
  split
  case isTrue => exact ended_of_brings hp rfl fun _ _ log ↦ ⟨log, rfl⟩
  case isFalse hactive =>
  rw [Coro.follows_bind]
  refine Coro.follows_mono (request_follows h (hwithin.sends hactive) hp) fun a p₁ w₁ _ hend ↦ ?_
  have hp₁ := hend.reaches
  -- what the rest brings, the whole brings
  have hrest : ∀ {rest : Attempt → Coro (net M) Unit (Walked κ ⊕ Walker κ)} {out}, a ≠ .cut →
      ∀ answer : Query → Reply, (∀ log q r, C.answer log q r → r = answer q) →
        Brings answer (rest a) out →
          Brings answer (request call.bare (walker.query call) call.retries.toNat >>= rest)
            out := by
    intro rest out hno answer hfixed hbrings
    obtain ⟨log, r, hr, rfl⟩ := hend.taken hno
    obtain rfl := hfixed log _ r hr
    exact (brings_request answer _ _).bind hbrings
  cases a with
  | cut =>
    obtain ⟨ref, href⟩ := hend.cut rfl
    exact cut_follows href hp₁
  | failed error timeout =>
    exact ended_of_brings hp₁ rfl fun answer hfixed ↦
      hrest Attempt.noConfusion answer hfixed fun log ↦ ⟨log, rfl⟩
  | answered indication status statusText index binds =>
  cases indication with
  | some e =>
    exact ended_of_brings hp₁ rfl fun answer hfixed ↦
      hrest Attempt.noConfusion answer hfixed fun log ↦ ⟨log, rfl⟩
  | none =>
  dsimp only
  split
  case isTrue hstatus =>
    split
    case isTrue hempty =>
      refine ended_of_brings hp₁ rfl fun answer hfixed ↦
        hrest Attempt.noConfusion answer hfixed ?_
      dsimp only
      rw [if_pos hstatus, if_pos hempty]
      exact fun log ↦ ⟨log, rfl⟩
    case isFalse hne =>
      rw [Coro.follows_bind, Coro.follows_get, Coro.follows_bind, Coro.follows_modify]
      refine respond_follows h hwithin hp₁ binds fun answer hfixed hbare ↦
        hrest Attempt.noConfusion answer hfixed fun log ↦ ⟨log, ?_⟩
      dsimp only
      rw [if_pos hstatus, if_neg hne]
      show Coro.run (fixedEnv answer) (if (walker.respond call.bare binds ()).cut then _ else
        pure (Sum.inr ((walker.respond call.bare binds ()).walker.close
          (walker.respond call.bare binds ()).done))) () log = _
      rw [hbare, if_neg Bool.false_ne_true]
      rfl
  case isFalse hstatus =>
    split
    case isTrue hname =>
      refine .next _ _ _ hp₁ ⟨hwithin.cursor, fun key hkey ↦
        hwithin.active key (List.mem_of_mem_eraseIdx hkey)⟩ fun answer hfixed ↦
          hrest Attempt.noConfusion answer hfixed ?_
      dsimp only
      rw [if_neg hstatus, if_pos hname]
      exact fun log ↦ ⟨log, rfl⟩
    case isFalse hname =>
    split
    case isTrue hbig =>
      refine .next _ _ _ hp₁ ⟨hwithin.cursor, hwithin.active⟩ fun answer hfixed ↦
        hrest Attempt.noConfusion answer hfixed ?_
      dsimp only
      rw [if_neg hstatus, if_neg hname, if_pos hbig]
      exact fun log ↦ ⟨log, rfl⟩
    case isFalse hbig =>
      refine ended_of_brings hp₁ rfl fun answer hfixed ↦
        hrest Attempt.noConfusion answer hfixed ?_
      dsimp only
      rw [if_neg hstatus, if_neg hname, if_neg hbig]
      exact fun log ↦ ⟨log, rfl⟩

/-- The run lemma of the loop: by induction on the fuel. -/
theorem walkLoop_follows (h : Walks C call l) {fuel : ℕ} (hwithin : walker.Within call)
    (hp : C.Reaches p ⟨l, w⟩) :
    (walkLoop call fuel walker).follows C
      (WalkFollowed C call l (walkLoop call.bare fuel walker)) p w := by
  induction fuel generalizing walker p w with
  | zero => trivial
  | succ fuel ih =>
    rw [walkLoop_succ, walkLoop_succ, Coro.follows_bind]
    refine Coro.follows_mono (walkRound_follows h hwithin hp) fun out p₁ w₁ _ hround ↦ ?_
    cases hround with
    | ended out p₁ w₁ hstops hfixed =>
      exact ⟨hstops, fun answer hanswer huncut ↦
        (hfixed answer hanswer huncut).bind fun log ↦ ⟨log, rfl⟩⟩
    | next walker' p₁ w₁ hreaches hwithin' hfixed =>
      refine Coro.follows_mono (ih hwithin' hreaches) fun out p₂ w₂ _ hout ↦ ⟨hout.stops, ?_⟩
      exact fun answer hanswer huncut ↦
        (hfixed answer hanswer).bind (hout.fixed answer hanswer huncut)

/-- What a walk is to a task at a stage. -/
theorem walkColumns_follows (h : Walks C call l) {fuel : ℕ} (hp : C.Reaches p ⟨l, w⟩) :
    (walkColumns call fuel).follows C
      (WalkFollowed C call l (walkColumns call.bare fuel)) p w :=
  walkLoop_follows h (within_start call) hp

end Snmp
