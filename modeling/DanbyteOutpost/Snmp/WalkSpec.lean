import DanbyteOutpost.Coop.Wp
import DanbyteOutpost.Snmp.WalkRows

/-!
# What a walk is sure of

`walkColumns_wp` is the specification of `_walk_columns`: from any reply at all it keeps the
invariant of its rules (`WalkKeeps` says what it does to the state and the log); where every reply
is an agent's or a fault (`Honest`), its rows are a part of the agent's columns, the whole of them
when it says so, and alone it says so unless a fault the rules allow (`Mishap`) or the row cap
stopped it.

## The shape of the proof

The specification is proved from the inside out: an attempt at a request and its retries
(`request_wp`), a response (`Walker.Sound.respond`), a round (`Walking.round`), the loop
(`walkLoop_wp`), and the walk. `Walking` is the invariant of the loop, and `WalkEnd` what it
leaves.

## What the caller gives

The rules say which replies may come and what holds of the state at every wait; `WalkKeeps` are
the obligations the walk has towards them, one for each thing it does to the state and the log.
Whether the replies are an agent's is a proposition of its own there, so that one theorem covers
agents of which nothing is known, too.
-/

namespace Snmp

open Coop

variable {M κ σ : Type} [DecidableEq κ]

/-! ### Faults -/

/-- The reply says that the request timed out. -/
def Reply.saysTimeout : Reply → Bool
  | response (some e) .. => e.isTimeout
  | _ => false

/-- How many of the latest replies say that the request timed out. -/
def timeouts : Log (net M) → ℕ
  | [] => 0
  | .asked _ r :: log => if Reply.saysTimeout r then timeouts log + 1 else 0
  | .polled _ _ :: log => timeouts log
  | .marked _ :: log => timeouts log

/-- A reply to a walk's request is the agent's or a fault. -/
def Honest (ρ : Rules (net M) σ) (agent : Agent) (call : WalkCall κ σ) : Prop :=
  ∀ log (q : Query) r, ρ.answer log q r → q.access = call.access →
    Conforms agent call.bases q r ∨ Faulty agent call.bases q r

/-- A fault the rules allow: the time is up, or a reply is not the agent's and there is no retry
left for it. -/
inductive Mishap (ρ : Rules (net M) σ) (agent : Agent) (call : WalkCall κ σ) : Prop
  /-- The time may be up. -/
  | late (ref : BudgetRef σ) (href : ref ∈ call.budget) (w : World (net M) σ) (hinv : ρ.inv w)
      (h : ρ.reading w.log (⟨.request, (ref.get w.st).deadline⟩ : Probe) true)
  /-- A reply may be none of the agent's. -/
  | reply (log : Log (net M)) (q : Query) (r : Reply) (h : ρ.answer log q r)
      (haccess : q.access = call.access) (hfault : ¬ Conforms agent call.bases q r)
      (hretry : r.saysTimeout = true → call.retries.toNat ≤ timeouts log)

/-- What a walk does to the state and the log keeps the invariant. -/
structure WalkKeeps (ρ : Rules (net M) σ) (call : WalkCall κ σ) : Prop where
  /-- A look at the clock in time. -/
  onTime : ∀ ref ∈ call.budget, ∀ s log, ρ.inv ⟨s, log⟩ →
    ρ.inv ⟨s, .polled ⟨.request, (ref.get s).deadline⟩ false :: log⟩
  /-- A look at the clock that comes too late, and stops the budget. -/
  late : ∀ ref ∈ call.budget, ∀ s log, ρ.inv ⟨s, log⟩ →
    ρ.inv ⟨ref.modify (WalkBudget.stop "time") s,
      .polled ⟨.request, (ref.get s).deadline⟩ true :: log⟩
  /-- A request with its reply. -/
  answered : ∀ s log q r, ρ.inv ⟨s, log⟩ → ρ.answer log q r →
    (r = .timedOut → call.budget = none) → ρ.inv ⟨s, .asked q r :: log⟩
  /-- A request that is cut off, and stops the budget. -/
  expired : ∀ ref ∈ call.budget, ∀ s log q, ρ.inv ⟨s, log⟩ → ρ.answer log q .timedOut →
    ρ.inv ⟨ref.modify (WalkBudget.stop "time") s, .asked q .timedOut :: log⟩
  /-- A row that is taken from the allowance. -/
  row : ∀ ref ∈ call.cap, ∀ s log, ρ.inv ⟨s, log⟩ → ρ.inv ⟨ref.modify WalkBudget.takeRow s, log⟩
  /-- A row that cannot be, and stops the budget. -/
  full : ∀ ref ∈ call.cap, ∀ s log, ρ.inv ⟨s, log⟩ →
    ρ.inv ⟨ref.modify (WalkBudget.stop "rows") s, log⟩

theorem WalkCall.budget_of_cap {call : WalkCall κ σ} {ref : BudgetRef σ} (h : ref ∈ call.cap) :
    ref ∈ call.budget := by
  rw [cap] at h
  split at h
  · exact h
  · cases h

/-! ### A request -/

variable {ρ : Rules (net M) σ} {call : WalkCall κ σ} {agent : Agent}

/-- What an attempt makes of a reply. -/
def WalkCall.outcome (call : WalkCall κ σ) : Reply → Attempt
  | .timedOut => if call.budget.isSome then .cut else .failed "timeout" true
  | .raised e => .failed ("snmp error: " ++ e) false
  | .response indication status statusText index binds =>
    .answered indication status statusText index binds

theorem WalkCall.saysTimeout_outcome (call : WalkCall κ σ) (r : Reply) :
    (call.outcome r).saysTimeout = r.saysTimeout := by
  cases r with
  | timedOut =>
    rw [outcome]
    split <;> rfl
  | raised text => rfl
  | response indication => cases indication <;> rfl

/-- An attempt looks at the budget and then asks. -/
theorem attempt_eq (call : WalkCall κ σ) (q : Query) :
    (attempt call q : Coro (net M) σ Attempt) = outOfTime call >>= fun late ↦
      if late then pure .cut else Coro.ask (I := net M) q >>= fun r ↦ pure (call.outcome r) := by
  refine congrArg (outOfTime call >>= ·) (funext fun late ↦ ?_)
  cases late with
  | true => rfl
  | false =>
    refine congrArg (Coro.ask (I := net M) q >>= ·) (funext fun r ↦ ?_)
    cases r <;> rfl

/-- How an attempt ends: it is too late for it, or it is answered. -/
inductive AttemptEnd (ρ : Rules (net M) σ) (call : WalkCall κ σ) (q : Query)
    (w : World (net M) σ) : Attempt → World (net M) σ → Prop
  /-- The clock says so before the request is made. -/
  | late (ref : BudgetRef σ) (href : ref ∈ call.budget)
      (h : ρ.reading w.log (⟨.request, (ref.get w.st).deadline⟩ : Probe) true) :
      AttemptEnd ρ call q w .cut
        ⟨w.st, .polled (⟨.request, (ref.get w.st).deadline⟩ : Probe) true :: w.log⟩
  /-- The request is made and answered. -/
  | asked (w' : World (net M) σ) (hinv : ρ.inv w')
      (hsame : ρ.alone → w'.st = w.st ∧ timeouts w'.log = timeouts w.log) (r : Reply)
      (h : ρ.answer w'.log q r) :
      AttemptEnd ρ call q w (call.outcome r) ⟨w'.st, .asked q r :: w'.log⟩

theorem attempt_wp (hkeeps : WalkKeeps ρ call) {q : Query} {w : World (net M) σ}
    (hinv : ρ.inv w) : (attempt call q).wp ρ (AttemptEnd ρ call q w) w := by
  have hask : ∀ w₁ : World (net M) σ, ρ.inv w₁ → w₁.st = w.st → timeouts w₁.log = timeouts w.log →
      (Coro.ask (I := net M) q >>= fun r ↦ pure (call.outcome r)).wp ρ
        (AttemptEnd ρ call q w) w₁ := by
    intro w₁ hinv₁ hst htimeouts
    refine Coro.wp_bind.2 ⟨hinv₁, fun w' hw' r hr ↦ ?_⟩
    refine .asked w' hw'.inv (fun halone ↦ ?_) r hr
    rw [hw'.same halone]
    exact ⟨hst, htimeouts⟩
  rw [attempt_eq, Coro.wp_bind]
  rw [outOfTime]
  rcases hbudget : call.budget with - | ref
  · exact hask w hinv rfl rfl
  · rintro (- | -) hyes
    · exact hask ⟨w.st, _⟩ (hkeeps.onTime ref hbudget w.st w.log hinv) rfl rfl
    · exact .late ref hbudget hyes

/-- How a request ends. -/
structure RequestEnd (ρ : Rules (net M) σ) (call : WalkCall κ σ) (agent : Agent) (q : Query)
    (w : World (net M) σ) (a : Attempt) (w' : World (net M) σ) : Prop where
  /-- The attempts write nothing. -/
  same : ρ.alone → w'.st = w.st
  /-- A cut is a fault, and stops the budget. -/
  cut : a = .cut → Mishap ρ agent call ∧
    ∃ ref ∈ call.budget, ρ.inv ⟨ref.modify (WalkBudget.stop "time") w'.st, w'.log⟩
  /-- Otherwise the others find what they may rely on. -/
  inv : a ≠ .cut → ρ.inv w'
  /-- An exception is a fault. -/
  failed : ∀ {error timeout}, a = .failed error timeout → Mishap ρ agent call
  /-- And so is an error indication, once the retries are spent. -/
  indicated : ∀ {e status statusText index binds},
    a = .answered (some e) status statusText index binds → ρ.alone → Mishap ρ agent call
  /-- Everything else is a reply. -/
  answered : ∀ {status statusText index binds}, a = .answered none status statusText index binds →
    ∃ log, ρ.answer log q (.response none status statusText index binds)

/-- The last attempt at a request: whatever it ends in is how the request ends. -/
theorem AttemptEnd.request (hkeeps : WalkKeeps ρ call) {q : Query} (hq : q.access = call.access)
    {w₀ w w' : World (net M) σ} {a : Attempt} (h : AttemptEnd ρ call q w a w')
    (hsame : ρ.alone → w.st = w₀.st) (hinv : ρ.inv w)
    (hlast : a.saysTimeout = true → ρ.alone → call.retries.toNat ≤ timeouts w.log) :
    RequestEnd ρ call agent q w₀ a w' := by
  cases h with
  | late ref href h =>
    refine ⟨hsame, fun _ ↦ ⟨.late ref href w hinv h, ref, href, hkeeps.late ref href _ _ hinv⟩,
      fun hno ↦ absurd rfl hno, nofun, nofun, nofun⟩
  | asked w₁ hinv₁ hsame₁ r h =>
    have hst : ρ.alone → w₁.st = w₀.st := fun halone ↦ (hsame₁ halone).1.trans (hsame halone)
    have hmishap : ¬ Conforms agent call.bases q r →
        (r.saysTimeout = true → call.retries.toNat ≤ timeouts w₁.log) → Mishap ρ agent call :=
      .reply w₁.log q r h hq
    cases r with
    | timedOut =>
      have hfault : Mishap ρ agent call := hmishap nofun nofun
      rw [WalkCall.outcome]
      rcases hbudget : call.budget with - | ref
      · rw [Option.isSome_none, if_neg Bool.false_ne_true]
        exact ⟨hst, nofun, fun _ ↦ hkeeps.answered _ _ _ _ hinv₁ h fun _ ↦ hbudget,
          fun _ ↦ hfault, nofun, nofun⟩
      · rw [Option.isSome_some, if_pos rfl]
        exact ⟨hst, fun _ ↦ ⟨hfault, ref, hbudget, hkeeps.expired ref hbudget _ _ _ hinv₁ h⟩,
          fun hno ↦ absurd rfl hno, nofun, nofun, nofun⟩
    | raised text =>
      exact ⟨hst, nofun, fun _ ↦ hkeeps.answered _ _ _ _ hinv₁ h nofun,
        fun _ ↦ hmishap nofun nofun, nofun, nofun⟩
    | response indication status statusText index binds =>
      refine ⟨hst, nofun, fun _ ↦ hkeeps.answered _ _ _ _ hinv₁ h nofun, nofun, ?_, ?_⟩
      · rintro e _ _ _ _ ⟨⟩ halone
        refine hmishap nofun fun hsaid ↦ ?_
        rw [(hsame₁ halone).2]
        exact hlast hsaid halone
      · rintro _ _ _ _ ⟨⟩
        exact ⟨w₁.log, h⟩

/-- The spec lemma of a request and its retries, by induction on those that are left. -/
theorem request_wp (hkeeps : WalkKeeps ρ call) {q : Query} (hq : q.access = call.access)
    {w₀ w : World (net M) σ} {left tries : ℕ} (htries : call.retries.toNat = tries + left)
    (hsame : ρ.alone → w.st = w₀.st ∧ tries ≤ timeouts w.log) (hinv : ρ.inv w) :
    (request call q left).wp ρ (RequestEnd ρ call agent q w₀) w := by
  induction left generalizing tries w with
  | zero =>
    refine Coro.wp_mono (attempt_wp hkeeps hinv) fun a w' _ h ↦ ?_
    refine h.request hkeeps hq (fun halone ↦ (hsame halone).1) hinv fun _ halone ↦ ?_
    have := (hsame halone).2
    omega
  | succ left ih =>
    rw [request, Coro.wp_bind]
    refine Coro.wp_mono (attempt_wp hkeeps hinv) fun a w' _ h ↦ ?_
    split
    case isFalse hno =>
      exact h.request hkeeps hq (fun halone ↦ (hsame halone).1) hinv fun hyes ↦ absurd hyes hno
    case isTrue hyes =>
      -- the response said so, and it is in the log
      cases h with
      | late => cases hyes
      | asked w₁ hinv₁ hsame₁ r h =>
        have hr : r.saysTimeout = true := (call.saysTimeout_outcome r).symm.trans hyes
        refine ih (by omega : _ = tries + 1 + left) (fun halone ↦ ?_)
          (hkeeps.answered _ _ _ _ hinv₁ h fun heq ↦ ?_)
        · obtain ⟨hst, htimeouts⟩ := hsame₁ halone
          refine ⟨hst.trans (hsame halone).1, ?_⟩
          show tries + 1 ≤ if r.saysTimeout then timeouts w₁.log + 1 else 0
          have := (hsame halone).2
          rw [if_pos hr]
          omega
        · rw [heq] at hr
          cases hr

/-! ### The loop -/

/-- The rows have every cell of the columns. -/
def Whole (m : Mib) (call : WalkCall κ σ) (rows : Rows κ) : Prop :=
  ∀ {key index text}, key ∈ call.columns.keys → m.cell (call.base key) index = some text →
    cellOf rows index key = some text

/-- The loop between two requests. -/
structure Walker.Sound (m : Mib) (call : WalkCall κ σ) (w : Walker κ) : Prop where
  /-- What was read is there, and nothing up to the cursors is missing. -/
  reads : Reads m call (fun key ↦ key ∉ w.active) w
  /-- No column is open twice. -/
  nodup : w.active.Nodup
  /-- The open columns are the walk's. -/
  keys : ∀ key ∈ w.active, key ∈ call.columns.keys

/-- How far the loop is from its end. -/
def Walker.ahead (m : Mib) (w : Walker κ) : ℕ :=
  ∑ key ∈ w.active.toFinset, (m.ahead (w.cursor key) + 1) + w.maxRep.toNat

theorem sound_start (m : Mib) (call : WalkCall κ σ) : call.start.Sound m call where
  reads := reads_start m call
  nodup := call.columns.nodup
  keys := fun _ h ↦ h

/-- And one that has run out of columns without giving up has the whole table. -/
theorem Walker.Sound.whole {m : Mib} {w : Walker κ} (h : w.Sound m call) (hdone : w.active = [])
    (hcomplete : w.complete = true) : Whole m call w.rows := by
  intro key index text hkey hcell
  have hshut : key ∉ w.active := by
    rw [hdone]
    exact List.not_mem_nil
  exact h.reads.covered hkey hcell (h.reads.ended hcomplete key hkey hshut _ _ hcell)

/-- How a walk ends; `good` says that the replies are an agent's or faults. -/
structure WalkEnd (ρ : Rules (net M) σ) (agent : Agent) (call : WalkCall κ σ) (good : Prop) (s₀ : σ)
    (out : Walked κ) (w : World (net M) σ) : Prop where
  /-- The invariant of the rules. -/
  inv : ρ.inv w
  /-- The rows are the agent's. -/
  part : good → PartOf (agent call.access) call out.rows
  /-- A complete walk has all of them. -/
  whole : good → out.complete = true → Whole (agent call.access) call out.rows
  /-- It tells of no timeout and no cut. -/
  told : out.complete = true → out.stats.timeout = false ∧ out.stats.truncated = false
  /-- A cut is the budget's. -/
  truncated : out.stats.truncated = true → ∃ ref ∈ call.budget, (ref.get w.st).truncated = true
  /-- A complete walk has counted its rows, and no more. -/
  charged : good → ρ.alone → out.complete = true → Charged call s₀ w.st out.rows
  /-- An incomplete one has met a fault, or a row more than it may take. -/
  fault : good → ρ.alone → out.complete = false → Mishap ρ agent call ∨
    ∃ s, Charged call s₀ s out.rows ∧ Spent (agent call.access) call s out.rows

/-- What the loop keeps between two requests. -/
structure Walking (ρ : Rules (net M) σ) (agent : Agent) (call : WalkCall κ σ) (good : Prop)
    (s₀ : σ) (walker : Walker κ) (w : World (net M) σ) : Prop where
  /-- The invariant of the rules. -/
  inv : ρ.inv w
  /-- What was read is there, and nothing up to the cursors is missing. -/
  sound : good → walker.Sound (agent call.access) call
  /-- The rows were counted. -/
  charged : good → ρ.alone → Charged call s₀ w.st walker.rows
  /-- A walk that is incomplete already has met a fault. -/
  fault : good → ρ.alone → walker.complete = false → Mishap ρ agent call

variable {good : Prop} {s₀ : σ} {walker : Walker κ} {w : World (net M) σ}

/-- The walk stops, with the rows it got. -/
theorem Walking.stopped (h : Walking ρ agent call good s₀ walker w)
    (hfault : good → ρ.alone → Mishap ρ agent call) (error : String) (timeout : Bool) :
    WalkEnd ρ agent call good s₀ (walker.stopped error timeout false) w :=
  ⟨h.inv, fun hgood ↦ (h.sound hgood).reads.part, nofun, nofun, nofun, nofun,
    fun hgood halone _ ↦ .inl (hfault hgood halone)⟩

theorem Walking.finished (h : Walking ρ agent call good s₀ walker w) (hdone : walker.active = []) :
    WalkEnd ρ agent call good s₀ walker.finished w :=
  ⟨h.inv, fun hgood ↦ (h.sound hgood).reads.part, fun hgood ↦ (h.sound hgood).whole hdone,
    fun _ ↦ ⟨rfl, rfl⟩, nofun, fun hgood halone _ ↦ h.charged hgood halone,
    fun hgood halone hcomplete ↦ .inl (h.fault hgood halone hcomplete)⟩

/-- The walk is cut, and its budget says so. -/
theorem cut_wp {ref : BudgetRef σ} (href : ref ∈ call.budget) {reason : String}
    (hinv : ρ.inv ⟨ref.modify (WalkBudget.stop reason) w.st, w.log⟩)
    (hpart : good → PartOf (agent call.access) call walker.rows)
    (hfault : good → ρ.alone → Mishap ρ agent call ∨
      ∃ s, Charged call s₀ s walker.rows ∧ Spent (agent call.access) call s walker.rows) :
    (walker.cut call reason).wp ρ (WalkEnd ρ agent call good s₀) w := by
  rw [Walker.cut]
  rw [Option.mem_def.1 href]
  refine ⟨hinv, hpart, nofun, nofun, fun _ ↦ ⟨ref, href, ?_⟩, nofun,
    fun hgood halone _ ↦ hfault hgood halone⟩
  show (ref.get (ref.set (WalkBudget.stop reason (ref.get w.st)) w.st)).truncated = true
  rw [ref.get_set]
  rfl

/-! ### A response, whatever it holds -/

/-- A property of the state that taking a row keeps holds after a response. -/
theorem Taken.bindings_st {P : σ → Prop}
    (hrow : ∀ ref ∈ call.cap, ∀ s, (ref.get s).rowsLeft ≠ 0 → P s →
      P (ref.modify WalkBudget.takeRow s)) {active : List κ} {i : ℕ} {bs : List Binding}
    {t : Taken κ σ} (h : P t.st) (huncut : t.cut = false) :
    P (t.bindings call active i bs).st ∧
      ((t.bindings call active i bs).cut = true → ∃ ref, ref ∈ call.cap) := by
  -- a cell takes a row, or nothing
  have hcell : ∀ {index key text} {t : Taken κ σ}, P t.st → t.cut = false →
      P (t.cell call index key text).st ∧
        ((t.cell call index key text).cut = true → ∃ ref, ref ∈ call.cap) := by
    intro index key text t h huncut
    have hkept : t.cut = true → ∃ ref, ref ∈ call.cap := fun hcut ↦
      absurd (huncut.symm.trans hcut) Bool.false_ne_true
    cases t.cell_move call index key text with
    | old row _ heq => exact heq ▸ ⟨h, hkept⟩
    | new s _ hst heq =>
      rw [heq]
      refine ⟨?_, hkept⟩
      rcases hst with ⟨-, rfl⟩ | ⟨ref, href, hleft, rfl⟩
      · exact h
      · exact hrow ref href t.st hleft h
    | cut ref href _ _ heq => exact heq ▸ ⟨h, fun _ ↦ ⟨ref, href⟩⟩
  -- a binding comes to a cell, or to none
  have hbinding : ∀ {key b} {t : Taken κ σ}, P t.st → t.cut = false →
      P (t.binding call key b).st ∧
        ((t.binding call key b).cut = true → ∃ ref, ref ∈ call.cap) := by
    intro key b t h huncut
    have hkept : t.cut = true → ∃ ref, ref ∈ call.cap := fun hcut ↦
      absurd (huncut.symm.trans hcut) Bool.false_ne_true
    rw [Taken.binding]
    split
    · exact ⟨h, hkept⟩
    · split
      · split
        · exact ⟨h, hkept⟩
        · exact hcell h huncut
      · exact ⟨h, hkept⟩
  induction bs generalizing i t with
  | nil => exact ⟨h, fun hcut ↦ absurd (huncut.symm.trans hcut) Bool.false_ne_true⟩
  | cons b bs ih =>
    rw [Taken.bindings]
    split
    · exact ⟨h, fun hcut ↦ absurd (huncut.symm.trans hcut) Bool.false_ne_true⟩
    case h_2 key _ =>
      have hthis : P (t.binding call key b).st ∧
          ((t.binding call key b).cut = true → ∃ ref, ref ∈ call.cap) := hbinding h huncut
      obtain ⟨hst, hcut⟩ := hthis
      dsimp only
      split
      case isTrue => exact ⟨hst, hcut⟩
      case isFalse hno => exact ih hst (Bool.eq_false_of_not_eq_true hno)

/-! ### What the agent's responses bring -/

variable {m : Mib}

/-- What is ahead of a response, counted by the walk. -/
theorem Taken.weight_eq (m : Mib) (t : Taken κ σ) :
    (t.walker.close t.done).ahead m = t.weight m + t.walker.maxRep.toNat := by
  show ∑ key ∈ (t.walker.active.filter _).toFinset, _ + _ = _
  rw [List.toFinset_filter]
  simp only [Taken.weight, decide_eq_true_eq, Walker.close]

/-- The loop over a response, before it begins. -/
def Walker.takeFrom (walker : Walker κ) (s : σ) : Taken κ σ :=
  { walker := walker, done := [], st := s, cut := false }

/-- A response is taken binding by binding. -/
theorem Walker.respond_eq (walker : Walker κ) (binds : List Binding) (s : σ) :
    walker.respond call binds s = (walker.takeFrom s).bindings call
      (walker.takeFrom s).walker.active 0 binds :=
  rfl

/-- A response is taken with each column at the OID that was asked for. -/
theorem Walker.Sound.inStep (h : walker.Sound m call) (s : σ) :
    InStep m call (fun p ↦ (walker.query call).cursors[p]?) (walker.takeFrom s) where
  reads := h.reads.shut fun _ key _ hshut hopen ↦
    (hshut.resolve_right List.not_mem_nil |> hopen).elim
  aligned := by
    intro p key hp _
    have hp' : walker.active[p]? = some key := hp
    show (walker.active.map walker.cursor)[p]? = _
    rw [List.getElem?_map, hp']
    rfl
  nodup := h.nodup
  keys := h.keys
  uncut := rfl

/-- What is in step is sound behind the response. -/
theorem InStep.sound {at_ : ℕ → Option Oid} {t : Taken κ σ} (h : InStep m call at_ t) :
    (t.walker.close t.done).Sound m call where
  reads := by
    refine ⟨h.reads.part, h.reads.under, h.reads.covered, fun hcomplete key hkey hshut ↦ ?_⟩
    refine h.reads.ended hcomplete key hkey ?_
    by_contra hopen
    rw [not_or, not_not] at hopen
    exact hshut (List.mem_filter.2 ⟨hopen.1, decide_eq_true hopen.2⟩)
  nodup := h.nodup.filter _
  keys := fun key hkey ↦ h.keys key (List.mem_filter.1 hkey).1

/-- A response keeps a walk sound and leaves less ahead. -/
theorem Walker.Sound.respond (h : walker.Sound (agent call.access) call)
    (hactive : walker.active ≠ []) {binds : List Binding} (hne : binds ≠ []) {stuck : Prop}
    (hanswers : Answers agent call.bases stuck (walker.query call) binds) {s : σ} :
    Takes (agent call.access) call stuck (walker.takeFrom s) (walker.respond call binds s) ∧
      ((walker.respond call binds s).cut = false →
        ((walker.respond call binds s).walker.close (walker.respond call binds s).done).ahead
          (agent call.access) < walker.ahead (agent call.access)) := by
  have hstep := h.inStep s
  have hgives : Gives (agent call.access) call.bases stuck walker.active.length
      (fun p ↦ (walker.query call).cursors[p]?) 0 binds := by
    have hlen : (walker.query call).cursors.length = walker.active.length := List.length_map ..
    rw [← hlen]
    exact hanswers
  have hspec : Takes (agent call.access) call stuck (walker.takeFrom s)
      (walker.respond call binds s) := Taken.bindings_spec hstep hgives
  refine ⟨hspec, fun huncut ↦ ?_⟩
  obtain ⟨b, bs, rfl⟩ := List.exists_cons_of_ne_nil hne
  have hlt : (walker.respond call (b :: bs) s).weight (agent call.access) <
      (walker.takeFrom s).weight (agent call.access) := by
    rw [Walker.respond_eq] at huncut ⊢
    exact Taken.weight_bindings_lt hstep rfl hactive hgives huncut
  have hle : (walker.takeFrom s).weight (agent call.access) ≤
      ∑ key ∈ walker.active.toFinset, ((agent call.access).ahead (walker.cursor key) + 1) :=
    Finset.sum_le_sum_of_subset (Finset.filter_subset _ _)
  rw [Taken.weight_eq, hspec.maxRep]
  exact Nat.add_lt_add_right (hlt.trans_le hle) _

/-- A column that is over is taken out of the open ones. -/
theorem Walker.Sound.pop (h : walker.Sound m call) {index : ℤ} (hnames : walker.names index)
    (hended : ∀ oid ∈ (walker.query call).cursors[(index - 1).toNat]?, ∀ base ∈ call.bases,
      base <+: oid → m.EndedAfter base oid) :
    (walker.pop index).Sound m call ∧ (walker.pop index).ahead m < walker.ahead m := by
  have hlt : (index - 1).toNat < walker.active.length := by
    have := hnames.1
    have := hnames.2
    omega
  obtain ⟨key, hkey⟩ : ∃ key, walker.active[(index - 1).toNat]? = some key :=
    ⟨_, List.getElem?_eq_getElem hlt⟩
  have hmem : key ∈ walker.active := List.mem_of_getElem? hkey
  have herase : ∀ key', key' ∈ walker.active.eraseIdx (index - 1).toNat ↔
      key' ≠ key ∧ key' ∈ walker.active := by
    intro key'
    rw [← h.nodup.erase_getElem _ hlt, h.nodup.mem_erase_iff,
      (List.getElem_eq_iff hlt).2 hkey]
  have hover : m.EndedAfter (call.base key) (walker.cursor key) := by
    refine hended _ ?_ _ (WalkCall.base_mem (h.keys key hmem)) (h.reads.under key)
    show (walker.active.map walker.cursor)[(index - 1).toNat]? = _
    rw [List.getElem?_map, hkey]
    rfl
  have hreads :
      Reads m call (fun key' ↦ key' ∉ walker.active.eraseIdx (index - 1).toNat) walker := by
    refine h.reads.shut fun _ key' _ hshut hopen ↦ ?_
    obtain rfl : key' = key := by
      by_contra hne
      exact hshut ((herase key').2 ⟨hne, not_not.1 hopen⟩)
    exact hover
  refine ⟨⟨⟨hreads.part, hreads.under, hreads.covered, hreads.ended⟩, h.nodup.eraseIdx _,
    fun key' hkey' ↦ ?_⟩, ?_⟩
  · exact h.keys key' ((herase key').1 hkey').2
  · refine Nat.add_lt_add_right ?_ _
    refine Finset.sum_lt_sum_of_subset (fun key' hkey' ↦ ?_) (List.mem_toFinset.2 hmem) ?_
      (Nat.succ_pos _) fun _ _ _ ↦ Nat.zero_le _
    · exact List.mem_toFinset.2 ((herase key').1 (List.mem_toFinset.1 hkey')).2
    · exact fun hin ↦ ((herase key).1 (List.mem_toFinset.1 hin)).1 rfl

theorem Walker.Sound.halve (h : walker.Sound m call) (hmany : 1 < walker.maxRep) :
    walker.halve.Sound m call ∧ walker.halve.ahead m < walker.ahead m := by
  refine ⟨⟨⟨h.reads.part, h.reads.under, h.reads.covered, h.reads.ended⟩, h.nodup, h.keys⟩, ?_⟩
  refine Nat.add_lt_add_left ?_ _
  show (max 1 (walker.maxRep / 2)).toNat < walker.maxRep.toNat
  omega

/-! ### Rounds -/

/-- One round of the loop: what the walk returns, or the variables it goes on with. -/
def walkRound (call : WalkCall κ σ) (w : Walker κ) : Coro (net M) σ (Walked κ ⊕ Walker κ) :=
  if w.active = [] then return .inl w.finished
  else do
    match ← request call (w.query call) call.retries.toNat with
    | .cut => .inl <$> w.cut call "time"
    | .failed error timeout => return .inl (w.stopped error timeout false)
    | .answered (some e) .. => return .inl (w.stopped e.text e.isTimeout false)
    | .answered none status statusText index binds =>
      if status = 0 then
        if binds = [] then return .inl (w.stopped "empty response" false false)
        let t := w.respond call binds (← Coro.get)
        Coro.modify fun _ ↦ t.st
        if t.cut then .inl <$> t.walker.cut call "rows"
        else return .inr (t.walker.close t.done)
      else if status = 2 ∧ w.names index then return .inr (w.pop index)
      else if status = 1 ∧ 1 < w.maxRep then return .inr w.halve
      else return .inl (w.stopped statusText false false)

/-- The loop goes round once, and on from there. -/
theorem walkLoop_succ (call : WalkCall κ σ) (fuel : ℕ) (w : Walker κ) :
    (walkLoop call (fuel + 1) w : Coro (net M) σ (Walked κ)) =
      walkRound call w >>= fun
        | .inl walked => pure walked
        | .inr w' => walkLoop call fuel w' := by
  have hinl : ∀ t : Coro (net M) σ (Walked κ), (Sum.inl <$> t >>= fun
      | .inl walked => pure walked
      | .inr w' => walkLoop call fuel w') = t := by
    intro t
    rw [bind_map_left]
    exact bind_pure t
  rw [walkLoop, walkRound]
  split
  · rfl
  · rw [bind_assoc]
    refine congrArg (request call (w.query call) call.retries.toNat >>= ·) (funext fun a ↦ ?_)
    rcases a with - | ⟨error, timeout⟩ | ⟨- | e, status, statusText, index, binds⟩
    · exact (hinl _).symm
    · rfl
    · dsimp only
      split
      · split
        · rfl
        · rw [bind_assoc]
          refine congrArg (Coro.get >>= ·) (funext fun s ↦ ?_)
          rw [bind_assoc]
          refine congrArg (Coro.modify _ >>= ·) (funext fun _ ↦ ?_)
          split
          · exact (hinl _).symm
          · rfl
      · split
        · rfl
        · split <;> rfl
    · rfl

/-! ### The walk -/

/-- Nobody has changed the state of a walk that runs alone. -/
theorem Walking.move (h : Walking ρ agent call good s₀ walker w) {w' : World (net M) σ}
    (hinv : ρ.inv w') (hsame : ρ.alone → w'.st = w.st) :
    Walking ρ agent call good s₀ walker w' :=
  ⟨hinv, h.sound, fun hgood halone ↦ (hsame halone).symm ▸ h.charged hgood halone, h.fault⟩

/-- The step lemma of a round, for a response with rows. -/
theorem Walking.respond (h : Walking ρ agent call good s₀ walker w) (hkeeps : WalkKeeps ρ call)
    (hactive : walker.active ≠ []) {binds : List Binding} (hne : binds ≠ [])
    (hgives : good → ∃ stuck, Answers agent call.bases stuck (walker.query call) binds ∧
      (stuck → Mishap ρ agent call)) :
    let t := walker.respond call binds w.st
    (t.cut = true → (t.walker.cut call "rows").wp ρ (WalkEnd ρ agent call good s₀) ⟨t.st, w.log⟩) ∧
      (t.cut = false → Walking ρ agent call good s₀ (t.walker.close t.done) ⟨t.st, w.log⟩ ∧
        (good → (t.walker.close t.done).ahead (agent call.access) <
          walker.ahead (agent call.access))) := by
  intro t
  obtain ⟨hinv, hcap⟩ : ρ.inv ⟨t.st, w.log⟩ ∧ (t.cut = true → ∃ ref, ref ∈ call.cap) :=
    Taken.bindings_st (fun ref href s _ hs ↦ hkeeps.row ref href s w.log hs) h.inv rfl
  have htakes : good → ∃ stuck, (stuck → Mishap ρ agent call) ∧
      Takes (agent call.access) call stuck (walker.takeFrom w.st) t ∧
      (t.cut = false → (t.walker.close t.done).ahead (agent call.access) <
        walker.ahead (agent call.access)) := by
    intro hgood
    obtain ⟨stuck, hanswers, hstuck⟩ := hgives hgood
    exact ⟨stuck, hstuck, (h.sound hgood).respond hactive hne hanswers⟩
  refine ⟨fun hcut ↦ ?_, fun huncut ↦ ⟨⟨hinv, fun hgood ↦ ?_, fun hgood halone ↦ ?_,
    fun hgood halone hcomplete ↦ ?_⟩, fun hgood ↦ ?_⟩⟩
  · obtain ⟨ref, href⟩ := hcap hcut
    refine cut_wp (WalkCall.budget_of_cap href) (hkeeps.full ref href _ _ hinv) (fun hgood ↦ ?_)
      fun hgood halone ↦ ?_
    · obtain ⟨_, -, hspec, -⟩ := htakes hgood
      exact hspec.part
    · obtain ⟨_, -, hspec, -⟩ := htakes hgood
      exact .inr ⟨t.st, hspec.charged (h.charged hgood halone), hspec.spent hcut⟩
  · obtain ⟨_, -, hspec, -⟩ := htakes hgood
    obtain ⟨_, hstep⟩ := hspec.open_ huncut
    exact hstep.sound
  · obtain ⟨_, -, hspec, -⟩ := htakes hgood
    exact hspec.charged (h.charged hgood halone)
  · obtain ⟨stuck, hstuck, hspec, -⟩ := htakes hgood
    -- a column that is stuck is a fault of the agent; the others end where its tables do
    by_cases hs : stuck
    · exact hstuck hs
    · exact h.fault hgood halone ((hspec.complete hs).symm.trans hcomplete)
  · obtain ⟨_, -, -, hlt⟩ := htakes hgood
    exact hlt huncut

/-- How a round of the loop ends: the walk does, or it goes on with less of the tables ahead. -/
inductive RoundEnd (ρ : Rules (net M) σ) (agent : Agent) (call : WalkCall κ σ) (good : Prop)
    (s₀ : σ) (walker : Walker κ) : Walked κ ⊕ Walker κ → World (net M) σ → Prop
  /-- The walk ends. -/
  | ended (out : Walked κ) (w : World (net M) σ) (h : WalkEnd ρ agent call good s₀ out w) :
      RoundEnd ρ agent call good s₀ walker (.inl out) w
  /-- It goes on. -/
  | next (walker' : Walker κ) (w : World (net M) σ) (h : Walking ρ agent call good s₀ walker' w)
      (hlt : good → walker'.ahead (agent call.access) < walker.ahead (agent call.access)) :
      RoundEnd ρ agent call good s₀ walker (.inr walker') w

/-- The step lemma of the loop. -/
theorem Walking.round (h : Walking ρ agent call good s₀ walker w) (hkeeps : WalkKeeps ρ call)
    (hhonest : good → Honest ρ agent call) :
    (walkRound call walker).wp ρ (RoundEnd ρ agent call good s₀ walker) w := by
  have hend : ∀ {t : Coro (net M) σ (Walked κ)} {w : World (net M) σ},
      t.wp ρ (WalkEnd ρ agent call good s₀) w →
        (Sum.inl <$> t).wp ρ (RoundEnd ρ agent call good s₀ walker) w :=
    fun ht ↦ Coro.wp_map.2 (Coro.wp_mono ht fun out w _ hout ↦ .ended out w hout)
  rw [walkRound]
  split
  case isTrue hdone => exact .ended _ _ (h.finished hdone)
  case isFalse hactive =>
  have hrequest : (request call (walker.query call) call.retries.toNat).wp ρ
      (RequestEnd ρ call agent (walker.query call) w) w :=
    request_wp hkeeps rfl (Nat.zero_add _).symm (fun _ ↦ ⟨rfl, Nat.zero_le _⟩) h.inv
  rw [Coro.wp_bind]
  refine Coro.wp_mono hrequest fun a w' _ hasked ↦ ?_
  cases a with
  | cut =>
    obtain ⟨hmishap, ref, href, hinv⟩ := hasked.cut rfl
    exact hend (cut_wp href hinv (fun hgood ↦ (h.sound hgood).reads.part) fun _ _ ↦ .inl hmishap)
  | failed error timeout =>
    exact .ended _ _
      ((h.move (hasked.inv nofun) hasked.same).stopped (fun _ _ ↦ hasked.failed rfl) ..)
  | answered indication status statusText index binds =>
  have hw' := h.move (hasked.inv nofun) hasked.same
  cases indication with
  | some e => exact .ended _ _ (hw'.stopped (fun _ halone ↦ hasked.indicated rfl halone) ..)
  | none =>
  obtain ⟨log, hanswer⟩ := hasked.answered rfl
  have hlen : (walker.query call).cursors.length = walker.active.length := List.length_map ..
  have hfault : ¬ Conforms agent call.bases (walker.query call)
      (.response none status statusText index binds) → Mishap ρ agent call :=
    fun hno ↦ .reply log _ _ hanswer rfl hno nofun
  dsimp only
  split
  case isTrue hstatus =>
    subst hstatus
    split
    case isTrue hempty =>
      refine .ended _ _ (hw'.stopped (fun _ _ ↦ hfault fun hconforms ↦ ?_) ..)
      cases hconforms with
      | rows _ _ _ hne => exact hne (fun hnil ↦ hactive (List.map_eq_nil_iff.1 hnil)) hempty
    case isFalse hne =>
      -- the bindings are the agent's, in a response it should give or in a faulty one
      have hgives : good → ∃ stuck,
          Answers agent call.bases stuck (walker.query call) binds ∧
            (stuck → Mishap ρ agent call) := by
        intro hgood
        by_cases hconforms : Conforms agent call.bases (walker.query call)
            (.response none 0 statusText index binds)
        · cases hconforms with
          | rows _ _ _ _ hgives => exact ⟨False, hgives, False.elim⟩
        · cases (hhonest hgood log _ _ hanswer rfl).resolve_left hconforms with
          | status _ _ _ _ hno => exact absurd rfl hno
          | empty => exact absurd rfl hne
          | stuck _ _ _ hgives => exact ⟨True, hgives, fun _ ↦ hfault hconforms⟩
      obtain ⟨hcut, hnext⟩ := hw'.respond hkeeps hactive hne hgives
      rw [Coro.wp_bind, Coro.wp_get, Coro.wp_bind, Coro.wp_modify]
      split
      case isTrue hyes => exact hend (hcut hyes)
      case isFalse hno =>
        obtain ⟨hwalking, hlt⟩ := hnext (Bool.eq_false_of_not_eq_true hno)
        exact .next _ _ hwalking hlt
  case isFalse hstatus =>
    -- an error status: of the honest ones, two go on and the others stop the walk
    split
    case isTrue hname =>
      have hended : good → ∀ oid ∈ (walker.query call).cursors[(index - 1).toNat]?,
          ∀ base ∈ call.bases, base <+: oid → (agent call.access).EndedAfter base oid := by
        intro hgood
        rcases hhonest hgood log _ _ hanswer rfl with hconforms | hfaulty
        · cases hconforms with
          | rows => exact absurd rfl hstatus
          | noSuchName _ _ _ _ hended => exact hended
          | tooBig => exact absurd hname.1 (by omega)
        · cases hfaulty with
          | status _ _ _ _ _ hno =>
            rw [hlen] at hno
            exact absurd hname hno
          | empty | stuck => exact absurd rfl hstatus
      have hpop := fun hgood ↦ (h.sound hgood).pop hname.2 (hended hgood)
      exact .next _ _ ⟨hw'.inv, fun hgood ↦ (hpop hgood).1, hw'.charged, hw'.fault⟩
        fun hgood ↦ (hpop hgood).2
    case isFalse hname =>
    split
    case isTrue hbig =>
      have hhalve := fun hgood ↦ (h.sound hgood).halve hbig.2
      exact .next _ _ ⟨hw'.inv, fun hgood ↦ (hhalve hgood).1, hw'.charged, hw'.fault⟩
        fun hgood ↦ (hhalve hgood).2
    case isFalse hbig =>
      refine .ended _ _ (hw'.stopped (fun _ _ ↦ hfault fun hconforms ↦ ?_) ..)
      cases hconforms with
      | rows => exact hstatus rfl
      | noSuchName _ _ _ hindex =>
        rw [hlen] at hindex
        exact hname ⟨rfl, hindex⟩
      | tooBig _ _ _ hmany => exact hbig ⟨rfl, hmany⟩

/-- The run lemma of the loop: by induction on the fuel, of which `ahead` says how much it takes. -/
theorem walkLoop_wp (hkeeps : WalkKeeps ρ call) (hhonest : good → Honest ρ agent call) {fuel : ℕ}
    (h : Walking ρ agent call good s₀ walker w)
    (hfuel : ρ.mayStop ∨ good ∧ walker.ahead (agent call.access) < fuel) :
    (walkLoop call fuel walker).wp ρ (WalkEnd ρ agent call good s₀) w := by
  induction fuel generalizing walker w with
  | zero =>
    rcases hfuel with hstop | ⟨-, hlt⟩
    · exact hstop
    · omega
  | succ fuel ih =>
    rw [walkLoop_succ, Coro.wp_bind]
    refine Coro.wp_mono (h.round hkeeps hhonest) fun out w' _ hround ↦ ?_
    cases hround with
    | ended walked w' hend => exact hend
    | next walker' w' hwalking hlt =>
      refine ih hwalking (hfuel.imp_right fun ⟨hgood, hfuel⟩ ↦ ⟨hgood, ?_⟩)
      have hless := hlt hgood
      omega

/-- The specification of `_walk_columns`. -/
theorem walkColumns_wp (hkeeps : WalkKeeps ρ call) (hhonest : good → Honest ρ agent call)
    {fuel : ℕ} (hinv : ρ.inv w)
    (hfuel : ρ.mayStop ∨ good ∧ call.start.ahead (agent call.access) < fuel) :
    (walkColumns call fuel).wp ρ (WalkEnd ρ agent call good w.st) w :=
  walkLoop_wp hkeeps hhonest
    ⟨hinv, fun _ ↦ sound_start _ call, fun _ _ ↦ charged_start call w.st, nofun⟩ hfuel

end Snmp
