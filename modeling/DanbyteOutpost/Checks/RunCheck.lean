import DanbyteOutpost.Data.Results
import DanbyteOutpost.Fast.Runner

/-!
# A batch of checks

`run_check`, for each check of a work batch. The lookup of the checker comes before the `try`, and
whatever is raised after it becomes an `unknown`.

## One result for each check

`Reports` says what the result of a check is to be. `exists_runCheck_iff` is where a check has
none: its kind cannot be hashed, so that the lookup raises outside the `try`.
`runBatch_reports_iff` is the batch: all checks have a result, in their order, exactly if all of
their kinds can be looked up, since the `gather` lets the first exception through.
-/

namespace Checks

open FastLane (Status getChecker unavailable)

/-- A check of a work batch, `null` where it says nothing. -/
structure Check where
  /-- `state_id`. -/
  stateId : Json
  /-- `kind`. -/
  kind : Json
  /-- `target`. -/
  target : Json
  /-- `params`. -/
  params : Json
  /-- `secret_params`. -/
  secretParams : Json
  /-- `timeout_ms`. -/
  timeoutMs : Json

/-- A `CheckOutcome` whole: with the details that a probe does not look at. -/
structure Outcome extends FastLane.CheckOutcome where
  /-- Its `detail`, the error aside. -/
  details : List (String × Json)

/-- A result of `run_check`. -/
structure Result extends Outcome where
  /-- The `state_id` of the check. -/
  stateId : Json

/-- One run of a checker, on a target, `params`, `secret_params` and a timeout: what it returns, or
the text of what it raises. -/
abbrev Attempt := Json → Json → Json → ℤ → Except String Outcome

/-- `CheckOutcome.unknown(error)`. -/
def Outcome.unknown (error : String) : Outcome := ⟨.unknown error, []⟩

variable (intError : Json → String)

/-- The guarded part of `run_check` and `_probe`; `intError` is the text of what `int` raises. -/
def Check.guarded (check : Check) (run : Attempt) : Except String Outcome :=
  let timeoutMs := check.timeoutMs.orElse (.int 2000)
  match timeoutMs.pyInt with
  | none => .error (intError timeoutMs)
  | some n =>
    run check.target (check.params.orElse (.obj [])) (check.secretParams.orElse (.obj [])) n

/-- The outcome of the guarded part: its own, or `unknown` with what it raised. -/
def caught : Except String Outcome → Outcome
  | .ok oc => oc
  | .error e => .unknown e

/-- `run_check(check)`; an error where the lookup of the checker raises. -/
def runCheck (check : Check) (run : Attempt) : Except Unit Result :=
  match getChecker check.kind with
  | none => .error ()
  | some false => .ok ⟨⟨unavailable check.kind, []⟩, check.stateId⟩
  | some true => .ok ⟨caught (check.guarded intError run), check.stateId⟩

/-- The results of a work batch. -/
def runBatch (checks : List (Check × Attempt)) : Except Unit (List Result) :=
  gatherAll (checks.map fun c ↦ runCheck intError c.1 c.2)

/-! ### What can be looked up -/

/-- The kind can be the key of a `dict`. -/
def Hashable : Json → Prop
  | .arr _ | .obj _ => False
  | _ => True

instance (kind : Json) : Decidable (Hashable kind) :=
  match kind with
  | .arr _ | .obj _ => inferInstanceAs (Decidable False)
  | .null | .bool _ | .int _ | .float _ _ | .str _ => inferInstanceAs (Decidable True)

/-- What can be the key of a `dict` is what `get_checker` can look up. -/
theorem hashable_iff {kind : Json} : Hashable kind ↔ getChecker kind ≠ none := by
  cases kind <;> simp [Hashable, getChecker]

variable {intError} {check : Check} {run : Attempt}

/-- The result a check is to have: under its `state_id`, of its own run, or `unknown` where there is
no checker of its kind. -/
structure Reports (intError : Json → String) (check : Check) (run : Attempt) (result : Result) :
    Prop where
  /-- It is found under the id of its check. -/
  stateId : result.stateId = check.stateId
  /-- A kind that is not there is no outage. -/
  unavailable : getChecker check.kind = some false → result.status = .unknown
  /-- Otherwise the outcome is that of the run, or the exception of the run as an outcome. -/
  ran : getChecker check.kind = some true → result.toOutcome = caught (check.guarded intError run)

/-- What `run_check` returns is the result the check is to have. -/
theorem reports_of_runCheck {result : Result} (h : runCheck intError check run = .ok result) :
    Reports intError check run result := by
  rw [runCheck] at h
  split at h
  case h_1 => cases h
  case h_2 hkind =>
    cases h
    exact ⟨rfl, fun _ ↦ rfl, fun htrue ↦ by simp [hkind] at htrue⟩
  case h_3 hkind =>
    cases h
    exact ⟨rfl, fun hfalse ↦ by simp [hkind] at hfalse, fun _ ↦ rfl⟩

theorem exists_runCheck_iff :
    (∃ result, runCheck intError check run = .ok result) ↔ Hashable check.kind := by
  rw [hashable_iff, runCheck]
  rcases hkind : getChecker check.kind with - | - | - <;> simp

/-- A batch has a result for each check, in order, exactly when every kind can be looked up. -/
theorem runBatch_reports_iff (checks : List (Check × Attempt)) :
    (∃ results, runBatch intError checks = .ok results ∧
      List.Forall₂ (fun c result ↦ Reports intError c.1 c.2 result) checks results) ↔
    ∀ c ∈ checks, Hashable c.1.kind := by
  have hbatch : (∃ results, runBatch intError checks = .ok results) ↔
      ∀ c ∈ checks, Hashable c.1.kind := by
    rw [runBatch, exists_gatherAll_iff, List.forall_mem_map]
    exact forall₂_congr fun c _ ↦ exists_runCheck_iff
  rw [← hbatch]
  refine exists_congr fun results ↦ and_iff_left_of_imp fun h ↦ ?_
  exact (gatherAll_map_eq_ok.1 h).imp fun c result ↦ reports_of_runCheck

end Checks
