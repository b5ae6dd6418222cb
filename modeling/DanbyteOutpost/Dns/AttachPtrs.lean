import DanbyteOutpost.Data.Json
import DanbyteOutpost.Dns.ReverseDns

/-!
# Attaching PTR names to results

`attach_ptrs` fills in `detail["ptr"]` for the results whose target was looked up. The core decides
on the presence of the key, so the contract of a single result, `PtrReported`, says both when the
key is there and that nothing else moved.

The batch theorem `attachPtrs_reported_iff` is exact: the contract holds of every result if and only
if no result of the batch is `Spoiled`, which needs either a key that was there beforehand with
nothing answered, or a host-resolver failure that `resolve_ptrs` takes for an answer.

## The proof

What one result gets is a function of the answers for its own target (`attachOne`), and no result
is touched by another's target: `attachPtrs_eq_map` is the loop without its dictionary. The
contract of one result is then exact by the cases of what was answered and what the detail had
before (`ptrReported_attachOne_iff`), and the batch is that, result by result.

`Spoiled` is the condition in terms of the answers and the details alone; the back end's own
reading of an answer comes in only through `NameInfo.Misread`.
-/

namespace ReverseDns

variable {ι : Type*} [DecidableEq ι]

/-- What `attach_ptrs` reads of a check. -/
structure TargetedCheck (ι : Type*) where
  /-- By which a result finds it. -/
  stateId : ι
  /-- The address to be named. -/
  target : Option String

/-- A result, as `run_check` reports it. -/
structure CheckResult (ι : Type*) where
  /-- Of its check. -/
  stateId : ι
  /-- The text of the status. -/
  status : String
  /-- Where the checker measured one. -/
  latencyMs : Option ℚ
  /-- `None` where there is none. -/
  detail : Option (Dict String Json)

/-- The `dns` directive of a work message. -/
structure DnsDirective where
  /-- Whether names are wanted. -/
  resolve : Bool
  /-- Whom to ask; the host's own resolver where the list is empty. -/
  resolvers : List String

/-- `result["detail"][key]`. -/
def CheckResult.detail? (r : CheckResult ι) (key : String) : Option Json :=
  r.detail.bind fun d ↦ d.get? key

/-! ### The code -/

/-- The targets to look up, each once. -/
def targets (checks : List (TargetedCheck ι)) : List String :=
  ((checks.filterMap TargetedCheck.target).filter fun t ↦ !t.isEmpty).dedup

/-- The loop body: `detail["ptr"]` is set for a target that was found. -/
def attachOne (found : Dict String (Option String)) (target : Option String)
    (r : CheckResult ι) : CheckResult ι :=
  match target.bind found.get? with
  | none => r
  | some host =>
    { r with detail := some ((r.detail.getD Dict.empty).set "ptr" (.str (host.getD ""))) }

/-- `attach_ptrs(results, checks, dns)`. A lookup that raises leaves every result as it is. -/
def attachPtrs (net : Net) (results : List (CheckResult ι)) (checks : List (TargetedCheck ι))
    (dns : DnsDirective) : List (CheckResult ι) :=
  if !dns.resolve || results.isEmpty then results
  else if (targets checks).isEmpty then results
  else
    match resolvePtrs net (targets checks) dns.resolvers with
    | .error _ => results
    | .ok found =>
      let byState := Dict.ofList (checks.map fun c ↦ (c.stateId, c.target))
      results.map fun r ↦ attachOne found ((byState.get? r.stateId).join) r

/-! ### The contract -/

/-- The check a result belongs to. -/
def checkOf (checks : List (TargetedCheck ι)) (r : CheckResult ι) : Option (TargetedCheck ι) :=
  checks.find? fun c ↦ c.stateId = r.stateId

/-- The target of the check a result belongs to, when it names one. -/
def targetOf (checks : List (TargetedCheck ι)) (r : CheckResult ι) : Option String :=
  ((checkOf checks r).bind TargetedCheck.target).filter fun t ↦ !t.isEmpty

/-- The answer to the lookup of a result's target, `none` when Danbyte did not ask for one or
nobody answered. -/
def lookupAnswer (net : Net) (checks : List (TargetedCheck ι)) (dns : DnsDirective)
    (r : CheckResult ι) : Option String :=
  if dns.resolve then (targetOf checks r).bind (net.answers dns.resolvers) else none

/-- What becomes of one result: it carries `ptr` exactly when its lookup was answered, with the
answer as its value, and every other field is as it was. -/
structure PtrReported (answer : Option String) (r r' : CheckResult ι) : Prop where
  /-- The key is there if and only if there is an answer, though the answer may be that there is no
  name. -/
  ptr : r'.detail? "ptr" = answer.map Json.str
  /-- The result is of the same check. -/
  stateId : r'.stateId = r.stateId
  /-- Naming does not judge. -/
  status : r'.status = r.status
  /-- Nor does it measure. -/
  latencyMs : r'.latencyMs = r.latencyMs
  /-- What else the details say is left alone. -/
  detail : ∀ key, key ≠ "ptr" → r'.detail? key = r.detail? key

/-- The two ways a result can end up with a `ptr` nobody answered: it arrived with one, or the host
resolver, asked for its target, failed with a `gaierror` other than "no such name". -/
def Spoiled (net : Net) (checks : List (TargetedCheck ι)) (dns : DnsDirective)
    (r : CheckResult ι) : Prop :=
  (lookupAnswer net checks dns r = none ∧ r.detail? "ptr" ≠ none) ∨
    (dns.resolve = true ∧ usable dns.resolvers = [] ∧
      ∃ t ∈ targetOf checks r, (net.getnameinfo t).Misread)

/-! ### One result -/

/-- The value the loop body writes for a target, if it writes one. -/
def written? (found : Dict String (Option String)) (target : Option String) : Option String :=
  (target.bind found.get?).map fun h ↦ h.getD ""

omit [DecidableEq ι] in
/-- What is under `ptr` after the loop body: the value written, or what was there. -/
theorem detail?_ptr_attachOne (found : Dict String (Option String)) (target : Option String)
    (r : CheckResult ι) :
    (attachOne found target r).detail? "ptr" =
      ((written? found target).map Json.str).or (r.detail? "ptr") := by
  rw [attachOne, written?]
  rcases target.bind found.get? with - | host
  · rfl
  · simp [CheckResult.detail?, Dict.get?_set_self]

omit [DecidableEq ι] in
/-- The loop body meets the contract for an answer exactly when the `ptr` it leaves is the
answer's. -/
theorem ptrReported_attachOne_iff {found : Dict String (Option String)}
    {target answer : Option String}
    {r : CheckResult ι} :
    PtrReported answer r (attachOne found target r) ↔
      ((written? found target).map Json.str).or (r.detail? "ptr") = answer.map Json.str := by
  constructor
  · intro h
    rw [← detail?_ptr_attachOne]
    exact h.ptr
  · intro h
    refine ⟨by rw [detail?_ptr_attachOne]; exact h, ?_, ?_, ?_, fun key hkey ↦ ?_⟩
    all_goals rw [attachOne]; rcases target.bind found.get? with - | host
    all_goals first | rfl | skip
    rw [CheckResult.detail?, Option.bind_some, Dict.get?_set_ne _ _ (Ne.symm hkey)]
    rcases hdet : r.detail with - | d₀ <;> simp [CheckResult.detail?, hdet]

/-! ### The batch -/

/-- What `attach_ptrs` has found before its loop: nothing on every path that returns early. -/
def foundFor (net : Net) (checks : List (TargetedCheck ι)) (dns : DnsDirective) :
    Dict String (Option String) :=
  if dns.resolve && !(targets checks).isEmpty then
    match resolvePtrs net (targets checks) dns.resolvers with
    | .error _ => Dict.empty
    | .ok found => found
  else Dict.empty

omit [DecidableEq ι] in
/-- Where nothing was found, the loop body changes nothing. -/
theorem attachOne_empty (target : Option String) (r : CheckResult ι) :
    attachOne Dict.empty target r = r := by
  rw [attachOne]
  cases target <;> rfl

/-- Every path through `attach_ptrs` is the same loop, over what was found. -/
theorem attachPtrs_eq_map (net : Net) (results : List (CheckResult ι))
    (checks : List (TargetedCheck ι)) (dns : DnsDirective) :
    attachPtrs net results checks dns = results.map fun r ↦
      attachOne (foundFor net checks dns)
        (((Dict.ofList (checks.map fun c ↦ (c.stateId, c.target))).get? r.stateId).join) r := by
  have hidle : results = results.map fun r ↦ attachOne Dict.empty
      (((Dict.ofList (checks.map fun c ↦ (c.stateId, c.target))).get? r.stateId).join) r := by
    simp only [attachOne_empty, List.map_id']
  rw [attachPtrs, foundFor]
  by_cases hres : dns.resolve = true
  · by_cases hempty : (targets checks).isEmpty = true
    · simpa [hres, hempty] using hidle
    · rcases results with - | ⟨r, rs⟩
      · simp
      · rcases hgot : resolvePtrs net (targets checks) dns.resolvers with e | found
        · simpa [hres, hempty] using hidle
        · simp [hres, hempty]
  · simpa [hres] using hidle

/-- The dictionary by `state_id` finds the target of the check a result belongs to, given that no
two checks share one. -/
theorem join_get?_byState {checks : List (TargetedCheck ι)}
    (hnd : (checks.map TargetedCheck.stateId).Nodup) (r : CheckResult ι) :
    ((Dict.ofList (checks.map fun c ↦ (c.stateId, c.target))).get? r.stateId).join =
      (checkOf checks r).bind TargetedCheck.target := by
  have hnd' : ((checks.map fun c ↦ (c.stateId, c.target)).map Prod.fst).Nodup := by
    rw [List.map_map]
    exact hnd
  rcases hfind : checkOf checks r with - | c
  · have hnone :
        (Dict.ofList (checks.map fun c ↦ (c.stateId, c.target))).get? r.stateId = none := by
      refine Option.eq_none_iff_forall_ne_some.2 fun t ht ↦ ?_
      obtain ⟨c, hc, heq⟩ := List.mem_map.1 ((Dict.get?_ofList_iff hnd').1 ht)
      have hne : ¬ c.stateId = r.stateId := by simpa using List.find?_eq_none.1 hfind c hc
      exact hne (Prod.mk.inj heq).1
    rw [hnone]
    rfl
  · have hc : c ∈ checks := List.mem_of_find?_eq_some hfind
    have hid : c.stateId = r.stateId := by simpa using List.find?_some hfind
    have hsome : (Dict.ofList (checks.map fun c ↦ (c.stateId, c.target))).get? r.stateId =
        some c.target :=
      (Dict.get?_ofList_iff hnd').2 (List.mem_map.2 ⟨c, hc, by rw [hid]⟩)
    rw [hsome]
    rfl

omit [DecidableEq ι] in
/-- A target is looked up exactly if a check names it and it is not empty. -/
theorem mem_targets_iff {checks : List (TargetedCheck ι)} {t : String} :
    t ∈ targets checks ↔ (∃ c ∈ checks, c.target = some t) ∧ t.isEmpty = false := by
  simp [targets, List.mem_dedup, List.mem_filter, List.mem_filterMap]

omit [DecidableEq ι] in
/-- What was found for a target: what is reported for it, when Danbyte asked. -/
theorem get?_foundFor (net : Net) (checks : List (TargetedCheck ι)) (dns : DnsDirective)
    (t : String) :
    ((foundFor net checks dns).get? t).map (fun h ↦ h.getD "") =
      if dns.resolve = true ∧ t ∈ targets checks then net.reported dns.resolvers t else none := by
  rw [foundFor]
  by_cases hres : dns.resolve = true
  swap
  · simp [hres]
  by_cases hempty : targets checks = []
  · simp [hempty]
  · rcases resolvePtrs_spec net dns.resolvers hempty with ⟨e, he, hnone⟩ | ⟨found, hf, hget⟩
    · simp [hres, hempty, he, hnone]
    · simpa [hres, hempty, hf] using hget t

/-- What the loop writes for a result: what is reported for its target, when Danbyte asked. -/
theorem written?_foundFor (net : Net) (checks : List (TargetedCheck ι)) (dns : DnsDirective)
    (r : CheckResult ι) :
    written? (foundFor net checks dns)
        ((checkOf checks r).bind TargetedCheck.target) =
      if dns.resolve then (targetOf checks r).bind (net.reported dns.resolvers) else none := by
  rw [targetOf, written?]
  rcases ht : (checkOf checks r).bind TargetedCheck.target with - | t
  · simp
  rw [Option.bind_some, get?_foundFor]
  -- the check a target comes from is one of the batch, so a target that is not blank is looked up
  obtain ⟨c, hfind, hc⟩ := Option.bind_eq_some_iff.1 ht
  have hmem : t ∈ targets checks ↔ t.isEmpty = false := by
    rw [mem_targets_iff]
    exact and_iff_right ⟨c, List.mem_of_find?_eq_some hfind, hc⟩
  by_cases hres : dns.resolve = true <;> by_cases hblank : t.isEmpty = true <;>
    simp [hmem, hres, hblank, Option.filter]

/-- **The contract of a whole batch, exactly.** Every result carries `ptr` if and only if its
lookup was answered, with the answer as its value and every other field as it was, precisely when
no result of the batch is `Spoiled`.

A batch is spoiled in two ways. `_via_system` takes every `gaierror` for an answer, so also the one
that says that nobody could be asked; and a result that comes with a `ptr` of its own keeps it when
its lookup goes unanswered. The other fields are left alone in every batch. -/
theorem attachPtrs_reported_iff (net : Net) (results : List (CheckResult ι))
    {checks : List (TargetedCheck ι)} (dns : DnsDirective)
    (hnd : (checks.map TargetedCheck.stateId).Nodup) :
    List.Forall₂ (fun r r' ↦ PtrReported (lookupAnswer net checks dns r) r r') results
        (attachPtrs net results checks dns) ↔
      ∀ r ∈ results, ¬ Spoiled net checks dns r := by
  rw [attachPtrs_eq_map, List.forall₂_map_right_iff, List.forall₂_same]
  refine forall₂_congr fun r _ ↦ ?_
  rw [join_get?_byState hnd, ptrReported_attachOne_iff, written?_foundFor]
  set prior := r.detail? "ptr" with hprior
  by_cases hres : dns.resolve = true
  swap
  · have hans : lookupAnswer net checks dns r = none := by rw [lookupAnswer, if_neg hres]
    simp [hres, hans, Spoiled, ← hprior]
  rcases ht : targetOf checks r with - | t
  · have hans : lookupAnswer net checks dns r = none := by rw [lookupAnswer, if_pos hres, ht]; rfl
    simp [hres, ht, hans, Spoiled, ← hprior]
  have hans : lookupAnswer net checks dns r = net.answers dns.resolvers t := by
    rw [lookupAnswer, if_pos hres, ht, Option.bind_some]
  rw [if_pos hres, Option.bind_some, hans]
  have hspoiled : Spoiled net checks dns r ↔
      (net.answers dns.resolvers t = none ∧ prior ≠ none) ∨
        (usable dns.resolvers = [] ∧ (net.getnameinfo t).Misread) := by
    simp [Spoiled, hans, hres, ht, ← hprior]
  rw [hspoiled, not_or, ← reported_eq_answers_iff]
  -- what is attached is what is reported, so all depends on whether that is what was answered
  constructor
  · intro h
    have heq : net.reported dns.resolvers t = net.answers dns.resolvers t := by
      rcases hW : net.reported dns.resolvers t with - | w
      · rcases hA : net.answers dns.resolvers t with - | a
        · rfl
        · rw [reported_of_answers hA] at hW
          exact nomatch hW
      · rcases hA : net.answers dns.resolvers t with - | a
        · rw [hW, hA] at h
          exact nomatch h
        · rw [reported_of_answers hA] at hW
          exact hW.symm
    refine ⟨?_, heq⟩
    rintro ⟨hA, hp⟩
    rw [heq, hA] at h
    exact hp h
  · rintro ⟨hp, heq⟩
    rw [heq]
    rcases hA : net.answers dns.resolvers t with - | a
    · have hnone : prior = none := by
        by_contra hne
        exact hp ⟨hA, hne⟩
      rw [hnone]
      rfl
    · rfl

/-- A site where the host resolver is down: every lookup fails for the moment. -/
def resolverDown : Net where
  getnameinfo _ := .gaierror .again
  dnspython := none

/-- A site whose host resolver knows one address, knows that another has no name, and is not heard
from about the rest. -/
def resolverUp : Net where
  getnameinfo addr :=
    if addr = "192.0.2.7" then .host "sw1.example"
    else if addr = "192.0.2.8" then .gaierror .noName
    else .timeout
  dnspython := none

/-- One reachable host, reported without a name so far. -/
def upResult : CheckResult ℕ := ⟨7, "up", some 3, some Dict.empty⟩

/-- The contract holds of a batch with a name, an absence, a lookup without an answer and a check
without a target, whatever order the results come in. -/
theorem attachPtrs_reported_resolverUp :
    let checks : List (TargetedCheck ℕ) :=
      [⟨7, some "192.0.2.7"⟩, ⟨8, some "192.0.2.8"⟩, ⟨9, some "192.0.2.9"⟩, ⟨10, none⟩]
    let results := [⟨9, "down", none, none⟩, upResult, ⟨10, "unknown", none, some Dict.empty⟩,
      ⟨8, "up", some 1, none⟩]
    let results' := attachPtrs resolverUp results checks ⟨true, []⟩
    results'.map (fun r ↦ r.detail? "ptr") =
      [none, some (.str "sw1.example"), none, some (.str "")] ∧
      List.Forall₂ (fun r r' ↦ PtrReported (lookupAnswer resolverUp checks ⟨true, []⟩ r) r r')
        results results' := by
  intro checks results results'
  refine ⟨rfl, (attachPtrs_reported_iff resolverUp results ⟨true, []⟩ (by decide)).2 fun r hr ↦ ?_⟩
  have hbare : ∀ r ∈ results, r.detail? "ptr" = none := by
    simp [results, upResult, CheckResult.detail?, Dict.get?_empty]
  rintro (⟨-, hptr⟩ | ⟨-, -, t, -, c, hc, hname⟩)
  · exact hptr (hbare r hr)
  · -- the only failure of the resolver is an answer
    rw [resolverUp] at hc
    dsimp only at hc
    split_ifs at hc
    exact hname (NameInfo.gaierror.inj hc).symm

/-- While the host resolver is down, every address is reported as nameless. -/
theorem attachPtrs_resolverDown_wipes :
    ¬ List.Forall₂
      (fun r r' ↦ PtrReported (lookupAnswer resolverDown [⟨7, some "192.0.2.7"⟩] ⟨true, []⟩ r) r r')
      [upResult] (attachPtrs resolverDown [upResult] [⟨7, some "192.0.2.7"⟩] ⟨true, []⟩) := by
  intro h
  have hptr := (List.forall₂_cons.1 h).1.ptr
  exact nomatch hptr

end ReverseDns
