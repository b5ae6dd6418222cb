import DanbyteOutpost.Agent.Posts
import DanbyteOutpost.Dns.AttachPtrs

/-!
# The other transport

With `once` the core reaches the agent over SSH: `_once` reads the work from its standard input and
prints the results. It runs the checks with the functions that `_loop` runs them with, and what is
to be the same is the outcome: whatever the loop comes to post of a batch, `_once` prints of that
work, with the same runs of the checks and the same names; and whatever results `_once` prints, the
loop comes to post (`once_agrees`).

## `attach_ptrs`

Both transports hand their results to `attach_ptrs`, which waits for the lookup in between. Here and
in `Agent.afterChecks` it stands cut in two at that `await`: its guards, and the names that the
lookup brought, one for each result. That this is the function of `ReverseDns.attachPtrs` is a
theorem for each of the two (`onceAttach_eq_attachPtrs`, `posting_eq_attachPtrs`): given the names
that `foundFor` has for the results, what is printed or posted is what `attachPtrs` returns.
-/

namespace Outpost

variable {ι ν : Type} {env : Env} {a a' : Agent ι ν}

/-! ### `_once` -/

/-- How `_once` ends: it prints an error, it prints results, or it raises. -/
inductive OnceEnd
  /-- Standard input is no JSON. -/
  | badWork (error : String)
  /-- The results, as they are printed. -/
  | printed (results : List Checks.Result)
  /-- An exception leaves `_once`. -/
  | raised

/-- `attach_ptrs` and what follows it; `names` is what the lookup brings, `none` when it raised. -/
def onceAttach (payload : Json) (results : Except Unit (List Checks.Result))
    (names : Option (List (Option String))) : Option OnceEnd :=
  match results with
  | .error () => some .raised
  | .ok results =>
    match ((field payload "dns").orElse (.obj [])).get? "resolve" with
    | none => some .raised
    | some resolve =>
      if (resolve.getD .null).truthy && !results.isEmpty then
        match names with
        | none => some .raised
        | some names =>
          if names.length = results.length then
            some (.printed (List.zipWith withPtr results names))
          else none
      else some (.printed results)

/-- `_once`, of what `json.loads` makes of its input. There is a run of each check and a name for
each result, or it is not what `_once` meets. -/
def once (env : Env) (stdin : Except String Json) (runs : List Checks.Attempt)
    (names : Option (List (Option String))) : Option OnceEnd :=
  match stdin with
  | .error text => some (.badWork ("bad work json: " ++ text))
  | .ok payload =>
    match itemsOf payload "checks" with
    | none => some .raised
    | some items =>
      if runs.length = items.length then
        onceAttach payload (gatherAll (List.zipWith (runItem env.intError) items runs)) names
      else none

/-! ### A batch -/

/-- The runs of the work's checks come to the results, of which there are some. -/
structure Gathered (env : Env) (work : Json) (runs : List Checks.Attempt)
    (results : List Checks.Result) : Prop where
  /-- There is something to post. -/
  nonempty : results ≠ []
  /-- Each check of the work has its run, and none of the runs raised. -/
  items : ∃ items, itemsOf work "checks" = some items ∧ runs.length = items.length ∧
    gatherAll (List.zipWith (runItem env.intError) items runs) = .ok results

/-- `_once` comes to `attach_ptrs` with the results of the batch. -/
theorem Gathered.once {work : Json} {runs : List Checks.Attempt} {results : List Checks.Result}
    (h : Gathered env work runs results) (names : Option (List (Option String))) :
    once env (.ok work) runs names = onceAttach work (.ok results) names := by
  obtain ⟨items, hitems, hlen, hresults⟩ := h.items
  rw [Outpost.once]
  simp only [hitems, if_pos hlen, hresults]

/-- There are as many results with their names as without. -/
theorem withPtr_ne_nil {results : List Checks.Result} {names : List (Option String)}
    (hlen : names.length = results.length) :
    List.zipWith withPtr results names ≠ [] ↔ results ≠ [] := by
  rw [ne_eq, ne_eq, List.zipWith_eq_nil_iff]
  constructor
  · exact fun h hnil ↦ h (.inl hnil)
  · rintro h (hnil | hnil)
    · exact h hnil
    · rw [hnil, List.length_nil, eq_comm, List.length_eq_zero_iff] at hlen
      exact h hlen

/-- What `_once` prints comes of a batch. -/
theorem gathered_of_once {work : Json} {runs : List Checks.Attempt}
    {names : Option (List (Option String))} {printed : List Checks.Result}
    (h : once env (.ok work) runs names = some (.printed printed)) (hne : printed ≠ []) :
    ∃ results, Gathered env work runs results ∧
      onceAttach work (.ok results) names = some (.printed printed) := by
  rw [once] at h
  split at h
  case h_1 => cases h
  case h_2 items hitems =>
    split at h
    case isFalse => cases h
    case isTrue hlen =>
      rcases hresults : gatherAll (List.zipWith (runItem env.intError) items runs) with e | results
      · rw [hresults] at h
        cases h
      · rw [hresults] at h
        refine ⟨results, ⟨?_, items, hitems, hlen, hresults⟩, h⟩
        rintro rfl
        unfold onceAttach at h
        dsimp only at h
        split at h
        · cases h
        · rw [List.isEmpty_nil, Bool.not_true, Bool.and_false, if_neg Bool.false_ne_true] at h
          cases h
          exact hne rfl

/-- The work asks for names, or not. -/
def asksNames (work : Json) : Option Bool :=
  (((field work "dns").orElse (.obj [])).get? "resolve").map fun resolve ↦
    (resolve.getD .null).truthy

/-- Work that asks for no names is printed as it was gathered. -/
theorem onceAttach_unasked {work : Json} {results : List Checks.Result}
    {names : Option (List (Option String))} (hasks : asksNames work = some false) :
    onceAttach work (.ok results) names = some (.printed results) := by
  obtain ⟨resolve, hresolve, hfalsy⟩ := Option.map_eq_some_iff.1 hasks
  simp only [onceAttach, hresolve, hfalsy, Bool.false_and, Bool.false_eq_true, if_false]

/-- Work that asks for them is printed with the names. -/
theorem onceAttach_asked {work : Json} {results : List Checks.Result} {names : List (Option String)}
    (hasks : asksNames work = some true) (hne : results ≠ [])
    (hlen : names.length = results.length) :
    onceAttach work (.ok results) (some names) =
      some (.printed (List.zipWith withPtr results names)) := by
  obtain ⟨resolve, hresolve, htruthy⟩ := Option.map_eq_some_iff.1 hasks
  have hsome : results.isEmpty = false := by simpa using hne
  simp only [onceAttach, hresolve, htruthy, hsome, Bool.not_false, Bool.and_true, if_true, hlen]

/-- What `_once` prints of results: the results, or those with the names. -/
theorem onceAttach_printed {work : Json} {results printed : List Checks.Result}
    {names : Option (List (Option String))} (hne : results ≠ [])
    (h : onceAttach work (.ok results) names = some (.printed printed)) :
    (asksNames work = some false ∧ printed = results) ∨
      ∃ given, asksNames work = some true ∧ names = some given ∧ given.length = results.length ∧
        printed = List.zipWith withPtr results given := by
  have hsome : results.isEmpty = false := by simpa using hne
  unfold onceAttach at h
  dsimp only at h
  rw [asksNames]
  split at h
  case h_1 => cases h
  case h_2 resolve hresolve =>
    rw [hresolve, Option.map_some]
    rw [hsome, Bool.not_false, Bool.and_true] at h
    split at h
    case isFalse hfalsy =>
      cases h
      exact .inl ⟨congrArg some (Bool.eq_false_iff.2 hfalsy), rfl⟩
    case isTrue htruthy =>
      rcases names with - | given
      · cases h
      · dsimp only at h
        split at h
        case isFalse => cases h
        case isTrue hlen =>
          cases h
          exact .inr ⟨given, congrArg some htruthy, rfl, hlen, rfl⟩

/-! ### The loop -/

/-- The loop's guards of `attach_ptrs`, by what the work asks for. -/
theorem afterChecks_eq (work : Json) (results : List Checks.Result) (a : Agent ι ν) :
    a.afterChecks work (.ok results) =
      match asksNames work with
      | none => a.pollError
      | some true => { a with pc := .naming work results }
      | some false => { a with pc := .posting work results } := by
  rw [Agent.afterChecks, asksNames]
  rcases ((field work "dns").orElse (.obj [])).get? "resolve" with - | resolve
  · rfl
  · rw [Option.map_some]
    dsimp only
    cases (resolve.getD .null).truthy <;> rfl

theorem step_checked {work : Json} {items : List Json} {runs : List Checks.Attempt}
    (hpc : a.pc = .checking work items) (hlen : runs.length = items.length) :
    a.step env (.checked runs) =
      some (a.afterChecks work (gatherAll (List.zipWith (runItem env.intError) items runs))) := by
  simp only [Agent.step, hpc, if_pos hlen]

/-! ### The function of `attach_ptrs` -/

section AttachPtrs

open ReverseDns (Net CheckResult TargetedCheck DnsDirective attachPtrs attachOne written? foundFor)

variable {κ : Type} [DecidableEq κ]

/-- The text of a status. -/
def statusText : FastLane.Status → String
  | .up => "up"
  | .down => "down"
  | .degraded => "degraded"
  | .unknown => "unknown"

/-- A result as `attach_ptrs` has it; `key` is what a `state_id` is as the key of a `dict`. The
`error` of an outcome is an entry of its detail. -/
def resultOf (key : Json → κ) (r : Checks.Result) : CheckResult κ where
  stateId := key r.stateId
  status := statusText r.status
  latencyMs := r.latencyMs
  detail := some (r.details.foldl (fun d e ↦ d.set e.1 e.2)
    (Dict.ofList (r.error.toList.map fun e ↦ ("error", .str e))))

/-- The names for the results, by what `attach_ptrs` has found; `checks` and `dns` are what it reads
of the work. -/
def namesFor (key : Json → κ) (net : Net) (checks : List (TargetedCheck κ)) (dns : DnsDirective)
    (results : List Checks.Result) : List (Option String) :=
  results.map fun r ↦ written? (foundFor net checks dns)
    (((Dict.ofList (checks.map fun c ↦ (c.stateId, c.target))).get? (key r.stateId)).join)

/-- There is a name, or none, for each result. -/
theorem length_namesFor (key : Json → κ) (net : Net) (checks : List (TargetedCheck κ))
    (dns : DnsDirective) (results : List Checks.Result) :
    (namesFor key net checks dns results).length = results.length :=
  List.length_map _

omit [DecidableEq κ] in
/-- Writing the name into a result is the loop body of `attach_ptrs`. -/
theorem resultOf_withPtr (key : Json → κ) (r : Checks.Result)
    (found : Dict String (Option String)) (target : Option String) :
    resultOf key (withPtr r (written? found target)) = attachOne found target (resultOf key r) := by
  rw [written?, attachOne]
  rcases target.bind found.get? with - | host
  · rfl
  · rw [Option.map_some, withPtr, resultOf]
    dsimp only
    rw [Dict.foldl_set_items, Dict.foldl_set_ofList]
    rfl

/-- The results with their names are what `attach_ptrs` returns. -/
theorem map_resultOf_named (key : Json → κ) (net : Net) (checks : List (TargetedCheck κ))
    (dns : DnsDirective) (results : List Checks.Result) :
    (List.zipWith withPtr results (namesFor key net checks dns results)).map (resultOf key) =
      attachPtrs net (results.map (resultOf key)) checks dns := by
  rw [ReverseDns.attachPtrs_eq_map, namesFor, List.zipWith_map_right, List.zipWith_self,
    List.map_map, List.map_map]
  exact List.map_congr_left fun r _ ↦ resultOf_withPtr key r _ _

/-- Without `resolve`, or without results, `attach_ptrs` returns the results it was given. -/
theorem attachPtrs_idle {net : Net} {checks : List (TargetedCheck κ)} {dns : DnsDirective}
    {results : List (CheckResult κ)} (h : dns.resolve = false ∨ results = []) :
    attachPtrs net results checks dns = results := by
  rw [attachPtrs]
  rcases h with h | rfl
  · rw [h, Bool.not_false, Bool.true_or, if_pos rfl]
  · rw [List.isEmpty_nil, Bool.or_true, if_pos rfl]

variable {work : Json} {results : List Checks.Result} {dns : DnsDirective}

/-- `_once` prints what `attach_ptrs` returns. -/
theorem onceAttach_eq_attachPtrs (key : Json → κ) (net : Net) (checks : List (TargetedCheck κ))
    (hasks : asksNames work = some dns.resolve) :
    ∃ printed, onceAttach work (.ok results) (some (namesFor key net checks dns results)) =
        some (.printed printed) ∧
      printed.map (resultOf key) = attachPtrs net (results.map (resultOf key)) checks dns := by
  rcases hresolve : dns.resolve with - | -
  · rw [hresolve] at hasks
    exact ⟨results, onceAttach_unasked hasks, (attachPtrs_idle (.inl hresolve)).symm⟩
  · rw [hresolve] at hasks
    by_cases hne : results = []
    · subst hne
      obtain ⟨resolve, hget, -⟩ := Option.map_eq_some_iff.1 hasks
      refine ⟨[], ?_, (attachPtrs_idle (.inr rfl)).symm⟩
      simp only [onceAttach, hget, List.isEmpty_nil, Bool.not_true, Bool.and_false,
        Bool.false_eq_true, if_false]
    · exact ⟨_, onceAttach_asked hasks hne (length_namesFor key net checks dns results),
        map_resultOf_named key net checks dns results⟩

/-- And the loop posts what `attach_ptrs` returns: from the end of the `gather` there is a way to
the post, over the lookup if there is one, on which the results come to be those. -/
theorem posting_eq_attachPtrs (key : Json → κ) (net : Net) (checks : List (TargetedCheck κ))
    {items : List Json} {runs : List Checks.Attempt} (hpc : a.pc = .checking work items)
    (hlen : runs.length = items.length)
    (hresults : gatherAll (List.zipWith (runItem env.intError) items runs) = .ok results)
    (hasks : asksNames work = some dns.resolve) :
    ∃ es a' posted, (agent env).exec a (.checked runs :: es) = some a' ∧
      a'.pc = .posting work posted ∧
      posted.map (resultOf key) = attachPtrs net (results.map (resultOf key)) checks dns := by
  have hchecked : a.step env (.checked runs) = some _ := step_checked hpc hlen
  rw [hresults, afterChecks_eq, hasks] at hchecked
  rcases hresolve : dns.resolve with - | -
  · rw [hresolve] at hchecked
    exact ⟨[], _, results, Machine.exec_cons.2 ⟨_, hchecked, rfl⟩, rfl,
      (attachPtrs_idle (.inl hresolve)).symm⟩
  · rw [hresolve] at hchecked
    let b : Agent ι ν := { a with pc := .naming work results }
    let names := namesFor key net checks dns results
    have hnamed : b.step env (.named (some names)) =
        some { b with pc := .posting work (List.zipWith withPtr results names) } :=
      if_pos (length_namesFor key net checks dns results)
    exact ⟨[.named (some names)], _, _,
      Machine.exec_cons.2 ⟨b, hchecked, Machine.exec_cons.2 ⟨_, hnamed, rfl⟩⟩, rfl,
      map_resultOf_named key net checks dns results⟩

end AttachPtrs

/-! ### Both transports -/

/-- What a batch was given from outside: the run of each of its checks, and the names that the
lookup of `attach_ptrs` brought, if it was made. -/
structure Given where
  /-- The runs of the checks, in the order of the work. -/
  runs : List Checks.Attempt
  /-- The names for the results, in their order; `none` while the lookup has not been made. -/
  names : Option (List (Option String))

/-- What was given to the last batch: the runs come with the end of the `gather`, and the names with
that of the lookup. -/
def lastGiven (_ : Agent ι ν) (e : Event ι ν) (g : Given) : Given :=
  match e with
  | .checked runs => ⟨runs, none⟩
  | .named names => { g with names := names }
  | _ => g

/-- The loop is as far with its batch as `_once` is with what that batch was given. -/
def AsOnce (env : Env) (a : Agent ι ν) (g : Given) : Prop :=
  match a.pc with
  | .checking work items => itemsOf work "checks" = some items ∧ items ≠ []
  | .naming work results => asksNames work = some true ∧ Gathered env work g.runs results
  | .posting work results =>
    results ≠ [] ∧ once env (.ok work) g.runs g.names = some (.printed results)
  | _ => True

/-- A loop that holds no batch agrees with any. -/
theorem asOnce_of_idle {g : Given} (h : a.pc.idle = true) : AsOnce env a g := by
  rw [AsOnce]
  split
  case h_1 hpc | h_2 hpc | h_3 hpc =>
    rw [hpc] at h
    cases h
  case h_4 => trivial

/-- The results of a batch go on to the lookup, or to the post. -/
theorem asOnce_afterChecks {work : Json} {items : List Json} {runs : List Checks.Attempt}
    (hitems : itemsOf work "checks" = some items) (hne : items ≠ [])
    (hlen : runs.length = items.length) :
    AsOnce env
      (a.afterChecks work (gatherAll (List.zipWith (runItem env.intError) items runs)))
      ⟨runs, none⟩ := by
  rcases hresults : gatherAll (List.zipWith (runItem env.intError) items runs) with e | results
  · exact asOnce_of_idle rfl
  have hgathered : Gathered env work runs results := by
    refine ⟨?_, items, hitems, hlen, hresults⟩
    rintro rfl
    have hall := forall₂_of_gatherAll_zipWith hlen hresults
    exact hne (List.length_eq_zero_iff.1 hall.length_eq)
  rw [afterChecks_eq]
  rcases hasks : asksNames work with - | - | -
  · exact asOnce_of_idle rfl
  · refine ⟨hgathered.nonempty, ?_⟩
    rw [hgathered.once, onceAttach_unasked hasks]
  · exact ⟨hasks, hgathered⟩

/-- Every step of the agent keeps `AsOnce`: the batch moves on only where what it waited for comes,
and that is what is written down. -/
theorem asOnce_step {e : Event ι ν} {g : Given} (ho : AsOnce env a g)
    (hstep : a.step env e = some a') : AsOnce env a' (lastGiven a e g) := by
  cases steps_of_step hstep with
  | helloed _ hends => exact asOnce_of_idle hends.idle
  | notReplaced => exact asOnce_of_idle (idle_helloFailed _ _)
  | slept => exact asOnce_of_idle (idle_top a)
  | clock _ hends => exact asOnce_of_idle hends.idle
  | lane => exact ho
  | work hpc hends =>
    cases hends with
    | failed | empty => exact asOnce_of_idle rfl
    | checking work items _ hitems hne => exact ⟨hitems, hne⟩
  | dutyWork hpc hends =>
    cases hends with
    | failed | empty => exact asOnce_of_idle rfl
    | cycling => trivial
  | checked hpc hlen hends =>
    rw [AsOnce, hpc] at ho
    rw [step_checked hpc hlen] at hstep
    exact Option.some.inj hstep ▸ asOnce_afterChecks ho.1 ho.2 hlen
  | @named _ _ names hpc hlen =>
    rw [AsOnce, hpc] at ho
    obtain ⟨hasks, hgathered⟩ := ho
    refine ⟨(withPtr_ne_nil hlen).2 hgathered.nonempty, ?_⟩
    show once env _ g.runs (some names) = _
    rw [hgathered.once, onceAttach_asked hasks hgathered.nonempty hlen]
  | polled hpc hlen hends => cases hends <;> trivial
  | swept hpc hends => cases hends <;> trivial
  | _ => exact asOnce_of_idle rfl

/-- **Both transports report the same.** In every run, what the loop comes to post of a piece of
work is what `_once` prints of that work, given the runs and the names that this run gave the batch;
and from every fetch of work, the loop comes to post what results `_once` prints of that work.

The difference between the two is in what is around the batch: `_once` prints and ends, the loop
posts and goes on. -/
theorem once_agrees {pollSeconds : ℤ} {start : Binary64} {es : List (Event ι ν)}
    (hrun : (agent env).exec (.init pollSeconds start) es = some a) :
    let g := (agent env).observe lastGiven (.init pollSeconds start) es ⟨[], none⟩
    (∀ work results, a.pc = .posting work results → results ≠ [] ∧
      once env (.ok work) g.runs g.names = some (.printed results)) ∧
    (a.pc = .fetching .checks → ∀ work results runs names, results ≠ [] →
      once env (.ok work) runs names = some (.printed results) →
      ∃ es' a', (agent env).exec a (.fetched (some work) :: .checked runs :: es') = some a' ∧
        a'.pc = .posting work results) := by
  have ho : AsOnce env a ((agent env).observe lastGiven (.init pollSeconds start) es ⟨[], none⟩) :=
    (agent env).exec_invariant (P := fun _ _ ↦ True) (f := lastGiven) (I := AsOnce env)
      (fun _ _ _ _ _ ho hstep ↦ asOnce_step ho hstep) (Machine.meets_true _ es)
      (asOnce_of_idle rfl) hrun
  constructor
  · intro work results hpc
    rw [AsOnce, hpc] at ho
    exact ho
  · intro hpc work printed runs names hne honce
    obtain ⟨results, hgathered, hattach⟩ := gathered_of_once honce hne
    obtain ⟨items, hitems, hlen, hresults⟩ := hgathered.items
    have hsome : items ≠ [] := by
      rintro rfl
      exact hgathered.nonempty (Except.ok.inj hresults).symm
    let b : Agent ι ν := { a with pc := .checking work items }
    have hfetched : a.step env (.fetched (some work)) = some b := by
      simp only [Agent.step, hpc, Agent.afterWork, hitems, b]
    have hchecked : b.step env (.checked runs) = some (b.afterChecks work (.ok results)) := by
      rw [step_checked rfl hlen, hresults]
    rw [afterChecks_eq] at hchecked
    rcases onceAttach_printed hgathered.nonempty hattach with
      ⟨hasks, rfl⟩ | ⟨given, hasks, -, hgiven, rfl⟩
    · rw [hasks] at hchecked
      exact ⟨[], _, Machine.exec_cons.2 ⟨_, hfetched, Machine.exec_cons.2 ⟨_, hchecked, rfl⟩⟩, rfl⟩
    · rw [hasks] at hchecked
      let c : Agent ι ν := { b with pc := .naming work results }
      have hnamed : c.step env (.named (some given)) =
          some { c with pc := .posting work (List.zipWith withPtr results given) } :=
        if_pos hgiven
      exact ⟨[.named (some given)], _, Machine.exec_cons.2 ⟨_, hfetched,
        Machine.exec_cons.2 ⟨c, hchecked, Machine.exec_cons.2 ⟨_, hnamed, rfl⟩⟩⟩, rfl⟩

/-- Work with a check in it, the name of whose target is asked for. -/
def namedCheck : Json :=
  .obj [("checks", .arr [.obj [("state_id", .int 1), ("kind", .str "tcp"),
      ("target", .str "192.0.2.7")]]),
    ("dns", .obj [("resolve", .bool true)])]

/-- The runs of its check that time out. -/
def timedOut : List Checks.Attempt := [fun _ _ _ _ ↦ .error "timed out"]

/-- A batch whose check times out and whose target has a name, from its fetch to its post. -/
theorem once_agrees_namedCheck :
    (∃ (a : Agent Unit Unit) (results : List Checks.Result),
      (agent lab).exec (.init 15 0) [.helloed none, .fetched (some namedCheck),
        .checked timedOut, .named (some [some "gw"])] = some a ∧
      a.pc = .posting namedCheck results ∧ results ≠ [] ∧
      once lab (.ok namedCheck) timedOut (some [some "gw"]) = some (.printed results)) ∧
    ∃ (a : Agent Unit Unit) (results : List Checks.Result) (es' : List (Event Unit Unit))
        (a' : Agent Unit Unit),
      (agent lab).exec (.init 15 0) [.helloed none] = some a ∧ results ≠ [] ∧
      (agent lab).exec a (.fetched (some namedCheck) :: .checked timedOut :: es') = some a' ∧
      a'.pc = .posting namedCheck results := by
  constructor
  · obtain ⟨a, results, hrun, hpc⟩ : ∃ (a : Agent Unit Unit) (results : List Checks.Result),
        (agent lab).exec (.init 15 0) [.helloed none, .fetched (some namedCheck),
          .checked timedOut, .named (some [some "gw"])] = some a ∧
        a.pc = .posting namedCheck results :=
      ⟨_, _, rfl, rfl⟩
    exact ⟨a, results, hrun, hpc, (once_agrees hrun).1 namedCheck results hpc⟩
  · obtain ⟨a, hrun, hpc⟩ : ∃ a : Agent Unit Unit,
        (agent lab).exec (.init 15 0) [.helloed none] = some a ∧ a.pc = .fetching .checks :=
      ⟨_, rfl, rfl⟩
    obtain ⟨results, honce, hne⟩ : ∃ results, once lab (.ok namedCheck) timedOut
        (some [some "gw"]) = some (.printed results) ∧ results ≠ [] :=
      ⟨_, rfl, by simp⟩
    obtain ⟨es', a', hexec, hpost⟩ :=
      (once_agrees hrun).2 hpc namedCheck results timedOut _ hne honce
    exact ⟨a, results, es', a', hrun, hne, hexec, hpost⟩

end Outpost
