import DanbyteOutpost.Agent.Steps

/-!
# What the agent posts

`Traffic` is what a witness of the connection to the core writes down: the work that was fetched and
the posts of results, whether they succeeded or not. The posts of any run answer some of the work
fetched, each piece of work at most once and in the order it was fetched (`posts_answer_work`). What
a post carries are the results of its own work, one for each item and in their order (`Answers`); a
batch that fails on the way is not taken up again.

## The proof

`Holds` says what the loop has in its hands between two steps: nothing, the items of a piece of
work of which no result is known yet, or results that answer it. `Orderly` is the invariant that
the posts so far, with what is held, answer a part of the work that was fetched, in its order. A
step ends a post, gives up what is held, or fetches, and each of these is one lemma (`Sent.post`,
`Sent.fetch`, `Orderly.keep`).
-/

namespace Outpost

variable {ι ν : Type} {env : Env} {a a' : Agent ι ν}

/-! ### Results of their work -/

/-- The result of the run of a check. -/
def Ran (env : Env) (item : Json) (result : Checks.Result) : Prop :=
  ∃ check run, checkOf item = some check ∧ Checks.Reports env.intError check run result

/-- The result of the run of a check, perhaps with the name of its target. -/
def RanNamed (env : Env) (item : Json) (result : Checks.Result) : Prop :=
  ∃ ran name, Ran env item ran ∧ result = withPtr ran name

/-- A result without a name is one with nothing written into it. -/
theorem Ran.named {item : Json} {result : Checks.Result} (h : Ran env item result) :
    RanNamed env item result :=
  ⟨result, none, h, rfl⟩

/-- The payload answers the work: it has a result for each of its items, in their order. -/
inductive Answers (env : Env) : Job × Json → Payload ι ν → Prop
  /-- A result for each check, under the check's own ids. -/
  | checks {work : Json} {items : List Json} {results : List Checks.Result} :
      itemsOf work "checks" = some items → List.Forall₂ (RanNamed env) items results →
      Answers env (.checks, work) (.checks results)
  /-- A result for each device. -/
  | snmp {work : Json} {items : List Json} {results : List (Json × Snmp.SnmpResult ι ν)} :
      itemsOf work "devices" = some items →
      List.Forall₂ (fun item result ↦ ∃ net, discoverItem item net = .ok result) items results →
      Answers env (.duty .snmp, work) (.snmp results)
  /-- A list of hosts for each prefix. -/
  | sweep {work : Json} {items : List Json} {results : List (Json × List IpHost)} :
      itemsOf work "prefixes" = some items →
      List.Forall₂ (fun item result ↦ ∃ ping, sweepPrefix ping item = .ok result) items results →
      Answers env (.duty .sweep, work) (.sweep results)

/-- What `run_check` returns is the result of that run. -/
theorem ran_of_runItem {item : Json} {run : Checks.Attempt} {result : Checks.Result}
    (h : runItem env.intError item run = .ok result) : Ran env item result := by
  rw [runItem] at h
  split at h
  case h_1 => cases h
  case h_2 check hcheck => exact ⟨check, run, hcheck, Checks.reports_of_runCheck h⟩

/-- The names are written into the results of their own checks. -/
theorem ranNamed_zipWith {items : List Json} {results : List Checks.Result}
    (h : List.Forall₂ (Ran env) items results) {names : List (Option String)}
    (hlen : names.length = results.length) :
    List.Forall₂ (RanNamed env) items (List.zipWith withPtr results names) := by
  induction h generalizing names with
  | nil => exact .nil
  | cons hran _ ih =>
    cases names with
    | nil => cases hlen
    | cons name names => exact .cons ⟨_, name, hran, rfl⟩ (ih (Nat.succ.inj hlen))

/-! ### The witness -/

/-- The work fetched and the payloads posted so far. -/
structure Traffic (ι ν : Type) where
  /-- What was fetched, with what it was fetched for, in order. -/
  fetched : List (Job × Json)
  /-- What was posted, in order. -/
  posted : List (Payload ι ν)

/-- The payload whose post is under way. -/
def Agent.posting? (a : Agent ι ν) : Option (Payload ι ν) :=
  match a.pc with
  | .posting _ results => some (.checks results)
  | .reporting _ _ payload => some payload
  | _ => none

/-- What the witness writes down at a step: the answer to a fetch of work, and the end of a post. -/
def traffic (a : Agent ι ν) (e : Event ι ν) (h : Traffic ι ν) : Traffic ι ν :=
  match e, a.pc with
  | .fetched (some work), .fetching job => { h with fetched := h.fetched ++ [(job, work)] }
  | .posted _, _ => { h with posted := h.posted ++ a.posting?.toList }
  | _, _ => h

/-- The payloads answer some of the work, each piece at most once and in order. -/
def Sent (env : Env) (posted : List (Payload ι ν)) (fetched : List (Job × Json)) : Prop :=
  ∃ works, works.Sublist fetched ∧ List.Forall₂ (Answers env) works posted

/-- Work that is fetched may stay unanswered. -/
theorem Sent.fetch {posted : List (Payload ι ν)} {fetched : List (Job × Json)}
    (h : Sent env posted fetched) (work : Job × Json) : Sent env posted (fetched ++ [work]) := by
  obtain ⟨works, hsub, hworks⟩ := h
  exact ⟨works, hsub.trans (List.sublist_append_left _ _), hworks⟩

/-- A post that answers the work fetched last keeps the order: all that was answered before was
fetched before. -/
theorem Sent.post {posted : List (Payload ι ν)} {fetched : List (Job × Json)}
    (h : Sent env posted fetched) {work : Job × Json} {payload : Payload ι ν}
    (hwork : Answers env work payload) : Sent env (posted ++ [payload]) (fetched ++ [work]) := by
  obtain ⟨works, hsub, hworks⟩ := h
  exact ⟨works ++ [work], hsub.append (List.Sublist.refl _),
    List.rel_append hworks (.cons hwork .nil)⟩

/-! ### What the loop holds of a piece of work -/

/-- The loop is past the fetch of a piece of work and not yet through with its post. -/
inductive Holds (env : Env) : Pc ι ν → Job × Json → Prop
  /-- The checks are run. -/
  | checking {work : Json} {items : List Json} : itemsOf work "checks" = some items →
      Holds env (.checking work items) (.checks, work)
  /-- They have been run, and their names are looked up. -/
  | naming {work : Json} {items : List Json} {results : List Checks.Result} :
      itemsOf work "checks" = some items → List.Forall₂ (Ran env) items results →
      Holds env (.naming work results) (.checks, work)
  /-- Their results are on the way. -/
  | posting {work : Json} {results : List Checks.Result} :
      Answers (ι := ι) (ν := ν) env (.checks, work) (.checks results) →
      Holds env (.posting work results) (.checks, work)
  /-- The devices are polled, or the prefixes swept. -/
  | cycling {d : Duty} {work : Json} {interval : ℤ} {items : List Json} :
      itemsOf work d.key = some items → Holds env (.cycling d interval items) (.duty d, work)
  /-- What came of it is on the way. -/
  | reporting {d : Duty} {work : Json} {interval : ℤ} {payload : Payload ι ν} :
      Answers env (.duty d, work) payload →
      Holds env (.reporting d interval payload) (.duty d, work)

/-- The loop holds no piece of work. -/
def Pc.idle : Pc ι ν → Bool
  | .checking _ _ | .naming _ _ | .posting _ _ | .cycling _ _ _ | .reporting _ _ _ => false
  | _ => true

/-- The posts so far answer the work so far, and what the loop holds is the last piece of it. -/
def Orderly (env : Env) (a : Agent ι ν) (h : Traffic ι ν) : Prop :=
  (a.pc.idle = true ∧ Sent env h.posted h.fetched) ∨
    ∃ works work, h.fetched = works ++ [work] ∧ Holds env a.pc work ∧ Sent env h.posted works

/-- In either case, the posts so far answer some of the work so far. -/
theorem Orderly.sent {h : Traffic ι ν} (ho : Orderly env a h) : Sent env h.posted h.fetched := by
  rcases ho with ⟨-, hsent⟩ | ⟨works, work, hfetched, -, hsent⟩
  · exact hsent
  · rw [hfetched]
    exact hsent.fetch work

/-- A loop that lets go of its work is in order; what it held stays unanswered. -/
theorem Orderly.toIdle {h : Traffic ι ν} (ho : Orderly env a h) (hidle : a'.pc.idle = true) :
    Orderly env a' h :=
  .inl ⟨hidle, ho.sent⟩

/-- What is posted, once the post under way has ended. -/
theorem Orderly.sent_posting {h : Traffic ι ν} (ho : Orderly env a h) :
    Sent env (h.posted ++ a.posting?.toList) h.fetched := by
  rcases ho with ⟨hidle, hsent⟩ | ⟨works, work, hfetched, hholds, hsent⟩
  · have hnone : a.posting? = none := by
      rw [Agent.posting?]
      revert hidle
      cases a.pc <;> simp [Pc.idle]
    rw [hnone, Option.toList_none, List.append_nil]
    exact hsent
  · rw [hfetched, Agent.posting?]
    generalize a.pc = pc at hholds
    cases hholds with
    | checking | naming | cycling =>
      rw [Option.toList_none, List.append_nil]
      exact hsent.fetch _
    | posting hans => exact hsent.post hans
    | reporting hans => exact hsent.post hans

/-! ### One step -/

/-- At the top of the loop no work is held. -/
theorem idle_top (a : Agent ι ν) : a.top.pc.idle = true := by
  obtain ⟨_, _, h, rfl | rfl⟩ := top_eq a <;> rw [h] <;> rfl

theorem idle_helloFailed (startup : Bool) (a : Agent ι ν) :
    (a.helloFailed startup).pc.idle = true := by
  cases startup with
  | true => exact idle_top _
  | false => rfl

theorem HelloEnds.idle {answer : Option Json} {startup : Bool} (h : HelloEnds a answer startup a') :
    a'.pc.idle = true := by
  cases h with
  | top info poll => exact idle_top _
  | updating | next => rfl

theorem idle_rest (a : Agent ι ν) : a.rest.pc.idle = true := by
  obtain ⟨_, _, h, rfl | rfl⟩ := rest_eq a <;> rw [h] <;> rfl

theorem ReadEnds.idle {now : Binary64} {what : Reading} (h : ReadEnds a now what a') :
    a'.pc.idle = true := by
  cases h with
  | noHello | helloNext => exact idle_rest _
  | _ => rfl

/-- A cycle's payload answers the work the cycle was about. -/
theorem answers_of_gather {d : Duty} {work : Json} {items : List Json}
    (hitems : itemsOf work d.key = some items) {payload : Payload ι ν} :
    (∀ nets : List (Snmp.DeviceNet ι ν), d = .snmp → nets.length = items.length →
      (gatherAll (List.zipWith discoverItem items nets)).map .snmp = .ok payload →
      Answers env (.duty d, work) payload) ∧
    ∀ ping, d = .sweep → (gatherAll (items.map (sweepPrefix ping))).map .sweep = .ok payload →
      Answers env (.duty d, work) payload := by
  constructor
  · intro nets hd hlen h
    subst hd
    rcases hgot : gatherAll (List.zipWith discoverItem items nets) with e | results
    · rw [hgot] at h
      cases h
    · rw [hgot] at h
      cases h
      exact .snmp hitems (forall₂_of_gatherAll_zipWith hlen hgot)
  · intro ping hd h
    subst hd
    rcases hgot : gatherAll (items.map (sweepPrefix ping)) with e | results
    · rw [hgot] at h
      cases h
    · rw [hgot] at h
      cases h
      exact .sweep hitems ((gatherAll_map_eq_ok.1 hgot).imp fun _ _ h ↦ ⟨ping, h⟩)

/-- What the loop holds, where it holds something. -/
theorem Orderly.held {h : Traffic ι ν} (ho : Orderly env a h) {pc : Pc ι ν} (hpc : a.pc = pc)
    (hbusy : pc.idle = false) :
    ∃ works work, h.fetched = works ++ [work] ∧ Holds env pc work ∧ Sent env h.posted works := by
  rcases ho with ⟨hidle, -⟩ | hheld
  · rw [hpc, hbusy] at hidle
    cases hidle
  · rwa [hpc] at hheld

/-- The loop goes on with the piece of work it holds. -/
theorem Orderly.keep {h : Traffic ι ν} (ho : Orderly env a h) {pc : Pc ι ν} (hpc : a.pc = pc)
    (hbusy : pc.idle = false) (hnext : ∀ work, Holds env pc work → Holds env a'.pc work) :
    Orderly env a' h := by
  obtain ⟨works, work, hfetched, hholds, hsent⟩ := ho.held hpc hbusy
  exact .inr ⟨works, work, hfetched, hnext work hholds, hsent⟩

/-- The witness writes down each piece of work with what it was fetched for. -/
theorem traffic_fetched {job : Job} (hpc : a.pc = .fetching job) (work : Json)
    (h : Traffic ι ν) :
    traffic a (.fetched (some work)) h = { h with fetched := h.fetched ++ [(job, work)] } := by
  simp only [traffic, hpc]

/-- A fetch leaves the posts in order, whatever it brings. -/
theorem Orderly.fetch {h : Traffic ι ν} (ho : Orderly env a h) {job : Job}
    (hpc : a.pc = .fetching job) (answer : Option Json) :
    Sent env (traffic a (.fetched answer) h).posted (traffic a (.fetched answer) h).fetched := by
  rcases answer with - | work
  · exact ho.sent
  · rw [traffic_fetched hpc]
    exact ho.sent.fetch _

/-- The step lemma. Only a fetch and the end of a post concern the witness, and the loop holds one
piece of work at a time, so a post is always of the work fetched last. -/
theorem orderly_step {e : Event ι ν} {h : Traffic ι ν} (ho : Orderly env a h)
    (hstep : a.step env e = some a') : Orderly env a' (traffic a e h) := by
  cases steps_of_step hstep with
  | helloed _ hends => exact ho.toIdle hends.idle
  | replaced | stop | closed => exact ho.toIdle rfl
  | notReplaced => exact ho.toIdle (idle_helloFailed _ _)
  | slept => exact ho.toIdle (idle_top a)
  | clock _ hends => exact ho.toIdle hends.idle
  | lane => exact ho
  -- a fetch adds to the work, and what has something in it is held
  | work hpc hends =>
    cases hends with
    | failed | empty => exact .inl ⟨rfl, ho.fetch hpc _⟩
    | checking work items hanswer hitems _ =>
      rw [hanswer, traffic_fetched hpc]
      exact .inr ⟨h.fetched, (.checks, work), rfl, .checking hitems, ho.sent⟩
  | dutyWork hpc hends =>
    cases hends with
    | failed | empty => exact .inl ⟨rfl, ho.fetch hpc _⟩
    | cycling work interval items hanswer _ hitems =>
      rw [hanswer, traffic_fetched hpc]
      exact .inr ⟨h.fetched, (.duty _, work), rfl, .cycling hitems, ho.sent⟩
  -- what is held goes on to the next place, or is given up
  | checked hpc hlen hends =>
    cases hends with
    | failed => exact ho.toIdle rfl
    | naming results hresults =>
      refine ho.keep hpc rfl fun work hholds ↦ ?_
      cases hholds with
      | checking hitems =>
        exact .naming hitems ((forall₂_of_gatherAll_zipWith hlen hresults).imp
          fun _ _ hran ↦ ran_of_runItem hran.choose_spec)
    | posting results hresults =>
      refine ho.keep hpc rfl fun work hholds ↦ ?_
      cases hholds with
      | checking hitems =>
        exact .posting (.checks hitems ((forall₂_of_gatherAll_zipWith hlen hresults).imp
          fun _ _ hran ↦ (ran_of_runItem hran.choose_spec).named))
  | unnamed hpc => exact ho.toIdle rfl
  | named hpc hlen =>
    refine ho.keep hpc rfl fun work hholds ↦ ?_
    cases hholds with
    | naming hitems hran => exact .posting (.checks hitems (ranNamed_zipWith hran hlen))
  | polled hpc hlen hends =>
    cases hends with
    | failed => exact ho.toIdle rfl
    | reporting payload hpayload =>
      refine ho.keep hpc rfl fun work hholds ↦ ?_
      cases hholds with
      | cycling hitems => exact .reporting ((answers_of_gather hitems).1 _ rfl hlen hpayload)
  | swept hpc hends =>
    cases hends with
    | failed => exact ho.toIdle rfl
    | reporting payload hpayload =>
      refine ho.keep hpc rfl fun work hholds ↦ ?_
      cases hholds with
      | cycling hitems => exact .reporting ((answers_of_gather hitems).2 _ rfl hpayload)
  -- the end of a post, with or without success, makes it one of those posted
  | posted | notPosted | reported | notReported => exact .inl ⟨rfl, ho.sent_posting⟩

/-- **What the agent posts.** In every run, the posts that have ended and the one under way answer
work that was fetched, each piece of work at most once and in the order it was fetched, each with a
result for every item of its own work.

`Holds` is the invariant: what the loop has in hand answers the work that was fetched last, and no
other fetch comes before it is posted or lost. -/
theorem posts_answer_work {pollSeconds : ℤ} {start : Binary64} {es : List (Event ι ν)}
    (hrun : (agent env).exec (.init pollSeconds start) es = some a) :
    let h := (agent env).observe traffic (.init pollSeconds start) es ⟨[], []⟩
    ∃ works, works.Sublist h.fetched ∧
      List.Forall₂ (Answers env) works (h.posted ++ a.posting?.toList) := by
  have ho := (agent env).exec_invariant (P := fun _ _ ↦ True) (f := traffic) (I := Orderly env)
    (fun _ _ _ _ _ ho hstep ↦ orderly_step ho hstep) (h := ⟨[], []⟩) (Machine.meets_true _ es)
    (.inl ⟨rfl, [], List.Sublist.refl _, .nil⟩) hrun
  exact ho.sent_posting

/-- In the pass with a batch and a sweep, one post has ended, and it answers one piece of the work
that was fetched. -/
theorem posts_answer_work_onePass :
    ∃ a, (agent lab).exec (.init 15 0) onePass = some a ∧
      ∃ works : List (Job × Json), works.length = 1 ∧
        works.Sublist ((agent lab).observe traffic (.init 15 0) onePass ⟨[], []⟩).fetched := by
  have hsome : ((agent lab).exec (.init 15 0) onePass).isSome = true := by decide +kernel
  obtain ⟨a, hrun⟩ := Option.isSome_iff_exists.1 hsome
  obtain ⟨works, hsub, hanswers⟩ := posts_answer_work hrun
  have hnone : ((agent lab).exec (.init 15 0) onePass).all (fun a ↦ a.posting?.isNone) = true := by
    decide +kernel
  rw [hrun, Option.all_some, Option.isNone_iff_eq_none] at hnone
  rw [hnone] at hanswers
  refine ⟨a, hrun, works, hanswers.length_eq.trans ?_, hsub⟩
  decide +kernel

end Outpost
