import DanbyteOutpost.Snmp.WalkSpec
import DanbyteOutpost.Snmp.MacRead

/-!
# What the read of the default context leaves

`_read` up to where the contexts of VLANs begin, whatever the agent and the clock do. A walk leaves
the budget changed and one mark in the log (`Outcome.EndsWalk`). Once one of them has timed out
nothing follows (`Quiet`), and then no context of a VLAN is planned; the lists of VLANs are empty
but for the VLANs that are planned not to be read (`DefaultRead`).

## How the read is followed

The default context is read by one task alone, so its rules leave the state as it was at every
wait (`MacRead.aloneRules`). `ReadPhase` is what all of its methods keep; there is a lemma for
each method, and each of them is the lemma of a walk (`aloneWalk_wp`) and what the method does
between its walks.

* `defaultRead_of_run`: what is known at the end of the default context, for every plan.
* `contextsBegin_of_run`: what the contexts of VLANs start from.
* `reads_of_run`: a whole read is these two and `finish`.
-/

namespace Snmp

open Coop

/-- The rules of a read before the contexts of VLANs: nobody else is there. -/
def MacRead.aloneRules : Rules (net Outcome) ReadState where
  answer := fun _ _ _ ↦ True
  reading := fun _ _ _ ↦ True
  inv := fun _ ↦ True
  alone := True
  mayStop := True

/-- Any surroundings obey the rules of a task that runs alone. -/
theorem Surroundings.obeys_alone (sur : Surroundings) : sur.env.Obeys MacRead.aloneRules :=
  ⟨fun _ _ ↦ trivial, fun _ _ ↦ trivial⟩

/-! ### One walk -/

/-- A walk that began in `w` has only asked, looked at the clock, and changed the budget. -/
structure WalkFrame (w w' : World (net Outcome) ReadState) : Prop where
  /-- No walk has ended since. -/
  log : ∃ new, w'.log = new ++ w.log ∧ ∀ o, .marked o ∉ new
  /-- No other attribute is written. -/
  st : w'.st = { w.st with budget := w'.st.budget }
  /-- The budget's end stays where it is. -/
  deadline : w'.st.budget.deadline = w.st.budget.deadline

theorem WalkFrame.refl (w : World (net Outcome) ReadState) : WalkFrame w w :=
  ⟨⟨[], rfl, fun _ ↦ List.not_mem_nil⟩, rfl, rfl⟩

/-- A request, or a reading of the clock, is of no concern to the frame. -/
theorem WalkFrame.event {w w' : World (net Outcome) ReadState} (h : WalkFrame w w')
    (e : Event (net Outcome)) (he : ∀ o, e ≠ .marked o) {b : WalkBudget}
    (hdeadline : b.deadline = w'.st.budget.deadline) :
    WalkFrame w ⟨{ w'.st with budget := b }, e :: w'.log⟩ := by
  obtain ⟨new, hnew, hmarks⟩ := h.log
  refine ⟨⟨e :: new, congrArg (e :: ·) hnew, fun o ho ↦ ?_⟩, ?_, hdeadline.trans h.deadline⟩
  · exact (List.mem_cons.1 ho).elim (fun heq ↦ he o heq.symm) (hmarks o)
  · show { w'.st with budget := b } = { w.st with budget := b }
    rw [h.st]

theorem WalkFrame.charge {w w' : World (net Outcome) ReadState} (h : WalkFrame w w')
    {b : WalkBudget} (hdeadline : b.deadline = w'.st.budget.deadline) :
    WalkFrame w ⟨{ w'.st with budget := b }, w'.log⟩ := by
  refine ⟨h.log, ?_, hdeadline.trans h.deadline⟩
  show { w'.st with budget := b } = { w.st with budget := b }
  rw [h.st]

/-- The end of a walk that began in `w`, with its mark. -/
structure Outcome.EndsWalk (o : Outcome) (w w' : World (net Outcome) ReadState) : Prop where
  /-- The mark is the last that happened, and there is no other since. -/
  log : ∃ new, w'.log = .marked o :: (new ++ w.log) ∧ ∀ o, .marked o ∉ new
  /-- No other attribute is written. -/
  st : w'.st = { w.st with budget := w'.st.budget }
  /-- The budget's end stays where it is. -/
  deadline : w'.st.budget.deadline = w.st.budget.deadline
  /-- A walk that was cut has cut the budget. -/
  truncated : o.walked.stats.truncated = true → w'.st.budget.truncated = true

variable {rd : MacRead} {fuel : ℕ} {columns : Columns} {access : Access} {capRows : Bool}
  {maxRep : ℤ} {w w' : World (net Outcome) ReadState}

/-- A walk writes the budget and the log, and nothing else of the read. -/
theorem walkKeeps_frame (w : World (net Outcome) ReadState) :
    WalkKeeps { MacRead.aloneRules with inv := WalkFrame w }
      (MacRead.call columns access capRows maxRep) where
  onTime := by
    rintro ref ⟨⟩ s log h
    exact h.event (.polled ⟨.request, s.budget.deadline⟩ false) nofun rfl
  late := by
    rintro ref ⟨⟩ s log h
    exact h.event (.polled ⟨.request, s.budget.deadline⟩ true) nofun rfl
  answered := fun s log q r h _ _ ↦ h.event (.asked q r) nofun rfl
  expired := by
    rintro ref ⟨⟩ s log q h -
    exact h.event (.asked q .timedOut) nofun rfl
  row := by
    intro ref href s log h
    obtain rfl := Option.some.inj (WalkCall.budget_of_cap href)
    exact h.charge rfl
  full := by
    intro ref href s log h
    obtain rfl := Option.some.inj (WalkCall.budget_of_cap href)
    exact h.charge rfl

/-- The frame of a walk. -/
theorem aloneWalk_wp : (MacRead.walk fuel columns access capRows maxRep).wp MacRead.aloneRules
    (fun out w' ↦ Outcome.EndsWalk ⟨access, columns, out⟩ w w') w := by
  have hwalk : (walkColumns (MacRead.call columns access capRows maxRep) fuel).wp
      { MacRead.aloneRules with inv := WalkFrame w }
      (WalkEnd _ (fun _ ↦ ⟨[], .nil⟩) (MacRead.call columns access capRows maxRep) False w.st) w :=
    walkColumns_wp (walkKeeps_frame w) False.elim (.refl w) (.inl trivial)
  refine Coro.wp_bind.2 (Coro.wp_of_inv trivial (fun _ _ ↦ trivial)
    (Coro.wp_mono hwalk fun out w' _ hend ↦ ?_))
  have hframe : WalkFrame w w' := hend.inv
  obtain ⟨new, hnew, hmarks⟩ := hframe.log
  refine ⟨⟨new, congrArg (_ :: ·) hnew, hmarks⟩, hframe.st, hframe.deadline, fun htruncated ↦ ?_⟩
  obtain ⟨ref, href, htrue⟩ := hend.truncated htruncated
  obtain rfl := Option.some.inj href
  exact htrue

/-! ### Nothing behind a timeout -/

/-- `note` halts the read: the walk timed out. -/
def Outcome.halts (o : Outcome) : Bool :=
  !o.walked.complete && !o.walked.stats.truncated && o.walked.stats.timeout

/-- No walk has halted the read, or one has and nothing came after it. -/
structure Quiet (w : World (net Outcome) ReadState) : Prop where
  /-- As long as the read goes on, no walk has ended in a timeout. -/
  going : w.st.halted = false → ∀ o, .marked o ∈ w.log → o.halts = false
  /-- When it has halted, that is the last that happened. -/
  halted : w.st.halted = true → ∃ o log, w.log = .marked o :: log ∧ o.halts = true ∧
    ∀ o', .marked o' ∈ log → o'.halts = false

/-- What a read keeps until the contexts of VLANs are planned, with a budget up to `d`. -/
structure ReadPhase (d : ℚ) (w : World (net Outcome) ReadState) : Prop where
  /-- No context has left anything. -/
  contexts : w.st.contexts = ⟨Dict.empty, Dict.empty, [], []⟩
  /-- No VLAN is listed. -/
  vlans : w.st.report.vlans = ⟨[], [], []⟩
  /-- The budget ends at `d`. -/
  deadline : w.st.budget.deadline = d
  /-- Nothing came after a timeout. -/
  quiet : Quiet w

variable {d : ℚ}

/-- What else the state keeps does not matter. -/
theorem ReadPhase.withState (h : ReadPhase d w) {s : ReadState}
    (hcontexts : s.contexts = w.st.contexts)
    (hvlans : s.report.vlans = w.st.report.vlans) (hbudget : s.budget = w.st.budget)
    (hhalted : s.halted = w.st.halted) : ReadPhase d ⟨s, w.log⟩ where
  contexts := hcontexts.trans h.contexts
  vlans := hvlans.trans h.vlans
  deadline := (congrArg _ hbudget).trans h.deadline
  quiet := ⟨fun hno ↦ h.quiet.going (hhalted.symm.trans hno),
    fun hyes ↦ h.quiet.halted (hhalted.symm.trans hyes)⟩

/-- The latest walk of a log, which was another one before. -/
def Outcome.Latest (o : Outcome) (log log' : Log (net Outcome)) : Prop :=
  ∃ new, log' = .marked o :: (new ++ log) ∧ ∀ o, .marked o ∉ new

/-- A walk keeps the phase; it is not begun once the read has halted. -/
theorem phaseWalk_wp {what : String} (h : ReadPhase d w) (hgoes : w.st.halted = false) :
    (rd.walkDefault fuel what columns capRows maxRep).wp MacRead.aloneRules
      (fun out w' ↦ ReadPhase d w' ∧ Outcome.Latest ⟨rd.access, columns, out⟩ w.log w'.log) w := by
  refine Coro.wp_bind.2 (Coro.wp_mono aloneWalk_wp fun out w₁ _ hend ↦ ?_)
  obtain ⟨new, hnew, hmarks⟩ := hend.log
  have hbefore : ∀ o, .marked o ∈ new ++ w.log → o.halts = false := fun o ho ↦
    h.quiet.going hgoes o ((List.mem_append.1 ho).resolve_left (hmarks o))
  have hgoes₁ : w₁.st.halted = false := by
    rw [hend.st]
    exact hgoes
  have hcontexts : w₁.st.contexts = ⟨Dict.empty, Dict.empty, [], []⟩ := by
    rw [hend.st]
    exact h.contexts
  have hvlans : w₁.st.report.vlans = ⟨[], [], []⟩ := by
    rw [hend.st]
    exact h.vlans
  have hdeadline : w₁.st.budget.deadline = d := hend.deadline.trans h.deadline
  have hlatest : Outcome.Latest ⟨rd.access, columns, out⟩ w.log w₁.log := ⟨new, hnew, hmarks⟩
  -- a walk that does not halt the read
  have hstill : Outcome.halts ⟨rd.access, columns, out⟩ = false →
      ∀ o, .marked o ∈ w₁.log → o.halts = false := by
    intro hno o ho
    rw [hnew] at ho
    rcases List.mem_cons.1 ho with heq | ho
    · cases heq
      exact hno
    · exact hbefore o ho
  split
  case isTrue hcomplete =>
    have hno : Outcome.halts ⟨rd.access, columns, out⟩ = false := by
      rw [Outcome.halts, hcomplete]
      rfl
    refine ⟨⟨hcontexts, hvlans, hdeadline, fun _ ↦ hstill hno, fun hyes ↦ ?_⟩, hlatest⟩
    exact absurd (hgoes₁.symm.trans hyes) Bool.false_ne_true
  case isFalse hincomplete =>
    refine Coro.wp_bind.2 (Coro.wp_modify.2 ⟨?_, hlatest⟩)
    rw [ReadState.note]
    have hhalts : Outcome.halts ⟨rd.access, columns, out⟩ =
        (!out.stats.truncated && out.stats.timeout) := by
      rw [Outcome.halts, Bool.eq_false_of_not_eq_true hincomplete]
      rfl
    split
    case isTrue hcut =>
      refine ⟨hcontexts, hvlans, hdeadline, fun _ ↦ hstill ?_, fun hyes ↦ ?_⟩
      · rw [hhalts, hcut]
        rfl
      · exact absurd (hgoes₁.symm.trans hyes) Bool.false_ne_true
    case isFalse huncut =>
      have hsame : Outcome.halts ⟨rd.access, columns, out⟩ = out.stats.timeout := by
        rw [hhalts, Bool.eq_false_of_not_eq_true huncut]
        rfl
      have hhalted : (w₁.st.halted || out.stats.timeout) = out.stats.timeout := by
        rw [hgoes₁]
        rfl
      refine ⟨hcontexts, hvlans, hdeadline, fun hno ↦ hstill ?_, fun hyes ↦ ?_⟩
      · exact hsame.trans (hhalted.symm.trans hno)
      · exact ⟨_, _, hnew, hsame.trans (hhalted.symm.trans hyes), hbefore⟩

/-- `_can_walk` says yes only while the read goes on. -/
theorem phaseCanWalk_wp (h : ReadPhase d w) :
    MacRead.canWalk.wp MacRead.aloneRules
      (fun yes w' ↦ ReadPhase d w' ∧ (yes = true → w'.st.halted = false)) w := by
  refine Coro.wp_bind.2 (Coro.wp_get.2 ?_)
  split
  case isTrue => exact ⟨h, nofun⟩
  case isFalse hgoes =>
    have hno := Bool.eq_false_of_not_eq_true hgoes
    refine Coro.wp_bind.2 (Coro.wp_poll.2 fun yes _ ↦ ⟨⟨h.contexts, h.vlans, h.deadline, ?_⟩,
      fun _ ↦ hno⟩)
    refine ⟨fun _ o ho ↦ h.quiet.going hno o ((List.mem_cons.1 ho).resolve_left nofun),
      fun hyes ↦ ?_⟩
    exact absurd (hno.symm.trans hyes) Bool.false_ne_true

/-- The names of the VLANs: one walk, in the default context. -/
theorem phaseNamedVlans_wp (h : ReadPhase d w) :
    (rd.namedVlans fuel).wp MacRead.aloneRules (fun _ w' ↦ ReadPhase d w') w := by
  refine Coro.wp_bind.2 (Coro.wp_mono (phaseCanWalk_wp h) fun yes w₁ _ ⟨h₁, hgoes⟩ ↦ ?_)
  split
  case isFalse => exact h₁
  case isTrue hyes =>
    exact Coro.wp_bind.2 (Coro.wp_mono (phaseWalk_wp h₁ (hgoes hyes)) fun _ _ _ h₂ ↦ h₂.1)

/-- The VLANs of entries: no walk, or that of the names. -/
theorem phaseQbridgeVlans_wp {entries : List Entry} {vlanFdb : Dict Oid String} {complete : Bool}
    (h : ReadPhase d w) : (rd.qbridgeVlans fuel entries vlanFdb complete).wp MacRead.aloneRules
      (fun _ w' ↦ ReadPhase d w') w := by
  have hnamed : (if vlanFdb.items.isEmpty && complete then some <$> rd.namedVlans fuel
      else pure none : Reader (Option (List ℤ))).wp MacRead.aloneRules
        (fun _ w' ↦ ReadPhase d w') w := by
    split
    case isFalse => exact h
    case isTrue => exact Coro.wp_bind.2 (Coro.wp_mono (phaseNamedVlans_wp h) fun _ _ _ h' ↦ h')
  refine Coro.wp_bind.2 (Coro.wp_mono hnamed fun named w₁ _ h₁ ↦ ?_)
  exact Coro.wp_bind.2 (Coro.wp_modify.2 (h₁.withState rfl rfl rfl rfl))

/-- The stack table: one walk, unless it was made. -/
theorem phaseReadStack_wp (h : ReadPhase d w) :
    (rd.readStack fuel).wp MacRead.aloneRules (fun _ w' ↦ ReadPhase d w') w := by
  refine Coro.wp_bind.2 (Coro.wp_get.2 ?_)
  split
  case isTrue => exact h
  case isFalse =>
    refine Coro.wp_bind.2 (Coro.wp_mono (phaseCanWalk_wp h) fun yes w₁ _ ⟨h₁, hgoes⟩ ↦ ?_)
    split
    case isFalse => exact h₁
    case isTrue hyes =>
      exact Coro.wp_bind.2 (Coro.wp_mono (phaseWalk_wp h₁ (hgoes hyes))
        fun _ _ _ h₂ ↦ Coro.wp_modify.2 (h₂.1.withState rfl rfl rfl rfl))

/-- The rows of entries, with the stack table. -/
theorem phaseLearned_wp {entries : List Entry} {base : Dict Oid String} (h : ReadPhase d w) :
    (rd.learned fuel entries base).wp MacRead.aloneRules (fun _ w' ↦ ReadPhase d w') w := by
  refine Coro.wp_bind.2 (Coro.wp_get.2 (Coro.wp_bind.2 (Coro.wp_modify.2 ?_)))
  have h₁ := h.withState (s := { w.st with
      report := { w.st.report with dropped :=
        (learnedRows rd.ifaces entries base w.st.report.dropped).dropped }
      portMaps := w.st.portMaps ++
        (learnedRows rd.ifaces entries base w.st.report.dropped).portMap.toList }) rfl rfl rfl rfl
  split
  case isTrue => exact h₁
  case isFalse =>
    refine Coro.wp_bind.2 (Coro.wp_mono (phaseReadStack_wp h₁) fun _ w₂ _ h₂ ↦ ?_)
    refine Coro.wp_bind.2 (Coro.wp_get.2 ?_)
    split
    · exact h₂
    · exact h₂

/-! ### The plan -/

/-- The rows of the latest walk of a table. -/
def tableOf (columns : Columns) (log : Log (net Outcome)) : Rows String :=
  (log.findSome? fun e ↦
    match e with
    | .marked o => if o.columns = columns then some o.walked.rows else none
    | _ => none).getD Dict.empty

/-- The VLANs that `_context_vlans` finds, by the walks it makes. -/
def MacRead.found (rd : MacRead) (log : Log (net Outcome)) : List Json :=
  let entities := parseEntityVlans (tableOf entLogicalColumns log)
  let states := parseVtpVlans (column (tableOf vtpColumns log) "state")
  if entities ≠ [] then entities.map Json.int
  else if states ≠ [] then states.map Json.int
  else if rd.opts.contexts = .always then rd.opts.hint
  else []

/-- The latest walk of a table is what is known of it. -/
theorem tableOf_latest {log log' : Log (net Outcome)} {o : Outcome} (h : o.Latest log log') :
    tableOf o.columns log' = o.walked.rows := by
  obtain ⟨new, rfl, -⟩ := h
  rw [tableOf, List.findSome?_cons]
  dsimp only
  rw [if_pos rfl]
  rfl

theorem tableOf_other {log log' : Log (net Outcome)} {o : Outcome} (h : o.Latest log log')
    (hother : o.columns ≠ columns) : tableOf columns log' = tableOf columns log := by
  obtain ⟨new, rfl, hnew⟩ := h
  rw [tableOf, List.findSome?_cons]
  dsimp only
  rw [if_neg hother, List.findSome?_append, List.findSome?_eq_none_iff.2, Option.none_or, tableOf]
  intro e he
  cases e with
  | polled p yes => rfl
  | asked q r => rfl
  | marked o => exact absurd he (hnew o)

/-- The lists of VLANs once contexts are planned: what is over the cap is skipped, and in a quick
read what is not. -/
def VlanLists.planned (quick : Bool) (toRead overCap : List ℤ) : VlanLists :=
  ⟨[], overCap ++ if quick then toRead else [], []⟩

/-- The contexts of VLANs are planned. -/
structure Planned (rd : MacRead) (vlans toRead overCap : List ℤ)
    (w : World (net Outcome) ReadState) : Prop where
  /-- The candidates are those that the walks have found, up to the cap. -/
  plan : planContextVlans (rd.found w.log) rd.opts.maxVlans = some (toRead, overCap)
  /-- There are some. -/
  nonempty : toRead ≠ []
  /-- The read may go on. -/
  goes : w.st.stopped = false
  /-- A quick read plans them and begins none. -/
  vlans : vlans = if rd.opts.quick then [] else toRead
  /-- They are listed before they are read. -/
  lists : w.st.report.vlans = .planned rd.opts.quick toRead overCap
  /-- And that is said. -/
  quick : rd.opts.quick = true → w.st.problems ≠ []

/-- The end of `_read` before the contexts. -/
structure DefaultRead (rd : MacRead) (d : ℚ) (plan : Plan) (w : World (net Outcome) ReadState) :
    Prop where
  /-- No context has left anything. -/
  contexts : w.st.contexts = ⟨Dict.empty, Dict.empty, [], []⟩
  /-- The budget ends at `d`. -/
  deadline : w.st.budget.deadline = d
  /-- Nothing came after a timeout. -/
  quiet : Quiet w
  /-- What contexts are to be read was planned. -/
  planned : ∀ rows advertised vlans, plan = .contexts rows advertised vlans →
    ∃ toRead overCap, Planned rd vlans toRead overCap w

/-- Where no contexts are planned. -/
theorem ReadPhase.rest (h : ReadPhase d w) {plan : Plan}
    (hplan : ∀ rows advertised vlans, plan ≠ .contexts rows advertised vlans) :
    DefaultRead rd d plan w :=
  ⟨h.contexts, h.deadline, h.quiet, fun rows advertised vlans heq ↦
    absurd heq (hplan rows advertised vlans)⟩

theorem halted_of_not_stopped {s : ReadState} (h : ¬ s.stopped = true) : s.halted = false :=
  (Bool.or_eq_false_iff.1 (Bool.eq_false_of_not_eq_true h)).1

/-- The VLANs of the contexts, which are those found on the agent unless the read was stopped. -/
theorem phaseContextVlans_wp (h : ReadPhase d w) (hgoes : w.st.halted = false) :
    (rd.contextVlans fuel).wp MacRead.aloneRules (fun out w' ↦ ReadPhase d w' ∧
      (w'.st.stopped = false → out.1 = rd.found w'.log)) w := by
  refine Coro.wp_bind.2 (Coro.wp_mono (phaseWalk_wp h hgoes)
    fun entities w₁ _ ⟨h₁, hlatest₁⟩ ↦ ?_)
  have hentities : tableOf entLogicalColumns w₁.log = entities.rows := tableOf_latest hlatest₁
  refine Coro.wp_bind.2 (Coro.wp_get.2 ?_)
  split
  case isTrue hdone =>
    refine ⟨h₁, fun hno ↦ ?_⟩
    rw [hno, Bool.or_false, Bool.not_eq_true', List.isEmpty_eq_false_iff] at hdone
    rw [MacRead.found, hentities, if_pos hdone]
  case isFalse hgoes₁ =>
  rw [Bool.or_eq_true, not_or, Bool.not_eq_true', Bool.not_eq_false, List.isEmpty_iff] at hgoes₁
  refine Coro.wp_bind.2 (Coro.wp_mono (phaseWalk_wp h₁ (halted_of_not_stopped hgoes₁.2))
    fun states w₂ _ ⟨h₂, hlatest₂⟩ ↦ ?_)
  have hstates : tableOf vtpColumns w₂.log = states.rows := tableOf_latest hlatest₂
  have hother : vtpColumns ≠ entLogicalColumns := by decide
  have hentities₂ : tableOf entLogicalColumns w₂.log = entities.rows :=
    (tableOf_other hlatest₂ hother).trans hentities
  have hfound : rd.found w₂.log = if parseVtpVlans (column states.rows "state") ≠ [] then
      (parseVtpVlans (column states.rows "state")).map Json.int
        else if rd.opts.contexts = .always then rd.opts.hint else [] := by
    rw [MacRead.found, hentities₂, hstates, if_neg (not_not.2 hgoes₁.1)]
  refine Coro.wp_bind.2 (Coro.wp_get.2 ?_)
  split
  case isTrue hdone =>
    refine ⟨h₂, fun hno ↦ ?_⟩
    rw [hno, Bool.or_false, Bool.not_eq_true', List.isEmpty_eq_false_iff] at hdone
    rw [hfound, if_pos hdone]
  case isFalse hnone =>
    refine ⟨h₂, fun hno ↦ ?_⟩
    rw [Bool.or_eq_true, not_or, Bool.not_eq_true', Bool.not_eq_false, List.isEmpty_iff] at hnone
    rw [hfound, if_neg (not_not.2 hnone.1)]

/-- The plan of the contexts, of the default context's rows. -/
theorem phasePerVlan_wp {rows : List Row} (h : ReadPhase d w) (hgoes : w.st.halted = false) :
    (rd.perVlan fuel rows).wp MacRead.aloneRules (fun plan w' ↦ DefaultRead rd d plan w') w := by
  refine Coro.wp_bind.2 (Coro.wp_mono (phaseContextVlans_wp h hgoes)
    fun ⟨vlans, advertised⟩ w₁ _ ⟨h₁, hfound⟩ ↦ ?_)
  dsimp only
  split
  case h_1 => exact h₁.rest nofun
  case h_2 toRead overCap hplan =>
  refine Coro.wp_bind.2 (Coro.wp_get.2 ?_)
  split
  case isTrue => exact h₁.rest nofun
  case isFalse hgoes₁ =>
    rw [Bool.or_eq_true, not_or, List.isEmpty_iff] at hgoes₁
    have hno : w₁.st.stopped = false := Bool.eq_false_of_not_eq_true hgoes₁.1
    have hplan' : planContextVlans (rd.found w₁.log) rd.opts.maxVlans = some (toRead, overCap) := by
      rw [← hfound hno]
      exact hplan
    have hlists : w₁.st.report.vlans.skipped ++ overCap = overCap := by
      rw [h₁.vlans]
      rfl
    refine Coro.wp_bind.2 (Coro.wp_modify.2 ?_)
    split
    case isTrue hquick =>
      -- a quick read skips the VLANs it could read, and says so
      refine Coro.wp_bind.2 (Coro.wp_modify.2
        ⟨h₁.contexts, h₁.deadline, ⟨h₁.quiet.1, h₁.quiet.2⟩, ?_⟩)
      rintro rows advertised vlans ⟨⟩
      refine ⟨toRead, overCap, hplan', hgoes₁.2, hno, (if_pos hquick).symm, ?_, fun _ ↦
        List.append_ne_nil_of_right_ne_nil _ (List.cons_ne_nil _ _)⟩
      show VlanLists.mk w₁.st.report.vlans.read ((w₁.st.report.vlans.skipped ++ overCap) ++ toRead)
        w₁.st.report.vlans.failed = _
      rw [hlists, h₁.vlans, VlanLists.planned, if_pos hquick]
    case isFalse hslow =>
      refine ⟨h₁.contexts, h₁.deadline, ⟨h₁.quiet.1, h₁.quiet.2⟩, ?_⟩
      rintro rows advertised vlans ⟨⟩
      refine ⟨toRead, overCap, hplan', hgoes₁.2, hno, (if_neg hslow).symm, ?_, fun hquick ↦
        absurd hquick hslow⟩
      show VlanLists.mk w₁.st.report.vlans.read (w₁.st.report.vlans.skipped ++ overCap)
        w₁.st.report.vlans.failed = _
      rw [hlists, h₁.vlans, VlanLists.planned, if_neg hslow, List.append_nil]

theorem phaseReadBridge_wp {base : Dict Oid String} (h : ReadPhase d w)
    (hgoes : w.st.halted = false) :
    (rd.readBridge fuel base).wp MacRead.aloneRules (fun plan w' ↦ DefaultRead rd d plan w') w := by
  refine Coro.wp_bind.2 (Coro.wp_mono (phaseWalk_wp h hgoes) fun fdb w₁ _ ⟨h₁, _⟩ ↦ ?_)
  have hlearned : ∀ w₂ : World (net Outcome) ReadState, ReadPhase d w₂ →
      Coro.wp MacRead.aloneRules (do
        let rows ← rd.learned fuel (parseFdbTable false fdb.rows) base
        if (← Coro.get).stopped || rd.opts.contexts = .off then return Plan.rows rows
        rd.perVlan fuel rows) (fun plan w' ↦ DefaultRead rd d plan w') w₂ := by
    intro w₂ h₂
    refine Coro.wp_bind.2 (Coro.wp_mono (phaseLearned_wp h₂) fun rows w₃ _ h₃ ↦ ?_)
    refine Coro.wp_bind.2 (Coro.wp_get.2 ?_)
    split
    case isTrue => exact h₃.rest nofun
    case isFalse hgoes₃ =>
      rw [Bool.or_eq_true, not_or] at hgoes₃
      exact phasePerVlan_wp h₃ (halted_of_not_stopped hgoes₃.1)
  split
  · exact Coro.wp_bind.2 (Coro.wp_modify.2 (hlearned _ (h₁.withState rfl rfl rfl rfl)))
  · exact hlearned _ h₁

theorem phaseReadQbridge_wp {base : Dict Oid String} {vlanFdb : Walked String}
    (h : ReadPhase d w) (hgoes : w.st.halted = false) :
    (rd.readQbridge fuel base vlanFdb).wp MacRead.aloneRules
      (fun plan w' ↦ DefaultRead rd d plan w') w := by
  refine Coro.wp_bind.2 (Coro.wp_mono (phaseWalk_wp h hgoes) fun fdb w₁ _ ⟨h₁, _⟩ ↦ ?_)
  split
  case isTrue =>
    refine Coro.wp_bind.2 (Coro.wp_modify.2 (Coro.wp_bind.2 (Coro.wp_mono
      (phaseQbridgeVlans_wp (h₁.withState rfl rfl rfl rfl)) fun entries w₂ _ h₂ ↦ ?_)))
    exact Coro.wp_bind.2 (Coro.wp_mono (phaseLearned_wp h₂) fun rows w₃ _ h₃ ↦ h₃.rest nofun)
  case isFalse =>
    refine Coro.wp_bind.2 (Coro.wp_get.2 ?_)
    split
    case isTrue => exact h₁.rest nofun
    case isFalse hgoes₁ => exact phaseReadBridge_wp h₁ (halted_of_not_stopped hgoes₁)

theorem phaseRead_wp (h : ReadPhase d w) (hgoes : w.st.halted = false) :
    (rd.read fuel).wp MacRead.aloneRules (fun plan w' ↦ DefaultRead rd d plan w') w := by
  refine Coro.wp_bind.2 (Coro.wp_mono (phaseWalk_wp h hgoes) fun base w₁ _ ⟨h₁, _⟩ ↦ ?_)
  refine Coro.wp_bind.2 (Coro.wp_get.2 ?_)
  split
  case isTrue => exact h₁.rest nofun
  case isFalse hgoes₁ =>
  refine Coro.wp_bind.2 (Coro.wp_modify.2 (Coro.wp_bind.2 (Coro.wp_mono
    (phaseWalk_wp (h₁.withState rfl rfl rfl rfl) (halted_of_not_stopped hgoes₁))
    fun vlanFdb w₂ _ ⟨h₂, _⟩ ↦ ?_)))
  refine Coro.wp_bind.2 (Coro.wp_get.2 ?_)
  split
  case isTrue => exact h₂.rest nofun
  case isFalse hgoes₂ => exact phaseReadQbridge_wp h₂ (halted_of_not_stopped hgoes₂)

/-- The specification of `_read`, up to the contexts of VLANs. -/
theorem defaultRead_of_run {sur : Surroundings} {now : ℚ} {plan : Plan} {s : ReadState}
    {log : Log (net Outcome)}
    (hread : (rd.read fuel).run sur.env (rd.start now) [] = some (plan, s, log)) :
    DefaultRead rd (now + rd.opts.budgetS) plan ⟨s, log⟩ := by
  have hphase : ReadPhase (now + rd.opts.budgetS) ⟨rd.start now, []⟩ :=
    ⟨rfl, rfl, rfl, fun _ o ho ↦ absurd ho List.not_mem_nil, nofun⟩
  exact Coro.run_of_wp sur.obeys_alone (phaseRead_wp hphase rfl) hread

/-- Where `_read_contexts` begins with a list of VLANs. -/
structure ContextsBegin (vlans : List ℤ) (s : ReadState) : Prop where
  /-- No context has left anything. -/
  contexts : s.contexts = ⟨Dict.empty, Dict.empty, [], []⟩
  /-- None was read. -/
  read : s.report.vlans.read = []
  /-- None failed. -/
  failed : s.report.vlans.failed = []
  /-- No VLAN is both to be read and skipped, and none is listed twice. -/
  nodup : (vlans ++ s.report.vlans.skipped).Nodup

/-- A read that has planned the contexts of VLANs begins with them. -/
theorem contextsBegin_of_run {sur : Surroundings} {now : ℚ} {rows : List Row} {advertised : Bool}
    {vlans : List ℤ} {s : ReadState} {log : Log (net Outcome)}
    (hread : (rd.read fuel).run sur.env (rd.start now) [] =
      some (.contexts rows advertised vlans, s, log)) : ContextsBegin vlans s := by
  have hdefault := defaultRead_of_run hread
  obtain ⟨toRead, overCap, hplanned⟩ := hdefault.planned _ _ _ rfl
  have hlists : s.report.vlans = .planned rd.opts.quick toRead overCap := hplanned.lists
  obtain ⟨hnodup, -⟩ := planContextVlans_spec hplanned.plan
  refine ⟨hdefault.contexts, ?_, ?_, ?_⟩
  · rw [hlists]
    rfl
  · rw [hlists]
    rfl
  · rw [hlists, hplanned.vlans, VlanLists.planned]
    show ((if rd.opts.quick then [] else toRead) ++
      (overCap ++ if rd.opts.quick then toRead else [])).Nodup
    split
    · rw [List.nil_append, List.nodup_append_comm]
      exact hnodup
    · rw [List.append_nil]
      exact hnodup

/-- A read that has planned the contexts of VLANs reads them and ends. -/
theorem reads_of_run {sur : Surroundings} {s₀ s : ReadState} {rows out : List Row}
    {advertised : Bool} {vlans : List ℤ} {report : MacMeta} {log log' : Log (net Outcome)}
    (hread : (rd.read fuel).run sur.env s₀ [] = some (.contexts rows advertised vlans, s, log))
    (hrun : rd.run sur fuel s₀ = some ((out, report), log')) :
    ∃ s', gather sur.env macContextConcurrency fuel (vlans.map (rd.one fuel)) s log =
        some (s', log') ∧
      (out, report) = (rd.afterContexts rows advertised s').2.finish
        (rd.afterContexts rows advertised s').1 (sur.clock []) (sur.clock log') := by
  obtain ⟨⟨plan, s₁, log₁⟩, hread₁, hrest⟩ := Option.bind_eq_some_iff.1 hrun
  obtain ⟨rfl, rfl, rfl⟩ : plan = .contexts rows advertised vlans ∧ s₁ = s ∧ log₁ = log := by
    simpa using hread₁.symm.trans hread
  obtain ⟨⟨s', log₂⟩, hreads, hout⟩ := Option.bind_eq_some_iff.1 hrest
  obtain ⟨hfinish, rfl⟩ := Prod.mk.inj (Option.some.inj hout)
  exact ⟨s', hreads, hfinish.symm⟩

/-- The report, once the contexts are read. -/
theorem afterContexts_report (rd : MacRead) (rows : List Row) (advertised : Bool) (s : ReadState) :
    (rd.afterContexts rows advertised s).2.report = { s.report with
      source := if s.report.vlans.read.isEmpty then s.report.source else .bridgeVlan
      vlanMap := if advertised || !s.report.vlans.read.isEmpty then .context
        else s.report.vlanMap } := by
  rw [MacRead.afterContexts]
  dsimp only
  split <;> split <;> rfl

end Snmp
