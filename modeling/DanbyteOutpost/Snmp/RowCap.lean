import DanbyteOutpost.Snmp.Abort
import DanbyteOutpost.Snmp.MacTable
import DanbyteOutpost.Snmp.OrderlyWalks

/-!
# A read that only the row cap can cut

An agent answers every request of a read as it should, and in time. The forwarding tables of the
read are dot1qTpFdbTable, or where that is empty dot1dTpFdbTable and the tables of the VLANs it goes
for. It walks none twice, and unless it is truncated it walks every one. As what the walks have
taken is what is missing from the allowance (`ComesTo.rows_left_eq`), the read is truncated exactly
if the tables have more rows than the cap (`rows_capped`).

## The proof

In one direction: if the read was truncated, a walk was capped, and had seen a row for which there
was no room, so that the tables have more rows than the cap. In the other: if it was not, every
table was walked whole, so that all of its rows were admitted, and they were within the cap.

* `Accounted` follows the crew of contexts: the rows offered so far and those of the VLANs still
  ahead are together the rows of all tables (`Accounted.step`).
* `Onward` follows the default context, method by method.
* `ReadEnds` is what either leaves at the end; `readEnds_of_faultless` adds that the read comes to
  its end, with the bound on requests of `orderlyOne_endsIn`.

`rows_capped_boundary` is a read with exactly as many rows as the cap.
-/

namespace Snmp

open Coop

/-! ### The tables of a read -/

/-- The VLANs whose contexts a read goes for. -/
def Plan.vlans : Plan → List ℤ
  | contexts _ _ vlans => vlans
  | rows _ | raised _ => []

/-- The forwarding tables of a read that goes for the contexts of `vlans`. -/
def MacRead.fdbTables (rd : MacRead) (agent : Agent) (vlans : List ℤ) : List (Access × Columns) :=
  (rd.access, qFdbColumns) ::
    if agent.rowsIn rd.access qFdbColumns = 0 then
      (rd.access, dFdbColumns) :: vlans.map fun vid ↦ (rd.contextAuth vid, dFdbColumns)
    else []

/-- The rows the agent has in some tables. -/
def Agent.rowsOf (agent : Agent) (tables : List (Access × Columns)) : ℕ :=
  (tables.map fun table ↦ agent.rowsIn table.1 table.2).sum

variable {rd : MacRead} {agent : Agent} {fuel : ℕ} {allowed : Allowed (net Outcome)}

/-! ### The rows of the contexts -/

/-- The rows of the table of a VLAN. -/
def MacRead.rowsOfVlan (rd : MacRead) (agent : Agent) (vid : ℤ) : ℕ :=
  agent.rowsIn (rd.contextAuth vid) dFdbColumns

/-- The rows of the table that a task is still to walk. -/
def MacRead.ahead (rd : MacRead) (agent : Agent) : ContextStage → ℕ
  | .gate vid | .ports vid | .table vid _ => rd.rowsOfVlan agent vid
  | .learned .. | .stack .. | .read .. => 0

/-- The rows of the table that a task has not walked, or not said to have read. -/
def MacRead.unread (rd : MacRead) (agent : Agent) : ContextStage → ℕ
  | .gate vid | .ports vid | .table vid _ => rd.rowsOfVlan agent vid
  | .learned vid ok _ _ | .stack vid ok _ _ | .read vid ok _ _ =>
    if ok then 0 else rd.rowsOfVlan agent vid

/-- The rows of the tables of VLANs that were not read. -/
def MacRead.rowsMissed (rd : MacRead) (agent : Agent) (lists : VlanLists) : ℕ :=
  ((lists.skipped ++ lists.failed).map (rd.rowsOfVlan agent)).sum

/-- What a step of a VLAN's task does to the rows that are walked. -/
structure WalksOn (rd : MacRead) (agent : Agent) (p p' : ContextPlace) : Prop where
  /-- What is walked was ahead before. -/
  atMost : rowsOffered agent p'.world.log + rd.ahead agent p'.stage ≤
    rowsOffered agent p.world.log + rd.ahead agent p.stage
  /-- And nothing that was ahead is passed over. -/
  atLeast : rowsOffered agent p.world.log + rd.unread agent p.stage ≤
    rowsOffered agent p'.world.log + rd.unread agent p'.stage

/-- A walk that ends offers the rows of its table. -/
theorem MacRead.WalkEnds.offered {o : Outcome} {w w' : World (net Outcome) ReadState}
    (h : WalkEnds fuel allowed o w w') :
    rowsOffered agent w'.log = rowsOffered agent w.log + o.offered agent := by
  rw [h.frame.2]
  rfl

/-- A step of a context offers rows where a walk of it ends. -/
theorem MacRead.ContextStep.walksOn {p p' : ContextPlace} (h : ContextStep rd fuel allowed p p') :
    WalksOn rd agent p p' := by
  cases h with
  | passed | polled | asked | row | plain | folded | halted | late | stackBegun =>
    exact ⟨le_rfl, le_rfl⟩
  | portsFailed vid w w' out hend =>
    have hsame : rowsOffered agent w'.log = rowsOffered agent w.log := hend.offered
    refine ⟨?_, ?_⟩
    · show rowsOffered agent w'.log + 0 ≤ rowsOffered agent w.log + rd.rowsOfVlan agent vid
      omega
    · exact (congrArg (· + _) hsame).ge
  | portsRead vid w w' out hend =>
    have hsame : rowsOffered agent w'.log = rowsOffered agent w.log := hend.offered
    exact ⟨(congrArg (· + _) hsame).le, (congrArg (· + _) hsame).ge⟩
  | tableRead vid base w w' out hend =>
    have hmore : rowsOffered agent w'.log = rowsOffered agent w.log + rd.rowsOfVlan agent vid :=
      hend.offered
    exact ⟨hmore.le, hmore.ge.trans (Nat.le_add_right _ _)⟩
  | stackRead vid ok rows failure w w' out hend =>
    have hsame : rowsOffered agent w'.log = rowsOffered agent w.log := hend.offered
    exact ⟨(congrArg (· + _) hsame).le, (congrArg (· + _) hsame).ge⟩

/-- A VLAN that is skipped has its rows missed. -/
theorem rowsMissed_skip (vid : ℤ) (s : ReadState) :
    rd.rowsMissed agent (MacRead.skip vid s).report.vlans =
      rd.rowsMissed agent s.report.vlans + rd.rowsOfVlan agent vid := by
  show (((s.report.vlans.skipped ++ [vid]) ++ s.report.vlans.failed).map _).sum = _
  simp only [MacRead.rowsMissed, List.map_append, List.sum_append, List.map_singleton,
    List.sum_singleton]
  omega

/-- One that ends has them missed unless it was read. -/
theorem rowsMissed_settle (vid : ℤ) (ok : Bool) (rows : List Row) (failure : String)
    (s : ReadState) : rd.rowsMissed agent (MacRead.settle vid ok rows failure s).report.vlans =
      rd.rowsMissed agent s.report.vlans + rd.unread agent (.read vid ok rows failure) := by
  rw [MacRead.settle, MacRead.unread]
  split
  · rfl
  · split
    · exact rowsMissed_skip ..
    · show ((s.report.vlans.skipped ++ (s.report.vlans.failed ++ [vid])).map _).sum = _
      simp only [MacRead.rowsMissed, List.map_append, List.sum_append, List.map_singleton,
        List.sum_singleton]
      omega

theorem MacRead.ContextStop.missed {p : ContextPlace} {w : World (net Outcome) ReadState}
    (h : ContextStop allowed p w) : rowsOffered agent w.log = rowsOffered agent p.world.log ∧
      rd.rowsMissed agent w.st.report.vlans =
        rd.rowsMissed agent p.world.st.report.vlans + rd.unread agent p.stage := by
  cases h with
  | stopped | late => exact ⟨rfl, rowsMissed_skip ..⟩
  | settled => exact ⟨rfl, rowsMissed_settle ..⟩

/-- The rows that were walked, are walked and will be are `most` at most; with those of the tables
that were not read they are `least` at least. -/
structure Accounted (rd : MacRead) (agent : Agent) (most least : ℕ)
    (crew : ContextCrew) : Prop where
  /-- What was walked and what may be walked yet. -/
  atMost : rowsOffered agent crew.world.log + (crew.queue.map (rd.ahead agent)).sum +
    (crew.flight.map (rd.ahead agent)).sum ≤ most
  /-- What was walked, what is to be walked and what was missed. -/
  atLeast : least ≤ rowsOffered agent crew.world.log + (crew.queue.map (rd.unread agent)).sum +
    (crew.flight.map (rd.unread agent)).sum + rd.rowsMissed agent crew.world.st.report.vlans

variable {most least cap : ℕ} {crew crew' : ContextCrew}

/-- The step lemma of the rows of a crew. -/
theorem Accounted.step (h : Accounted rd agent most least crew)
    (hstep : Crew.Step (rd.contextCourse fuel allowed) cap crew crew') :
    Accounted rd agent most least crew' := by
  have hmost := h.atMost
  have hleast := h.atLeast
  cases hstep with
  | start =>
    simp only [List.map_cons, List.sum_cons] at hmost hleast
    refine ⟨?_, ?_⟩ <;> simp only [Multiset.map_cons, Multiset.sum_cons] <;> omega
  | @step l l' queue flight w w' hstep =>
    have hwalks : WalksOn rd agent ⟨l, w⟩ ⟨l', w'⟩ := MacRead.ContextStep.walksOn hstep
    have hmost' := hwalks.atMost
    have hleast' := hwalks.atLeast
    have hvlans : w'.st.report.vlans = w.st.report.vlans := (MacRead.ContextStep.frame hstep).vlans
    simp only [Multiset.map_cons, Multiset.sum_cons] at hmost hleast
    dsimp only at hmost' hleast'
    refine ⟨?_, ?_⟩
    · simp only [Multiset.map_cons, Multiset.sum_cons]
      omega
    · simp only [Multiset.map_cons, Multiset.sum_cons, hvlans]
      omega
  | @stop l queue flight w w' hstop =>
    have hends : rowsOffered agent w'.log = rowsOffered agent w.log ∧
        rd.rowsMissed agent w'.st.report.vlans =
          rd.rowsMissed agent w.st.report.vlans + rd.unread agent l :=
      MacRead.ContextStop.missed hstop
    obtain ⟨hoffered, hmissed⟩ := hends
    simp only [Multiset.map_cons, Multiset.sum_cons] at hmost hleast
    refine ⟨?_, ?_⟩
    · simp only [hoffered]
      omega
    · simp only [hoffered, hmissed]
      omega

/-- At the start, all the rows of the VLANs are ahead. -/
theorem accounted_start (rd : MacRead) (agent : Agent) (vlans : List ℤ) (s : ReadState)
    (log : Log (net Outcome)) : Accounted rd agent
      (rowsOffered agent log + (vlans.map (rd.rowsOfVlan agent)).sum)
      (rowsOffered agent log + (vlans.map (rd.rowsOfVlan agent)).sum +
        rd.rowsMissed agent s.report.vlans) ⟨vlans.map .gate, 0, ⟨s, log⟩⟩ := by
  have hahead : (vlans.map .gate).map (rd.ahead agent) = vlans.map (rd.rowsOfVlan agent) :=
    List.map_map ..
  have hunread : (vlans.map .gate).map (rd.unread agent) = vlans.map (rd.rowsOfVlan agent) :=
    List.map_map ..
  refine ⟨?_, ?_⟩
  · show _ + ((vlans.map .gate).map (rd.ahead agent)).sum + 0 ≤ _
    rw [hahead]
    exact le_rfl
  · show _ ≤ _ + ((vlans.map .gate).map (rd.unread agent)).sum + 0 + _
    rw [hunread]
    exact le_rfl

/-- The contexts of VLANs walk no table twice, and where none is missed every one. -/
theorem offered_of_gather {sur : Surroundings} {vlans : List ℤ} {s s' : ReadState}
    {log log' : Log (net Outcome)}
    (hgather : gather sur.env macContextConcurrency fuel (vlans.map (rd.one fuel)) s log =
      some (s', log')) :
    rowsOffered agent log' ≤ rowsOffered agent log + (vlans.map (rd.rowsOfVlan agent)).sum ∧
      (rd.rowsMissed agent s'.report.vlans = rd.rowsMissed agent s.report.vlans →
        rowsOffered agent log + (vlans.map (rd.rowsOfVlan agent)).sum ≤
          rowsOffered agent log') := by
  have hreaches := MacRead.contexts_reach sur.env.suits_allowed hgather
  have hend := hreaches.keeps (fun _ _ h hstep ↦ h.step hstep)
    (accounted_start rd agent vlans s log)
  have hmost : rowsOffered agent log' + 0 + 0 ≤ _ := hend.atMost
  have hleast : _ ≤ rowsOffered agent log' + 0 + 0 + rd.rowsMissed agent s'.report.vlans :=
    hend.atLeast
  exact ⟨hmost, fun hsame ↦ by omega⟩

/-! ### The default context -/

/-- The problems of a read that is not disturbed, when its plan is made. -/
def Plan.problems (quick : Bool) : Plan → List String
  | contexts .. => if quick then ["quick read: per-VLAN MAC tables not read"] else []
  | rows _ | raised _ => []

/-- The read goes on, and has walked tables of `rows` rows more. -/
structure Onward (rd : MacRead) (agent : Agent) (d : ℚ) (rows : ℕ)
    (w w' : World (net Outcome) ReadState) : Prop where
  /-- Nothing has gone wrong. -/
  orderly : Orderly rd agent d [] w'
  /-- The log has the rows. -/
  offers : Offers True agent rows w w'

theorem Onward.trans {d : ℚ} {rows rows' : ℕ} {w w' w'' : World (net Outcome) ReadState}
    (h : Onward rd agent d rows w w') (h' : Onward rd agent d rows' w' w'') :
    Onward rd agent d (rows + rows') w w'' :=
  ⟨h'.orderly, h.offers.trans h'.offers⟩

namespace MacRead

variable {b : ℕ} (hample : Ample agent rd.access b) (hfuel : b ≤ fuel) {d : ℚ}
  {w : World (net Outcome) ReadState}

include hample hfuel

/-- A walk goes onward by the rows of its table. -/
theorem orderlyWalk_wp {columns : Columns} (hcolumns : columns ∈ readColumns) {capRows : Bool}
    (hcapped : cappedColumns columns = capRows) {maxRep : ℤ} (hmaxRep : maxRep ≤ macMaxRepetitions)
    (h : Orderly rd agent d [] w) {what : String} :
    (rd.walkDefault fuel what columns capRows maxRep).wp (orderlyRules True rd agent d [])
      (fun out w' ↦ WalkDone True rd agent d [] rd.access columns w out w') w := by
  refine Coro.wp_mono (Coro.wp_of_within
    (orderlyWalkDefault_within hcolumns hcapped hmaxRep hample hfuel le_rfl h))
    fun out w' _ ⟨_, _, hend⟩ ↦ hend

/-- A walk that does not count its rows. -/
theorem orderlyLookup_wp {columns : Columns} (hcolumns : columns ∈ readColumns)
    (hfree : cappedColumns columns = false) {maxRep : ℤ} (hmaxRep : maxRep ≤ macMaxRepetitions)
    (h : Orderly rd agent d [] w) {what : String} :
    (rd.walkDefault fuel what columns false maxRep).wp (orderlyRules True rd agent d [])
      (fun _ w' ↦ Onward rd agent d 0 w w') w := by
  refine Coro.wp_mono (orderlyWalk_wp hample hfuel hcolumns hfree hmaxRep h)
    fun out w' _ hend ↦ ⟨hend.orderly, ?_⟩
  have hoffers := hend.offers
  rwa [Outcome.offered, if_neg (by rw [hfree]; exact Bool.false_ne_true)] at hoffers

theorem orderlyNamedVlans_wp (h : Orderly rd agent d [] w) :
    (rd.namedVlans fuel).wp (orderlyRules True rd agent d [])
      (fun _ w' ↦ Onward rd agent d 0 w w') w := by
  refine Coro.wp_bind.2 (Coro.wp_mono (Coro.wp_of_within (orderlyCanWalk_within h (n := 0)))
    fun yes w₁ _ ⟨_, _, h₁, hoffers⟩ ↦ ?_)
  have hgoes : Onward rd agent d 0 w w₁ := ⟨h₁, hoffers⟩
  split
  case isFalse => exact hgoes
  case isTrue =>
    exact Coro.wp_bind.2 (Coro.wp_mono
      (orderlyLookup_wp hample hfuel (by decide) (by decide) le_rfl h₁)
      fun names w₂ _ h₂ ↦ hgoes.trans h₂)

theorem orderlyQbridgeVlans_wp (h : Orderly rd agent d [] w) {entries : List Entry}
    {vlanFdb : Dict Oid String} {complete : Bool} :
    (rd.qbridgeVlans fuel entries vlanFdb complete).wp (orderlyRules True rd agent d [])
      (fun _ w' ↦ Onward rd agent d 0 w w') w := by
  have hnamed : (if vlanFdb.items.isEmpty && complete then some <$> rd.namedVlans fuel
      else pure none : Reader (Option (List ℤ))).wp (orderlyRules True rd agent d [])
        (fun _ w' ↦ Onward rd agent d 0 w w') w := by
    split
    case isFalse => exact ⟨h, fun _ ↦ rfl⟩
    case isTrue =>
      exact Coro.wp_bind.2 (Coro.wp_mono (orderlyNamedVlans_wp hample hfuel h) fun _ _ _ h' ↦ h')
  refine Coro.wp_bind.2 (Coro.wp_mono hnamed fun named w₁ _ h₁ ↦ ?_)
  have h₁' := h₁.orderly
  exact Coro.wp_bind.2 (Coro.wp_modify.2 ⟨h₁'.withState
    ⟨h₁'.deadline, h₁'.halted, h₁'.problems, h₁'.failed, h₁'.failures, h₁'.aborted⟩ rfl rfl,
      h₁.offers⟩)

theorem orderlyLearned_wp (h : Orderly rd agent d [] w) {entries : List Entry}
    {base : Dict Oid String} :
    (rd.learned fuel entries base).wp (orderlyRules True rd agent d [])
      (fun _ w' ↦ Onward rd agent d 0 w w') w :=
  Coro.wp_mono (Coro.wp_of_within (orderlyLearned_within hample hfuel le_rfl h entries base))
    fun _ _ _ ⟨_, _, h', hoffers⟩ ↦ ⟨h', hoffers⟩

theorem orderlyContextVlans_wp (h : Orderly rd agent d [] w) :
    (rd.contextVlans fuel).wp (orderlyRules True rd agent d [])
      (fun _ w' ↦ Onward rd agent d 0 w w') w := by
  refine Coro.wp_bind.2 (Coro.wp_mono (orderlyLookup_wp hample hfuel (by decide) (by decide)
    (by decide) h) fun entities w₁ _ h₁ ↦ Coro.wp_bind.2 (Coro.wp_get.2 ?_))
  split
  case isTrue => exact h₁
  case isFalse =>
    refine Coro.wp_bind.2 (Coro.wp_mono (orderlyLookup_wp hample hfuel (by decide) (by decide)
      le_rfl h₁.orderly) fun states w₂ _ h₂ ↦ Coro.wp_bind.2 (Coro.wp_get.2 ?_))
    split
    · exact h₁.trans h₂
    · exact h₁.trans h₂

/-- The plan by none; it may note that there are too many VLANs. -/
theorem orderlyPerVlan_wp (h : Orderly rd agent d [] w) {rows : List Row} :
    (rd.perVlan fuel rows).wp (orderlyRules True rd agent d []) (fun plan w' ↦
      Orderly rd agent d (plan.problems rd.opts.quick) w' ∧ Offers True agent 0 w w') w := by
  refine Coro.wp_bind.2 (Coro.wp_mono (orderlyContextVlans_wp hample hfuel h)
    fun ⟨vlans, advertised⟩ w₁ _ h₁ ↦ ?_)
  have h₁' := h₁.orderly
  dsimp only
  split
  case h_1 => exact ⟨h₁', h₁.offers⟩
  case h_2 toRead overCap _ =>
  refine Coro.wp_bind.2 (Coro.wp_get.2 ?_)
  split
  case isTrue => exact ⟨h₁', h₁.offers⟩
  case isFalse =>
    refine Coro.wp_bind.2 (Coro.wp_modify.2 ?_)
    split
    case isTrue hquick =>
      refine Coro.wp_bind.2 (Coro.wp_modify.2 ⟨h₁'.withState
        ⟨h₁'.deadline, h₁'.halted, ?_, h₁'.failed, h₁'.failures, h₁'.aborted⟩ rfl rfl, h₁.offers⟩)
      rw [Plan.problems, if_pos hquick]
      exact congrArg (· ++ _) h₁'.problems
    case isFalse hslow =>
      refine ⟨h₁'.withState
        ⟨h₁'.deadline, h₁'.halted, ?_, h₁'.failed, h₁'.failures, h₁'.aborted⟩ rfl rfl, h₁.offers⟩
      rw [Plan.problems, if_neg hslow]
      exact h₁'.problems

/-- The default context's dot1dTpFdbTable is walked. -/
theorem orderlyReadBridge_wp (h : Orderly rd agent d [] w) {base : Dict Oid String} :
    (rd.readBridge fuel base).wp (orderlyRules True rd agent d []) (fun plan w' ↦
      Orderly rd agent d (plan.problems rd.opts.quick) w' ∧
        Offers True agent (agent.rowsIn rd.access dFdbColumns) w w' ∧
          Walked.In rd.access dFdbColumns w'.log) w := by
  refine Coro.wp_bind.2 (Coro.wp_mono (orderlyWalk_wp hample hfuel (by decide) (by decide) le_rfl h)
    fun fdb w₁ _ hend ↦ ?_)
  have hgoes : Onward rd agent d (agent.rowsIn rd.access dFdbColumns) w w₁ :=
    ⟨hend.orderly, hend.offers⟩
  have hin : Walked.In rd.access dFdbColumns w₁.log := ⟨fdb, hend.mark⟩
  have hrest : ∀ w₂ : World (net Outcome) ReadState,
      Onward rd agent d (agent.rowsIn rd.access dFdbColumns) w w₂ →
      Walked.In rd.access dFdbColumns w₂.log → Coro.wp (orderlyRules True rd agent d []) (do
        let rows ← rd.learned fuel (parseFdbTable false fdb.rows) base
        if (← Coro.get).stopped || rd.opts.contexts = .off then return Plan.rows rows
        rd.perVlan fuel rows) (fun plan w' ↦
          Orderly rd agent d (plan.problems rd.opts.quick) w' ∧
            Offers True agent (agent.rowsIn rd.access dFdbColumns) w w' ∧
              Walked.In rd.access dFdbColumns w'.log) w₂ := by
    intro w₂ h₂ hin₂
    refine Coro.wp_bind.2 (Coro.wp_mono (orderlyLearned_wp hample hfuel h₂.orderly)
      fun rows w₃ hlog₃ h₃ ↦ Coro.wp_bind.2 (Coro.wp_get.2 ?_))
    have hgoes₃ := h₂.trans h₃
    split
    · exact ⟨hgoes₃.orderly, hgoes₃.offers, hin₂.mono hlog₃⟩
    · refine Coro.wp_mono (orderlyPerVlan_wp hample hfuel h₃.orderly)
        fun plan w₄ hlog₄ ⟨h₄, hoffers₄⟩ ↦ ⟨h₄, hgoes₃.offers.trans hoffers₄, ?_⟩
      exact (hin₂.mono hlog₃).mono hlog₄
  have h₁ := hend.orderly
  split
  · exact Coro.wp_bind.2 (Coro.wp_modify.2 (hrest _ ⟨h₁.withState
      ⟨h₁.deadline, h₁.halted, h₁.problems, h₁.failed, h₁.failures, h₁.aborted⟩ rfl rfl,
        hgoes.offers⟩ hin))
  · exact hrest _ hgoes hin

end MacRead

/-! ### The tables of the default context -/

/-- The tables of a read are the Q-BRIDGE one, if that has rows. -/
theorem rowsOf_fdbTables_of_rows (h : agent.rowsIn rd.access qFdbColumns ≠ 0) (vlans : List ℤ) :
    agent.rowsOf (rd.fdbTables agent vlans) = agent.rowsIn rd.access qFdbColumns := by
  rw [MacRead.fdbTables, if_neg h]
  exact Nat.add_zero _

theorem rowsOf_fdbTables_of_empty (h : agent.rowsIn rd.access qFdbColumns = 0) (vlans : List ℤ) :
    agent.rowsOf (rd.fdbTables agent vlans) =
      agent.rowsIn rd.access dFdbColumns + (vlans.map (rd.rowsOfVlan agent)).sum := by
  rw [MacRead.fdbTables, if_pos h, Agent.rowsOf, List.map_cons, List.map_cons, List.sum_cons,
    List.sum_cons, h, Nat.zero_add, List.map_map]
  rfl

/-- The read of the default context that began in `w`, with its plan made. -/
structure DefaultOrderly (rd : MacRead) (agent : Agent) (d : ℚ) (w : World (net Outcome) ReadState)
    (plan : Plan) (w' : World (net Outcome) ReadState) : Prop where
  /-- Nothing has gone wrong but what the plan says. -/
  orderly : Orderly rd agent d (plan.problems rd.opts.quick) w'
  /-- No row is walked twice. -/
  atMost : rowsOffered agent w'.log ≤
    rowsOffered agent w.log + agent.rowsOf (rd.fdbTables agent [])
  /-- Without a cut all rows are. -/
  uncut : w'.st.budget.truncated = false →
    rowsOffered agent w'.log = rowsOffered agent w.log + agent.rowsOf (rd.fdbTables agent []) ∧
      ∀ table ∈ rd.fdbTables agent [], Walked.In table.1 table.2 w'.log
  /-- Contexts are only planned where dot1qTpFdbTable is empty. -/
  planned : plan.vlans ≠ [] → agent.rowsIn rd.access qFdbColumns = 0

/-- A read that stops is truncated. -/
theorem Orderly.truncated_of_stopped {d : ℚ} {problems : List String}
    {w : World (net Outcome) ReadState} (h : Orderly rd agent d problems w)
    (hstopped : w.st.stopped = true) : w.st.budget.truncated = true := by
  rw [ReadState.stopped, h.halted, Bool.false_or] at hstopped
  exact hstopped

namespace DefaultOrderly

variable {d : ℚ} {w w' : World (net Outcome) ReadState}

/-- The read stopped, so it is truncated. -/
theorem of_stopped (h : Orderly rd agent d [] w') (hstopped : w'.st.stopped = true)
    (hmost : rowsOffered agent w'.log ≤
      rowsOffered agent w.log + agent.rowsOf (rd.fdbTables agent [])) :
    DefaultOrderly rd agent d w (.rows []) w' :=
  ⟨h, hmost,
    fun huncut ↦ absurd (huncut.symm.trans (h.truncated_of_stopped hstopped)) Bool.false_ne_true,
    fun hne ↦ absurd rfl hne⟩

/-- The rows are those of dot1qTpFdbTable. -/
theorem of_rows (hsome : agent.rowsIn rd.access qFdbColumns ≠ 0) (h : Orderly rd agent d [] w')
    (hoffers : Offers True agent (agent.rowsIn rd.access qFdbColumns) w w')
    (hin : Walked.In rd.access qFdbColumns w'.log) (rows : List Row) :
    DefaultOrderly rd agent d w (.rows rows) w' := by
  have hoffered : rowsOffered agent w'.log =
      rowsOffered agent w.log + agent.rowsOf (rd.fdbTables agent []) := by
    rw [rowsOf_fdbTables_of_rows hsome]
    exact hoffers trivial
  refine ⟨h, hoffered.le, fun _ ↦ ⟨hoffered, fun table htable ↦ ?_⟩, fun hne ↦ absurd rfl hne⟩
  rw [MacRead.fdbTables, if_neg hsome] at htable
  obtain rfl := List.mem_singleton.1 htable
  exact hin

/-- dot1qTpFdbTable is empty, and dot1dTpFdbTable was walked behind it. -/
theorem of_bridge (hempty : agent.rowsIn rd.access qFdbColumns = 0) {plan : Plan}
    (h : Orderly rd agent d (plan.problems rd.opts.quick) w')
    (hoffers : Offers True agent (agent.rowsIn rd.access dFdbColumns) w w')
    (hqbridge : Walked.In rd.access qFdbColumns w'.log)
    (hbridge : Walked.In rd.access dFdbColumns w'.log) : DefaultOrderly rd agent d w plan w' := by
  have hoffered : rowsOffered agent w'.log =
      rowsOffered agent w.log + agent.rowsOf (rd.fdbTables agent []) := by
    rw [rowsOf_fdbTables_of_empty hempty]
    exact hoffers trivial
  refine ⟨h, hoffered.le, fun _ ↦ ⟨hoffered, fun table htable ↦ ?_⟩, fun _ ↦ hempty⟩
  rw [MacRead.fdbTables, if_pos hempty, List.map_nil] at htable
  rcases List.mem_cons.1 htable with rfl | htable
  · exact hqbridge
  · obtain rfl := List.mem_singleton.1 htable
    exact hbridge

end DefaultOrderly

/-- Where a walk has a row the agent has one. -/
theorem Outcome.Sound.rowsIn_ne_zero {o : Outcome} (h : o.Sound agent)
    (hrows : o.walked.rows.items ≠ []) : agent.rowsIn o.access o.columns ≠ 0 := by
  obtain ⟨index, hindex⟩ := Dict.items_ne_nil_iff.1 hrows
  exact (List.length_pos_of_mem (h.keys_subset hindex)).ne'

/-- A table that was read to its end without a row has none. -/
theorem Outcome.Sound.rowsIn_eq_zero {o : Outcome} (h : o.Sound agent)
    (hcomplete : o.walked.complete = true) (hrows : o.walked.rows.items = []) :
    agent.rowsIn o.access o.columns = 0 := by
  refine List.length_eq_zero_iff.2 (List.eq_nil_iff_forall_not_mem.2 fun index hindex ↦ ?_)
  exact Dict.items_ne_nil_iff.2 ⟨index, h.indexes_subset hcomplete hindex⟩ hrows

namespace MacRead

variable {b : ℕ} (hample : Ample agent rd.access b) (hfuel : b ≤ fuel) {d : ℚ}
  {w : World (net Outcome) ReadState}

include hample hfuel

/-- The read of the Q-BRIDGE table goes onward by its rows, or by those of the bridge table. -/
theorem orderlyReadQbridge_wp (h : Orderly rd agent d [] w) {base : Dict Oid String}
    {vlanFdb : Walked String} :
    (rd.readQbridge fuel base vlanFdb).wp (orderlyRules True rd agent d [])
      (fun plan w' ↦ DefaultOrderly rd agent d w plan w') w := by
  refine Coro.wp_bind.2 (Coro.wp_mono
    (orderlyWalk_wp hample hfuel (by decide) (by decide) le_rfl h) fun fdb w₁ _ hend ↦ ?_)
  have h₁ := hend.orderly
  obtain ⟨hsound, hfull⟩ := h₁.walks _ hend.mark
  have hoffers₁ : Offers True agent (agent.rowsIn rd.access qFdbColumns) w w₁ := hend.offers
  split
  case isTrue hrows =>
    have h₁' : Orderly rd agent d []
        ⟨{ w₁.st with report := { w₁.st.report with source := .qbridge } }, w₁.log⟩ :=
      h₁.withState ⟨h₁.deadline, h₁.halted, h₁.problems, h₁.failed, h₁.failures, h₁.aborted⟩ rfl rfl
    refine Coro.wp_bind.2 (Coro.wp_modify.2 (Coro.wp_bind.2 (Coro.wp_mono
      (orderlyQbridgeVlans_wp hample hfuel h₁') fun entries w₂ hlog₂ h₂ ↦ ?_)))
    refine Coro.wp_bind.2 (Coro.wp_mono (orderlyLearned_wp hample hfuel h₂.orderly)
      fun rows w₃ hlog₃ h₃ ↦ ?_)
    exact .of_rows (hsound.rowsIn_ne_zero (by simpa using hrows)) h₃.orderly
      (hoffers₁.trans (h₂.trans h₃).offers) ⟨fdb, hlog₃.subset (hlog₂.subset hend.mark)⟩ rows
  case isFalse hnone =>
  refine Coro.wp_bind.2 (Coro.wp_get.2 ?_)
  split
  case isTrue hstopped =>
    have hle : agent.rowsIn rd.access qFdbColumns ≤ agent.rowsOf (rd.fdbTables agent []) :=
      Nat.le_add_right ..
    exact .of_stopped h₁ hstopped ((hoffers₁ trivial).le.trans (Nat.add_le_add_left hle _))
  case isFalse hgoes =>
    -- the table is empty, or the read would have stopped
    have huncut : w₁.st.budget.truncated = false :=
      (Bool.or_eq_false_iff.1 (Bool.eq_false_of_not_eq_true hgoes)).2
    have hcomplete : fdb.complete = true :=
      hfull.resolve_right fun hcut ↦ Bool.false_ne_true (huncut.symm.trans hcut.2)
    have hempty : agent.rowsIn rd.access qFdbColumns = 0 :=
      hsound.rowsIn_eq_zero hcomplete (by simpa using hnone)
    rw [hempty] at hoffers₁
    refine Coro.wp_mono (orderlyReadBridge_wp hample hfuel h₁)
      fun plan w₂ hlog₂ ⟨h₂, hoffers₂, hin₂⟩ ↦ ?_
    have hoffers : Offers True agent (agent.rowsIn rd.access dFdbColumns) w w₂ := by
      have hboth := hoffers₁.trans hoffers₂
      rwa [Nat.zero_add] at hboth
    exact .of_bridge hempty h₂ hoffers ⟨fdb, hlog₂.subset hend.mark⟩ hin₂

theorem orderlyRead_wp (h : Orderly rd agent d [] w) :
    (rd.read fuel).wp (orderlyRules True rd agent d [])
      (fun plan w' ↦ DefaultOrderly rd agent d w plan w') w := by
  have hstop : ∀ {w₁ : World (net Outcome) ReadState}, Onward rd agent d 0 w w₁ →
      w₁.st.stopped = true → DefaultOrderly rd agent d w (.rows []) w₁ := by
    intro w₁ h₁ hstopped
    have hoffered := h₁.offers trivial
    exact .of_stopped h₁.orderly hstopped (by omega)
  refine Coro.wp_bind.2 (Coro.wp_mono
    (orderlyLookup_wp hample hfuel (by decide) (by decide) le_rfl h)
    fun base w₁ _ h₁ ↦ Coro.wp_bind.2 (Coro.wp_get.2 ?_))
  split
  case isTrue hstopped => exact hstop h₁ hstopped
  case isFalse =>
  have h₁' := h₁.orderly
  have hbased : Orderly rd agent d []
      ⟨{ w₁.st with defaultBase := !(column base.rows "if_index").items.isEmpty }, w₁.log⟩ :=
    h₁'.withState ⟨h₁'.deadline, h₁'.halted, h₁'.problems, h₁'.failed, h₁'.failures, h₁'.aborted⟩
      rfl rfl
  refine Coro.wp_bind.2 (Coro.wp_modify.2 (Coro.wp_bind.2 (Coro.wp_mono
    (orderlyLookup_wp hample hfuel (by decide) (by decide) le_rfl hbased)
    fun vlanFdb w₂ _ h₂ ↦ Coro.wp_bind.2 (Coro.wp_get.2 ?_))))
  have hgoes : Onward rd agent d 0 w w₂ := h₁.trans ⟨h₂.orderly, h₂.offers⟩
  split
  case isTrue hstopped => exact hstop hgoes hstopped
  case isFalse =>
    refine Coro.wp_mono (orderlyReadQbridge_wp hample hfuel h₂.orderly) fun plan w₃ _ h₃ ↦ ?_
    have hsame : rowsOffered agent w₂.log = rowsOffered agent w.log := hgoes.offers trivial
    refine ⟨h₃.orderly, ?_, fun huncut ↦ ?_, h₃.planned⟩
    · rw [← hsame]
      exact h₃.atMost
    · rw [← hsame]
      exact h₃.uncut huncut

end MacRead

/-! ### The end of a read -/

/-- With the allowance accounted for, the budget is cut exactly if more was offered than the cap. -/
theorem Orderly.truncated_iff {d : ℚ} {problems : List String} {s : ReadState}
    {log : Log (net Outcome)} (h : Orderly rd agent d problems ⟨s, log⟩)
    (htotal : s.budget.rowsLeft + rowLedger.settledIn log = macRowCap) :
    s.budget.truncated = true ↔ macRowCap < rowsOffered agent log := by
  have hsettled : rowLedger.settledIn log = totalOf Outcome.admitted log := rfl
  constructor
  · intro hcut
    obtain ⟨hleft, o, ho, hcapped⟩ := h.spent hcut
    have hless : totalOf Outcome.admitted log < rowsOffered agent log :=
      totalOf_lt (fun o' ho' ↦ (h.walks o' ho').1.admitted_le_offered) ho
        ((h.walks o ho).1.admitted_lt_offered hcapped)
    have hleft' : s.budget.rowsLeft = 0 := hleft
    omega
  · intro hmore
    by_contra hno
    have hall : rowsOffered agent log ≤ totalOf Outcome.admitted log := by
      refine totalOf_le fun o ho ↦ ?_
      obtain ⟨hsound, hend⟩ := h.walks o ho
      exact hsound.offered_le_admitted (hend.resolve_right fun hcut ↦ hno hcut.2)
    omega

/-- The state and the log at the end of a read that had a plan. -/
structure ReadEnds (rd : MacRead) (agent : Agent) (d : ℚ) (plan : Plan) (s : ReadState)
    (log : Log (net Outcome)) : Prop where
  /-- Nothing has gone wrong but what the plan says. -/
  orderly : Orderly rd agent d (plan.problems rd.opts.quick) ⟨s, log⟩
  /-- What was taken from the allowance is accounted for by the walks. -/
  total : s.budget.rowsLeft + rowLedger.settledIn log = macRowCap
  /-- No row is walked twice. -/
  atMost : rowsOffered agent log ≤ agent.rowsOf (rd.fdbTables agent plan.vlans)
  /-- Without a cut all rows are. -/
  uncut : s.budget.truncated = false →
    agent.rowsOf (rd.fdbTables agent plan.vlans) ≤ rowsOffered agent log ∧
      ∀ table ∈ rd.fdbTables agent plan.vlans, Walked.In table.1 table.2 log

/-- The budget was truncated exactly if there are more rows than the cap. -/
theorem ReadEnds.truncated_iff {d : ℚ} {plan : Plan} {s : ReadState} {log : Log (net Outcome)}
    (h : ReadEnds rd agent d plan s log) : s.budget.truncated = true ↔
      macRowCap < agent.rowsOf (rd.fdbTables agent plan.vlans) := by
  have hoffered := h.orderly.truncated_iff h.total
  constructor
  · exact fun hcut ↦ (hoffered.1 hcut).trans_le h.atMost
  · intro hmore
    by_contra hno
    have hall := (h.uncut (Bool.eq_false_of_not_eq_true hno)).1
    exact hno (hoffered.2 (hmore.trans_le hall))

/-- Without contexts. -/
theorem DefaultOrderly.readEnds {d : ℚ} {plan : Plan} {s₀ s : ReadState} {log : Log (net Outcome)}
    (h : DefaultOrderly rd agent d ⟨s₀, []⟩ plan ⟨s, log⟩)
    (htotal : s.budget.rowsLeft + rowLedger.settledIn log = macRowCap) (hvlans : plan.vlans = []) :
    ReadEnds rd agent d plan s log := by
  have hmost := h.atMost
  have huncut := h.uncut
  have hnone : rowsOffered agent ([] : Log (net Outcome)) = 0 := rfl
  rw [hnone, Nat.zero_add] at hmost huncut
  rw [← hvlans] at hmost huncut
  exact ⟨h.orderly, htotal, hmost, fun hno ↦ ⟨(huncut hno).1.ge, (huncut hno).2⟩⟩

/-! ### The contexts of VLANs, all of them -/

/-- The rows of the tables are those of the default context, and of each VLAN. -/
theorem rowsOf_fdbTables {vlans : List ℤ}
    (h : vlans ≠ [] → agent.rowsIn rd.access qFdbColumns = 0) :
    agent.rowsOf (rd.fdbTables agent vlans) = agent.rowsOf (rd.fdbTables agent []) +
      (vlans.map (rd.rowsOfVlan agent)).sum := by
  rcases eq_or_ne vlans [] with rfl | hne
  · rfl
  · rw [rowsOf_fdbTables_of_empty (h hne), rowsOf_fdbTables_of_empty (h hne)]
    rfl

theorem mem_fdbTables {vlans : List ℤ} {table : Access × Columns}
    (h : table ∈ rd.fdbTables agent vlans) : table ∈ rd.fdbTables agent [] ∨
      ∃ vid ∈ vlans, table = (rd.contextAuth vid, dFdbColumns) := by
  rw [MacRead.fdbTables] at h ⊢
  rcases List.mem_cons.1 h with rfl | h
  · exact .inl List.mem_cons_self
  · split at h
    case isFalse => exact absurd h List.not_mem_nil
    case isTrue hempty =>
      rw [if_pos hempty]
      rcases List.mem_cons.1 h with rfl | h
      · exact .inl (List.mem_cons_of_mem _ List.mem_cons_self)
      · obtain ⟨vid, hvid, rfl⟩ := List.mem_map.1 h
        exact .inr ⟨vid, hvid, rfl⟩

/-- With the contexts read. -/
theorem DefaultOrderly.readEnds_of_gather {sur : Surroundings} {now : ℚ} {rows : List Row}
    {advertised : Bool} {vlans : List ℤ} {s s' : ReadState} {log log' : Log (net Outcome)}
    (hread : (rd.read fuel).run sur.env (rd.start now) [] =
      some (.contexts rows advertised vlans, s, log))
    (h : DefaultOrderly rd agent (now + rd.opts.budgetS) ⟨rd.start now, []⟩
      (.contexts rows advertised vlans) ⟨s, log⟩)
    (hintime : ∀ log, sur.clock log < now + rd.opts.budgetS)
    (hgather : gather sur.env macContextConcurrency fuel (vlans.map (rd.one fuel)) s log =
      some (s', log'))
    (h' : Orderly rd agent (now + rd.opts.budgetS)
      (Plan.problems rd.opts.quick (.contexts rows advertised vlans)) ⟨s', log'⟩) :
    ReadEnds rd agent (now + rd.opts.budgetS) (.contexts rows advertised vlans) s' log' := by
  have hpool : rd.ContextsReach sur fuel vlans s log ⟨[], [], s', log'⟩ :=
    Pool.reaches_of_run hgather
  -- the rows of the contexts come on top of those of the default context
  have hbalances := (MacRead.ComesTo.contexts hread hpool).balances.total
  have htables : agent.rowsOf (rd.fdbTables agent vlans) = agent.rowsOf (rd.fdbTables agent []) +
      (vlans.map (rd.rowsOfVlan agent)).sum := rowsOf_fdbTables h.planned
  have hoffers : rowsOffered agent log' ≤
      rowsOffered agent log + (vlans.map (rd.rowsOfVlan agent)).sum ∧
        (rd.rowsMissed agent s'.report.vlans = rd.rowsMissed agent s.report.vlans →
          rowsOffered agent log + (vlans.map (rd.rowsOfVlan agent)).sum ≤ rowsOffered agent log') :=
    offered_of_gather hgather
  obtain ⟨hmost, hleast⟩ := hoffers
  have hnone : rowsOffered agent ([] : Log (net Outcome)) = 0 := rfl
  have hmost₀ := h.atMost
  rw [hnone, Nat.zero_add] at hmost₀
  refine ⟨h', hbalances, ?_, fun huncut ↦ ?_⟩
  · show rowsOffered agent log' ≤ agent.rowsOf (rd.fdbTables agent vlans)
    rw [htables]
    exact hmost.trans (Nat.add_le_add_right hmost₀ _)
  · -- the plan was made before anything was cut
    obtain ⟨toRead, overCap, hplanned⟩ := (defaultRead_of_run hread).planned _ _ _ rfl
    have huncut₀ : s.budget.truncated = false := (Bool.or_eq_false_iff.1 hplanned.goes).2
    obtain ⟨hoffered₀, hwalked₀⟩ := h.uncut huncut₀
    rw [hnone, Nat.zero_add] at hoffered₀
    have hdeadline : s.budget.deadline = now + rd.opts.budgetS := h.orderly.deadline
    obtain ⟨hskipped, hall⟩ := none_skipped (contextsBegin_of_run hread) hpool rfl
      (by rw [hdeadline]; exact hintime) huncut h'.aborted
    have hfailed : s.report.vlans.failed = [] := h.orderly.failed
    have hfailed' : s'.report.vlans.failed = [] := h'.failed
    have hmissed : rd.rowsMissed agent s'.report.vlans = rd.rowsMissed agent s.report.vlans := by
      rw [MacRead.rowsMissed, MacRead.rowsMissed, hskipped, hfailed, hfailed']
    refine ⟨?_, fun table htable ↦ ?_⟩
    · show agent.rowsOf (rd.fdbTables agent vlans) ≤ _
      rw [htables, ← hoffered₀]
      exact hleast hmissed
    · rcases mem_fdbTables htable with hdefault | ⟨vid, hvid, rfl⟩
      · exact (hwalked₀ table hdefault).mono (suffix_of_gather hgather)
      · refine h'.read vid ((hall vid hvid).resolve_right fun hno ↦ ?_)
        rw [hfailed'] at hno
        exact List.not_mem_nil hno

/-! ### A read is sure to end -/

/-- Nothing goes wrong with a read but that its rows are too many: the clock does not reach its
deadline, and every request is answered as the agent should. -/
structure Surroundings.Faultless (sur : Surroundings) (agent : Agent) (deadline : ℚ) : Prop where
  /-- There is time left. -/
  onTime : ∀ log, sur.clock log < deadline
  /-- Each request is answered at once. -/
  answers : ∀ log q, Conforms agent macColumns q (sur.reply log q)

/-- Surroundings without faults obey the rules. -/
theorem Surroundings.Faultless.obeys {sur : Surroundings} {d : ℚ} (h : sur.Faultless agent d)
    (alone : Prop) (problems : List String) :
    sur.env.Obeys (orderlyRules alone rd agent d problems) where
  answer := h.answers
  reading := by
    intro log p hdeadline
    refine Surroundings.reading_of_clock ?_
    rw [hdeadline]
    exact h.onTime log

/-- The rounds ahead of all walks there can be in a context. -/
def roundsIn (agent : Agent) (access : Access) : ℕ :=
  (readColumns.map fun columns ↦
    (MacRead.call columns access true macMaxRepetitions).start.ahead (agent access)).sum

/-- Fuel beyond the rounds of the agent is ample. -/
theorem ample_of_lt {access : Access} {b : ℕ} (h : roundsIn agent access < b) :
    Ample agent access b := fun _ hcolumns ↦
  (List.single_le_sum (fun _ _ ↦ Nat.zero_le _) _ (List.mem_map_of_mem hcolumns)).trans_lt h

/-- There is a bound for the walks of all contexts that are read. -/
theorem exists_ample (rd : MacRead) (agent : Agent) : ∃ b, Ample agent rd.access b ∧
    ∀ vid, readable vid = true → Ample agent (rd.contextAuth vid) b := by
  let vlans := (List.range 4095).map fun n : ℕ ↦ roundsIn agent (rd.contextAuth n)
  refine ⟨roundsIn agent rd.access + vlans.sum + 1, ample_of_lt (by omega), fun vid hvid ↦ ?_⟩
  obtain ⟨hlow, hhigh⟩ : 1 ≤ vid ∧ vid ≤ 4094 := by
    have hvlan := (Bool.and_eq_true_iff.1 hvid).1
    simpa [isVlan] using hvlan
  obtain ⟨n, rfl⟩ := Int.eq_ofNat_of_zero_le (by omega : 0 ≤ vid)
  have hmem : roundsIn agent (rd.contextAuth n) ∈ vlans :=
    List.mem_map.2 ⟨n, List.mem_range.2 (by omega), rfl⟩
  have hle : roundsIn agent (rd.contextAuth n) ≤ vlans.sum :=
    List.single_le_sum (fun _ _ ↦ Nat.zero_le _) _ hmem
  exact ample_of_lt (by omega)

/-- The contexts of a plan can be read, and are no more than the options allow. -/
theorem planned_vlans {sur : Surroundings} {now : ℚ} {rows : List Row} {advertised : Bool}
    {vlans : List ℤ} {s : ReadState} {log : Log (net Outcome)}
    (hread : (rd.read fuel).run sur.env (rd.start now) [] =
      some (.contexts rows advertised vlans, s, log)) :
    (∀ vid ∈ vlans, readable vid = true) ∧ vlans.length ≤ rd.opts.maxVlans := by
  obtain ⟨toRead, overCap, hplanned⟩ := (defaultRead_of_run hread).planned _ _ _ rfl
  obtain ⟨-, hmem⟩ := planContextVlans_spec hplanned.plan
  obtain ⟨numbers, -, heq⟩ := Option.map_eq_some_iff.1 hplanned.plan
  obtain ⟨rfl, -⟩ := Prod.mk.inj heq
  rw [hplanned.vlans]
  split
  · exact ⟨fun vid hvid ↦ absurd hvid List.not_mem_nil, Nat.zero_le _⟩
  · exact ⟨fun vid hvid ↦ ((hmem vid).1 (List.mem_append_left _ hvid)).1, List.length_take_le _ _⟩

/-! ### The report -/

/-- The plan leaves something out: it could not be made, or a quick read leaves contexts alone. -/
def Plan.curtailed (quick : Bool) : Plan → Bool
  | rows _ => false
  | contexts .. => quick
  | raised _ => true

/-- The report says complete if nothing was cut off and there is no problem. -/
theorem complete_finish_iff {s : ReadState} {rows : List Row} {started now : ℚ} :
    (s.finish rows started now).2.complete = true ↔
      s.budget.truncated = false ∧ s.problems = [] := by
  refine ⟨no_problem_of_complete, fun ⟨huncut, hproblems⟩ ↦ ?_⟩
  show s.allProblems.isEmpty = true
  rw [ReadState.allProblems, huncut, if_neg Bool.false_ne_true, hproblems]
  rfl

/-- Contexts that neither were given up nor failed are no problem. -/
theorem contextProblems_eq_nil {reads : ContextReads} (haborted : reads.aborted = [])
    (hfailures : reads.failures = Dict.empty) : rd.contextProblems reads = [] := by
  rw [MacRead.contextProblems, haborted, hfailures]
  rfl

/-- A read of an agent without a fault, with fuel for the walks and the contexts there can be. -/
theorem readEnds_of_faultless {b : ℕ} (hdefault : Ample agent rd.access b)
    (hcontexts : ∀ vid, readable vid = true → Ample agent (rd.contextAuth vid) b)
    (hfuel : b + rd.opts.maxVlans * (3 * b + 1) < fuel) {sur : Surroundings} {now : ℚ}
    (hsur : sur.Faultless agent (now + rd.opts.budgetS)) :
    ∃ plan s₀ log₀ rows report s log,
      (rd.read fuel).run sur.env (rd.start now) [] = some (plan, s₀, log₀) ∧
        rd.run sur fuel (rd.start now) = some ((rows, report), log) ∧
          ReadEnds rd agent (now + rd.opts.budgetS) plan s log ∧
            report.truncated = s.budget.truncated ∧ (report.complete = true ↔
              s.budget.truncated = false ∧ plan.curtailed rd.opts.quick = false) := by
  have hbegin : Orderly rd agent (now + rd.opts.budgetS) [] ⟨rd.start now, []⟩ :=
    ⟨⟨rfl, rfl, rfl, rfl, rfl, rfl⟩, fun o ho ↦ absurd ho List.not_mem_nil, nofun,
      fun vid hvid ↦ absurd hvid List.not_mem_nil⟩
  -- the default context first, with a bound on its requests
  obtain ⟨plan, s₀, log₀, hread, hend⟩ := Coro.run_total_of_wp (hsur.obeys True []) not_false
    (MacRead.orderlyRead_wp hdefault (by omega : b ≤ fuel) hbegin)
  have htotal := MacRead.rows_left_of_read hread
  rcases plan with rows | ⟨rows, advertised, vlans⟩ | error
  · have hproblems : s₀.problems = [] := hend.orderly.problems
    refine ⟨.rows rows, s₀, log₀, _, _, s₀, log₀, hread, Option.bind_eq_some_iff.2 ⟨_, hread, rfl⟩,
      hend.readEnds htotal rfl, rfl, complete_finish_iff.trans ?_⟩
    exact and_congr_right fun _ ↦ iff_of_true hproblems rfl
  -- contexts are planned: each task has an account, so the pool of them ends
  · obtain ⟨hreadable, hlength⟩ := planned_vlans hread
    have htasks : ∀ t ∈ vlans.map (rd.one fuel), t.EndsIn (orderlyRules False rd agent
        (now + rd.opts.budgetS) (Plan.problems rd.opts.quick (.contexts rows advertised vlans)))
          (3 * b) := by
      intro t ht
      obtain ⟨vid, hvid, rfl⟩ := List.mem_map.1 ht
      exact MacRead.orderlyOne_endsIn hdefault (hcontexts vid (hreadable vid hvid)) (by omega)
    have hroom : (vlans.map (rd.one fuel)).length * (3 * b + 1) < fuel := by
      rw [List.length_map]
      have hle := Nat.mul_le_mul_right (3 * b + 1) hlength
      omega
    obtain ⟨s', log', hgather, horderly⟩ := gather_total
      (hsur.obeys False (Plan.problems rd.opts.quick (.contexts rows advertised vlans))) not_false
      (by decide : 0 < macContextConcurrency) hend.orderly htasks hroom
    -- no context has failed, so the problems are those of the plan
    have hfinal : (rd.afterContexts rows advertised s').2.problems =
        Plan.problems rd.opts.quick (.contexts rows advertised vlans) := by
      show s'.problems ++ rd.contextProblems s'.contexts = _
      rw [contextProblems_eq_nil horderly.aborted horderly.failures, List.append_nil]
      exact horderly.problems
    refine ⟨.contexts rows advertised vlans, s₀, log₀, _, _, s', log', hread,
      Option.bind_eq_some_iff.2 ⟨_, hread, Option.bind_eq_some_iff.2 ⟨_, hgather, rfl⟩⟩,
      hend.readEnds_of_gather hread hsur.onTime hgather horderly, rfl, complete_finish_iff.trans ?_⟩
    have hiff : (rd.afterContexts rows advertised s').2.problems = [] ↔
        (Plan.contexts rows advertised vlans).curtailed rd.opts.quick = false := by
      rw [hfinal, Plan.problems, Plan.curtailed]
      cases rd.opts.quick with
      | true => exact iff_of_false (List.cons_ne_nil _ _) Bool.noConfusion
      | false => exact iff_of_true rfl rfl
    exact and_congr_right fun _ ↦ hiff
  · refine ⟨.raised error, s₀, log₀, _, _, s₀, log₀, hread,
      Option.bind_eq_some_iff.2 ⟨_, hread, rfl⟩, hend.readEnds htotal rfl, rfl,
      complete_finish_iff.trans ?_⟩
    refine and_congr_right fun _ ↦ iff_of_false ?_ Bool.noConfusion
    exact List.append_ne_nil_of_right_ne_nil _ (List.cons_ne_nil _ _)

/-- A Q-BRIDGE table of `n` rows: a host is learned in each of `n` FDBs. -/
def Mib.learnedIn (n : ℕ) : Mib where
  entries := (List.range n).map fun fdb ↦ (dot1qTpFdbPort ++ [fdb, 0, 17, 34, 51, 68, 85], "1")
  sorted := by
    rw [List.map_map, List.pairwise_map]
    refine List.pairwise_lt_range.imp fun h ↦ ?_
    show dot1qTpFdbPort ++ _ < dot1qTpFdbPort ++ _
    exact List.append_left_lt (List.cons_lt_cons_iff.2 (.inl h))

/-- The agent of the example has as many rows as were learnt. -/
theorem rowsIn_learnedIn (n : ℕ) (access : Access) :
    Agent.rowsIn (fun _ ↦ .learnedIn n) access qFdbColumns = n := by
  have hport : ((Mib.learnedIn n).entries.filterMap fun e ↦ indexIn dot1qTpFdbPort e.1) =
      (List.range n).map fun fdb ↦ [fdb, 0, 17, 34, 51, 68, 85] := by
    rw [Mib.learnedIn, List.filterMap_map, ← List.filterMap_eq_map]
    exact List.filterMap_congr fun fdb _ ↦ indexIn_eq_some.2 ⟨rfl, List.cons_ne_nil _ _⟩
  have hstatus :
      ((Mib.learnedIn n).entries.filterMap fun e ↦ indexIn dot1qTpFdbStatus e.1) = [] := by
    rw [Mib.learnedIn, List.filterMap_map, List.filterMap_eq_nil_iff]
    intro fdb _
    simp [indexIn, dot1qTpFdbPort, dot1qTpFdbStatus]
  have hnodup : ((List.range n).map fun fdb ↦ [fdb, 0, 17, 34, 51, 68, 85]).Nodup :=
    List.nodup_range.map fun _ _ h ↦ (List.cons.inj h).1
  show (Mib.indexes _ [dot1qTpFdbPort, dot1qTpFdbStatus]).length = n
  rw [Mib.indexes, List.flatMap_cons, List.flatMap_cons, List.flatMap_nil, hport, hstatus,
    List.append_nil, List.append_nil, hnodup.dedup, List.length_map, List.length_range]

theorem not_empty_learnedIn {n : ℕ} (h : 0 < n) : ¬ ((Mib.learnedIn n).Empty dot1qTpFdbPort ∧
    (Mib.learnedIn n).Empty dot1qTpFdbStatus) := by
  rintro ⟨hport, -⟩
  have hmem : (dot1qTpFdbPort ++ [0, 0, 17, 34, 51, 68, 85], "1") ∈ (Mib.learnedIn n).entries :=
    List.mem_map.2 ⟨0, List.mem_range.2 h, rfl⟩
  have hcell := Mib.cell_eq_some.2 ⟨List.cons_ne_nil _ _, Mib.mem_iff.1 hmem⟩
  exact Option.some_ne_none _ (hcell.symm.trans (hport _))

/-- The capped walks of a read admit `MAC_ROW_CAP` rows at most, and what is left of the allowance
is always the cap less the rows admitted, whatever is answered and in whatever order the contexts go
on. Where the agent has no fault and the clock does not reach the deadline the read ends; it is
truncated exactly if its tables have more rows than the cap; it is complete if it is not, and the
plan leaves nothing out; and then every table has been walked whole.

The allowance is an invariant of a pool of tasks, for any of their orders: what is left, what the
marks in the log account for, and what the walks under way have in hand make up the cap. -/
theorem rows_capped (rd : MacRead) (now : ℚ) :
    (∀ (sur : Surroundings) (fuel : ℕ) (pool : Pool (net Outcome) ReadState),
      rd.ComesTo sur fuel now pool → rowsAdmitted pool ≤ macRowCap ∧
        (pool.st.budget.rowsLeft : ℤ) = macRowCap - rowsAdmitted pool) ∧
    ∀ agent : Agent, ∃ enough, ∀ fuel ≥ enough, ∀ sur : Surroundings,
      sur.Faultless agent (now + rd.opts.budgetS) → ∃ plan s log₀ rows report log,
        (rd.read fuel).run sur.env (rd.start now) [] = some (plan, s, log₀) ∧
        rd.run sur fuel (rd.start now) = some ((rows, report), log) ∧
        (report.truncated = true ↔
          macRowCap < agent.rowsOf (rd.fdbTables agent plan.vlans)) ∧
        (report.complete = true ↔
          report.truncated = false ∧ plan.curtailed rd.opts.quick = false) ∧
        (report.truncated = false → ∀ table ∈ rd.fdbTables agent plan.vlans,
          ∃ walked, .marked ⟨table.1, table.2, walked⟩ ∈ log ∧ walked.complete = true ∧
            ∀ key oid, table.2.get? key = some oid → ∀ index,
              cellOf walked.rows index key = (agent table.1).cell oid index) := by
  refine ⟨fun sur fuel pool ↦ MacRead.ComesTo.rows_left_eq, fun agent ↦ ?_⟩
  obtain ⟨b, hdefault, hcontexts⟩ := exists_ample rd agent
  refine ⟨b + rd.opts.maxVlans * (3 * b + 1) + 1, fun fuel hfuel sur hsur ↦ ?_⟩
  obtain ⟨plan, s₀, log₀, rows, report, s, log, hread, hrun, hends, htruncated, hcomplete⟩ :=
    readEnds_of_faultless hdefault hcontexts hfuel hsur
  refine ⟨plan, s₀, log₀, rows, report, log, hread, hrun, ?_, ?_, fun huncut table htable ↦ ?_⟩
  · rw [htruncated]
    exact hends.truncated_iff
  · rw [htruncated]
    exact hcomplete
  · rw [htruncated] at huncut
    obtain ⟨walked, hwalked⟩ := (hends.uncut huncut).2 table htable
    obtain ⟨hsound, hend⟩ := hends.orderly.walks _ hwalked
    have hwhole : walked.complete = true :=
      hend.resolve_right fun hcut ↦ Bool.false_ne_true (huncut.symm.trans hcut.2)
    exact ⟨walked, hwalked, hwhole, fun key oid hkey index ↦ Option.ext fun text ↦
      ⟨hsound.cell hkey, hsound.cell_of_complete hwhole hkey⟩⟩

/-- All of the allowance is left when a read begins. A table of as many rows as the cap is read
whole and reported complete, and one with a row more is cut. -/
theorem rows_capped_boundary :
    let rd : MacRead :=
      { version := .v2c, community := "public", opts := ⟨.auto, false, 120, 128, []⟩
        ifaces := ⟨.empty, [], []⟩ }
    let sur : ℕ → Surroundings := fun n ↦
      { clock := fun _ ↦ 0
        reply := fun _ q ↦ Agent.serve (fun _ ↦ .learnedIn n) q
        pick := fun _ ↦ 0 }
    let begun : Pool (net Outcome) ReadState :=
        ⟨[rd.read 1 >>= fun _ ↦ pure ()], [], rd.start 0, []⟩
    (begun.st.budget.rowsLeft : ℤ) = macRowCap - rowsAdmitted begun ∧
    (∃ fuel rows report log, rd.run (sur macRowCap) fuel (rd.start 0) = some ((rows, report), log) ∧
      report.truncated = false ∧ report.complete = true) ∧
    ∃ fuel rows report log,
      rd.run (sur (macRowCap + 1)) fuel (rd.start 0) = some ((rows, report), log) ∧
        report.truncated = true ∧ report.complete = false := by
  intro rd sur begun
  have hsur : ∀ n, (sur n).Faultless (fun _ ↦ .learnedIn n) (0 + rd.opts.budgetS) := by
    refine fun n ↦ ⟨fun _ ↦ ?_, fun log q ↦ Agent.serve_conforms ..⟩
    show (0 : ℚ) < 0 + (120 : ℤ)
    norm_num
  have hrows : ∀ n, n ≠ 0 → ∀ vlans,
      Agent.rowsOf (fun _ ↦ .learnedIn n) (rd.fdbTables (fun _ ↦ .learnedIn n) vlans) = n := by
    intro n hn vlans
    rw [rowsOf_fdbTables_of_rows (by rwa [rowsIn_learnedIn]), rowsIn_learnedIn]
  obtain ⟨hmoments, hread⟩ := rows_capped rd 0
  refine ⟨(hmoments (sur 0) 1 begun (.default .refl)).2, ?_, ?_⟩
  · obtain ⟨enough, hread⟩ := hread fun _ ↦ .learnedIn macRowCap
    -- as there is a row, and they fit, the plan is made
    obtain ⟨enough', hplan⟩ := Surroundings.FaultFree.read rd (fun _ ↦ .learnedIn macRowCap) 0
      (not_empty_learnedIn (by decide)) (rowsIn_learnedIn macRowCap rd.access).le
    obtain ⟨plan, s, log₀, rows, report, log, hdefault, hrun, htruncated, hcomplete, -⟩ :=
      hread (max enough enough') (le_max_left _ _) (sur macRowCap) (hsur macRowCap)
    obtain ⟨planned, s', log', hdefault', -, -⟩ := hplan (max enough enough') (le_max_right _ _)
      (sur macRowCap) ⟨(hsur macRowCap).onTime, fun log q ↦ .inl ((hsur macRowCap).answers log q)⟩
    obtain rfl : plan = .rows planned :=
      congrArg Prod.fst (Option.some.inj (hdefault.symm.trans hdefault'))
    rw [hrows macRowCap (by decide)] at htruncated
    have huncut : report.truncated = false :=
      eq_false_of_ne_true fun hcut ↦ lt_irrefl _ (htruncated.1 hcut)
    exact ⟨_, rows, report, log, hrun, huncut, hcomplete.2 ⟨huncut, rfl⟩⟩
  · obtain ⟨enough, hread⟩ := hread fun _ ↦ .learnedIn (macRowCap + 1)
    obtain ⟨plan, s, log₀, rows, report, log, -, hrun, htruncated, hcomplete, -⟩ :=
      hread enough le_rfl (sur (macRowCap + 1)) (hsur (macRowCap + 1))
    rw [hrows (macRowCap + 1) (by decide)] at htruncated
    have hcut : report.truncated = true := htruncated.2 (Nat.lt_succ_self _)
    refine ⟨_, rows, report, log, hrun, hcut, eq_false_of_ne_true fun h ↦ ?_⟩
    exact Bool.noConfusion (hcut.symm.trans (hcomplete.1 h).1)

end Snmp
