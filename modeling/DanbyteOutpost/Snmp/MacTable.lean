import DanbyteOutpost.Snmp.RowForm
import DanbyteOutpost.Snmp.WalkTable
import DanbyteOutpost.Snmp.WholeTables

/-!
# A read that nothing goes wrong with

Of an agent with a Q-BRIDGE table that answers every request in time, a MAC read returns the hosts
the table holds, one row each. The read is followed walk by walk: each is complete, so what is made
of it is what the agent's tables say.

## The proof

`Calm` says of a state that the budget is not exhausted, no walk has halted the read and nothing
is noted. Under the rules of a read without faults, every method keeps it, and its result is told
by the agent's tables instead of the rows of its walks (`calmNamedVlans_wp`,
`calmQbridgeVlans_wp`, `calmLearned_wp`). There must be enough fuel and room for the rows
(`Fuelled`, `RowsFit`), and how much is enough depends on the agent alone.

`qbridge_read_hosts` then compares the rows with `MacRead.Host`, both ways.
-/

namespace Snmp

open Coop PyText

/-! ### Rules of a read without faults -/

/-- The read goes on as if nothing had happened. -/
structure Calm (d : ℚ) (s : ReadState) : Prop where
  /-- The deadline is not moved. -/
  deadline : s.budget.deadline = d
  /-- The budget has held. -/
  truncated : s.budget.truncated = false
  /-- The agent goes on answering. -/
  halted : s.halted = false
  /-- There is nothing to complain of. -/
  problems : s.problems = []

/-- What else the state keeps does not matter. -/
theorem Calm.frame {d : ℚ} {s s' : ReadState} (h : Calm d s) (hbudget : s'.budget = s.budget)
    (hhalted : s'.halted = s.halted) (hproblems : s'.problems = s.problems) : Calm d s' where
  deadline := hbudget ▸ h.deadline
  truncated := hbudget ▸ h.truncated
  halted := hhalted ▸ h.halted
  problems := hproblems ▸ h.problems

theorem Calm.stopped {d : ℚ} {s : ReadState} (h : Calm d s) : s.stopped = false := by
  rw [ReadState.stopped, h.halted, h.truncated]
  rfl

/-- The rules of a read whose requests are answered in time, at the second attempt at last. -/
def calmRules (agent : Agent) (d : ℚ) : Rules (net Outcome) ReadState where
  answer := fun log q r ↦
    Conforms agent macColumns q r ∨ Reply.saysTimeout r = true ∧ timeouts log = 0
  reading := fun _ p yes ↦ Probe.deadline p = d → yes = false
  inv := fun w ↦ w.st.budget.deadline = d
  alone := True
  mayStop := False

/-- The rows a read takes from an agent leave its row cap room. -/
def RowsFit (m : Mib) : Prop := (m.indexes [dot1qTpFdbPort, dot1qTpFdbStatus]).length ≤ macRowCap

/-- There is fuel for a walk of the columns. -/
def Fuelled (m : Mib) (rd : MacRead) (columns : Columns) (fuel : ℕ) : Prop :=
  (MacRead.call columns rd.access true macMaxRepetitions).start.ahead m < fuel

section Calm

variable {rd : MacRead} {agent : Agent} {d : ℚ} {fuel : ℕ} {w : World (net Outcome) ReadState}
  {columns : Columns} {capRows : Bool}

/-- A walk keeps a read calm: it takes from the budget, which has room for all that the agent
keeps. -/
theorem walkKeeps_calmRules : WalkKeeps (calmRules agent d)
    (MacRead.call columns rd.access capRows macMaxRepetitions) where
  onTime := fun _ _ _ _ h ↦ h
  late := by
    rintro ref ⟨⟩ s log h
    exact h
  answered := fun _ _ _ _ h _ _ ↦ h
  expired := by
    rintro ref ⟨⟩ s log q h -
    exact h
  row := by
    intro ref href s log h
    obtain rfl := Option.some.inj (WalkCall.budget_of_cap href)
    exact h
  full := by
    intro ref href s log h
    obtain rfl := Option.some.inj (WalkCall.budget_of_cap href)
    exact h

theorem honest_calmRules (hcolumns : columns.items.map Prod.snd ⊆ macColumns) :
    Honest (calmRules agent d) agent
      (MacRead.call columns rd.access capRows macMaxRepetitions) := by
  intro log q r hanswer _
  rcases hanswer with hconforms | ⟨htimeout, -⟩
  · exact .inl (hconforms.anti hcolumns)
  · cases r with
    | timedOut => cases htimeout
    | raised text => cases htimeout
    | response indication status statusText index binds =>
      cases indication with
      | none => cases htimeout
      | some e => exact .inr (.indication ..)

theorem not_mishap_calmRules (hcolumns : columns.items.map Prod.snd ⊆ macColumns) :
    ¬ Mishap (calmRules agent d) agent
      (MacRead.call columns rd.access capRows macMaxRepetitions) := by
  rintro (⟨ref, ⟨⟩, w, hinv, hlate⟩ | ⟨log, q, r, hanswer, -, hfault, hretry⟩)
  · exact Bool.false_ne_true (hlate hinv).symm
  · rcases hanswer with hconforms | ⟨htimeout, hfirst⟩
    · exact hfault (hconforms.anti hcolumns)
    · have hone : macRetries.toNat ≤ timeouts log := hretry htimeout
      have : macRetries.toNat = 1 := rfl
      omega

/-- A walk is complete; one that does not count its rows leaves the state alone. -/
theorem calmWalk_wp (hcolumns : columns.items.map Prod.snd ⊆ macColumns)
    (hfuel : Fuelled (agent rd.access) rd columns fuel) (h : Calm d w.st)
    (hroomy : capRows = true → ((agent rd.access).indexes (columns.items.map Prod.snd)).length ≤
      w.st.budget.rowsLeft) {what : String} :
    (rd.walkDefault fuel what columns capRows macMaxRepetitions).wp (calmRules agent d)
      (fun out w' ↦ out.complete = true ∧ Outcome.Sound agent ⟨rd.access, columns, out⟩ ∧
        ∃ left, w'.st = { w.st with budget := { w.st.budget with rowsLeft := left } } ∧
          (capRows = false → left = w.st.budget.rowsLeft)) w := by
  have hwalk : (walkColumns (MacRead.call columns rd.access capRows macMaxRepetitions) fuel).wp
      (calmRules agent d) (WalkEnd _ agent _ True w.st) w :=
    walkColumns_wp walkKeeps_calmRules (fun _ ↦ honest_calmRules hcolumns) h.deadline
      (.inr ⟨trivial, hfuel⟩)
  refine Coro.wp_bind.2 (Coro.wp_bind.2 (Coro.wp_mono hwalk fun out w' _ hend ↦ ?_))
  have hpart := hend.part trivial
  have hcomplete : out.complete = true := by
    by_contra hno
    rcases hend.fault trivial trivial (Bool.eq_false_of_not_eq_true hno) with
      hmishap | ⟨s, hcharged, hspent⟩
    · exact not_mishap_calmRules hcolumns hmishap
    · refine not_spent (fun ref href ↦ ?_) hpart hcharged hspent
      obtain rfl := Option.some.inj (WalkCall.budget_of_cap href)
      exact hroomy (by cases capRows with | true => rfl | false => cases href)
  have hstate : ∃ left, w'.st = { w.st with budget := { w.st.budget with rowsLeft := left } } ∧
      (capRows = false → left = w.st.budget.rowsLeft) := by
    have hcharged := hend.charged trivial trivial hcomplete
    cases capRows with
    | false => exact ⟨_, hcharged.alone rfl, fun _ ↦ rfl⟩
    | true => exact ⟨_, hcharged.only budgetRef rfl, nofun⟩
  show Coro.wp _ (if out.complete then _ else _) _ _
  rw [if_pos hcomplete]
  exact ⟨hcomplete, ⟨⟨hpart.cell, hpart.row⟩, hend.whole trivial⟩, hstate⟩

/-- A lookup walk leaves the state alone. -/
theorem calmLookup_wp (hcolumns : columns.items.map Prod.snd ⊆ macColumns)
    (hfuel : Fuelled (agent rd.access) rd columns fuel) (h : Calm d w.st) {what : String} :
    (rd.walkDefault fuel what columns false macMaxRepetitions).wp (calmRules agent d)
      (fun out w' ↦ out.complete = true ∧ Outcome.Sound agent ⟨rd.access, columns, out⟩ ∧
        w'.st = w.st) w := by
  have hroomy : false = true → ((agent rd.access).indexes (columns.items.map Prod.snd)).length ≤
      w.st.budget.rowsLeft := nofun
  refine Coro.wp_mono (calmWalk_wp hcolumns hfuel h hroomy)
    fun out w' _ ⟨hcomplete, hsound, left, hst, hleft⟩ ↦ ⟨hcomplete, hsound, ?_⟩
  rw [hst, hleft rfl]

theorem calmCanWalk_wp (h : Calm d w.st) :
    MacRead.canWalk.wp (calmRules agent d) (fun yes w' ↦ yes = true ∧ w'.st = w.st) w := by
  refine Coro.wp_bind.2 (Coro.wp_get.2 ?_)
  rw [if_neg (by rw [h.halted]; exact Bool.false_ne_true)]
  refine Coro.wp_bind.2 (Coro.wp_poll.2 fun late hlate ↦ ⟨?_, rfl⟩)
  rw [hlate h.deadline]
  rfl

/-- The VLANs of `_qbridge_vlans` are those the agent names. -/
theorem calmNamedVlans_wp (hfuel : Fuelled (agent rd.access) rd nameColumns fuel)
    (h : Calm d w.st) :
    (rd.namedVlans fuel).wp (calmRules agent d) (fun vids w' ↦
      (∀ vid, vid ≠ 0 → (vid ∈ vids ↔ rd.Names (agent rd.access) vid)) ∧ w'.st = w.st) w := by
  refine Coro.wp_bind.2 (Coro.wp_mono (calmCanWalk_wp h) fun yes w₁ _ ⟨hyes, hst₁⟩ ↦ ?_)
  rw [if_pos hyes]
  refine Coro.wp_bind.2 (Coro.wp_mono (calmLookup_wp (by decide) hfuel (hst₁ ▸ h))
    fun names w₂ _ ⟨hcomplete, hsound, hst₂⟩ ↦ ⟨fun vid hne ↦ ?_, hst₂.trans hst₁⟩)
  have hindex : ∀ i : ℕ, [i] ∈ names.rows.keys ↔
      ∃ text, (agent rd.access).cell dot1qVlanStaticName [i] = some text := by
    intro i
    constructor
    · have hname : nameColumns = Dict.ofList [("name", dot1qVlanStaticName)] := rfl
      exact fun hi ↦ hsound.cell_of_mem hname hi
    · rintro ⟨text, hcell⟩
      have hread :=
        hsound.cell_of_complete hcomplete (show nameColumns.get? "name" = _ from rfl) hcell
      exact mem_keys_of_cellOf (hread ▸ Option.some_ne_none text)
  rw [List.mem_union_iff, MacRead.Names]
  refine or_congr_right ?_
  rw [List.mem_filter, List.mem_filterMap, decide_eq_true_eq]
  constructor
  · rintro ⟨⟨index, hmem, heq⟩, -⟩
    split at heq
    case h_1 i =>
      obtain ⟨text, hcell⟩ := (hindex i).1 hmem
      exact ⟨i, text, (Option.some.inj heq).symm, hcell⟩
    case h_2 => cases heq
  · rintro ⟨i, text, rfl, hcell⟩
    exact ⟨⟨[i], (hindex i).2 ⟨text, hcell⟩, rfl⟩, hne⟩

/-- The VLANs of entries are those the agent's tables give their FDB ids. -/
theorem calmQbridgeVlans_wp (hfuel : Fuelled (agent rd.access) rd nameColumns fuel)
    (h : Calm d w.st) {f v : Walked String}
    (hsound : Outcome.Sound agent ⟨rd.access, vlanFdbColumns, v⟩) (hcomplete : v.complete = true) :
    (rd.qbridgeVlans fuel (parseFdbTable true f.rows) (column v.rows "fdb") v.complete).wp
      (calmRules agent d) (fun entries w' ↦ ∃ named, rd.NamedBy (agent rd.access) named ∧
        entries = MacRead.entriesOf true ⟨rd.access, qFdbColumns, f⟩ (fun entry ↦
          entry.fdbId.bind (mapFdbVlans ((parseFdbTable true f.rows).filterMap Entry.fdbId)
            (column v.rows "fdb") named).1) ∧ Calm d w'.st ∧ w'.st.stack = w.st.stack) w := by
  have hempty : (column v.rows "fdb").items = [] ↔ (agent rd.access).Empty dot1qVlanFdbId :=
    hsound.items_column_eq_nil hcomplete rfl
  have hnamed : (if (column v.rows "fdb").items.isEmpty && v.complete then
        some <$> rd.namedVlans fuel else pure none : Reader (Option (List ℤ))).wp
          (calmRules agent d)
      (fun named w' ↦ rd.NamedBy (agent rd.access) named ∧ w'.st = w.st) w := by
    rw [hcomplete, Bool.and_true]
    split
    case isTrue hnil =>
      refine Coro.wp_bind.2 (Coro.wp_mono (calmNamedVlans_wp hfuel h)
        fun vids w' _ ⟨hvids, hst⟩ ↦ ⟨⟨?_, ?_⟩, hst⟩)
      · rintro vids' ⟨⟩
        exact hvids
      · exact iff_of_true rfl (hempty.1 (List.isEmpty_iff.1 hnil))
    case isFalse hcons =>
      refine ⟨⟨nofun, iff_of_false Bool.false_ne_true fun hno ↦ hcons ?_⟩, rfl⟩
      exact List.isEmpty_iff.2 (hempty.2 hno)
  refine Coro.wp_bind.2 (Coro.wp_mono hnamed fun named w₁ _ ⟨hnamed, hst⟩ ↦ ?_)
  refine Coro.wp_bind.2 (Coro.wp_modify.2 ⟨named, hnamed, rfl, ?_, ?_⟩)
  · rw [hst]
    exact ⟨h.deadline, h.truncated, h.halted, h.problems⟩
  · rw [hst]

/-- The stack table is read as the agent has it. -/
theorem calmReadStack_wp (hfuel : Fuelled (agent rd.access) rd stackColumns fuel)
    (h : Calm d w.st) (hstack : w.st.stack = none) :
    (rd.readStack fuel).wp (calmRules agent d) (fun _ w' ↦ Calm d w'.st ∧
      ∃ ifStack : Dict Oid String, ifStack.get? = (agent rd.access).cell ifStackStatus ∧
        w'.st.stack = some (unitPorts rd.ifaces ifStack)) w := by
  refine Coro.wp_bind.2 (Coro.wp_get.2 ?_)
  rw [if_neg (by rw [hstack]; exact Bool.false_ne_true)]
  refine Coro.wp_bind.2 (Coro.wp_mono (calmCanWalk_wp h) fun yes w₁ _ ⟨hyes, hst₁⟩ ↦ ?_)
  rw [if_pos hyes]
  refine Coro.wp_bind.2 (Coro.wp_mono (calmLookup_wp (by decide) hfuel (hst₁ ▸ h))
    fun stack w₂ _ ⟨hcomplete, hsound, hst₂⟩ ↦ Coro.wp_modify.2 ?_)
  refine ⟨?_, column stack.rows "status", hsound.column_eq hcomplete rfl, rfl⟩
  rw [hst₂, hst₁]
  exact ⟨h.deadline, h.truncated, h.halted, h.problems⟩

/-- The rows of `_learned` are those of `learned_rows`, each on the port its interface stands on. -/
theorem calmLearned_wp (hfuel : Fuelled (agent rd.access) rd stackColumns fuel) (h : Calm d w.st)
    (hstack : w.st.stack = none) {entries : List Entry} {base : Dict Oid String} :
    (rd.learned fuel entries base).wp (calmRules agent d) (fun rows w' ↦ Calm d w'.st ∧
      ∀ vlan mac ifIndex, (vlan, mac, ifIndex) ∈ rows.map Row.key ↔
        ∃ row ∈ (learnedRows rd.ifaces entries base MacMeta.fresh.dropped).rows,
          row.vlan = vlan ∧ row.mac = mac ∧ rd.Folds (agent rd.access) row.ifIndex ifIndex) w := by
  refine Coro.wp_bind.2 (Coro.wp_get.2 (Coro.wp_bind.2 (Coro.wp_modify.2 ?_)))
  rw [learnedRows_rows rd.ifaces entries base MacMeta.fresh.dropped w.st.report.dropped]
  generalize learnedRows rd.ifaces entries base w.st.report.dropped = out
  split
  case isTrue hports =>
    refine ⟨⟨h.deadline, h.truncated, h.halted, h.problems⟩, fun vlan mac ifIndex ↦ ?_⟩
    rw [List.mem_map]
    refine exists_congr fun row ↦ and_congr_right fun hrow ↦ ?_
    have hno : rd.isLogical row.ifIndex = false :=
      (Bool.not_eq_true' _).mp (List.all_eq_true.1 hports row hrow)
    rw [folds_of_not_isLogical hno, Row.key, Prod.mk.injEq, Prod.mk.injEq, eq_comm (a := ifIndex)]
  case isFalse =>
    refine Coro.wp_bind.2 (Coro.wp_mono (calmReadStack_wp hfuel
      ⟨h.deadline, h.truncated, h.halted, h.problems⟩ hstack) fun _ w₁ _ hout ↦ ?_)
    obtain ⟨hcalm, ifStack, hifStack, hst⟩ := hout
    refine Coro.wp_bind.2 (Coro.wp_get.2 ?_)
    rw [hst]
    refine ⟨hcalm, fun vlan mac ifIndex ↦ ?_⟩
    rw [List.map_map, List.mem_map]
    refine exists_congr fun row ↦ and_congr_right fun _ ↦ ?_
    rw [← folds_iff hifStack, Function.comp_apply, Row.key, Prod.mk.injEq, Prod.mk.injEq]
    exact Iff.rfl

/-- A complete walk of a table with a row has a row. -/
theorem rows_ne_nil {f : Walked String} (hsound : Outcome.Sound agent ⟨rd.access, qFdbColumns, f⟩)
    (hcomplete : f.complete = true)
    (hfdb : ¬ ((agent rd.access).Empty dot1qTpFdbPort ∧ (agent rd.access).Empty dot1qTpFdbStatus)) :
    f.rows.items ≠ [] := by
  have hcolumn : ∀ key oid, qFdbColumns.get? key = some oid → f.rows.items = [] →
      (agent rd.access).Empty oid := by
    intro key oid hkey hnil index
    refine (hsound.cellOf_eq hcomplete hkey index).symm.trans ?_
    rw [cellOf]
    have hnone : f.rows.get? index = none := by
      rw [Dict.get?_eq_none_iff]
      intro hmem
      exact Dict.items_ne_nil_iff.2 ⟨index, hmem⟩ hnil
    rw [hnone]
    rfl
  intro hnil
  exact hfdb ⟨hcolumn "port" _ rfl hnil, hcolumn "status" _ rfl hnil⟩

/-- What a read of an agent with a Q-BRIDGE table returns: the hosts of the table. -/
theorem calmRead_wp (hfuel : ∀ columns ∈ [baseColumns, vlanFdbColumns, qFdbColumns, nameColumns,
      stackColumns], Fuelled (agent rd.access) rd columns fuel)
    (hfdb : ¬ ((agent rd.access).Empty dot1qTpFdbPort ∧ (agent rd.access).Empty dot1qTpFdbStatus))
    (hfit : RowsFit (agent rd.access)) (h : Calm d w.st) (hstack : w.st.stack = none)
    (hleft : w.st.budget.rowsLeft = macRowCap) :
    (rd.read fuel).wp (calmRules agent d) (fun plan w' ↦ Calm d w'.st ∧ ∃ rows, plan = .rows rows ∧
      ∀ vlan mac ifIndex, (vlan, mac, ifIndex) ∈ rows.map Row.key ↔
        rd.Host (agent rd.access) vlan mac ifIndex) w := by
  have hfuelBase := hfuel baseColumns (by simp)
  refine Coro.wp_bind.2 (Coro.wp_mono (calmLookup_wp (by decide) hfuelBase h)
    fun base w₁ _ ⟨hbase, hbaseSound, hst₁⟩ ↦ ?_)
  have h₁ : Calm d w₁.st := hst₁ ▸ h
  refine Coro.wp_bind.2 (Coro.wp_get.2 ?_)
  rw [if_neg (by rw [h₁.stopped]; exact Bool.false_ne_true)]
  refine Coro.wp_bind.2 (Coro.wp_modify.2 ?_)
  have hfuelVlan := hfuel vlanFdbColumns (by simp)
  have hbased : Calm d { w₁.st with defaultBase := !(column base.rows "if_index").items.isEmpty } :=
    h₁.frame rfl rfl rfl
  refine Coro.wp_bind.2 (Coro.wp_mono
    (calmLookup_wp (w := ⟨_, w₁.log⟩) (by decide) hfuelVlan hbased)
    fun v w₂ _ ⟨hv, hvSound, hst₂⟩ ↦ ?_)
  have h₂ : Calm d w₂.st := hst₂ ▸ h₁.frame rfl rfl rfl
  refine Coro.wp_bind.2 (Coro.wp_get.2 ?_)
  rw [if_neg (by rw [h₂.stopped]; exact Bool.false_ne_true)]
  have hroom : ((agent rd.access).indexes (qFdbColumns.items.map Prod.snd)).length ≤
      w₂.st.budget.rowsLeft := by
    rw [hst₂, hst₁]
    exact hleft ▸ hfit
  have hfuelFdb := hfuel qFdbColumns (by simp)
  refine Coro.wp_bind.2 (Coro.wp_mono (calmWalk_wp (by decide) hfuelFdb h₂ fun _ ↦ hroom)
    fun f w₃ _ ⟨hf, hfSound, left, hst₃, _⟩ ↦ ?_)
  have h₃ : Calm d w₃.st := hst₃ ▸ ⟨h₂.deadline, h₂.truncated, h₂.halted, h₂.problems⟩
  have hstack₃ : w₃.st.stack = none := by
    rw [hst₃, hst₂, hst₁]
    exact hstack
  rw [if_pos (by simpa using rows_ne_nil hfSound hf hfdb)]
  refine Coro.wp_bind.2 (Coro.wp_modify.2 ?_)
  have hfuelName := hfuel nameColumns (by simp)
  have hsourced : Calm d { w₃.st with report := { w₃.st.report with source := .qbridge } } :=
    h₃.frame rfl rfl rfl
  refine Coro.wp_bind.2 (Coro.wp_mono
    (calmQbridgeVlans_wp (w := ⟨_, w₃.log⟩) hfuelName hsourced hvSound hv)
    fun entries w₄ _ ⟨named, hnamed, hentries, h₄, hstack₄⟩ ↦ ?_)
  have hfuelStack := hfuel stackColumns (by simp)
  refine Coro.wp_bind.2 (Coro.wp_mono (calmLearned_wp hfuelStack h₄ (hstack₄.trans hstack₃))
    fun rows w₅ _ ⟨h₅, hrows⟩ ↦ ⟨h₅, rows, rfl, ?_⟩)
  -- the join of the walked tables is the join of the agent's
  have hfdbWalk : Outcome.Fdb ⟨rd.access, qFdbColumns, f⟩ agent := ⟨hfSound, hf, rfl⟩
  have hports : (column base.rows "if_index").get? =
      (agent rd.access).cell dot1dBasePortIfindex := hbaseSound.column_eq hbase rfl
  have hfdbIds : (column v.rows "fdb").get? = (agent rd.access).cell dot1qVlanFdbId :=
    hvSound.column_eq hv rfl
  intro vlan mac ifIndex
  rw [hrows, hentries]
  simp only [hfdbWalk.mem_learned_iff hports]
  have hvlans : ∀ {fid mac port}, (agent rd.access).Learned rd.ifaces.own fid mac port →
      ∀ vid, (mapFdbVlans ((parseFdbTable true f.rows).filterMap Entry.fdbId)
        (column v.rows "fdb") named).1 fid = some vid ↔ rd.FdbVlan (agent rd.access) fid vid :=
    fun hlearned vid ↦ hfdbWalk.mapFdbVlans_iff hfdbIds hnamed hlearned.hasFdb
  constructor
  · rintro ⟨row, ⟨fid, mac', port, resolved, hlearned, hresolves, rfl⟩, hvlan, rfl, hfolds⟩
    refine ⟨fid, port, resolved, hlearned, fun vid ↦ ?_, hresolves, hfolds⟩
    rw [← hvlan]
    exact hvlans hlearned vid
  · rintro ⟨fid, port, resolved, hlearned, hvlan, hresolves, hfolds⟩
    refine ⟨_, ⟨fid, mac, port, resolved, hlearned, hresolves, rfl⟩, ?_, rfl, hfolds⟩
    exact Option.ext fun vid ↦ (hvlans hlearned vid).trans (hvlan vid).symm

end Calm

/-! ### The whole read -/

/-- Nothing goes wrong with a read: the clock does not reach its deadline, and every request is
answered as the agent should, after one timeout at most. -/
structure Surroundings.FaultFree (sur : Surroundings) (agent : Agent) (deadline : ℚ) : Prop where
  /-- There is time left. -/
  onTime : ∀ log, sur.clock log < deadline
  /-- A request is answered, and one of them may have to be sent twice. -/
  answers : ∀ log q, Conforms agent macColumns q (sur.reply log q) ∨
    Reply.saysTimeout (sur.reply log q) = true ∧ timeouts log = 0

/-- Surroundings without faults obey the rules of a calm read. -/
theorem Surroundings.FaultFree.obeys {sur : Surroundings} {agent : Agent} {d : ℚ}
    (h : sur.FaultFree agent d) : sur.env.Obeys (calmRules agent d) where
  answer := h.answers
  reading := by
    intro log p hdeadline
    refine Surroundings.reading_of_clock ?_
    rw [hdeadline]
    exact h.onTime log

/-- A read of an agent with a Q-BRIDGE table that nothing goes wrong with ends with rows, one for
each of its hosts. -/
theorem Surroundings.FaultFree.read (rd : MacRead) (agent : Agent) (now : ℚ)
    (hfdb : ¬ ((agent rd.access).Empty dot1qTpFdbPort ∧ (agent rd.access).Empty dot1qTpFdbStatus))
    (hfit : RowsFit (agent rd.access)) :
    ∃ enough, ∀ fuel ≥ enough, ∀ sur : Surroundings,
      sur.FaultFree agent (now + rd.opts.budgetS) → ∃ rows s log,
        (rd.read fuel).run sur.env (rd.start now) [] = some (.rows rows, s, log) ∧
          Calm (now + rd.opts.budgetS) s ∧ ∀ vlan mac ifIndex,
            (vlan, mac, ifIndex) ∈ rows.map Row.key ↔
              rd.Host (agent rd.access) vlan mac ifIndex := by
  let columns := [baseColumns, vlanFdbColumns, qFdbColumns, nameColumns, stackColumns]
  let ahead : Columns → ℕ := fun columns ↦
    (MacRead.call columns rd.access true macMaxRepetitions).start.ahead (agent rd.access)
  refine ⟨(columns.map ahead).sum + 1, fun fuel hfuel sur hsur ↦ ?_⟩
  have hfuelled : ∀ c ∈ columns, Fuelled (agent rd.access) rd c fuel := by
    intro c hc
    have hle : ahead c ≤ (columns.map ahead).sum :=
      List.single_le_sum (fun _ _ ↦ Nat.zero_le _) _ (List.mem_map_of_mem hc)
    show ahead c < fuel
    omega
  have hcalm : Calm (now + rd.opts.budgetS) (rd.start now) := ⟨rfl, rfl, rfl, rfl⟩
  obtain ⟨plan, s, log, hread, hcalm', rows, rfl, hrows⟩ :=
    Coro.run_total_of_wp hsur.obeys not_false
      (calmRead_wp (w := ⟨rd.start now, []⟩) hfuelled hfdb hfit hcalm rfl rfl)
  exact ⟨rows, s, log, hread, hcalm', hrows⟩

end Snmp
