import DanbyteOutpost.Snmp.ForwardingSpec
import DanbyteOutpost.Snmp.MacRead
import DanbyteOutpost.Snmp.WalkSpec

/-!
# Where the rows of a read come from

The run lemma of a MAC read. Through every walk, however it ends, and through every interleaving of
the contexts of VLANs, a read keeps `ReadInv`: its walks are sound against the agent's tables, its
stack and its rows come from walks in the log (`Origin`), and a budget that is not truncated has met
no request too late (`Budgeted`). `run_origin` is what that says of the rows a read returns.

## Provenance

`Origin` goes back from a row to the entry of a walk: the row before it was folded, the table it
was learned from, the walks of base ports and of entries it was made of, the context they were
made in, and the VLANs it was given by. `HasOrigin` only mentions the log, and the log only grows,
so an origin is kept by whatever happens afterwards (`HasOrigin.mono`).

## The proof

There is one lemma for each method of `_MacTableRead`, under the rules that other tasks may do
anything that keeps the invariant (`MacRead.rules`). The walk is the only one that asks
(`walk_wp`); the others follow its text. `one_keeps` takes them to the pool of contexts, and
`run_inv` to the whole read.
-/

namespace Snmp

open Coop

/-- The columns a read may walk. -/
def macColumns : List Oid :=
  [baseColumns, vlanFdbColumns, qFdbColumns, dFdbColumns, nameColumns, stackColumns, vtpColumns,
    entLogicalColumns].flatMap fun columns ↦ columns.items.map Prod.snd

/-! ### Outcomes of walks -/

namespace Outcome

/-- The arguments of the walk, as far as they matter for its rows. -/
def call (o : Outcome) : WalkCall String ReadState := MacRead.call o.columns o.access false 0

/-- The rows are a part of the agent's columns, and all of them when the walk says so. -/
structure Sound (agent : Agent) (o : Outcome) : Prop where
  /-- Nothing in them is from elsewhere. -/
  part : PartOf (agent o.access) o.call o.walked.rows
  /-- A walk that calls itself complete has left nothing out. -/
  whole : o.walked.complete = true → Whole (agent o.access) o.call o.walked.rows

variable {agent : Agent} {o : Outcome} {key : String} {oid index : Oid} {text : String}

theorem Sound.cell (h : o.Sound agent) (hkey : o.columns.get? key = some oid)
    (hcell : cellOf o.walked.rows index key = some text) :
    (agent o.access).cell oid index = some text := by
  have hbase : o.call.base key = oid := by
    show (o.columns.get? key).getD [] = oid
    rw [hkey, Option.getD_some]
  exact hbase ▸ (h.part.cell hcell).2

/-- And of a table that was read to its end, the agent has no other. -/
theorem Sound.cell_of_complete (h : o.Sound agent) (hcomplete : o.walked.complete = true)
    (hkey : o.columns.get? key = some oid) (hcell : (agent o.access).cell oid index = some text) :
    cellOf o.walked.rows index key = some text := by
  have hbase : o.call.base key = oid := by
    show (o.columns.get? key).getD [] = oid
    rw [hkey, Option.getD_some]
  exact h.whole hcomplete (Dict.mem_keys_iff.2 ⟨oid, hkey⟩) (hbase.symm ▸ hcell)

/-- What a walk says of a column, the agent's table says. -/
theorem Sound.column (h : o.Sound agent) (hkey : o.columns.get? key = some oid)
    (hget : (column o.walked.rows key).get? index = some text) :
    (agent o.access).cell oid index = some text :=
  h.cell hkey ((get?_column ..).symm.trans hget)

theorem Sound.column_of_complete (h : o.Sound agent) (hcomplete : o.walked.complete = true)
    (hkey : o.columns.get? key = some oid) (hcell : (agent o.access).cell oid index = some text) :
    (Snmp.column o.walked.rows key).get? index = some text :=
  (get?_column ..).trans (h.cell_of_complete hcomplete hkey hcell)

/-- A row of a walk of one column has that column's cell. -/
theorem Sound.cell_of_mem (h : o.Sound agent) (hcolumns : o.columns = Dict.ofList [(key, oid)])
    (hindex : index ∈ o.walked.rows.keys) :
    ∃ text, (agent o.access).cell oid index = some text := by
  obtain ⟨row, hrow⟩ := Dict.mem_keys_iff.1 hindex
  obtain ⟨key', text, hget⟩ := h.part.row hrow
  have hcell := cellOf_eq_some.2 ⟨row, hrow, hget⟩
  obtain ⟨oid', hoid⟩ := Dict.mem_keys_iff.1 (h.part.cell hcell).1
  have hoid' : (Dict.ofList [(key, oid)]).get? key' = some oid' := hcolumns ▸ hoid
  have hnodup : ([(key, oid)].map Prod.fst).Nodup := List.nodup_singleton key
  obtain ⟨rfl, rfl⟩ := Prod.mk.inj (List.mem_singleton.1 ((Dict.get?_ofList_iff hnodup).1 hoid'))
  exact ⟨text, h.cell hoid hcell⟩

end Outcome

/-- The forwarding table a read takes its entries from. -/
def fdbColumns (qbridge : Bool) : Columns := if qbridge then qFdbColumns else dFdbColumns

namespace MacRead

variable (rd : MacRead) (log : Log (net Outcome))

/-! ### Provenance -/

/-- The stack is made of the rows of a walk of ifStackTable. -/
def StackFrom (stack : Dict String String) : Prop :=
  ∃ k : Outcome, .marked k ∈ log ∧ k.access = rd.access ∧ k.columns = stackColumns ∧
    stack = unitPorts rd.ifaces (column k.walked.rows "status")

/-- The walks of a context that rows are made of. -/
structure Walks (access : Access) (qbridge : Bool) (b f : Outcome) : Prop where
  /-- The walk of the bridge ports has ended. -/
  base : .marked b ∈ log
  /-- It was made in the context. -/
  baseAccess : b.access = access
  /-- It is of the bridge ports. -/
  baseColumns : b.columns = baseColumns
  /-- The walk of the forwarding table has ended. -/
  fdb : .marked f ∈ log
  /-- It was made in the same context. -/
  fdbAccess : f.access = access
  /-- It is of the table that knows VLANs, or of the other. -/
  fdbColumns : f.columns = fdbColumns qbridge

/-- The VLANs taken as named: where the walk of dot1qVlanFdbId ended empty, of PVIDs and of the rows
of a walk of dot1qVlanStaticName. -/
def NamedFrom (v : Outcome) (named : Option (List ℤ)) : Prop :=
  ∀ vids ∈ named, (column v.walked.rows "fdb").items = [] ∧ v.walked.complete = true ∧
    ∀ vid ∈ vids, vid ∈ rd.ifaces.pvids ∨ ∃ n : Outcome, .marked n ∈ log ∧
      n.access = rd.access ∧ n.columns = nameColumns ∧
        ∃ i : ℕ, vid = i ∧ i ≠ 0 ∧ [i] ∈ n.walked.rows.keys

/-- The VLANs of entries come from a walk of dot1qVlanFdbId that was not cut short for time. -/
def VlansFrom (f : Outcome) (vlan : Entry → Option ℤ) : Prop :=
  ∃ (v : Outcome) (named : Option (List ℤ)), .marked v ∈ log ∧ v.access = rd.access ∧
    v.columns = vlanFdbColumns ∧
    (v.walked.complete = true ∨
      v.walked.stats.timeout = false ∧ v.walked.stats.truncated = false) ∧
    rd.NamedFrom log v named ∧
    vlan = fun entry ↦ entry.fdbId.bind (mapFdbVlans
      ((parseFdbTable true f.walked.rows).filterMap Entry.fdbId) (column v.walked.rows "fdb")
      named).1

/-- The entries of a walk of a forwarding table, with their VLANs. -/
def entriesOf (qbridge : Bool) (f : Outcome) (vlan : Entry → Option ℤ) : List Entry :=
  (parseFdbTable qbridge f.walked.rows).map fun entry ↦ { entry with vlan := vlan entry }

/-- What `learned_rows` makes of the walks of a context. -/
def learnedFrom (qbridge : Bool) (b f : Outcome) (vlan : Entry → Option ℤ) : Learned :=
  learnedRows rd.ifaces (entriesOf qbridge f vlan) (column b.walked.rows "if_index")
    MacMeta.fresh.dropped

/-- The if_index of a row, folded onto its port or not. -/
def FoldsTo (ifIndex ifIndex' : String) : Prop :=
  ifIndex' = ifIndex ∨ ∃ stack, rd.StackFrom log stack ∧ stack.get? ifIndex = some ifIndex'

/-- Where a row comes from: `learned` is the row before its unit was folded onto a port and before
the default context was taken for VLAN 1. -/
structure Origin (row : Row) (access : Access) (qbridge : Bool) (b f : Outcome)
    (vlan : Entry → Option ℤ) (learned : Row) : Prop where
  /-- The walks it is made of. -/
  walks : Walks log access qbridge b f
  /-- It is one of the rows that are learned from them. -/
  mem : learned ∈ (rd.learnedFrom qbridge b f vlan).rows
  /-- Its interface is the one it was learned on, or the port under that. -/
  ifIndex : rd.FoldsTo log learned.ifIndex row.ifIndex
  /-- Nothing else has changed. -/
  same : row = { learned with ifIndex := row.ifIndex, vlan := row.vlan }
  /-- It is of the default context, or of the context of its own VLAN. -/
  context : access = rd.access ∨ ∃ vid, access = rd.contextAuth vid ∧ row.vlan = some vid
  /-- A row of dot1qTpFdbTable has the VLAN that the agent's own map gives its FDB id. -/
  vlans : qbridge = true → access = rd.access ∧ row.vlan = learned.vlan ∧
    rd.VlansFrom log f vlan

/-- The row comes from walks of the log. -/
def HasOrigin (row : Row) : Prop :=
  ∃ access qbridge b f vlan learned, rd.Origin log row access qbridge b f vlan learned

/-- A walk read the row's entry in a context: the default one, or that of the row's VLAN. -/
structure ReadIn (row : Row) (access : Access) (qbridge : Bool) (f : Outcome) : Prop where
  /-- The walk has ended. -/
  fdb : .marked f ∈ log
  /-- It was made in the context. -/
  fdbAccess : f.access = access
  /-- It is of a forwarding table. -/
  fdbColumns : f.columns = fdbColumns qbridge
  /-- The context is the default one, or that of the row's VLAN. -/
  context : access = rd.access ∨ ∃ vid, access = rd.contextAuth vid ∧ row.vlan = some vid
  /-- And it has an entry that is not left out, with the row's address, FDB id and port. -/
  entry : ∃ entry ∈ parseFdbTable qbridge f.walked.rows, entry.drop rd.ifaces.own = none ∧
    entry.mac = row.mac ∧ entry.fdbId = row.fdbId ∧ entry.bridgePort = some row.bridgePort

variable {rd log}

/-- A row is made of an entry that the filter leaves; the VLANs of the entries matter for the VLANs
of the rows alone. -/
theorem mem_learnedRows_entriesOf {ifaces : Ifaces} {qbridge : Bool} {f : Outcome}
    {vlan : Entry → Option ℤ} {base : Dict Oid String} {dropped : Dropped} {row : Row} :
    row ∈ (learnedRows ifaces (entriesOf qbridge f vlan) base dropped).rows ↔
      ∃ entry ∈ parseFdbTable qbridge f.walked.rows, entry.drop ifaces.own = none ∧
        ∃ port ifIndex, entry.bridgePort = some port ∧
          (mapBridgePorts ifaces (keptPorts ifaces (parseFdbTable qbridge f.walked.rows)) base).1
            port = some ifIndex ∧
          row = ⟨entry.mac, ifIndex, vlan entry, entry.fdbId, port, entry.status⟩ := by
  rw [mem_learnedRows, entriesOf, keptPorts_map_vlan]
  simp only [List.mem_map, Entry.row_eq_some]
  constructor
  · rintro ⟨_, ⟨entry, hentry, rfl⟩, hdrop, port, ifIndex, hport, hmapped, rfl⟩
    exact ⟨entry, hentry, (Entry.drop_vlan ..).symm.trans hdrop, port, ifIndex, hport, hmapped, rfl⟩
  · rintro ⟨entry, hentry, hdrop, port, ifIndex, hport, hmapped, rfl⟩
    exact ⟨_, ⟨entry, hentry, rfl⟩, (Entry.drop_vlan ..).trans hdrop, port, ifIndex, hport, hmapped,
      rfl⟩

/-- A row is learnt of an entry that stays, through the port it was learnt on. -/
theorem mem_learnedFrom {qbridge : Bool} {b f : Outcome} {vlan : Entry → Option ℤ} {row : Row} :
    row ∈ (rd.learnedFrom qbridge b f vlan).rows ↔
      ∃ entry ∈ parseFdbTable qbridge f.walked.rows, entry.drop rd.ifaces.own = none ∧
        ∃ port ifIndex, entry.bridgePort = some port ∧
          (mapBridgePorts rd.ifaces (keptPorts rd.ifaces (parseFdbTable qbridge f.walked.rows))
            (column b.walked.rows "if_index")).1 port = some ifIndex ∧
          row = ⟨entry.mac, ifIndex, vlan entry, entry.fdbId, port, entry.status⟩ :=
  mem_learnedRows_entriesOf

theorem Origin.readIn {row : Row} {access : Access} {qbridge : Bool} {b f : Outcome}
    {vlan : Entry → Option ℤ} {learned : Row}
    (h : rd.Origin log row access qbridge b f vlan learned) :
    rd.ReadIn log row access qbridge f := by
  obtain ⟨entry, hentry, hdrop, port, ifIndex, hport, -, rfl⟩ := mem_learnedFrom.1 h.mem
  refine ⟨h.walks.fdb, h.walks.fdbAccess, h.walks.fdbColumns, h.context, entry, hentry, hdrop, ?_⟩
  rw [h.same]
  exact ⟨rfl, rfl, hport⟩

/-- The origin of the stack table stays in the log. -/
theorem StackFrom.mono {log' : Log (net Outcome)} {stack : Dict String String}
    (h : rd.StackFrom log stack) (hlog : log ⊆ log') : rd.StackFrom log' stack := by
  obtain ⟨k, hmark, hk⟩ := h
  exact ⟨k, hlog hmark, hk⟩

theorem Walks.mono {log' : Log (net Outcome)} {access : Access} {qbridge : Bool} {b f : Outcome}
    (h : Walks log access qbridge b f) (hlog : log ⊆ log') : Walks log' access qbridge b f :=
  { h with base := hlog h.base, fdb := hlog h.fdb }

theorem VlansFrom.mono {log' : Log (net Outcome)} {f : Outcome} {vlan : Entry → Option ℤ}
    (h : rd.VlansFrom log f vlan) (hlog : log ⊆ log') : rd.VlansFrom log' f vlan := by
  obtain ⟨v, named, hmark, haccess, hcolumns, hend, hnamed, hvlan⟩ := h
  refine ⟨v, named, hlog hmark, haccess, hcolumns, hend, fun vids hvids ↦ ?_, hvlan⟩
  obtain ⟨hempty, hcomplete, hall⟩ := hnamed vids hvids
  refine ⟨hempty, hcomplete, fun vid hvid ↦ (hall vid hvid).imp_right ?_⟩
  rintro ⟨n, hn, hrest⟩
  exact ⟨n, hlog hn, hrest⟩

theorem FoldsTo.mono {log' : Log (net Outcome)} {ifIndex ifIndex' : String}
    (h : rd.FoldsTo log ifIndex ifIndex') (hlog : log ⊆ log') :
    rd.FoldsTo log' ifIndex ifIndex' :=
  h.imp_right fun ⟨stack, hstack, hget⟩ ↦ ⟨stack, hstack.mono hlog, hget⟩

theorem HasOrigin.mono {log' : Log (net Outcome)} {row : Row} (h : rd.HasOrigin log row)
    (hlog : log ⊆ log') : rd.HasOrigin log' row := by
  obtain ⟨access, qbridge, b, f, vlan, learned, h⟩ := h
  exact ⟨access, qbridge, b, f, vlan, learned,
    { h with
      walks := h.walks.mono hlog
      ifIndex := h.ifIndex.mono hlog
      vlans := fun hq ↦ ⟨(h.vlans hq).1, (h.vlans hq).2.1, (h.vlans hq).2.2.mono hlog⟩ }⟩

end MacRead

/-! ### The invariant -/

/-- The budget is the read's, and while it is not truncated no request came too late. -/
structure Budgeted (d : ℚ) (w : World (net Outcome) ReadState) : Prop where
  /-- The deadline is not moved. -/
  deadline : w.st.budget.deadline = d
  /-- Every look at the budget is at this deadline. -/
  polled : ∀ p yes, .polled p yes ∈ w.log → Probe.deadline p = d
  /-- No request was kept back. -/
  onTime : w.st.budget.truncated = false → ∀ p, .polled p true ∈ w.log → Probe.check p ≠ .request
  /-- And none was cut off. -/
  answered : w.st.budget.truncated = false → ∀ q, .asked q .timedOut ∉ w.log

/-- The invariant of a read; `good` says that the replies are the agent's or faults. -/
structure ReadInv (rd : MacRead) (agent : Agent) (good : Prop) (d : ℚ)
    (w : World (net Outcome) ReadState) : Prop where
  /-- What the log says of the budget. -/
  budgeted : Budgeted d w
  /-- The walks have read what is there. -/
  sound : good → ∀ o, .marked o ∈ w.log → Outcome.Sound agent o
  /-- The stack was read in a walk. -/
  stack : ∀ stack ∈ w.st.stack, rd.StackFrom w.log stack
  /-- What the contexts left comes from walks. -/
  results : ∀ vid rows, w.st.contexts.results.get? vid = some rows →
    ∀ row ∈ rows, rd.HasOrigin w.log row

/-- The rules of a read: anything may be late, and other tasks keep the invariant. -/
def MacRead.rules (rd : MacRead) (agent : Agent) (good : Prop) (d : ℚ) :
    Rules (net Outcome) ReadState where
  answer := fun _ q r ↦ good → Conforms agent macColumns q r ∨ Faulty agent macColumns q r
  reading := fun _ _ _ ↦ True
  inv := ReadInv rd agent good d
  alone := False
  mayStop := True

section Keeps

variable {rd : MacRead} {agent : Agent} {good : Prop} {d : ℚ} {w w' : World (net Outcome) ReadState}

/-- A step that marks nothing and leaves the stack and the rows alone keeps the invariant, if it
keeps the budget's part. -/
theorem ReadInv.step (h : ReadInv rd agent good d w) (hlog : w.log ⊆ w'.log)
    (hmarks : ∀ o, .marked o ∈ w'.log → .marked o ∈ w.log) (hstack : w'.st.stack = w.st.stack)
    (hcontexts : w'.st.contexts = w.st.contexts) (hbudget : Budgeted d w') :
    ReadInv rd agent good d w' where
  budgeted := hbudget
  sound := fun hgood o ho ↦ h.sound hgood o (hmarks o ho)
  stack := fun stack hmem ↦ (h.stack stack (hstack ▸ hmem)).mono hlog
  results := fun vid rows hget row hrow ↦
    (h.results vid rows (hcontexts ▸ hget) row hrow).mono hlog

/-- So does a step that changes the state alone, and of that neither the budget nor what rows come
from. -/
theorem ReadInv.withState {s : ReadState} (h : ReadInv rd agent good d w)
    (hbudget : s.budget = w.st.budget) (hstack : s.stack = w.st.stack)
    (hcontexts : s.contexts = w.st.contexts) : ReadInv rd agent good d ⟨s, w.log⟩ :=
  h.step (List.Subset.refl _) (fun _ ↦ id) hstack hcontexts
    ⟨hbudget ▸ h.budgeted.deadline, h.budgeted.polled,
      fun hno ↦ h.budgeted.onTime (hbudget ▸ hno), fun hno ↦ h.budgeted.answered (hbudget ▸ hno)⟩

/-- A look at the clock in time, or at another place than a request. -/
theorem ReadInv.poll (h : ReadInv rd agent good d w) {check : Check} {yes : Bool}
    (hyes : yes = true → check ≠ .request) :
    ReadInv rd agent good d
      ⟨w.st, .polled (⟨check, w.st.budget.deadline⟩ : Probe) yes :: w.log⟩ := by
  refine h.step (List.subset_cons_self _ _) (fun o ho ↦ ?_) rfl rfl
    ⟨h.budgeted.deadline, ?_, ?_, ?_⟩
  · exact (List.mem_cons.1 ho).resolve_left nofun
  · intro p yes' hp
    rcases List.mem_cons.1 hp with heq | hp
    · cases heq
      exact h.budgeted.deadline
    · exact h.budgeted.polled p yes' hp
  · intro hno p hp
    rcases List.mem_cons.1 hp with heq | hp
    · cases heq
      exact hyes rfl
    · exact h.budgeted.onTime hno p hp
  · intro hno q hq
    exact h.budgeted.answered hno q ((List.mem_cons.1 hq).resolve_left nofun)

/-- Once the budget is truncated it has nothing more to say of the log. -/
theorem ReadInv.stop (h : ReadInv rd agent good d w) {reason : String}
    {e : Event (net Outcome)} (hmark : ∀ o, e ≠ .marked o)
    (hpoll : ∀ p yes, e = .polled p yes → Probe.deadline p = d) :
    ReadInv rd agent good d
      ⟨budgetRef.modify (WalkBudget.stop reason) w.st, e :: w.log⟩ := by
  refine h.step (List.subset_cons_self _ _) (fun o ho ↦ ?_) rfl rfl
    ⟨h.budgeted.deadline, fun p yes hp ↦ ?_, nofun, nofun⟩
  · exact (List.mem_cons.1 ho).resolve_left fun heq ↦ hmark o heq.symm
  · rcases List.mem_cons.1 hp with heq | hp
    · exact hpoll p yes heq.symm
    · exact h.budgeted.polled p yes hp

/-- A walk keeps the invariant of the read: it adds requests and readings to the log, and takes from
the budget. -/
theorem walkKeeps_rules (columns : Columns) (access : Access) (capRows : Bool) (maxRep : ℤ) :
    WalkKeeps (rd.rules agent good d) (MacRead.call columns access capRows maxRep) where
  onTime := by
    rintro ref ⟨⟩ s log h
    exact h.poll nofun
  late := by
    rintro ref ⟨⟩ s log h
    refine h.stop nofun ?_
    rintro p yes ⟨⟩
    exact h.budgeted.deadline
  answered := by
    intro s log q r h _ hr
    have hr' : r ≠ .timedOut := fun heq ↦ Option.some_ne_none _ (hr heq)
    refine h.step (List.subset_cons_self _ _) (fun o ho ↦ ?_) rfl rfl
      ⟨h.budgeted.deadline, fun p yes hp ↦ ?_, fun hno p hp ↦ ?_, fun hno q' hq ↦ ?_⟩
    · exact (List.mem_cons.1 ho).resolve_left nofun
    · exact h.budgeted.polled p yes ((List.mem_cons.1 hp).resolve_left nofun)
    · exact h.budgeted.onTime hno p ((List.mem_cons.1 hp).resolve_left nofun)
    · rcases List.mem_cons.1 hq with heq | hq
      · cases heq
        exact hr' rfl
      · exact h.budgeted.answered hno q' hq
  expired := by
    rintro ref ⟨⟩ s log q h -
    exact h.stop nofun nofun
  row := by
    intro ref href s log h
    obtain rfl := Option.some.inj (WalkCall.budget_of_cap href)
    exact h.step (List.Subset.refl _) (fun _ ↦ id) rfl rfl
      ⟨h.budgeted.deadline, h.budgeted.polled, h.budgeted.onTime, h.budgeted.answered⟩
  full := by
    intro ref href s log h
    obtain rfl := Option.some.inj (WalkCall.budget_of_cap href)
    exact h.step (List.Subset.refl _) (fun _ ↦ id) rfl rfl
      ⟨h.budgeted.deadline, h.budgeted.polled, nofun, nofun⟩

/-- Where the agent answers as its tables are, a walk's result is theirs. -/
theorem honest_rules {columns : Columns} {access : Access} {capRows : Bool} {maxRep : ℤ}
    (hcolumns : columns.items.map Prod.snd ⊆ macColumns) (hgood : good) :
    Honest (rd.rules agent good d) agent (MacRead.call columns access capRows maxRep) :=
  fun _ _ _ hanswer _ ↦
    (hanswer hgood).imp (Conforms.anti hcolumns) (Faulty.anti hcolumns)

/-! ### The methods of a read -/

variable {fuel : ℕ} {columns : Columns}

/-- A walk keeps the invariant and is in the log afterwards. -/
theorem walk_wp (hcolumns : columns.items.map Prod.snd ⊆ macColumns) {access : Access}
    {capRows : Bool} {maxRep : ℤ} (h : ReadInv rd agent good d w) :
    (MacRead.walk fuel columns access capRows maxRep).wp (rd.rules agent good d)
      (fun out w' ↦ ReadInv rd agent good d w' ∧ .marked ⟨access, columns, out⟩ ∈ w'.log ∧
        (out.stats.truncated = true → w'.st.budget.truncated = true)) w := by
  have hwalk : (walkColumns (MacRead.call columns access capRows maxRep) fuel).wp
      (rd.rules agent good d) (WalkEnd _ agent (MacRead.call columns access capRows maxRep) good _)
      w :=
    walkColumns_wp (walkKeeps_rules columns access capRows maxRep) (honest_rules hcolumns) h
      (.inl trivial)
  refine Coro.wp_bind.2 (Coro.wp_mono hwalk fun out w' _ hend ↦ ?_)
  have hinv : ReadInv rd agent good d w' := hend.inv
  have hsub : w'.log ⊆ .marked (⟨access, columns, out⟩ : Outcome) :: w'.log :=
    List.subset_cons_self _ _
  refine ⟨⟨⟨hinv.budgeted.deadline, ?_, ?_, ?_⟩, fun hgood o ho ↦ ?_, ?_, ?_⟩,
    List.mem_cons_self, fun htruncated ↦ ?_⟩
  · exact fun p yes hp ↦ hinv.budgeted.polled p yes ((List.mem_cons.1 hp).resolve_left nofun)
  · exact fun hno p hp ↦ hinv.budgeted.onTime hno p ((List.mem_cons.1 hp).resolve_left nofun)
  · exact fun hno q hq ↦ hinv.budgeted.answered hno q ((List.mem_cons.1 hq).resolve_left nofun)
  · rcases List.mem_cons.1 ho with heq | ho
    · cases heq
      exact ⟨⟨(hend.part hgood).cell, (hend.part hgood).row⟩, fun hcomplete ↦
        hend.whole hgood hcomplete⟩
    · exact hinv.sound hgood o ho
  · exact fun stack hstack ↦ (hinv.stack stack hstack).mono hsub
  · exact fun vid rows hget row hrow ↦ (hinv.results vid rows hget row hrow).mono hsub
  · obtain ⟨ref, href, htrue⟩ := hend.truncated htruncated
    obtain rfl := Option.some.inj href
    exact htrue

/-- A walk of the default context: a read that goes on after it knows it was not cut for time. -/
theorem walkDefault_wp (hcolumns : columns.items.map Prod.snd ⊆ macColumns) {what : String}
    {capRows : Bool} {maxRep : ℤ} (h : ReadInv rd agent good d w) :
    (rd.walkDefault fuel what columns capRows maxRep).wp (rd.rules agent good d)
      (fun out w' ↦ ReadInv rd agent good d w' ∧ .marked ⟨rd.access, columns, out⟩ ∈ w'.log ∧
        (w'.st.stopped = false → out.complete = true ∨
          out.stats.timeout = false ∧ out.stats.truncated = false)) w := by
  refine Coro.wp_bind.2 (Coro.wp_mono (walk_wp hcolumns h) fun out w' _ ⟨hinv, hmark, hcut⟩ ↦ ?_)
  split
  case isTrue hcomplete => exact ⟨hinv, hmark, fun _ ↦ .inl hcomplete⟩
  case isFalse =>
    refine Coro.wp_bind.2 (Coro.wp_modify.2 ⟨?_, hmark, fun hgoes ↦ .inr ?_⟩)
    · refine hinv.withState ?_ ?_ ?_ <;> (unfold ReadState.note; split <;> rfl)
    · rcases hstats : out.stats.truncated with - | -
      · rw [ReadState.note, hstats, if_neg Bool.false_ne_true] at hgoes
        have hhalted := (Bool.or_eq_false_iff.1 hgoes).1
        exact ⟨(Bool.or_eq_false_iff.1 hhalted).2, rfl⟩
      · -- the budget is truncated, so the read has stopped
        rw [ReadState.note, hstats, if_pos rfl, ReadState.stopped, hcut hstats,
          Bool.or_true] at hgoes
        cases hgoes

theorem canWalk_wp (h : ReadInv rd agent good d w) :
    MacRead.canWalk.wp (rd.rules agent good d) (fun _ w' ↦ ReadInv rd agent good d w') w := by
  refine Coro.wp_bind.2 (Coro.wp_get.2 ?_)
  split
  · exact h
  · exact Coro.wp_bind.2 (Coro.wp_poll.2 fun yes _ ↦ h.poll nofun)

/-- The VLANs that are named are on the ports or in the table of names. -/
theorem namedVlans_wp (h : ReadInv rd agent good d w) :
    (rd.namedVlans fuel).wp (rd.rules agent good d) (fun vids w' ↦ ReadInv rd agent good d w' ∧
      ∀ vid ∈ vids, vid ∈ rd.ifaces.pvids ∨ ∃ n : Outcome, .marked n ∈ w'.log ∧
        n.access = rd.access ∧ n.columns = nameColumns ∧
          ∃ i : ℕ, vid = i ∧ i ≠ 0 ∧ [i] ∈ n.walked.rows.keys) w := by
  refine Coro.wp_bind.2 (Coro.wp_mono (canWalk_wp h) fun yes w₁ _ h₁ ↦ ?_)
  split
  case isFalse => exact ⟨h₁, fun vid hvid ↦ .inl hvid⟩
  case isTrue =>
    refine Coro.wp_bind.2 (Coro.wp_mono (walkDefault_wp (by decide) h₁)
      fun names w₂ _ ⟨h₂, hmark, _⟩ ↦ ⟨h₂, fun vid hvid ↦ ?_⟩)
    rcases List.mem_union_iff.1 hvid with hvid | hvid
    · exact .inl hvid
    · obtain ⟨hvid, hne⟩ := List.mem_filter.1 hvid
      obtain ⟨index, hindex, heq⟩ := List.mem_filterMap.1 hvid
      refine .inr ⟨_, hmark, rfl, rfl, ?_⟩
      split at heq
      case h_1 i =>
        obtain rfl := Option.some.inj heq
        refine ⟨i, rfl, ?_, hindex⟩
        rintro rfl
        exact of_decide_eq_true hne rfl
      case h_2 => cases heq

/-- The stack table that is kept comes from a walk. -/
theorem readStack_wp (h : ReadInv rd agent good d w) :
    (rd.readStack fuel).wp (rd.rules agent good d) (fun _ w' ↦ ReadInv rd agent good d w') w := by
  refine Coro.wp_bind.2 (Coro.wp_get.2 ?_)
  split
  case isTrue => exact h
  case isFalse =>
    refine Coro.wp_bind.2 (Coro.wp_mono (canWalk_wp h) fun yes w₁ _ h₁ ↦ ?_)
    split
    case isFalse => exact h₁
    case isTrue =>
      refine Coro.wp_bind.2 (Coro.wp_mono (walkDefault_wp (by decide) h₁)
        fun stack w₂ _ ⟨h₂, hmark, _⟩ ↦ Coro.wp_modify.2 ⟨?_, h₂.sound, ?_, h₂.results⟩)
      · exact ⟨h₂.budgeted.deadline, h₂.budgeted.polled, h₂.budgeted.onTime, h₂.budgeted.answered⟩
      · rintro stack' ⟨⟩
        exact ⟨_, hmark, rfl, rfl, rfl⟩

/-- The rows of `learned_rows` do not depend on what was counted before. -/
theorem learnedRows_rows (ifaces : Ifaces) (entries : List Entry) (base : Dict Oid String)
    (dropped dropped' : Dropped) : (learnedRows ifaces entries base dropped).rows =
      (learnedRows ifaces entries base dropped').rows := by
  unfold learnedRows
  dsimp only
  split <;> rfl

/-- Rows are learnt of entries, and folded by the stack table. -/
theorem learned_wp {entries : List Entry} {base : Dict Oid String}
    (h : ReadInv rd agent good d w) :
    (rd.learned fuel entries base).wp (rd.rules agent good d) (fun rows w' ↦
      ReadInv rd agent good d w' ∧ ∀ row ∈ rows, ∃ row₀ ∈ (learnedRows rd.ifaces entries base
        MacMeta.fresh.dropped).rows, rd.FoldsTo w'.log row₀.ifIndex row.ifIndex ∧
          row = { row₀ with ifIndex := row.ifIndex }) w := by
  refine Coro.wp_bind.2 (Coro.wp_get.2 (Coro.wp_bind.2 (Coro.wp_modify.2 ?_)))
  have h₁ := h.withState (s := { w.st with
      report := { w.st.report with dropped :=
        (learnedRows rd.ifaces entries base w.st.report.dropped).dropped }
      portMaps := w.st.portMaps ++
        (learnedRows rd.ifaces entries base w.st.report.dropped).portMap.toList }) rfl rfl rfl
  have hrows := learnedRows_rows rd.ifaces entries base w.st.report.dropped MacMeta.fresh.dropped
  split
  case isTrue => exact ⟨h₁, fun row hrow ↦ ⟨row, hrows ▸ hrow, .inl rfl, rfl⟩⟩
  case isFalse =>
    refine Coro.wp_bind.2 (Coro.wp_mono (readStack_wp h₁) fun _ w₂ _ h₂ ↦ ?_)
    refine Coro.wp_bind.2 (Coro.wp_get.2 ?_)
    split
    case h_1 => exact ⟨h₂, fun row hrow ↦ ⟨row, hrows ▸ hrow, .inl rfl, rfl⟩⟩
    case h_2 stack hstack =>
      refine ⟨h₂, fun row hrow ↦ ?_⟩
      obtain ⟨row₀, hrow₀, rfl⟩ := List.mem_map.1 hrow
      refine ⟨row₀, hrows ▸ hrow₀, ?_, rfl⟩
      show rd.FoldsTo w₂.log row₀.ifIndex ((stack.get? row₀.ifIndex).getD row₀.ifIndex)
      rcases hget : stack.get? row₀.ifIndex with - | port
      · exact .inl rfl
      · exact .inr ⟨stack, h₂.stack stack hstack, hget⟩

/-- The entries of Q-BRIDGE, with VLANs that come from a walk of dot1qVlanFdbId. -/
theorem qbridgeVlans_wp {f v : Outcome} (hmark : .marked v ∈ w.log) (haccess : v.access = rd.access)
    (hcolumns : v.columns = vlanFdbColumns) (hend : v.walked.complete = true ∨
      v.walked.stats.timeout = false ∧ v.walked.stats.truncated = false)
    (h : ReadInv rd agent good d w) :
    (rd.qbridgeVlans fuel (parseFdbTable true f.walked.rows) (column v.walked.rows "fdb")
      v.walked.complete).wp (rd.rules agent good d) (fun entries w' ↦ ReadInv rd agent good d w' ∧
        ∃ vlan, rd.VlansFrom w'.log f vlan ∧ entries = MacRead.entriesOf true f vlan) w := by
  have hnamed : (if (column v.walked.rows "fdb").items.isEmpty && v.walked.complete then
        some <$> rd.namedVlans fuel else pure none : Reader (Option (List ℤ))).wp
          (rd.rules agent good d)
      (fun named w' ↦ ReadInv rd agent good d w' ∧ rd.NamedFrom w'.log v named) w := by
    split
    case isFalse => exact ⟨h, nofun⟩
    case isTrue hempty =>
      rw [Bool.and_eq_true] at hempty
      refine Coro.wp_bind.2 (Coro.wp_mono (namedVlans_wp h) fun vids w' _ ⟨h', hvids⟩ ↦ ⟨h', ?_⟩)
      rintro vids' ⟨⟩
      exact ⟨List.isEmpty_iff.1 hempty.1, hempty.2, hvids⟩
  refine Coro.wp_bind.2 (Coro.wp_mono hnamed fun named w₁ hlog ⟨h₁, hfrom⟩ ↦ ?_)
  dsimp only
  generalize hvlanOf : mapFdbVlans _ _ named = vlanOf
  refine Coro.wp_bind.2 (Coro.wp_modify.2 ⟨h₁.withState rfl rfl rfl, ?_⟩)
  exact ⟨_, ⟨v, named, hlog.subset hmark, haccess, hcolumns, hend, hfrom, rfl⟩, hvlanOf ▸ rfl⟩

/-! ### The default context -/

/-- What the rows of a plan come from. -/
def PlanFrom (rd : MacRead) (log : Log (net Outcome)) : Plan → Prop
  | .rows rows => ∀ row ∈ rows, rd.HasOrigin log row
  | .contexts rows _ _ => ∀ row ∈ rows, ∀ vlan, rd.HasOrigin log { row with vlan := vlan }
  | .raised _ => True

/-- Finding the VLANs of the contexts keeps the invariant. -/
theorem contextVlans_wp (h : ReadInv rd agent good d w) :
    (rd.contextVlans fuel).wp (rd.rules agent good d)
    (fun _ w' ↦ ReadInv rd agent good d w') w := by
  refine Coro.wp_bind.2 (Coro.wp_mono (walkDefault_wp (by decide) h) fun _ w₁ _ ⟨h₁, _⟩ ↦ ?_)
  refine Coro.wp_bind.2 (Coro.wp_get.2 ?_)
  split
  · exact h₁
  refine Coro.wp_bind.2 (Coro.wp_mono (walkDefault_wp (by decide) h₁) fun _ w₂ _ ⟨h₂, _⟩ ↦ ?_)
  refine Coro.wp_bind.2 (Coro.wp_get.2 ?_)
  split
  · exact h₂
  · exact h₂

/-- The plan of the contexts has rows with an origin, if those of the default context have one. -/
theorem perVlan_wp {rows : List Row} (h : ReadInv rd agent good d w)
    (hrows : PlanFrom rd w.log (.contexts rows false [])) :
    (rd.perVlan fuel rows).wp (rd.rules agent good d)
      (fun plan w' ↦ ReadInv rd agent good d w' ∧ PlanFrom rd w'.log plan) w := by
  refine Coro.wp_bind.2 (Coro.wp_mono (contextVlans_wp h) fun ⟨vlans, advertised⟩ w₁ hlog h₁ ↦ ?_)
  have hrows₁ : PlanFrom rd w₁.log (.contexts rows false []) :=
    fun row hrow vlan ↦ (hrows row hrow vlan).mono hlog.subset
  dsimp only
  split
  · exact ⟨h₁, trivial⟩
  refine Coro.wp_bind.2 (Coro.wp_get.2 ?_)
  split
  · exact ⟨h₁, fun row hrow ↦ hrows₁ row hrow row.vlan⟩
  refine Coro.wp_bind.2 (Coro.wp_modify.2 ?_)
  split
  · exact Coro.wp_bind.2 (Coro.wp_modify.2 ⟨h₁.withState rfl rfl rfl, hrows₁⟩)
  · exact ⟨h₁.withState rfl rfl rfl, hrows₁⟩

/-- The walk of a forwarding table gives its entries no VLAN. -/
theorem entriesOf_none (qbridge : Bool) (f : Outcome) :
    MacRead.entriesOf qbridge f (fun _ ↦ none) = parseFdbTable qbridge f.walked.rows := by
  rw [MacRead.entriesOf]
  conv_rhs => rw [← List.map_id (parseFdbTable qbridge f.walked.rows)]
  refine List.map_congr_left fun entry hentry ↦ ?_
  obtain ⟨e, -, he⟩ := List.mem_filterMap.1 hentry
  obtain ⟨key, -, rfl⟩ := Option.map_eq_some_iff.1 he
  rfl

theorem readBridge_wp {b : Outcome} (hmark : .marked b ∈ w.log) (haccess : b.access = rd.access)
    (hcolumns : b.columns = baseColumns) (h : ReadInv rd agent good d w) :
    (rd.readBridge fuel (column b.walked.rows "if_index")).wp (rd.rules agent good d)
      (fun plan w' ↦ ReadInv rd agent good d w' ∧ PlanFrom rd w'.log plan) w := by
  refine Coro.wp_bind.2 (Coro.wp_mono (walkDefault_wp (by decide) h)
    fun fdb w₁ hlog₁ ⟨h₁, hfdb, _⟩ ↦ ?_)
  have hlearned : ∀ w₂ : World (net Outcome) ReadState, ReadInv rd agent good d w₂ →
      w₂.log = w₁.log → Coro.wp (rd.rules agent good d) (do
        let rows ← rd.learned fuel (parseFdbTable false fdb.rows) (column b.walked.rows "if_index")
        if (← Coro.get).stopped || rd.opts.contexts = .off then return Plan.rows rows
        rd.perVlan fuel rows)
      (fun plan w' ↦ ReadInv rd agent good d w' ∧ PlanFrom rd w'.log plan) w₂ := by
    intro w₂ h₂ hlog₂
    refine Coro.wp_bind.2 (Coro.wp_mono (learned_wp h₂) fun rows w₃ hlog₃ ⟨h₃, hrows⟩ ↦ ?_)
    have hsub : w₁.log ⊆ w₃.log := hlog₂ ▸ hlog₃.subset
    have horigin : ∀ row ∈ rows, ∀ vlan, rd.HasOrigin w₃.log { row with vlan := vlan } := by
      intro row hrow vlan
      obtain ⟨row₀, hmem, hfold, hsame⟩ := hrows row hrow
      refine ⟨rd.access, false, b, ⟨rd.access, dFdbColumns, fdb⟩, fun _ ↦ none, row₀,
        ⟨hsub (hlog₁.subset hmark), haccess, hcolumns, hsub hfdb, rfl, rfl⟩, ?_, hfold, ?_,
          .inl rfl,
        nofun⟩
      · rw [MacRead.learnedFrom, entriesOf_none]
        exact hmem
      · rw [hsame]
    refine Coro.wp_bind.2 (Coro.wp_get.2 ?_)
    split
    · exact ⟨h₃, fun row hrow ↦ horigin row hrow row.vlan⟩
    · exact perVlan_wp h₃ horigin
  split
  · exact Coro.wp_bind.2 (Coro.wp_modify.2 (hlearned _ (h₁.withState rfl rfl rfl) rfl))
  · exact hlearned _ h₁ rfl

/-- And the one behind the Q-BRIDGE table, where a shared database is ruled out by a walk that did
not end early. -/
theorem readQbridge_wp {b v : Outcome} (hmark : .marked b ∈ w.log) (haccess : b.access = rd.access)
    (hcolumns : b.columns = baseColumns) (hmark' : .marked v ∈ w.log)
    (haccess' : v.access = rd.access) (hcolumns' : v.columns = vlanFdbColumns)
    (hend : v.walked.complete = true ∨
      v.walked.stats.timeout = false ∧ v.walked.stats.truncated = false)
    (h : ReadInv rd agent good d w) :
    (rd.readQbridge fuel (column b.walked.rows "if_index") v.walked).wp (rd.rules agent good d)
      (fun plan w' ↦ ReadInv rd agent good d w' ∧ PlanFrom rd w'.log plan) w := by
  refine Coro.wp_bind.2 (Coro.wp_mono (walkDefault_wp (by decide) h)
    fun fdb w₁ hlog₁ ⟨h₁, hfdb, _⟩ ↦ ?_)
  split
  case isTrue =>
    refine Coro.wp_bind.2 (Coro.wp_modify.2 (Coro.wp_bind.2 (Coro.wp_mono (qbridgeVlans_wp
      (f := ⟨rd.access, qFdbColumns, fdb⟩) (hlog₁.subset hmark') haccess' hcolumns' hend
      (h₁.withState rfl rfl rfl)) fun entries w₂ hlog₂ ⟨h₂, vlan, hvlans, hentries⟩ ↦ ?_)))
    refine Coro.wp_bind.2 (Coro.wp_mono (learned_wp h₂) fun rows w₃ hlog₃ ⟨h₃, hrows⟩ ↦
      ⟨h₃, fun row hrow ↦ ?_⟩)
    obtain ⟨row₀, hmem, hfold, hsame⟩ := hrows row hrow
    have hsub : w₁.log ⊆ w₃.log := (hlog₂.trans hlog₃).subset
    refine ⟨rd.access, true, b, ⟨rd.access, qFdbColumns, fdb⟩, vlan, row₀,
      ⟨hsub (hlog₁.subset hmark), haccess, hcolumns, hsub hfdb, rfl, rfl⟩, ?_, hfold, ?_, .inl rfl,
      fun _ ↦ ⟨rfl, ?_, hvlans.mono hlog₃.subset⟩⟩
    · rw [MacRead.learnedFrom, ← hentries]
      exact hmem
    · rw [hsame]
    · rw [hsame]
  case isFalse =>
    refine Coro.wp_bind.2 (Coro.wp_get.2 ?_)
    split
    · exact ⟨h₁, fun row hrow ↦ absurd hrow List.not_mem_nil⟩
    · exact readBridge_wp (hlog₁.subset hmark) haccess hcolumns h₁

theorem read_wp (h : ReadInv rd agent good d w) :
    (rd.read fuel).wp (rd.rules agent good d)
      (fun plan w' ↦ ReadInv rd agent good d w' ∧ PlanFrom rd w'.log plan) w := by
  have hnone : ∀ {w' : World (net Outcome) ReadState}, PlanFrom rd w'.log (.rows []) :=
    fun row hrow ↦ absurd hrow List.not_mem_nil
  refine Coro.wp_bind.2 (Coro.wp_mono (walkDefault_wp (by decide) h)
    fun base w₁ hlog₁ ⟨h₁, hbase, _⟩ ↦ ?_)
  refine Coro.wp_bind.2 (Coro.wp_get.2 ?_)
  split
  · exact ⟨h₁, hnone⟩
  refine Coro.wp_bind.2 (Coro.wp_modify.2 (Coro.wp_bind.2 (Coro.wp_mono
    (walkDefault_wp (by decide) (h₁.withState rfl rfl rfl))
    fun vlanFdb w₂ hlog₂ ⟨h₂, hvlanFdb, hend⟩ ↦ ?_)))
  refine Coro.wp_bind.2 (Coro.wp_get.2 ?_)
  split
  · exact ⟨h₂, hnone⟩
  case isFalse hgoes =>
    exact readQbridge_wp (b := ⟨rd.access, baseColumns, base⟩)
      (v := ⟨rd.access, vlanFdbColumns, vlanFdb⟩) (hlog₂.subset hbase) rfl rfl hvlanFdb rfl rfl
      (hend (Bool.eq_false_of_not_eq_true hgoes)) h₂

/-! ### The contexts of VLANs -/

/-- The VLAN of a learned row is that of an entry. -/
theorem learnedRows_vlan {entries : List Entry} {base : Dict Oid String} {dropped : Dropped}
    {row : Row} (h : row ∈ (learnedRows rd.ifaces entries base dropped).rows) :
    ∃ entry ∈ entries, row.vlan = entry.vlan := by
  obtain ⟨entry, hmem, -, hrow⟩ := mem_learnedRows.1 h
  obtain ⟨_, _, -, -, rfl⟩ := Entry.row_eq_some.1 hrow
  exact ⟨entry, hmem, rfl⟩

/-- A context reads its base ports and its table; its rows come from these. -/
theorem readContext_wp {vid : ℤ} (h : ReadInv rd agent good d w) :
    (rd.readContext fuel vid).wp (rd.rules agent good d) (fun out w' ↦
      ReadInv rd agent good d w' ∧ ∀ row ∈ out.2.1, rd.HasOrigin w'.log row) w := by
  refine Coro.wp_bind.2 (Coro.wp_mono (walk_wp (by decide) h) fun base w₁ _ ⟨h₁, hbase, _⟩ ↦ ?_)
  dsimp only
  split
  · exact ⟨h₁, fun row hrow ↦ absurd hrow List.not_mem_nil⟩
  refine Coro.wp_bind.2 (Coro.wp_mono (walk_wp (by decide) h₁)
    fun fdb w₂ hlog₂ ⟨h₂, hfdb, _⟩ ↦ ?_)
  refine Coro.wp_bind.2 (Coro.wp_mono (learned_wp h₂) fun rows w₃ hlog₃ ⟨h₃, hrows⟩ ↦
    ⟨h₃, fun row hrow ↦ ?_⟩)
  obtain ⟨row₀, hmem, hfold, hsame⟩ := hrows row hrow
  have hvlan : row.vlan = some vid := by
    obtain ⟨entry, hentry, heq⟩ := learnedRows_vlan hmem
    obtain ⟨_, -, rfl⟩ := List.mem_map.1 hentry
    rw [hsame]
    exact heq
  refine ⟨rd.contextAuth vid, false, ⟨rd.contextAuth vid, baseColumns, base⟩,
    ⟨rd.contextAuth vid, dFdbColumns, fdb⟩, fun _ ↦ some vid, row₀,
    ⟨(hlog₂.trans hlog₃).subset hbase, rfl, rfl, hlog₃.subset hfdb, rfl, rfl⟩, hmem, hfold, ?_,
    .inr ⟨vid, rfl, hvlan⟩, nofun⟩
  rw [hsame]

theorem skip_inv {vid : ℤ} (h : ReadInv rd agent good d w) :
    ReadInv rd agent good d ⟨MacRead.skip vid w.st, w.log⟩ :=
  h.withState rfl rfl rfl

/-- One that is read leaves rows with an origin. -/
theorem settle_inv {vid : ℤ} {ok : Bool} {rows : List Row} {failure : String}
    (h : ReadInv rd agent good d w) (hrows : ∀ row ∈ rows, rd.HasOrigin w.log row) :
    ReadInv rd agent good d ⟨MacRead.settle vid ok rows failure w.st, w.log⟩ := by
  refine ⟨⟨?_, h.budgeted.polled, fun hno ↦ h.budgeted.onTime ?_,
    fun hno ↦ h.budgeted.answered ?_⟩, h.sound, fun stack hmem ↦ h.stack stack ?_,
    fun vid' rows' hget row hrow ↦ ?_⟩
  · exact (congrArg WalkBudget.deadline budget_settle).trans h.budgeted.deadline
  · exact (congrArg WalkBudget.truncated budget_settle).symm.trans hno
  · exact (congrArg WalkBudget.truncated budget_settle).symm.trans hno
  · exact stack_settle.symm.trans hmem
  · rw [results_settle, Dict.get?_set] at hget
    split at hget
    · exact hrows row (Option.some.inj hget ▸ hrow)
    · exact h.results vid' rows' hget row hrow

/-- So the task of a VLAN keeps the invariant, and leaves the others theirs. -/
theorem one_keeps (vid : ℤ) : (rd.one fuel vid).Keeps (rd.rules agent good d) := by
  intro w h
  refine Coro.wp_bind.2 (Coro.wp_get.2 ?_)
  split
  · exact Coro.wp_modify.2 (skip_inv h)
  refine Coro.wp_bind.2 (Coro.wp_poll.2 fun late _ ↦ ?_)
  have hgate : late = true → Check.gate ≠ .request := fun _ ↦ nofun
  have h₁ := h.poll hgate
  split
  · exact Coro.wp_modify.2 (skip_inv h₁)
  refine Coro.wp_bind.2 (Coro.wp_mono (readContext_wp h₁)
    fun ⟨ok, rows, failure⟩ w₂ _ ⟨h₂, hrows⟩ ↦ ?_)
  exact Coro.wp_modify.2 (settle_inv h₂ hrows)

end Keeps

/-! ### The whole read -/

/-- Behind the contexts, a row is one of the default context, perhaps with the one VLAN that it was
seen in, or one of a context. -/
theorem afterContexts_mem {rd : MacRead} {rows : List Row} {advertised : Bool} {s : ReadState}
    {row : Row} (h : row ∈ (rd.afterContexts rows advertised s).1) :
    (∃ row₀ ∈ rows, ∃ vlan, row = { row₀ with vlan := vlan } ∧
        (vlan = row₀.vlan ∨ vlan = some (row₀.vlan.getD 1))) ∨
      ∃ vid rows', s.contexts.results.get? vid = some rows' ∧ row ∈ rows' := by
  rcases List.mem_append.1 h with h | h
  · refine .inl ?_
    -- the rows of the default context, or none of them if VLAN 1 has one of its own
    have hrest : ∀ {row₀ : Row}, row₀ ∈ (if (advertised || !s.report.vlans.read.isEmpty) = true ∧
        1 ∈ s.report.vlans.read then [] else rows) → row₀ ∈ rows := by
      intro row₀ hmem
      split at hmem
      · exact absurd hmem List.not_mem_nil
      · exact hmem
    split at h
    · obtain ⟨row₀, hmem, rfl⟩ := List.mem_map.1 h
      exact ⟨row₀, hrest hmem, _, rfl, .inr rfl⟩
    · exact ⟨row, hrest h, row.vlan, rfl, .inl rfl⟩
  · obtain ⟨vid, -, hrow⟩ := List.mem_flatMap.1 h
    rcases hget : s.contexts.results.get? vid with - | rows'
    · rw [hget] at hrow
      exact absurd hrow List.not_mem_nil
    · rw [hget] at hrow
      exact .inr ⟨vid, rows', hget, hrow⟩

/-- Nothing is made up where duplicates go. -/
theorem mem_of_mem_uniqueRows {rows : List Row} {row : Row} (h : row ∈ uniqueRows rows) :
    row ∈ rows := by
  induction rows using List.reverseRecOn with
  | nil => exact h
  | append_singleton rows last ih =>
    rw [uniqueRows, List.foldl_append] at h
    rw [List.mem_append]
    change row ∈ (if _ then uniqueRows rows else uniqueRows rows ++ [last]) at h
    split at h
    · exact .inl (ih h)
    · exact (List.mem_append.1 h).imp_left ih

/-- Every reply in the surroundings is the agent's or a fault. -/
def Surroundings.Answers (sur : Surroundings) (agent : Agent) : Prop :=
  ∀ log q, Conforms agent macColumns q (sur.reply log q) ∨
    Faulty agent macColumns q (sur.reply log q)

/-- Surroundings that answer as the agent is obey the rules. -/
theorem obeys_rules {rd : MacRead} {sur : Surroundings} {agent : Agent} {good : Prop} {d : ℚ}
    (hanswers : good → sur.Answers agent) : sur.env.Obeys (rd.rules agent good d) :=
  ⟨fun log q hgood ↦ hanswers hgood log q, fun _ _ ↦ trivial⟩

/-- At the start there is nothing to be sound. -/
theorem start_inv (rd : MacRead) (agent : Agent) (good : Prop) (now : ℚ) :
    ReadInv rd agent good (now + rd.opts.budgetS) ⟨rd.start now, []⟩ where
  budgeted := ⟨rfl, nofun, nofun, nofun⟩
  sound := nofun
  stack := nofun
  results := nofun

/-- The run lemma of a read: what it returns is made of what its walks are sure of. -/
theorem run_inv {rd : MacRead} {sur : Surroundings} {fuel : ℕ} {now : ℚ} {agent : Agent}
    {good : Prop}
    (hanswers : good → sur.Answers agent) {rows : List Row} {report : MacMeta}
    {log : Log (net Outcome)} (hrun : rd.run sur fuel (rd.start now) = some ((rows, report), log)) :
    ∃ (s : ReadState) (rows' : List Row) (started now' : ℚ),
      (rows, report) = s.finish rows' started now' ∧
        ReadInv rd agent good (now + rd.opts.budgetS) ⟨s, log⟩ ∧
          ∀ row ∈ rows', rd.HasOrigin log row := by
  obtain ⟨⟨plan, s, log₁⟩, hread, hrest⟩ := Option.bind_eq_some_iff.1 hrun
  have henv : sur.env.Obeys (rd.rules agent good (now + rd.opts.budgetS)) := obeys_rules hanswers
  obtain ⟨hinv, hplan⟩ := Coro.run_of_wp henv (read_wp (start_inv rd agent good now)) hread
  cases plan with
  | rows rows₁ =>
    obtain ⟨hout, rfl⟩ := Prod.mk.inj (Option.some.inj hrest)
    exact ⟨s, rows₁, _, _, hout.symm, hinv, hplan⟩
  | raised error =>
    obtain ⟨hout, rfl⟩ := Prod.mk.inj (Option.some.inj hrest)
    exact ⟨_, [], _, _, hout.symm, hinv.withState rfl rfl rfl,
      fun row hrow ↦ absurd hrow List.not_mem_nil⟩
  | contexts rows₁ advertised vlans =>
    obtain ⟨⟨s₂, log₂⟩, hgather, hrest⟩ := Option.bind_eq_some_iff.1 hrest
    obtain ⟨hout, rfl⟩ := Prod.mk.inj (Option.some.inj hrest)
    have hinv₂ : ReadInv rd agent good (now + rd.opts.budgetS) ⟨s₂, log₂⟩ := by
      refine gather_of_wp henv not_false hinv (fun t ht ↦ ?_) hgather
      obtain ⟨vid, -, rfl⟩ := List.mem_map.1 ht
      exact one_keeps vid
    refine ⟨(rd.afterContexts rows₁ advertised s₂).2, (rd.afterContexts rows₁ advertised s₂).1,
      sur.clock [], sur.clock log₂, hout.symm, hinv₂.withState rfl rfl rfl, fun row hrow ↦ ?_⟩
    rcases afterContexts_mem hrow with ⟨row₀, hmem, vlan, rfl, -⟩ | ⟨vid, rows', hget, hmem⟩
    · exact (hplan row₀ hmem vlan).mono (suffix_of_gather hgather).subset
    · exact hinv₂.results vid rows' hget row hmem

end Snmp
