import DanbyteOutpost.Snmp.AgentTables
import DanbyteOutpost.Snmp.MacOrigin

/-!
# Walks of whole tables

What the pure part of a Q-BRIDGE read makes of walks that are sound and complete is what the agent's
tables say: the entries, the VLANs of FDB ids, the ports, and at last the hosts (`mem_learned_iff`).

## From walks to tables

`Outcome.Fdb` is a walk of dot1qTpFdbTable that is sound and complete. For such a walk the lemmas
of the pure part speak of the agent's objects: an entry is parsed exactly if the agent has it
(`Outcome.Fdb.mem_parseFdbTable`), it is kept exactly if it is a learned host (`Mib.learned_iff`),
and its VLAN and its port are those the agent's tables give it.
-/

namespace Snmp

open PyText

namespace Outcome

variable {agent : Agent} {o : Outcome} {key : String} {oid index : Oid}

/-- A complete walk of a table has its cells and no others. -/
theorem Sound.cellOf_eq (h : o.Sound agent) (hcomplete : o.walked.complete = true)
    (hkey : o.columns.get? key = some oid) (index : Oid) :
    cellOf o.walked.rows index key = (agent o.access).cell oid index :=
  Option.ext fun _ ↦ ⟨h.cell hkey, h.cell_of_complete hcomplete hkey⟩

/-- A column that was read whole is the agent's. -/
theorem Sound.column_eq (h : o.Sound agent) (hcomplete : o.walked.complete = true)
    (hkey : o.columns.get? key = some oid) :
    (Snmp.column o.walked.rows key).get? = (agent o.access).cell oid :=
  funext fun index ↦ (get?_column ..).trans (h.cellOf_eq hcomplete hkey index)

/-- A complete walk without a row is of an empty table. -/
theorem Sound.items_column_eq_nil (h : o.Sound agent) (hcomplete : o.walked.complete = true)
    (hkey : o.columns.get? key = some oid) :
    (Snmp.column o.walked.rows key).items = [] ↔ (agent o.access).Empty oid := by
  rw [← not_iff_not, ← ne_eq, Dict.items_ne_nil_iff]
  simp only [Dict.mem_keys_iff, h.column_eq hcomplete hkey, Mib.Empty, not_forall,
    ← Option.ne_none_iff_exists', ne_eq]

end Outcome

variable {agent : Agent} {m : Mib}

/-! ### Entries -/

/-- The entry of dot1qTpFdbTable at an FDB id and an address. -/
def Mib.fdbEntry (m : Mib) (fid : ℕ) (mac : Mac) : Entry where
  mac := mac
  fdbId := some fid
  bridgePort := (m.cell dot1qTpFdbPort (fid :: mac.octets)).bind intOfText
  status := fdbStatus (m.cell dot1qTpFdbStatus (fid :: mac.octets))
  vlan := none

/-- A complete walk of dot1qTpFdbTable. -/
structure Outcome.Fdb (f : Outcome) (agent : Agent) : Prop where
  /-- It has read what is there. -/
  sound : f.Sound agent
  /-- And all of it. -/
  complete : f.walked.complete = true
  /-- It is of this table. -/
  columns : f.columns = qFdbColumns

section Fdb

variable {f : Outcome} (h : f.Fdb agent)

include h

theorem Outcome.Fdb.port (index : Oid) :
    cellOf f.walked.rows index "port" = (agent f.access).cell dot1qTpFdbPort index :=
  h.sound.cellOf_eq h.complete (by rw [h.columns]; rfl) index

theorem Outcome.Fdb.status (index : Oid) :
    cellOf f.walked.rows index "status" = (agent f.access).cell dot1qTpFdbStatus index :=
  h.sound.cellOf_eq h.complete (by rw [h.columns]; rfl) index

/-- Its rows are those of the table. -/
theorem Outcome.Fdb.row_iff (fid : ℕ) (mac : Mac) :
    (∃ row, f.walked.rows.get? (fid :: mac.octets) = some row) ↔
      (agent f.access).HasFdb fid mac := by
  rw [Mib.HasFdb, ← h.port, ← h.status]
  constructor
  · rintro ⟨row, hrow⟩
    obtain ⟨key, text, hget⟩ := h.sound.part.row hrow
    have hcell := cellOf_eq_some.2 ⟨row, hrow, hget⟩
    have hkey : key ∈ qFdbColumns.keys := h.columns ▸ (h.sound.part.cell hcell).1
    rw [show qFdbColumns.keys = ["port", "status"] from rfl, List.mem_cons,
      List.mem_singleton] at hkey
    rcases hkey with rfl | rfl
    · exact .inl (hcell ▸ Option.some_ne_none text)
    · exact .inr (hcell ▸ Option.some_ne_none text)
  · rintro (hport | hstatus)
    · exact Dict.mem_keys_iff.1 (mem_keys_of_cellOf hport)
    · exact Dict.mem_keys_iff.1 (mem_keys_of_cellOf hstatus)

/-- The entries are those of the agent's table. -/
theorem Outcome.Fdb.mem_parseFdbTable {entry : Entry} :
    entry ∈ parseFdbTable true f.walked.rows ↔
      ∃ fid mac, (agent f.access).HasFdb fid mac ∧ entry = (agent f.access).fdbEntry fid mac := by
  rw [Snmp.mem_parseFdbTable]
  constructor
  · rintro ⟨index, row, hrow, hof⟩
    obtain ⟨hkey, hport, hstatus, hvlan⟩ := entryOf_eq_some.1 hof
    rcases entryKey_eq_some.1 hkey with ⟨-, fid, hfid, rfl⟩ | ⟨hno, -⟩
    · refine ⟨fid, entry.mac, (h.row_iff fid entry.mac).1 ⟨row, hrow⟩, ?_⟩
      have hcell : ∀ key, row.get? key = cellOf f.walked.rows (fid :: entry.mac.octets) key := by
        intro key
        rw [cellOf, hrow]
        rfl
      rw [hcell, h.port] at hport
      rw [hcell, h.status] at hstatus
      obtain ⟨mac, fdbId, bridgePort, status, vlan⟩ := entry
      dsimp only at hfid hport hstatus hvlan
      subst hfid hport hstatus hvlan
      rfl
    · cases hno
  · rintro ⟨fid, mac, hfdb, rfl⟩
    obtain ⟨row, hrow⟩ := (h.row_iff fid mac).2 hfdb
    have hcell : ∀ key, row.get? key = cellOf f.walked.rows (fid :: mac.octets) key := by
      intro key
      rw [cellOf, hrow]
      rfl
    refine ⟨_, row, hrow, entryOf_eq_some.2 ⟨entryKey_eq_some.2 (.inl ⟨rfl, fid, rfl, rfl⟩), ?_, ?_,
      rfl⟩⟩
    · rw [hcell, h.port]
      rfl
    · rw [hcell, h.status]
      rfl

theorem Outcome.Fdb.mem_fdbIds {fid : ℤ} :
    fid ∈ (parseFdbTable true f.walked.rows).filterMap Entry.fdbId ↔
      ∃ (fid' : ℕ) (mac : Mac), (agent f.access).HasFdb fid' mac ∧ fid = fid' := by
  rw [List.mem_filterMap]
  constructor
  · rintro ⟨entry, hentry, hfid⟩
    obtain ⟨fid', mac, hfdb, rfl⟩ := h.mem_parseFdbTable.1 hentry
    exact ⟨fid', mac, hfdb, (Option.some.inj hfid).symm⟩
  · rintro ⟨fid', mac, hfdb, rfl⟩
    exact ⟨_, h.mem_parseFdbTable.2 ⟨fid', mac, hfdb, rfl⟩, rfl⟩

end Fdb

/-- The filter leaves the learned hosts. -/
theorem Mib.learned_iff {own : List String} {fid : ℕ} {mac : Mac} {port : ℤ} :
    m.Learned own fid mac port ↔
      (m.fdbEntry fid mac).drop own = none ∧ (m.fdbEntry fid mac).bridgePort = some port := by
  rw [Entry.drop_eq_none]
  constructor
  · rintro ⟨⟨text, hcell, hport⟩, hne, hstatus, heven, hzero, hown⟩
    have hbridge : (m.fdbEntry fid mac).bridgePort = some port := by
      show (m.cell dot1qTpFdbPort (fid :: mac.octets)).bind intOfText = some port
      rw [hcell, Option.bind_some]
      exact hport
    refine ⟨⟨not_or.1 hstatus, mac.dropReason_eq_none.2 ⟨heven, hzero, hown⟩, ?_⟩,
      hbridge⟩
    rw [hbridge]
    exact hne
  · rintro ⟨⟨hstatus, hmac, hne⟩, hbridge⟩
    rw [hbridge] at hne
    obtain ⟨text, hcell, hport⟩ := Option.bind_eq_some_iff.1 hbridge
    obtain ⟨heven, hzero, hown⟩ := mac.dropReason_eq_none.1 hmac
    exact ⟨⟨text, hcell, hport⟩, hne, not_or.2 hstatus, heven, hzero, hown⟩

theorem Mib.Learned.hasFdb {own : List String} {fid : ℕ} {mac : Mac} {port : ℤ}
    (h : m.Learned own fid mac port) : m.HasFdb fid mac := by
  obtain ⟨text, hcell, -⟩ := h.onPort
  exact .inl (hcell ▸ Option.some_ne_none text)

/-- The ports that survive are those of hosts that were learnt. -/
theorem Outcome.Fdb.mem_keptPorts {f : Outcome} (h : f.Fdb agent) {ifaces : Ifaces} {port : ℤ} :
    port ∈ keptPorts ifaces (parseFdbTable true f.walked.rows) ↔
      ∃ fid mac, (agent f.access).Learned ifaces.own fid mac port := by
  rw [Snmp.mem_keptPorts]
  constructor
  · intro hkept
    obtain ⟨entry, hentry, hdrop, hport⟩ := hkept
    obtain ⟨fid, mac, -, rfl⟩ := h.mem_parseFdbTable.1 hentry
    exact ⟨fid, mac, Mib.learned_iff.2 ⟨hdrop, hport⟩⟩
  · intro hlearned
    obtain ⟨fid, mac, hlearned⟩ := hlearned
    exact ⟨_, h.mem_parseFdbTable.2 ⟨fid, mac, hlearned.hasFdb, rfl⟩, Mib.learned_iff.1 hlearned⟩

/-! ### VLANs -/

/-- The VLANs taken as named are those the agent names, and they are taken so where it says of no
VLAN what FDB id it has. -/
structure MacRead.NamedBy (rd : MacRead) (m : Mib) (named : Option (List ℤ)) : Prop where
  /-- They are those of dot1qVlanStaticTable and of the ports. -/
  names : ∀ vids ∈ named, ∀ vid, vid ≠ 0 → (vid ∈ vids ↔ rd.Names m vid)
  /-- They are taken so exactly where dot1qVlanFdbId is empty. -/
  empty : named.isSome = true ↔ m.Empty dot1qVlanFdbId

/-- The VLAN of an FDB id is the one the agent's tables give it. -/
theorem Outcome.Fdb.mapFdbVlans_iff {rd : MacRead} {f : Outcome} (h : f.Fdb agent)
    {vlanFdb : Dict Oid String} (hvlanFdb : vlanFdb.get? = (agent f.access).cell dot1qVlanFdbId)
    {named : Option (List ℤ)} (hnamed : rd.NamedBy (agent f.access) named) {fid : ℕ} {mac : Mac}
    (hfdb : (agent f.access).HasFdb fid mac) {vid : ℤ} :
    (mapFdbVlans ((parseFdbTable true f.walked.rows).filterMap Entry.fdbId) vlanFdb named).1 fid =
      some vid ↔ rd.FdbVlan (agent f.access) fid vid := by
  have hmem := h.mem_fdbIds.2 ⟨fid, mac, hfdb, rfl⟩
  rw [mapFdbVlans_eq_some, hvlanFdb]
  constructor
  · rintro ⟨-, hone | ⟨-, hvid, vids, hvids, hall⟩⟩
    · exact .inl hone
    · have hsome : named.isSome = true := Option.isSome_iff_exists.2 ⟨vids, hvids⟩
      refine .inr ⟨hnamed.empty.1 hsome, hvid, fun fid' mac' hfdb' ↦ ?_⟩
      obtain ⟨hin, hne⟩ := hall fid' (h.mem_fdbIds.2 ⟨fid', mac', hfdb', rfl⟩)
      exact ⟨(hnamed.names vids hvids fid' hne).1 hin, Nat.cast_ne_zero.1 hne⟩
  · rintro (hone | ⟨hempty, hvid, hall⟩)
    · exact ⟨hmem, .inl hone⟩
    · obtain ⟨vids, hvids⟩ := Option.isSome_iff_exists.1 (hnamed.empty.2 hempty)
      refine ⟨hmem, .inr ⟨?_, hvid, vids, hvids, fun fid' hfid' ↦ ?_⟩⟩
      · rintro fid' vid' ⟨index, text, hcell, -⟩
        exact Option.some_ne_none text (hcell.symm.trans (hempty index))
      · obtain ⟨fid'', mac', hfdb', rfl⟩ := h.mem_fdbIds.1 hfid'
        obtain ⟨hnames, hne⟩ := hall fid'' mac' hfdb'
        exact ⟨(hnamed.names vids hvids fid'' (Nat.cast_ne_zero.2 hne)).2 hnames,
          Nat.cast_ne_zero.2 hne⟩

/-! ### Hosts -/

/-- The rows are the learned hosts whose port has an interface. -/
theorem Outcome.Fdb.mem_learned_iff {rd : MacRead} {f : Outcome} (h : f.Fdb agent)
    {base : Dict Oid String} (hbase : base.get? = (agent f.access).cell dot1dBasePortIfindex)
    {vlan : Entry → Option ℤ} {dropped : Dropped} {row : Row} :
    row ∈ (learnedRows rd.ifaces (MacRead.entriesOf true f vlan) base dropped).rows ↔
      ∃ fid mac port ifIndex, (agent f.access).Learned rd.ifaces.own fid mac port ∧
        rd.Resolves (agent f.access) port ifIndex ∧
          row = ⟨mac, ifIndex, vlan ((agent f.access).fdbEntry fid mac), some fid, port,
            ((agent f.access).fdbEntry fid mac).status⟩ := by
  have hmapped : ∀ {fid mac port}, (agent f.access).Learned rd.ifaces.own fid mac port →
      ∀ ifIndex, (mapBridgePorts rd.ifaces
        (keptPorts rd.ifaces (parseFdbTable true f.walked.rows)) base).1 port = some ifIndex ↔
          rd.Resolves (agent f.access) port ifIndex := by
    intro fid mac port hlearned ifIndex
    have hport := h.mem_keptPorts.2 ⟨fid, mac, hlearned⟩
    rw [mapBridgePorts_eq_some, hbase]
    have hall : AllPorts rd.ifaces (keptPorts rd.ifaces (parseFdbTable true f.walked.rows)) ↔
        ∀ fid mac port', (agent f.access).Learned rd.ifaces.own fid mac port' →
          rd.ifaces.isPort (toString port') = true :=
      ⟨fun hall fid mac port' hlearned' ↦
        hall port' (h.mem_keptPorts.2 ⟨fid, mac, hlearned'⟩) hlearned'.nonzero,
      fun hall port' hport' _ ↦ by
        obtain ⟨fid, mac, hlearned'⟩ := h.mem_keptPorts.1 hport'
        exact hall fid mac port' hlearned'⟩
    rw [hall]
    exact ⟨fun h ↦ h.2.2, fun h ↦ ⟨hport, hlearned.nonzero, h⟩⟩
  rw [MacRead.mem_learnedRows_entriesOf]
  constructor
  · rintro ⟨entry, hentry, hdrop, port, ifIndex, hport, hmap, rfl⟩
    obtain ⟨fid, mac, -, rfl⟩ := h.mem_parseFdbTable.1 hentry
    have hlearned := Mib.learned_iff.2 ⟨hdrop, hport⟩
    exact ⟨fid, mac, port, ifIndex, hlearned, (hmapped hlearned ifIndex).1 hmap, rfl⟩
  · rintro ⟨fid, mac, port, ifIndex, hlearned, hresolves, rfl⟩
    obtain ⟨hdrop, hport⟩ := Mib.learned_iff.1 hlearned
    exact ⟨_, h.mem_parseFdbTable.2 ⟨fid, mac, hlearned.hasFdb, rfl⟩, hdrop, port, ifIndex, hport,
      (hmapped hlearned ifIndex).2 hresolves, rfl⟩

/-! ### Logical units -/

/-- A complete walk of ifStackTable folds a unit onto its port. -/
theorem get?_unitPorts_iff {rd : MacRead} {ifStack : Dict Oid String}
    (hstack : ifStack.get? = m.cell ifStackStatus) {unit port : String} :
    (unitPorts rd.ifaces ifStack).get? unit = some port ↔ rd.FoldsOnto m unit port := by
  rw [get?_unitPorts, hstack, MacRead.FoldsOnto, MacRead.isLogical, Bool.and_eq_true,
    Bool.not_eq_true']

/-- So a row's interface is the one its host is taken to be on. -/
theorem folds_iff {rd : MacRead} {ifStack : Dict Oid String}
    (hstack : ifStack.get? = m.cell ifStackStatus) {row : Row} {ifIndex : String} :
    (row.fold (unitPorts rd.ifaces ifStack)).ifIndex = ifIndex ↔
      rd.Folds m row.ifIndex ifIndex := by
  show ((unitPorts rd.ifaces ifStack).get? row.ifIndex).getD row.ifIndex = ifIndex ↔ _
  rcases hget : (unitPorts rd.ifaces ifStack).get? row.ifIndex with - | port
  · have hno : ∀ port, ¬ rd.FoldsOnto m row.ifIndex port := fun port hfolds ↦
      Option.some_ne_none port (((get?_unitPorts_iff hstack).2 hfolds).symm.trans hget)
    exact ⟨fun h ↦ .inr ⟨hno, h.symm⟩, fun h ↦ (h.resolve_left (hno _)).2.symm⟩
  · have hyes := (get?_unitPorts_iff hstack).1 hget
    refine ⟨fun h ↦ .inl (h ▸ hyes), fun h ↦ ?_⟩
    exact hyes.unique (h.resolve_right fun hno ↦ hno.1 port hyes)

/-- Where no interface is a logical unit nothing is folded. -/
theorem folds_of_not_isLogical {rd : MacRead} {ifIndex ifIndex' : String}
    (h : rd.isLogical ifIndex = false) : rd.Folds m ifIndex ifIndex' ↔ ifIndex' = ifIndex := by
  have hno : ∀ port, ¬ rd.FoldsOnto m ifIndex port := fun port hfolds ↦
    Bool.false_ne_true (h.symm.trans hfolds.1)
  exact ⟨fun hfolds ↦ (hfolds.resolve_left (hno _)).2, fun heq ↦ .inr ⟨hno, heq⟩⟩

end Snmp
