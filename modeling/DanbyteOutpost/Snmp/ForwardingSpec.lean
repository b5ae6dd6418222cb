import DanbyteOutpost.Snmp.Forwarding
import DanbyteOutpost.Snmp.WalkRows

/-!
# What the pure part of a MAC read computes

One lemma for each function of the pure part: when it answers, and with what, in terms of the rows
of the walked tables.

The specifications are equivalences wherever the function looks at rows one by one
(`mem_parseFdbTable`, `mem_learnedRows`), and say what a look-up finds wherever it builds a `dict`
first (`get?_basePorts`, `get?_unitPorts`). A predicate on the columns of a table (`UsesFdb`,
`BasePort`, `StacksOn`) says the same of walked rows as of an agent's own, so the specification of
a complete walk carries a statement from one to the other.
-/

namespace Snmp

open PyText

/-! ### Columns -/

/-- A column of rows has the cells that are there. -/
theorem get?_column (rows : Rows String) (key : String) (index : Oid) :
    (column rows key).get? index = cellOf rows index key :=
  Dict.get?_filterMapValues rows _ index

/-! ### Entries -/

/-- The index of an entry is its FDB id, if the table has them, and the octets of its address. -/
theorem entryKey_eq_some {qbridge : Bool} {index : Oid} {fdbId : Option ℤ} {mac : Mac} :
    entryKey qbridge index = some (fdbId, mac) ↔
      (qbridge = true ∧ ∃ fid : ℕ, fdbId = some (fid : ℤ) ∧ index = fid :: mac.octets) ∨
        (qbridge = false ∧ fdbId = none ∧ index = mac.octets) := by
  unfold entryKey
  rcases qbridge with - | -
  · rw [if_neg Bool.false_ne_true, Option.map_eq_some_iff]
    constructor
    · rintro ⟨mac', hmac, heq⟩
      obtain ⟨rfl, rfl⟩ := Prod.mk.inj heq
      exact .inr ⟨rfl, rfl, Mac.fromIndex_eq_some.1 hmac⟩
    · rintro (⟨hno, -⟩ | ⟨-, rfl, rfl⟩)
      · cases hno
      · exact ⟨mac, Mac.fromIndex_eq_some.2 rfl, rfl⟩
  · rw [if_pos rfl]
    constructor
    · intro h
      split at h
      case h_1 fid parts =>
        obtain ⟨mac', hmac, heq⟩ := Option.map_eq_some_iff.1 h
        obtain ⟨rfl, rfl⟩ := Prod.mk.inj heq
        exact .inl ⟨rfl, fid, rfl, congrArg _ (Mac.fromIndex_eq_some.1 hmac)⟩
      case h_2 => cases h
    · rintro (⟨-, fid, rfl, rfl⟩ | ⟨hno, -⟩)
      · exact Option.map_eq_some_iff.2 ⟨mac, Mac.fromIndex_eq_some.2 rfl, rfl⟩
      · cases hno

/-- An entry is what its index and its cells say. -/
theorem entryOf_eq_some {qbridge : Bool} {index : Oid} {row : Dict String String} {entry : Entry} :
    entryOf qbridge index row = some entry ↔
      entryKey qbridge index = some (entry.fdbId, entry.mac) ∧
      entry.bridgePort = (row.get? "port").bind intOfText ∧
        entry.status = fdbStatus (row.get? "status") ∧ entry.vlan = none := by
  rw [entryOf, Option.map_eq_some_iff]
  constructor
  · rintro ⟨key, hkey, rfl⟩
    exact ⟨hkey, rfl, rfl, rfl⟩
  · obtain ⟨mac, fdbId, bridgePort, status, vlan⟩ := entry
    rintro ⟨hkey, hport, hstatus, hvlan⟩
    dsimp only at hkey hport hstatus hvlan
    subst hport hstatus hvlan
    exact ⟨_, hkey, rfl⟩

/-- There is one for each row whose index can be read. -/
theorem mem_parseFdbTable {qbridge : Bool} {rows : Rows String} {entry : Entry} :
    entry ∈ parseFdbTable qbridge rows ↔
      ∃ index row, rows.get? index = some row ∧ entryOf qbridge index row = some entry := by
  rw [parseFdbTable, List.mem_filterMap]
  exact ⟨fun ⟨e, he, hentry⟩ ↦ ⟨e.1, e.2, Dict.get?_of_mem he, hentry⟩,
    fun ⟨index, row, hget, hentry⟩ ↦ ⟨(index, row), Dict.mem_items_iff.2 hget, hentry⟩⟩

/-! ### VLANs -/

/-- A row of dot1qVlanFdbId says that a VLAN uses a forwarding database, if it is a VLAN. -/
theorem fdbUser_eq_some {e : Oid × String} {fid vid : ℤ} :
    fdbUser e = some (fid, vid) ↔
      lastPart e.1 = some vid ∧ isVlan vid = true ∧ intOfText e.2 = some fid := by
  simp only [fdbUser, Option.bind_eq_bind, Option.bind_eq_some_iff, Option.filter_eq_some_iff,
    Option.pure_def, Option.some.injEq, Prod.mk.injEq]
  constructor
  · rintro ⟨vid', ⟨hlast, hvlan⟩, fid', htext, rfl, rfl⟩
    exact ⟨hlast, hvlan, htext⟩
  · rintro ⟨hlast, hvlan, htext⟩
    exact ⟨vid, ⟨hlast, hvlan⟩, fid, htext, rfl, rfl⟩

/-- A row says that the VLAN uses the FDB id. -/
def UsesFdb (cell : Oid → Option String) (fid vid : ℤ) : Prop :=
  ∃ index text, cell index = some text ∧ lastPart index = some vid ∧ isVlan vid = true ∧
    intOfText text = some fid

/-- The users of the databases are those of the table. -/
theorem mem_fdbUsers {vlanFdb : Dict Oid String} {fid vid : ℤ} :
    (fid, vid) ∈ vlanFdb.items.filterMap fdbUser ↔ UsesFdb vlanFdb.get? fid vid := by
  rw [List.mem_filterMap]
  constructor
  · rintro ⟨e, he, hsome⟩
    exact ⟨e.1, e.2, Dict.get?_of_mem he, fdbUser_eq_some.1 hsome⟩
  · rintro ⟨index, text, hget, h⟩
    exact ⟨(index, text), Dict.mem_items_iff.2 hget, fdbUser_eq_some.2 h⟩

/-- There are users if a VLAN uses a database. -/
theorem fdbUsers_items_ne_nil {vlanFdb : Dict Oid String} :
    (fdbUsers vlanFdb).items ≠ [] ↔ ∃ fid vid, UsesFdb vlanFdb.get? fid vid := by
  simp only [fdbUsers, Dict.items_ne_nil_iff, Dict.mem_keys_group, mem_fdbUsers]

/-- An FDB id is mapped to its one user among the rows; or, where the rows say of no VLAN what it
uses, to itself if every FDB id is a named VLAN. -/
theorem mapFdbVlans_eq_some {fdbIds : List ℤ} {vlanFdb : Dict Oid String} {named : Option (List ℤ)}
    {fid vid : ℤ} :
    (mapFdbVlans fdbIds vlanFdb named).1 fid = some vid ↔ fid ∈ fdbIds ∧
      ((∀ vid', UsesFdb vlanFdb.get? fid vid' ↔ vid' = vid) ∨
        (∀ fid' vid', ¬ UsesFdb vlanFdb.get? fid' vid') ∧ vid = fid ∧
          ∃ vids ∈ named, ∀ fid' ∈ fdbIds, fid' ∈ vids ∧ fid' ≠ 0) := by
  rw [mapFdbVlans]
  dsimp only
  split
  case isTrue husers =>
    -- some VLAN names its FDB id, so none is taken for the FDB id itself
    obtain ⟨fid₀, vid₀, huses⟩ := fdbUsers_items_ne_nil.1 husers
    dsimp only
    split
    case isFalse hmem =>
      exact ⟨fun h ↦ (Option.some_ne_none _ h.symm).elim, fun h ↦ absurd h.1 hmem⟩
    case isTrue hmem =>
      rw [onlyOne_eq_some, fdbUsers, Dict.members_group_eq_singleton]
      simp only [mem_fdbUsers]
      exact ⟨fun h ↦ ⟨hmem, .inl h⟩, fun h ↦ h.2.resolve_right fun hno ↦ hno.1 _ _ huses⟩
  case isFalse husers =>
    have hnone : ∀ fid' vid', ¬ UsesFdb vlanFdb.get? fid' vid' :=
      fun fid' vid' huses ↦ husers (fdbUsers_items_ne_nil.2 ⟨fid', vid', huses⟩)
    have hsub : fdbIds ⊆ (named.getD []).filter (· ≠ 0) ↔
        ∀ fid' ∈ fdbIds, fid' ∈ named.getD [] ∧ fid' ≠ 0 := by
      simp only [List.subset_def, List.mem_filter, decide_eq_true_eq]
    split
    case isFalse hno =>
      refine ⟨fun h ↦ (Option.some_ne_none _ h.symm).elim, fun ho ↦ ?_⟩
      obtain ⟨hmem, h⟩ := ho
      obtain ⟨-, -, vids, rfl, hall⟩ := h.resolve_left fun hone ↦ hnone _ _ ((hone vid).2 rfl)
      exact absurd ⟨List.ne_nil_of_mem hmem, hsub.2 hall⟩ hno
    case isTrue hyes =>
      dsimp only
      split
      case isFalse hmem =>
        exact ⟨fun h ↦ (Option.some_ne_none _ h.symm).elim, fun h ↦ absurd h.1 hmem⟩
      case isTrue hmem =>
        have hall := hsub.1 hyes.2
        refine ⟨fun h ↦ ⟨hmem, .inr ⟨hnone, (Option.some.inj h).symm, ?_⟩⟩, fun h ↦ ?_⟩
        · rcases named with - | vids
          · exact absurd (hall fid hmem).1 List.not_mem_nil
          · exact ⟨vids, rfl, hall⟩
        · exact congrArg some
            (h.2.resolve_left fun hone ↦ hnone _ _ ((hone vid).2 rfl)).2.1.symm

/-! ### Ports -/

/-- A row gives a bridge port its interface. -/
def BasePort (cell : Oid → Option String) (port : ℤ) (ifIndex : String) : Prop :=
  ∃ (p : ℕ) (text : String) (index : ℤ), cell [p] = some text ∧ intOfText text = some index ∧
    p ≠ 0 ∧ index ≠ 0 ∧ port = p ∧ ifIndex = toString index

/-- A row of dot1dBasePortIfIndex says which interface a bridge port is, if neither is 0. -/
theorem basePort_eq_some {e : Oid × String} {port : ℤ} {ifIndex : String} :
    basePort e = some (port, ifIndex) ↔ ∃ (p : ℕ) (index : ℤ), e.1 = [p] ∧
      intOfText e.2 = some index ∧ p ≠ 0 ∧ index ≠ 0 ∧ port = p ∧ ifIndex = toString index := by
  rw [basePort]
  split
  case h_1 p hp =>
    simp only [Option.bind_eq_some_iff, Option.filter_eq_some_iff, hp, decide_eq_true_eq]
    constructor
    · rintro ⟨index, ⟨htext, hne⟩, hsome⟩
      split at hsome
      case isFalse => cases hsome
      case isTrue hp0 =>
        obtain ⟨rfl, rfl⟩ := Prod.mk.inj (Option.some.inj hsome)
        exact ⟨p, index, rfl, htext, hp0, hne, rfl, rfl⟩
    · rintro ⟨p', index, heq, htext, hp0, hne, rfl, rfl⟩
      obtain rfl := (List.cons.inj heq).1
      exact ⟨index, ⟨htext, hne⟩, if_pos hp0⟩
  case h_2 hno =>
    refine ⟨nofun, ?_⟩
    rintro ⟨p, index, hp, -⟩
    exact absurd hp (hno p)

/-- The ports of the bridge are those of the table. -/
theorem get?_basePorts {base : Dict Oid String} {port : ℤ} {ifIndex : String} :
    (basePorts base).get? port = some ifIndex ↔ BasePort base.get? port ifIndex := by
  have hnodup : ((base.items.filterMap basePort).map Prod.fst).Nodup := by
    refine List.pairwise_map.2 ((List.pairwise_map.1 base.nodup).filterMap _ ?_)
    intro e e' hne entry hentry entry' hentry' heq
    obtain ⟨p, -, hp, -, -, -, hport, -⟩ := basePort_eq_some.1 (Option.mem_def.1 hentry)
    obtain ⟨p', -, hp', -, -, -, hport', -⟩ := basePort_eq_some.1 (Option.mem_def.1 hentry')
    have : p = p' := by omega
    exact hne (hp.trans (this ▸ hp'.symm))
  rw [basePorts, Dict.get?_ofList_iff hnodup, List.mem_filterMap]
  constructor
  · rintro ⟨e, he, hsome⟩
    obtain ⟨p, index, hp, htext, hne, hne', rfl, rfl⟩ := basePort_eq_some.1 hsome
    exact ⟨p, e.2, index, hp ▸ Dict.get?_of_mem he, htext, hne, hne', rfl, rfl⟩
  · rintro ⟨p, text, index, hget, htext, hne, hne', rfl, rfl⟩
    exact ⟨([p], text), Dict.mem_items_iff.2 hget,
      basePort_eq_some.2 ⟨p, index, rfl, htext, hne, hne', rfl, rfl⟩⟩

theorem basePorts_items_ne_nil {base : Dict Oid String} :
    (basePorts base).items ≠ [] ↔ ∃ port ifIndex, BasePort base.get? port ifIndex := by
  simp only [Dict.items_ne_nil_iff, Dict.mem_keys_iff, get?_basePorts]

/-- Every port there is is an ethernet port or an aggregate. -/
def AllPorts (ifaces : Ifaces) (ports : List ℤ) : Prop :=
  ∀ port ∈ ports, port ≠ 0 → ifaces.isPort (toString port) = true

/-- A bridge port is mapped by its row; or, where no row is usable, to itself if all are ports. -/
theorem mapBridgePorts_eq_some {ifaces : Ifaces} {ports : List ℤ} {base : Dict Oid String}
    {port : ℤ} {ifIndex : String} :
    (mapBridgePorts ifaces ports base).1 port = some ifIndex ↔ port ∈ ports ∧ port ≠ 0 ∧
      (BasePort base.get? port ifIndex ∨ (∀ port' ifIndex', ¬ BasePort base.get? port' ifIndex') ∧
        AllPorts ifaces ports ∧ ifIndex = toString port) := by
  have hmem : port ∈ ports.filter (· ≠ 0) ↔ port ∈ ports ∧ port ≠ 0 := by
    rw [List.mem_filter, decide_eq_true_eq]
  unfold mapBridgePorts
  dsimp only
  split
  case isTrue husable =>
    -- one row of the table is usable, so no port is taken for its own ifIndex
    obtain ⟨port₀, ifIndex₀, hbase⟩ := basePorts_items_ne_nil.1 husable
    dsimp only
    split
    case isFalse hno =>
      exact ⟨fun h ↦ (Option.some_ne_none _ h.symm).elim,
        fun h ↦ absurd (hmem.2 ⟨h.1, h.2.1⟩) hno⟩
    case isTrue hyes =>
      rw [get?_basePorts]
      obtain ⟨hport, hne⟩ := hmem.1 hyes
      exact ⟨fun h ↦ ⟨hport, hne, .inl h⟩, fun h ↦ h.2.2.resolve_right fun hno ↦ hno.1 _ _ hbase⟩
  case isFalse husable =>
    have hnone : ∀ port' ifIndex', ¬ BasePort base.get? port' ifIndex' :=
      fun port' ifIndex' hbase ↦ husable (basePorts_items_ne_nil.2 ⟨port', ifIndex', hbase⟩)
    have hall : AllPorts ifaces ports ↔
        ∀ port ∈ ports.filter (· ≠ 0), ifaces.isPort (toString port) = true := by
      simp only [AllPorts, List.mem_filter, decide_eq_true_eq, and_imp]
    split
    case isFalse hno =>
      refine ⟨fun h ↦ (Option.some_ne_none _ h.symm).elim, fun ho ↦ ?_⟩
      obtain ⟨hport, hne, h⟩ := ho
      obtain ⟨-, hports, -⟩ := h.resolve_left (hnone _ _)
      exact absurd ⟨List.ne_nil_of_mem (hmem.2 ⟨hport, hne⟩), hall.1 hports⟩ hno
    case isTrue hyes =>
      dsimp only
      split
      case isFalse hno =>
        exact ⟨fun h ↦ (Option.some_ne_none _ h.symm).elim,
          fun h ↦ absurd (hmem.2 ⟨h.1, h.2.1⟩) hno⟩
      case isTrue hport =>
        refine ⟨fun h ↦ ⟨(hmem.1 hport).1, (hmem.1 hport).2, .inr ⟨hnone, hall.2 hyes.2,
          (Option.some.inj h).symm⟩⟩, fun h ↦ ?_⟩
        exact congrArg some (h.2.2.resolve_left (hnone _ _)).2.2.symm

/-! ### The filter -/

/-- An entry stays if it is neither the bridge's own nor invalid, its address is one of a host that
is not the device itself, and it has a port. -/
theorem Entry.drop_eq_none {own : List String} {entry : Entry} :
    entry.drop own = none ↔ (entry.status ≠ .self ∧ entry.status ≠ .invalid) ∧
      entry.mac.dropReason own = none ∧ entry.bridgePort.getD 0 ≠ 0 := by
  rw [drop]
  split
  case isTrue h =>
    refine ⟨nofun, fun hno ↦ ?_⟩
    exact (h.elim hno.1.1 hno.1.2).elim
  case isFalse h =>
    rw [not_or] at h
    rcases entry.mac.dropReason own with - | (- | -)
    · dsimp only
      split
      case isTrue hzero => exact ⟨nofun, fun hno ↦ absurd hzero hno.2.2⟩
      case isFalse hport => exact ⟨fun _ ↦ ⟨h, rfl, hport⟩, fun _ ↦ rfl⟩
    · exact ⟨nofun, nofun⟩
    · exact ⟨nofun, nofun⟩

theorem mem_keep {own : List String} {entries : List Entry} {entry : Entry} :
    entry ∈ keep own entries ↔ entry ∈ entries ∧ entry.drop own = none := by
  rw [keep, List.mem_filter, decide_eq_true_eq]

/-- The bridge ports of the entries the filter leaves. -/
def keptPorts (ifaces : Ifaces) (entries : List Entry) : List ℤ :=
  (keep ifaces.own entries).filterMap Entry.bridgePort

/-- The ports that survive are those of entries that stay. -/
theorem mem_keptPorts {ifaces : Ifaces} {entries : List Entry} {port : ℤ} :
    port ∈ keptPorts ifaces entries ↔
      ∃ entry ∈ entries, entry.drop ifaces.own = none ∧ entry.bridgePort = some port := by
  simp only [keptPorts, List.mem_filterMap, mem_keep, and_assoc]

/-- The filter does not look at VLANs. -/
theorem Entry.drop_vlan (own : List String) (entry : Entry) (vlan : Option ℤ) :
    ({ entry with vlan := vlan } : Entry).drop own = entry.drop own := by
  unfold drop
  dsimp only

/-- Which VLANs the entries have is of no concern to the ports. -/
theorem keptPorts_map_vlan (ifaces : Ifaces) (entries : List Entry) (vlan : Entry → Option ℤ) :
    keptPorts ifaces (entries.map fun entry ↦ { entry with vlan := vlan entry }) =
      keptPorts ifaces entries := by
  have hdrop : (fun entry : Entry ↦ decide (entry.drop ifaces.own = none)) ∘
      (fun entry : Entry ↦ ({ entry with vlan := vlan entry } : Entry)) =
        fun entry : Entry ↦ decide (entry.drop ifaces.own = none) := by
    funext entry
    exact congrArg (fun drop ↦ decide (drop = none)) (entry.drop_vlan ifaces.own (vlan entry))
  rw [keptPorts, keep, List.filter_map, List.filterMap_map, hdrop]
  rfl

/-- An entry makes a row if its port is known. -/
theorem Entry.row_eq_some {mapping : ℤ → Option String} {entry : Entry} {row : Row} :
    entry.row mapping = some row ↔ ∃ port ifIndex, entry.bridgePort = some port ∧
      mapping port = some ifIndex ∧ row = ⟨entry.mac, ifIndex, entry.vlan, entry.fdbId, port,
        entry.status⟩ := by
  simp only [Entry.row, Option.bind_eq_bind, Option.bind_eq_some_iff, Option.pure_def,
    Option.some.injEq]
  constructor
  · rintro ⟨port, hport, ifIndex, hmap, rfl⟩
    exact ⟨port, ifIndex, hport, hmap, rfl⟩
  · rintro ⟨port, ifIndex, hport, hmap, rfl⟩
    exact ⟨port, hport, ifIndex, hmap, rfl⟩

/-- A row is an entry the filter leaves, with its port mapped. -/
theorem mem_learnedRows {ifaces : Ifaces} {entries : List Entry} {base : Dict Oid String}
    {dropped : Dropped} {row : Row} :
    row ∈ (learnedRows ifaces entries base dropped).rows ↔
      ∃ entry ∈ entries, entry.drop ifaces.own = none ∧ entry.row
        (mapBridgePorts ifaces (keptPorts ifaces entries) base).1 = some row := by
  rw [learnedRows]
  dsimp only
  split
  case isTrue hnil =>
    refine ⟨fun h ↦ absurd h List.not_mem_nil, fun ⟨entry, hmem, hdrop, _⟩ ↦ ?_⟩
    have hkept := mem_keep.2 ⟨hmem, hdrop⟩
    rw [hnil] at hkept
    exact absurd hkept List.not_mem_nil
  case isFalse =>
    dsimp only
    simp only [List.mem_filterMap, mem_keep, and_assoc]
    rfl

/-! ### Logical units -/

/-- A row stacks a unit on a lower layer. -/
def StacksOn (cell : Oid → Option String) (unit lower : String) : Prop :=
  ∃ index text, cell index = some text ∧ stacked (index, text) = some (unit, lower)

/-- A unit is folded onto the one port it is stacked on. -/
theorem get?_unitPorts {ifaces : Ifaces} {ifStack : Dict Oid String} {unit port : String} :
    (unitPorts ifaces ifStack).get? unit = some port ↔
      (ifaces.known unit = true ∧ ifaces.isPort unit = false) ∧
        ∀ lower, StacksOn ifStack.get? unit lower ∧ ifaces.isPort lower = true ↔ lower = port := by
  have hstacked : ∀ lower, (unit, lower) ∈ ifStack.items.filterMap stacked ↔
      StacksOn ifStack.get? unit lower := by
    intro lower
    rw [List.mem_filterMap]
    constructor
    · rintro ⟨e, he, hs⟩
      exact ⟨e.1, e.2, Dict.get?_of_mem he, hs⟩
    · rintro ⟨index, text, hget, hs⟩
      exact ⟨(index, text), Dict.mem_items_iff.2 hget, hs⟩
  have hbelow : (((Dict.group (ifStack.items.filterMap stacked)).get? unit).bind
      ifaces.portBelow = some port) ↔
        ∀ lower, StacksOn ifStack.get? unit lower ∧ ifaces.isPort lower = true ↔ lower = port := by
    simp only [← hstacked]
    rw [← Dict.filter_members_group_eq_singleton, Dict.members]
    rcases (Dict.group (ifStack.items.filterMap stacked)).get? unit with - | below
    · exact iff_of_false (fun h ↦ Option.some_ne_none _ h.symm) (List.cons_ne_nil _ _).symm
    · exact onlyOne_eq_some
  have hunit : (ifaces.known unit && !ifaces.isPort unit) = true ↔
      ifaces.known unit = true ∧ ifaces.isPort unit = false := by
    rw [Bool.and_eq_true, Bool.not_eq_true']
  rw [unitPorts, Dict.get?_filterMapValues, Dict.get?_restrict, ← hunit]
  split
  case isTrue hyes => exact ⟨fun h ↦ ⟨hyes, hbelow.1 h⟩, fun h ↦ hbelow.2 h.2⟩
  case isFalse hno =>
    exact ⟨fun h ↦ (Option.some_ne_none _ h.symm).elim, fun h ↦ absurd h.1 hno⟩

end Snmp
