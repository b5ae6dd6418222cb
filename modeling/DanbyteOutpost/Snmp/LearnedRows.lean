import DanbyteOutpost.Data.Sieve
import DanbyteOutpost.Snmp.AnyOrder
import DanbyteOutpost.Snmp.OidText

/-!
# What becomes of the entries of a forwarding table

`learned_rows` goes through the entries twice. The first loop leaves out what is no learned host on
a port; then the ports of all that are left decide together how a port is mapped; the second loop
leaves out what is mapped to nothing. With the mapping settled, the two loops are one sieve: an
entry becomes a row or raises a counter. The base-port map is one of texts here, whatever they are;
that of a walk, by index, is a case of it (`learnedRows_eq_learnedLoops`).

## The proof

`Entry.fate` is what becomes of one entry once it is known how ports are mapped: a row, or the
reason it is dropped. `learnedLoops_sieve` says that the two loops are one sieve of it, and the
laws of sieves (`Sieve.foldl_turn`, `Sieve.count_refused`) are then those of the loops. How ports
are mapped depends on the ports of the entries that pass the first loop, as a set
(`mapPorts_congr`).
-/

namespace Snmp

open PyText

/-! ### The counters -/

namespace Dropped

/-- `dropped[reason]`. -/
def of (dropped : Dropped) : Drop → ℕ
  | .self => dropped.self
  | .group => dropped.group
  | .own => dropped.own
  | .port0 => dropped.port0
  | .unmapped => dropped.unmapped

/-- All that was left out. -/
def total (dropped : Dropped) : ℕ :=
  dropped.self + dropped.port0 + dropped.group + dropped.own + dropped.unmapped

/-- Counting raises the one counter. -/
theorem of_count (dropped : Dropped) (reason reason' : Drop) :
    (dropped.count reason).of reason' = dropped.of reason' + if reason = reason' then 1 else 0 := by
  cases reason <;> cases reason' <;> rfl

/-- Each entry that is dropped counts once. -/
theorem total_count (dropped : Dropped) (reason : Drop) :
    (dropped.count reason).total = dropped.total + 1 := by
  cases reason <;> simp only [count, total] <;> omega

theorem of_foldl_count (dropped : Dropped) (reasons : List Drop) (reason : Drop) :
    (reasons.foldl count dropped).of reason = dropped.of reason + reasons.count reason := by
  induction reasons generalizing dropped with
  | nil => rfl
  | cons reason' reasons ih =>
    rw [List.foldl_cons, ih, of_count, List.count_cons, add_assoc, add_comm (reasons.count reason)]
    simp only [beq_iff_eq]

theorem total_foldl_count (dropped : Dropped) (reasons : List Drop) :
    (reasons.foldl count dropped).total = dropped.total + reasons.length := by
  induction reasons generalizing dropped with
  | nil => rfl
  | cons reason reasons ih =>
    rw [List.foldl_cons, ih, total_count, List.length_cons]
    omega

end Dropped

/-! ### Base ports as text -/

/-- The bridge port and the ifIndex that a port and an index of `base_port_ifindex` stand for. -/
def basePortOfText (e : String × String) : Option (ℤ × String) := do
  let port ← (intOfText e.1).filter (· ≠ 0)
  let index ← (intOfText e.2).filter (· ≠ 0)
  return (port, toString index)

/-- `base` -/
def basePortsOfText (base : Dict String String) : Dict ℤ String :=
  Dict.ofList (base.items.filterMap basePortOfText)

/-- `map_bridge_ports(ports, base_port_ifindex)`, of the usable part of the table. -/
def mapPorts (ifaces : Ifaces) (ports : List ℤ) (base : Dict ℤ String) :
    (ℤ → Option String) × PortMap :=
  let ports := ports.filter (· ≠ 0)
  if base.items ≠ [] then (fun port ↦ if port ∈ ports then base.get? port else none, .basePort)
  else if ports ≠ [] ∧ ∀ port ∈ ports, ifaces.isPort (toString port) then
    (fun port ↦ if port ∈ ports then some (toString port) else none, .assumed)
  else (fun _ ↦ none, .none)

/-- The ports are mapped by the table of base ports alone. -/
theorem mapBridgePorts_eq_mapPorts (ifaces : Ifaces) (ports : List ℤ) (base : Dict Oid String) :
    mapBridgePorts ifaces ports base = mapPorts ifaces ports (basePorts base) := rfl

/-- A map by index, by the text of the index. -/
def byText (base : Dict Oid String) : Dict String String where
  items := base.items.map fun e ↦ (dotted e.1, e.2)
  nodup := by
    have hkeys : (base.items.map fun e ↦ (dotted e.1, e.2)).map Prod.fst =
        (base.items.map Prod.fst).map dotted := by
      rw [List.map_map, List.map_map]
      rfl
    rw [hkeys]
    exact base.nodup.map dotted_injective

/-- A row of the table says the same by its text as by its parts. -/
theorem basePortOfText_dotted (e : Oid × String) :
    basePortOfText (dotted e.1, e.2) = basePort e := by
  refine Option.ext fun ⟨port, ifIndex⟩ ↦ ?_
  rw [basePort_eq_some]
  simp only [basePortOfText, Option.bind_eq_bind, Option.bind_eq_some_iff,
    Option.filter_eq_some_iff, intOfText_dotted_eq_some, decide_eq_true_eq, Option.pure_def,
    Option.some.injEq, Prod.mk.injEq]
  constructor
  · intro h
    obtain ⟨n, ⟨⟨p, hp, rfl⟩, hne⟩, index, ⟨htext, hne'⟩, rfl, rfl⟩ := h
    exact ⟨p, index, hp, htext, Int.natCast_ne_zero.1 hne, hne', rfl, rfl⟩
  · intro h
    obtain ⟨p, index, hp, htext, hne, hne', rfl, rfl⟩ := h
    exact ⟨p, ⟨⟨p, hp, rfl⟩, Int.natCast_ne_zero.2 hne⟩, index, ⟨htext, hne'⟩, rfl, rfl⟩

theorem basePortsOfText_byText (base : Dict Oid String) :
    basePortsOfText (byText base) = basePorts base := by
  rw [basePortsOfText, basePorts, byText, List.filterMap_map]
  exact congrArg Dict.ofList (List.filterMap_congr fun e _ ↦ basePortOfText_dotted e)

/-! ### The two loops -/

/-- What the first loop makes of an entry. -/
def Entry.filtered (own : List String) (entry : Entry) : Entry ⊕ Drop :=
  match entry.drop own with
  | some reason => .inr reason
  | none => .inl entry

/-- What the second loop makes of it. -/
def Entry.mapped (mapping : ℤ → Option String) (entry : Entry) : Row ⊕ Drop :=
  match entry.row mapping with
  | some row => .inl row
  | none => .inr .unmapped

/-- What becomes of an entry: its row, or the counter it raises. -/
def Entry.fate (own : List String) (mapping : ℤ → Option String) : Entry → Row ⊕ Drop :=
  Sieve.andThen (Entry.filtered own) (Entry.mapped mapping)

/-- `learned_rows`, loop by loop. -/
def learnedLoops (ifaces : Ifaces) (entries : List Entry) (base : Dict String String)
    (dropped : Dropped) : Learned :=
  let kept := entries.foldl (Sieve.turn Dropped.count (Entry.filtered ifaces.own)) ([], dropped)
  if kept.1 = [] then { rows := [], portMap := none, dropped := kept.2 }
  else
    let mapping := mapPorts ifaces (kept.1.filterMap Entry.bridgePort) (basePortsOfText base)
    let mapped := kept.1.foldl (Sieve.turn Dropped.count (Entry.mapped mapping.1)) ([], kept.2)
    { rows := mapped.1, portMap := some mapping.2, dropped := mapped.2 }

/-- The first loop keeps what is not dropped. -/
theorem kept_filtered (own : List String) (entries : List Entry) :
    Sieve.kept (Entry.filtered own) entries = keep own entries := by
  rw [Sieve.kept, keep, ← List.filterMap_eq_filter]
  refine List.filterMap_congr fun entry _ ↦ ?_
  rw [Entry.filtered, Option.guard]
  rcases entry.drop own with - | reason <;> rfl

theorem refused_filtered (own : List String) (entries : List Entry) :
    Sieve.refused (Entry.filtered own) entries = entries.filterMap (Entry.drop own) := by
  refine List.filterMap_congr fun entry _ ↦ ?_
  rw [Entry.filtered]
  rcases entry.drop own with - | reason <;> rfl

/-- The second loop makes a row of each entry whose port is mapped. -/
theorem kept_mapped (mapping : ℤ → Option String) (entries : List Entry) :
    Sieve.kept (Entry.mapped mapping) entries = entries.filterMap (Entry.row mapping) := by
  refine List.filterMap_congr fun entry _ ↦ ?_
  rw [Entry.mapped]
  rcases entry.row mapping with - | row <;> rfl

theorem refused_mapped (mapping : ℤ → Option String) (entries : List Entry) :
    Sieve.refused (Entry.mapped mapping) entries =
      (entries.filter fun entry ↦ decide (entry.row mapping = none)).map fun _ ↦ .unmapped := by
  rw [← List.filterMap_eq_map, List.filterMap_filter]
  refine List.filterMap_congr fun entry _ ↦ ?_
  rw [Entry.mapped]
  rcases entry.row mapping with - | row <;> rfl

/-- The filter of a read is the two loops, over the base-port map of its walk. -/
theorem learnedRows_eq_learnedLoops (ifaces : Ifaces) (entries : List Entry)
    (base : Dict Oid String) (dropped : Dropped) :
    learnedRows ifaces entries base dropped =
      learnedLoops ifaces entries (byText base) dropped := by
  rw [learnedRows, learnedLoops, basePortsOfText_byText]
  simp only [Sieve.foldl_turn, List.nil_append, kept_filtered, refused_filtered, kept_mapped,
    refused_mapped, mapBridgePorts_eq_mapPorts]
  rfl

/-- The mapping that the second loop uses. -/
def portMapping (ifaces : Ifaces) (entries : List Entry) (base : Dict String String) :
    ℤ → Option String :=
  (mapPorts ifaces (keptPorts ifaces entries) (basePortsOfText base)).1

/-- The ports of what the first loop keeps. -/
theorem filterMap_bridgePort_kept (ifaces : Ifaces) (entries : List Entry) (dropped : Dropped) :
    (entries.foldl (Sieve.turn Dropped.count (Entry.filtered ifaces.own)) ([], dropped)).1.filterMap
      Entry.bridgePort = keptPorts ifaces entries := by
  rw [Sieve.foldl_turn, List.nil_append, kept_filtered, keptPorts]

/-- Under the mapping that the entries lead to, the two loops are one. -/
theorem learnedLoops_sieve (ifaces : Ifaces) (entries : List Entry) (base : Dict String String)
    (dropped : Dropped) :
    ((learnedLoops ifaces entries base dropped).rows,
      (learnedLoops ifaces entries base dropped).dropped) =
        entries.foldl (Sieve.turn Dropped.count
          (Entry.fate ifaces.own (portMapping ifaces entries base))) ([], dropped) := by
  rw [learnedLoops, Entry.fate, Sieve.foldl_turn_andThen, filterMap_bridgePort_kept, portMapping]
  dsimp only
  split
  case isTrue hnone =>
    rw [hnone]
    rfl
  case isFalse => rfl

/-! ### What the ports decide -/

/-- An entry passes the filters of status and address. -/
def Entry.Survives (own : List String) (entry : Entry) : Prop :=
  (entry.status ≠ .self ∧ entry.status ≠ .invalid) ∧ entry.mac.dropReason own = none

/-- An entry that passes them is on the bridge port. -/
def OnPort (ifaces : Ifaces) (entries : List Entry) (port : ℤ) : Prop :=
  ∃ entry ∈ entries, entry.Survives ifaces.own ∧ entry.bridgePort = some port

/-- The ports that survive have an entry that stays. -/
theorem mem_keptPorts_iff_onPort {ifaces : Ifaces} {entries : List Entry} {port : ℤ} :
    port ∈ keptPorts ifaces entries ↔ port ≠ 0 ∧ OnPort ifaces entries port := by
  rw [mem_keptPorts]
  constructor
  · intro h
    obtain ⟨entry, hmem, hdrop, hport⟩ := h
    obtain ⟨hstatus, hmac, hne⟩ := Entry.drop_eq_none.1 hdrop
    rw [hport, Option.getD_some] at hne
    exact ⟨hne, entry, hmem, ⟨hstatus, hmac⟩, hport⟩
  · intro h
    obtain ⟨hne, entry, hmem, ⟨hstatus, hmac⟩, hport⟩ := h
    refine ⟨entry, hmem, Entry.drop_eq_none.2 ⟨hstatus, hmac, ?_⟩, hport⟩
    rw [hport, Option.getD_some]
    exact hne

/-- Every entry that is left has a port. -/
theorem keptPorts_eq_nil {ifaces : Ifaces} {entries : List Entry} :
    keptPorts ifaces entries = [] ↔ keep ifaces.own entries = [] := by
  constructor
  · intro hnone
    refine List.eq_nil_iff_forall_not_mem.2 fun entry hentry ↦ ?_
    obtain ⟨hmem, hdrop⟩ := mem_keep.1 hentry
    obtain ⟨-, -, hne⟩ := Entry.drop_eq_none.1 hdrop
    rcases hport : entry.bridgePort with - | port
    · rw [hport, Option.getD_none] at hne
      exact hne rfl
    · have hkept : port ∈ keptPorts ifaces entries := mem_keptPorts.2 ⟨entry, hmem, hdrop, hport⟩
      rw [hnone] at hkept
      exact List.not_mem_nil hkept
  · intro hnone
    rw [keptPorts, hnone, List.filterMap_nil]

/-- The mapping depends on which ports there are, not on how often or where. -/
theorem mapPorts_congr {ifaces : Ifaces} {ports ports' : List ℤ} {base : Dict ℤ String}
    (h : ∀ port, port ∈ ports ↔ port ∈ ports') :
    mapPorts ifaces ports base = mapPorts ifaces ports' base := by
  have hmem : ∀ port, port ∈ ports.filter (· ≠ 0) ↔ port ∈ ports'.filter (· ≠ 0) := by
    intro port
    rw [List.mem_filter, List.mem_filter, h]
  have hnone : ports.filter (· ≠ 0) = [] ↔ ports'.filter (· ≠ 0) = [] := by
    simp only [List.eq_nil_iff_forall_not_mem, hmem]
  rw [mapPorts, mapPorts]
  simp only [hmem, hnone, ne_eq]

/-- There is a port map where a port survives, and it is of those ports only. -/
theorem learnedLoops_portMap (ifaces : Ifaces) (entries : List Entry) (base : Dict String String)
    (dropped : Dropped) : (learnedLoops ifaces entries base dropped).portMap =
      if keptPorts ifaces entries = [] then none
      else some (mapPorts ifaces (keptPorts ifaces entries) (basePortsOfText base)).2 := by
  rw [learnedLoops, filterMap_bridgePort_kept]
  simp only [Sieve.foldl_turn, List.nil_append, kept_filtered]
  by_cases hnone : keptPorts ifaces entries = []
  · rw [if_pos hnone, if_pos (keptPorts_eq_nil.1 hnone)]
  · rw [if_neg hnone, if_neg (mt keptPorts_eq_nil.2 hnone)]

/-! ### Conservation -/

/-- The entry of a row. -/
def Row.entry (row : Row) : Entry :=
  { mac := row.mac
    fdbId := row.fdbId
    bridgePort := some row.bridgePort
    status := row.status
    vlan := row.vlan }

/-- A row says all that its entry says. -/
theorem Entry.entry_of_fate {own : List String} {mapping : ℤ → Option String} {entry : Entry}
    {row : Row} (h : entry.fate own mapping = .inl row) : row.entry = entry := by
  rw [fate, Sieve.andThen, filtered] at h
  split at h
  case h_1 => cases h
  case h_2 =>
    rw [Sum.elim_inl, mapped] at h
    split at h
    case h_2 => cases h
    case h_1 row' hrow =>
      obtain rfl := Sum.inl.inj h
      obtain ⟨port, ifIndex, hport, -, rfl⟩ := Entry.row_eq_some.1 hrow
      rw [Row.entry, ← hport]

/-- What `learned_rows` makes of entries: each becomes a row, and the rows stand in the order of the
entries, or raises one counter by one; and how ports are mapped is the same wherever the entries
that pass the filters of status and address are on the same ports. -/
structure Conserved (ifaces : Ifaces) (entries : List Entry) (base : Dict String String)
    (dropped : Dropped) (mapping : ℤ → Option String) (learned : Learned) : Prop where
  /-- The rows are those of the entries that have one. -/
  rows : learned.rows = entries.filterMap fun entry ↦ (entry.fate ifaces.own mapping).getLeft?
  /-- Each at its entry's place. -/
  order : (learned.rows.map Row.entry).Sublist entries
  /-- Each counter has grown by the entries that are left out for its reason. -/
  counters : ∀ reason, learned.dropped.of reason = dropped.of reason +
    entries.countP fun entry ↦ decide (entry.fate ifaces.own mapping = .inr reason)
  /-- Nothing is lost. -/
  total : learned.rows.length + learned.dropped.total = entries.length + dropped.total
  /-- The entries that are left out have no say in how ports are mapped. -/
  portMap : ∀ entries' dropped',
    (∀ port ≠ 0, OnPort ifaces entries' port ↔ OnPort ifaces entries port) →
      (learnedLoops ifaces entries' base dropped').portMap = learned.portMap ∧
        portMapping ifaces entries' base = mapping

/-- Every entry is accounted for.

The two loops are one pass each: the first counts or keeps, the second counts or makes a row. How
ports are mapped is decided in between, from what was kept. -/
theorem learnedLoops_conserved (ifaces : Ifaces) (entries : List Entry) (base : Dict String String)
    (dropped : Dropped) :
    Conserved ifaces entries base dropped (portMapping ifaces entries base)
      (learnedLoops ifaces entries base dropped) := by
  have hsieve := learnedLoops_sieve ifaces entries base dropped
  rw [Sieve.foldl_turn, List.nil_append, Prod.mk.injEq] at hsieve
  obtain ⟨hrows, hdropped⟩ := hsieve
  refine ⟨hrows, ?_, fun reason ↦ ?_, ?_, fun entries' dropped' hports ↦ ?_⟩
  · rw [hrows]
    exact Sieve.map_kept_sublist (fun entry row h ↦ Entry.entry_of_fate h) entries
  · rw [hdropped, Dropped.of_foldl_count, Sieve.count_refused]
  · rw [hrows, hdropped, Dropped.total_foldl_count, ← Sieve.length_kept_add_length_refused
      (Entry.fate ifaces.own (portMapping ifaces entries base)) entries]
    omega
  · have hkept : ∀ port, port ∈ keptPorts ifaces entries' ↔ port ∈ keptPorts ifaces entries := by
      intro port
      rw [mem_keptPorts_iff_onPort, mem_keptPorts_iff_onPort]
      exact and_congr_right (hports port)
    have hnone : keptPorts ifaces entries' = [] ↔ keptPorts ifaces entries = [] := by
      simp only [List.eq_nil_iff_forall_not_mem, hkept]
    have hsame : mapPorts ifaces (keptPorts ifaces entries') (basePortsOfText base) =
        mapPorts ifaces (keptPorts ifaces entries) (basePortsOfText base) := mapPorts_congr hkept
    refine ⟨?_, congrArg Prod.fst hsame⟩
    rw [learnedLoops_portMap, learnedLoops_portMap, hsame]
    simp only [hnone]

/-- One stray port takes the interface from every entry. -/
example :
    let ifaces : Ifaces := ⟨Dict.ofList [("1", ("6", "ethernet"))], [], []⟩
    let entry (port : ℤ) : Entry :=
      ⟨⟨[0, 17, 34, 51, 68, 85], rfl, by decide⟩, none, some port, .learned, none⟩
    let one := learnedLoops ifaces [entry 1] Dict.empty ⟨0, 0, 0, 0, 0⟩
    let two := learnedLoops ifaces [entry 1, entry 9] Dict.empty ⟨0, 0, 0, 0, 0⟩
    (one.rows.length, one.portMap, one.dropped.unmapped) = (1, some .assumed, 0) ∧
      (two.rows.length, two.portMap, two.dropped.unmapped) = (0, some .none, 2) := by
  decide +kernel

end Snmp
