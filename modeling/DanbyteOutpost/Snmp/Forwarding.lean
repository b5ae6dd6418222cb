import DanbyteOutpost.Snmp.Addresses
import DanbyteOutpost.Snmp.Walk
import Mathlib.Data.List.Lattice

/-!
# From walked tables to learned hosts

The pure part of a MAC read: entries of a forwarding table (`parse_fdb_table`), the VLAN of an FDB
id (`map_fdb_vlans`), the interface of a bridge port (`map_bridge_ports`), the filter
(`learned_rows`), and the port a logical unit stands on (`unit_ports`). A mapping the code keeps in
a `dict` that only answers `get` is a function here.

## From entry to row

An entry has an FDB id or none, an address, a bridge port and a status. It is dropped for its
status, its address or its port, in the order of `Entry.drop`; the VLAN is looked up by the FDB
id, and the interface by the port. Whether ports may be taken for interfaces (`mapBridgePorts`) is
decided for all entries of a table together.
-/

namespace Snmp

open PyText

/-- `_column(rows, key)`. -/
def column (rows : Rows String) (key : String) : Dict Oid String :=
  rows.filterMapValues fun row ↦ row.get? key

/-- Whether a number is a VLAN's. -/
def isVlan (vid : ℤ) : Bool := 1 ≤ vid && vid ≤ 4094

/-- The VLAN, or another number, that an index ends in. -/
def lastPart (index : Oid) : Option ℤ := index.getLast?.map Int.ofNat

/-- The element of a set of one. -/
def onlyOne {α : Type} : List α → Option α
  | [x] => some x
  | _ => none

theorem onlyOne_eq_some {α : Type} {xs : List α} {x : α} : onlyOne xs = some x ↔ xs = [x] := by
  unfold onlyOne
  split
  case h_1 => simp
  case h_2 hno => exact ⟨nofun, fun h ↦ absurd h (hno x)⟩

/-! ### Interfaces -/

/-- What a MAC read looks at in an interface's row, as text (`""` where there is nothing). -/
structure Iface where
  /-- `if_index`. -/
  ifIndex : String
  /-- `type`. -/
  type : String
  /-- `type_name`. -/
  typeName : String
  /-- `mac`. -/
  mac : String
  /-- `vlan`. -/
  vlan : String

/-- `_Ifaces`. -/
structure Ifaces where
  /-- The type and its name, by `if_index`. -/
  types : Dict String (String × String)
  /-- The addresses of the device itself. -/
  own : List String
  /-- The VLANs its ports are in. -/
  pvids : List ℤ

namespace Ifaces

/-- A row of `_Ifaces(interfaces)`. -/
def add (self : Ifaces) (row : Iface) : Ifaces :=
  let index := strip row.ifIndex
  if index = "" then self
  else
    let mac := normMac row.mac
    { types := self.types.set index (strip row.type, strip row.typeName)
      own := if mac ≠ "" ∧ mac ≠ zeroMac then self.own.insert mac else self.own
      pvids := match (intOfText row.vlan).filter isVlan with
        | some vid => self.pvids.insert vid
        | none => self.pvids }

/-- `_Ifaces(interfaces)`. -/
def ofRows (rows : List Iface) : Ifaces := rows.foldl add ⟨Dict.empty, [], []⟩

/-- `known(index)`. -/
def known (self : Ifaces) (index : String) : Bool := self.types.contains index

/-- `_PORT_IFTYPES`. -/
def portIftypes : List String :=
  ["6", "7", "26", "62", "69", "117", "161",
    "ethernetCsmacd", "gigabitEthernet", "fastEther", "ieee8023adLag"]

/-- `is_port(index)`. -/
def isPort (self : Ifaces) (index : String) : Bool :=
  let (ifType, typeName) := (self.types.get? index).getD ("", "")
  ["ethernet", "lag"].contains typeName || portIftypes.contains ifType

end Ifaces

/-! ### Forwarding entries -/

/-- What `_fdb_status` makes of a status; `blank` is `""`. -/
inductive FdbStatus
  | blank | other | invalid | learned | self | mgmt
  deriving DecidableEq

/-- `_fdb_status`. -/
def fdbStatus (raw : Option String) : FdbStatus :=
  match raw.map strip with
  | none | some "" => .blank
  | some "1" => .other
  | some "2" => .invalid
  | some "3" => .learned
  | some "4" => .self
  | some "5" => .mgmt
  | some text =>
    match lower text with
    | "invalid" => .invalid
    | "learned" => .learned
    | "self" => .self
    | "mgmt" => .mgmt
    | _ => .other

/-- A forwarding entry; `vlan` is what the read adds to it. -/
structure Entry where
  /-- The address. -/
  mac : Mac
  /-- The table it is in; `none` in dot1dTpFdbTable. -/
  fdbId : Option ℤ
  /-- The port it was seen on. -/
  bridgePort : Option ℤ
  /-- How the agent comes to know it. -/
  status : FdbStatus
  /-- Its VLAN, once that is known. -/
  vlan : Option ℤ
  deriving DecidableEq

/-- The FDB id and the address of an entry's index. -/
def entryKey (qbridge : Bool) (index : Oid) : Option (Option ℤ × Mac) :=
  if qbridge then
    match index with
    | fdbId :: parts => (Mac.fromIndex parts).map (some (Int.ofNat fdbId), ·)
    | [] => none
  else (Mac.fromIndex index).map (none, ·)

/-- The entry of a row. -/
def entryOf (qbridge : Bool) (index : Oid) (row : Dict String String) : Option Entry :=
  (entryKey qbridge index).map fun key ↦
    { mac := key.2
      fdbId := key.1
      bridgePort := (row.get? "port").bind intOfText
      status := fdbStatus (row.get? "status")
      vlan := none }

/-- `parse_fdb_table(rows, qbridge=…)`. -/
def parseFdbTable (qbridge : Bool) (rows : Rows String) : List Entry :=
  rows.items.filterMap fun e ↦ entryOf qbridge e.1 e.2

/-! ### The VLAN of an FDB id -/

/-- `vlan_map`. -/
inductive VlanMap
  | none | fdbId | assumed | context
  deriving DecidableEq

/-- The FDB id of a row of dot1qVlanFdbId, with its VLAN. -/
def fdbUser (e : Oid × String) : Option (ℤ × ℤ) := do
  let vid ← (lastPart e.1).filter isVlan
  let fid ← intOfText e.2
  return (fid, vid)

/-- FDB id → the VLANs that use it. -/
def fdbUsers (vlanFdb : Dict Oid String) : Dict ℤ (List ℤ) :=
  Dict.group (vlanFdb.items.filterMap fdbUser)

/-- `map_fdb_vlans(fdb_ids, vlan_fdb_ids, named_vlans)`. -/
def mapFdbVlans (fdbIds : List ℤ) (vlanFdb : Dict Oid String) (named : Option (List ℤ)) :
    (ℤ → Option ℤ) × VlanMap :=
  let users := fdbUsers vlanFdb
  if users.items ≠ [] then
    (fun fid ↦ if fid ∈ fdbIds then onlyOne (users.members fid) else none, .fdbId)
  else
    let named := (named.getD []).filter (· ≠ 0)
    if fdbIds ≠ [] ∧ fdbIds ⊆ named then
      (fun fid ↦ if fid ∈ fdbIds then some fid else none, .assumed)
    else (fun _ ↦ none, .none)

/-- `entry["vlan"] = vlan_of.get(entry["fdb_id"])`. -/
def Entry.withVlan (vlanOf : ℤ → Option ℤ) (entry : Entry) : Entry :=
  { entry with vlan := entry.fdbId.bind vlanOf }

/-! ### The interface of a bridge port -/

/-- `port_map`. -/
inductive PortMap
  | basePort | assumed | none
  deriving DecidableEq

/-- A row of dot1dBasePortIfIndex: a bridge port and its ifIndex. -/
def basePort (e : Oid × String) : Option (ℤ × String) :=
  match e.1 with
  | [port] => ((intOfText e.2).filter (· ≠ 0)).bind fun index ↦
      if port ≠ 0 then some (Int.ofNat port, toString index) else none
  | _ => none

/-- The usable part of dot1dBasePortIfIndex. -/
def basePorts (base : Dict Oid String) : Dict ℤ String :=
  Dict.ofList (base.items.filterMap basePort)

/-- `map_bridge_ports(ports, base_port_ifindex)`. -/
def mapBridgePorts (ifaces : Ifaces) (ports : List ℤ) (base : Dict Oid String) :
    (ℤ → Option String) × PortMap :=
  let usable := basePorts base
  let ports := ports.filter (· ≠ 0)
  if usable.items ≠ [] then (fun port ↦ if port ∈ ports then usable.get? port else none, .basePort)
  else if ports ≠ [] ∧ ∀ port ∈ ports, ifaces.isPort (toString port) then
    (fun port ↦ if port ∈ ports then some (toString port) else none, .assumed)
  else (fun _ ↦ none, .none)

/-! ### The filter -/

/-- Why an entry is left out: the keys of `dropped`. -/
inductive Drop
  | self | group | own | port0 | unmapped
  deriving DecidableEq

/-- `dropped`. -/
structure Dropped where
  /-- `self`: an entry of the agent's own, or an invalid one. -/
  self : ℕ
  /-- `port0`: no port is known. -/
  port0 : ℕ
  /-- `group`: an address of a group, or all zeros. -/
  group : ℕ
  /-- `own`: an address of the device. -/
  own : ℕ
  /-- `unmapped`: a port without an interface. -/
  unmapped : ℕ
  deriving DecidableEq

/-- `dropped[reason] += 1`. -/
def Dropped.count (dropped : Dropped) : Drop → Dropped
  | .self => { dropped with self := dropped.self + 1 }
  | .group => { dropped with group := dropped.group + 1 }
  | .own => { dropped with own := dropped.own + 1 }
  | .port0 => { dropped with port0 := dropped.port0 + 1 }
  | .unmapped => { dropped with unmapped := dropped.unmapped + 1 }

/-- A learned host. -/
structure Row where
  /-- The address. -/
  mac : Mac
  /-- The interface it was learned on. -/
  ifIndex : String
  /-- Its VLAN, where that is known. -/
  vlan : Option ℤ
  /-- The table it is in. -/
  fdbId : Option ℤ
  /-- The port it was seen on. -/
  bridgePort : ℤ
  /-- How the agent comes to know it. -/
  status : FdbStatus
  deriving DecidableEq

/-- What keeps an entry from being a learned host on a port, before the ports are mapped. -/
def Entry.drop (own : List String) (entry : Entry) : Option Drop :=
  if entry.status = .self ∨ entry.status = .invalid then some .self
  else match entry.mac.dropReason own with
    | some .group => some .group
    | some .own => some .own
    | none => if entry.bridgePort.getD 0 = 0 then some .port0 else none

/-- The entries that are left, in `learned_rows`. -/
def keep (own : List String) (entries : List Entry) : List Entry :=
  entries.filter fun entry ↦ decide (entry.drop own = none)

/-- The row of an entry whose port is mapped. -/
def Entry.row (mapping : ℤ → Option String) (entry : Entry) : Option Row := do
  let port ← entry.bridgePort
  let ifIndex ← mapping port
  return {
    mac := entry.mac
    ifIndex := ifIndex
    vlan := entry.vlan
    fdbId := entry.fdbId
    bridgePort := port
    status := entry.status }

/-- What `learned_rows` returns, and `dropped` after it; `none` is the `""` of `port_map`. -/
structure Learned where
  /-- The hosts. -/
  rows : List Row
  /-- How ports were mapped. -/
  portMap : Option PortMap
  /-- What was left out, and why. -/
  dropped : Dropped

/-- `learned_rows`. -/
def learnedRows (ifaces : Ifaces) (entries : List Entry) (base : Dict Oid String)
    (dropped : Dropped) : Learned :=
  let kept := keep ifaces.own entries
  let dropped := (entries.filterMap (Entry.drop ifaces.own)).foldl Dropped.count dropped
  if kept = [] then { rows := [], portMap := none, dropped := dropped }
  else
    let mapping := mapBridgePorts ifaces (kept.filterMap Entry.bridgePort) base
    let unmapped := kept.filter fun entry ↦ decide (entry.row mapping.1 = none)
    { rows := kept.filterMap (Entry.row mapping.1)
      portMap := some mapping.2
      dropped := (unmapped.map fun _ ↦ .unmapped).foldl Dropped.count dropped }

/-! ### Logical units -/

/-- An active row of ifStackTable: the higher layer and the lower one. -/
def stacked (e : Oid × String) : Option (String × String) :=
  match e.1 with
  | [] => none
  | higher :: lower =>
    if (strip e.2 = "1" ∨ strip e.2 = "active") ∧ higher ≠ 0 ∧ lower ≠ [] ∧ lower ≠ [0] then
      some (toString higher, dotted lower)
    else none

/-- The one port below a unit. -/
def Ifaces.portBelow (ifaces : Ifaces) (below : List String) : Option String :=
  onlyOne (below.filter ifaces.isPort)

/-- `unit_ports(if_stack)`. -/
def unitPorts (ifaces : Ifaces) (ifStack : Dict Oid String) : Dict String String :=
  let lowers := Dict.group (ifStack.items.filterMap stacked)
  (lowers.restrict fun higher ↦ ifaces.known higher && !ifaces.isPort higher).filterMapValues
    ifaces.portBelow

end Snmp
