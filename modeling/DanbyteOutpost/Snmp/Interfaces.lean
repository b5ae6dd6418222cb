import DanbyteOutpost.Snmp.Addresses
import DanbyteOutpost.Snmp.LagMembership
import DanbyteOutpost.Snmp.MacRead

/-!
# Reading the interfaces

`fetch_interfaces`, once its transport stands. Every column is read with a `bulk_walk_cmd` of its
own, and whatever goes wrong with one walk, what it yielded before is kept (`BulkWalk.forEach`,
`_walk_column`). The rows are joined with the addresses, the VLANs and the aggregates
(`parse_lag_membership`).

## What a walk yields

`BulkWalk` is a list of what `bulk_walk_cmd` yields, a response or an error, and a way to raise
behind it. The loop over it stops at an error and keeps what it had. So a walk that failed and one
that came to its end leave the same kind of value, and nothing in the rows tells them apart.

The names of columns are those of the IF-MIB; a VLAN of an access port has its bridge port mapped
to an interface by a table of its own.
-/

namespace Snmp

open PyText

/-! ### Walks -/

/-- What `bulk_walk_cmd` yields: names, and what their values print as. -/
structure BulkYield where
  /-- The error indication, where there is one. -/
  indication : Option ErrorIndication
  /-- The error status; 0 is none. -/
  status : ℤ
  /-- The bindings. -/
  binds : List (Oid × String)

/-- `error_indication or error_status`. -/
def BulkYield.failed (y : BulkYield) : Bool := y.indication.isSome || decide (y.status ≠ 0)

/-- A `bulk_walk_cmd`: what it yields, and the exception it ends in, if it does. -/
structure BulkWalk where
  /-- What it yields, in order. -/
  yields : List BulkYield
  /-- The text of the exception behind that, where there is one. -/
  raised : Option String

/-- The bindings before the walk fails. -/
def BulkWalk.read (walk : BulkWalk) : List (Oid × String) :=
  (walk.yields.takeWhile fun y ↦ !y.failed).flatMap BulkYield.binds

/-- The walk failed. -/
def BulkWalk.Failed (walk : BulkWalk) : Prop :=
  walk.raised ≠ none ∨ ∃ y ∈ walk.yields, y.failed = true

/-- The loop over a walk; an exception is passed over. -/
def BulkWalk.forEach {α : Type} (walk : BulkWalk) (body : α → Oid × String → α) (init : α) : α :=
  (walk.yields.takeWhile fun y ↦ !y.failed).foldl (fun out y ↦ y.binds.foldl body out) init

/-- `str(oid)[len(base) + 1:]`. -/
def tailText (base oid : Oid) : String :=
  String.ofList ((dotted oid).toList.drop ((dotted base).length + 1))

/-- `result[tail] = value.prettyPrint()`. -/
def setTail (base : Oid) (result : Dict String String) (b : Oid × String) : Dict String String :=
  if tailText base b.1 = "" then result else result.set (tailText base b.1) b.2

/-- The loop of `_walk_column`. -/
def walkColumnFrom (base : Oid) (limit : Option ℤ) :
    List BulkYield → Dict String String → Dict String String
  | [], result => result
  | y :: ys, result =>
    if y.failed then result
    else
      let result' := y.binds.foldl (setTail base) result
      if limit.any fun n ↦ decide (n ≤ (result'.items.length : ℤ)) then result'
      else walkColumnFrom base limit ys result'

/-- `_walk_column(…, base, limit)`. -/
def walkColumn (base : Oid) (walk : BulkWalk) (limit : Option ℤ) : Dict String String :=
  walkColumnFrom base limit walk.yields Dict.empty

/-! ### Tables -/

/-- `_IF_COLUMNS` -/
def ifColumns : List (String × Oid) :=
  [("descr", [1, 3, 6, 1, 2, 1, 2, 2, 1, 2]), ("type", [1, 3, 6, 1, 2, 1, 2, 2, 1, 3]),
    ("mtu", [1, 3, 6, 1, 2, 1, 2, 2, 1, 4]), ("mac", [1, 3, 6, 1, 2, 1, 2, 2, 1, 6]),
    ("admin_status", [1, 3, 6, 1, 2, 1, 2, 2, 1, 7]),
    ("oper_status", [1, 3, 6, 1, 2, 1, 2, 2, 1, 8]),
    ("name", [1, 3, 6, 1, 2, 1, 31, 1, 1, 1, 1]), ("alias", [1, 3, 6, 1, 2, 1, 31, 1, 1, 1, 18]),
    ("speed_mbps", [1, 3, 6, 1, 2, 1, 31, 1, 1, 1, 15]),
    ("in_octets", [1, 3, 6, 1, 2, 1, 31, 1, 1, 1, 6]),
    ("out_octets", [1, 3, 6, 1, 2, 1, 31, 1, 1, 1, 10])]

/-- `_IF_COLUMNS["type"]` -/
def ifTypeColumn : Oid := [1, 3, 6, 1, 2, 1, 2, 2, 1, 3]

/-- `_IF_STATUS` -/
def ifStatusNames : Dict String String := Dict.ofList
  [("1", "up"), ("2", "down"), ("3", "testing"), ("4", "unknown"), ("5", "dormant"),
    ("6", "notPresent"), ("7", "lowerLayerDown")]

/-- `_IP_AD_ENT_IFINDEX` -/
def ipAdEntIfindex : Oid := [1, 3, 6, 1, 2, 1, 4, 20, 1, 2]

/-- `_IANA_IFTYPE` -/
def ianaIftype : Dict String String := Dict.ofList
  [("1", "other"), ("6", "ethernet"), ("24", "loopback"), ("53", "virtual"), ("131", "tunnel"),
    ("135", "l2vlan"), ("136", "l3vlan"), ("161", "lag"), ("117", "ethernet"),
    ("142", "ipForward")]

/-- `_DOT3AD_AGG_PORT_ATTACHED_AGG_ID` -/
def dot3adAggPortAttachedAggId : Oid := [1, 2, 840, 10006, 300, 43, 1, 2, 1, 1, 13]

/-- `_DOT1Q_PVID` -/
def dot1qPvid : Oid := [1, 3, 6, 1, 2, 1, 17, 7, 1, 4, 5, 1, 1]

/-! ### VLANs -/

/-- An access VLAN: `vlan_id` and `vlan_name`. -/
structure AccessVlan where
  /-- Its number. -/
  vlanId : String
  /-- Its name. -/
  vlanName : String

/-- An entry of `pvid_by_port`. -/
def vlanOfPort (basePortIfindex vlanNames : Dict String String) (out : Dict String AccessVlan)
    (e : String × String) : Dict String AccessVlan :=
  match basePortIfindex.get? e.1 with
  | none => out
  | some ifIndex =>
    if ifIndex = "" ∨ e.2 = "" then out
    else out.set ifIndex ⟨e.2, (vlanNames.get? e.2).getD ""⟩

/-- `parse_vlans`. -/
def parseVlans (basePortIfindex pvidByPort vlanNames : Dict String String) :
    Dict String AccessVlan :=
  pvidByPort.items.foldl (vlanOfPort basePortIfindex vlanNames) Dict.empty

/-! ### The rows -/

/-- What is read of an interface: its columns. -/
abbrev IfCells := Dict String String

/-- `str(oid).split(".")[-1]`. -/
def ifIndexText (oid : Oid) : String := String.ofList (rpartition '.' (dotted oid).toList).2.2

/-- `rows.setdefault(if_index, {})[key] = value.prettyPrint()`. -/
def setIfCell (key : String) (rows : Dict String IfCells) (b : Oid × String) :
    Dict String IfCells :=
  rows.set (ifIndexText b.1) (((rows.get? (ifIndexText b.1)).getD Dict.empty).set key b.2)

/-- `rows`, from the walks of the columns. -/
def readIfTable (walks : Oid → BulkWalk) : Dict String IfCells :=
  ifColumns.foldl (fun rows c ↦ (walks c.2).forEach (setIfCell c.1) rows) Dict.empty

/-- `ip_by_ifindex.setdefault(value.prettyPrint(), []).append(ip)`. -/
def addAddress (out : Dict String (List String)) (b : Oid × String) : Dict String (List String) :=
  out.set b.2 ((out.get? b.2).getD [] ++ [tailText ipAdEntIfindex b.1])

/-- `ip_by_ifindex`. -/
def readAddresses (walk : BulkWalk) : Dict String (List String) :=
  walk.forEach addAddress Dict.empty

/-- `vlan_cols[ckey]`. -/
def readVlanColumn (base : Oid) (walk : BulkWalk) : Dict String String :=
  walk.forEach (fun col b ↦ col.set (tailText base b.1) b.2) Dict.empty

/-- A row of `fetch_interfaces`. -/
structure InterfaceRow where
  ifIndex : String
  name : String
  descr : String
  ifAlias : String
  type : String
  typeName : String
  lagIfIndex : String
  mtu : String
  mac : String
  adminStatus : String
  operStatus : String
  speedMbps : String
  inOctets : String
  outOctets : String
  ipAddresses : List String
  layer : String
  vlan : String
  vlanName : String
  deriving DecidableEq

/-- `_IF_STATUS.get(status, status)`. -/
def ifStatusName (status : String) : String := (ifStatusNames.get? status).getD status

/-- The row of the interface `ifIndex`, of which `r` was read. -/
def interfaceRow (ips : Dict String (List String)) (vlans : Dict String AccessVlan)
    (lagOf : Dict String String) (ifIndex : String) (r : IfCells) : InterfaceRow :=
  let cell := fun key ↦ (r.get? key).getD ""
  let addresses := (ips.get? ifIndex).getD []
  { ifIndex := ifIndex
    name :=
      if cell "name" ≠ "" then cell "name"
      else if cell "descr" ≠ "" then cell "descr"
      else "if" ++ ifIndex
    descr := cell "descr"
    ifAlias := cell "alias"
    type := cell "type"
    typeName :=
      if ifIndex ∈ lagOf.items.map Prod.snd then "lag"
      else (ianaIftype.get? (cell "type")).getD ""
    lagIfIndex := (lagOf.get? ifIndex).getD ""
    mtu := cell "mtu"
    mac := if cell "mac" ≠ "" then fmtMac (cell "mac") else ""
    adminStatus := ifStatusName (cell "admin_status")
    operStatus := ifStatusName (cell "oper_status")
    speedMbps := cell "speed_mbps"
    inOctets := cell "in_octets"
    outOctets := cell "out_octets"
    ipAddresses := addresses
    layer := if addresses ≠ [] then "L3" else "L2"
    vlan := ((vlans.get? ifIndex).map AccessVlan.vlanId).getD ""
    vlanName := ((vlans.get? ifIndex).map AccessVlan.vlanName).getD "" }

/-- `int(x["if_index"]) if x["if_index"].isdigit() else 0`. -/
def ifIndexKey (ifIndex : String) : ℤ :=
  if isdigit ifIndex.toList then (intOfText ifIndex).getD 0 else 0

/-- `{i: r.get("type", "") for i, r in rows.items()}`. -/
def ifTypes (rows : Dict String IfCells) : Dict String String :=
  rows.mapValues fun r ↦ (r.get? "type").getD ""

/-- `lag_of`. -/
def readLag (walks : Oid → BulkWalk) : Dict String String :=
  parseLagMembership
    (walkColumn dot3adAggPortAttachedAggId (walks dot3adAggPortAttachedAggId) none)
    (walkColumn ifStackStatus (walks ifStackStatus) none) (ifTypes (readIfTable walks))

/-- `vlan_by_ifindex`. -/
def readVlans (walks : Oid → BulkWalk) : Dict String AccessVlan :=
  parseVlans (readVlanColumn dot1dBasePortIfindex (walks dot1dBasePortIfindex))
    (readVlanColumn dot1qPvid (walks dot1qPvid))
    (readVlanColumn dot1qVlanStaticName (walks dot1qVlanStaticName))

/-- `fetch_interfaces`, where the walk of a column is `walks` of its OID. -/
def fetchInterfaces (walks : Oid → BulkWalk) : List InterfaceRow :=
  let rows := readIfTable walks
  let row := interfaceRow (readAddresses (walks ipAdEntIfindex)) (readVlans walks) (readLag walks)
  (rows.items.map fun e ↦ row e.1 e.2).mergeSort
    fun x y ↦ decide (ifIndexKey x.ifIndex ≤ ifIndexKey y.ifIndex)

end Snmp
