import DanbyteOutpost.Snmp.ForwardingSpec
import DanbyteOutpost.Snmp.MacRead
import DanbyteOutpost.Snmp.Mib

/-!
# What an agent's tables say

The tables a MAC read joins, taken as the agent keeps them: which VLANs it names, which status keeps
an entry out, which port a logical unit stands on, and which hosts its Q-BRIDGE table holds. Nothing
here knows how the tables are read.

## What a host is

`MacRead.Host` is what a MAC read is for: an entry of dot1qTpFdbTable with a usable port and a
status that is not refused (`Mib.Learned`), the VLAN of its FDB id (`MacRead.FdbVlan`), the
interface of its port (`MacRead.Resolves`), and the port that interface stands on
(`MacRead.Folds`). Each of the four is said of the agent's objects, in the words of the MIBs as
far as the code agrees with them.
-/

namespace Snmp

open PyText

/-- The agent has no row in a table's column. -/
def Mib.Empty (m : Mib) (oid : Oid) : Prop := ∀ index, m.cell oid index = none

/-- What a column says, row by row. -/
theorem Mib.exists_cell_iff {α : Type*} {m : Mib} {oid : Oid} {f : Oid × String → Option α}
    {x : α} :
    (∃ index text, m.cell oid index = some text ∧ f (index, text) = some x) ↔
      x ∈ (m.column oid).filterMap f := by
  rw [List.mem_filterMap]
  constructor
  · rintro ⟨index, text, hcell, h⟩
    exact ⟨(index, text), Mib.mem_column.2 hcell, h⟩
  · rintro ⟨⟨index, text⟩, he, h⟩
    exact ⟨index, text, Mib.mem_column.1 he, h⟩

/-- The users of FDB ids, row by row. -/
theorem Mib.usesFdb_iff {m : Mib} {fid vid : ℤ} : UsesFdb (m.cell dot1qVlanFdbId) fid vid ↔
    (fid, vid) ∈ (m.column dot1qVlanFdbId).filterMap fdbUser := by
  rw [← Mib.exists_cell_iff]
  exact exists₂_congr fun index text ↦ and_congr_right fun _ ↦
    (fdbUser_eq_some (e := (index, text))).symm

/-- A VLAN the agent names: a PVID, or an index of dot1qVlanStaticName. -/
def MacRead.Names (rd : MacRead) (m : Mib) (vid : ℤ) : Prop :=
  vid ∈ rd.ifaces.pvids ∨ ∃ (i : ℕ) (text : String), vid = i ∧
    m.cell dot1qVlanStaticName [i] = some text

/-- The status of a forwarding table. -/
def fdbStatusColumn (qbridge : Bool) : Oid := if qbridge then dot1qTpFdbStatus else dot1dTpFdbStatus

/-- A status that keeps an entry out: self or invalid. -/
def Refused (status : Option String) : Prop :=
  fdbStatus status = .self ∨ fdbStatus status = .invalid

instance (status : Option String) : Decidable (Refused status) :=
  inferInstanceAs (Decidable (fdbStatus status = .self ∨ fdbStatus status = .invalid))

/-- The one port that ifStackTable has below a logical unit. -/
def MacRead.FoldsOnto (rd : MacRead) (m : Mib) (unit port : String) : Prop :=
  rd.isLogical unit = true ∧
    ∀ lower, StacksOn (m.cell ifStackStatus) unit lower ∧ rd.ifaces.isPort lower = true ↔
      lower = port

/-- A logical unit folds onto one port at most. -/
theorem MacRead.FoldsOnto.unique {rd : MacRead} {m : Mib} {unit port port' : String}
    (h : rd.FoldsOnto m unit port) (h' : rd.FoldsOnto m unit port') : port = port' :=
  (h'.2 port).1 ((h.2 port).2 rfl)

/-! ### The hosts of a Q-BRIDGE table -/

/-- dot1qTpFdbTable has a row of an FDB id and an address. -/
def Mib.HasFdb (m : Mib) (fid : ℕ) (mac : Mac) : Prop :=
  m.cell dot1qTpFdbPort (fid :: mac.octets) ≠ none ∨
    m.cell dot1qTpFdbStatus (fid :: mac.octets) ≠ none

/-- A host that the agent learned on a bridge port: its address is an individual one, not zero and
not the device's own. -/
structure Mib.Learned (m : Mib) (own : List String) (fid : ℕ) (mac : Mac) (port : ℤ) : Prop where
  /-- The agent has it on a port. -/
  onPort : ∃ text, m.cell dot1qTpFdbPort (fid :: mac.octets) = some text ∧
    intOfText text = some port
  /-- Which is a port, and not "unknown". -/
  nonzero : port ≠ 0
  /-- Its status speaks for a host that was learned. -/
  notRefused : ¬ Refused (m.cell dot1qTpFdbStatus (fid :: mac.octets))
  /-- The group bit is not set. -/
  individual : mac.octets.headD 0 % 2 = 0
  /-- It is not all zeros. -/
  notZero : mac.octets ≠ List.replicate 6 0
  /-- No interface of the device has it. -/
  notOwn : mac.text ∉ own

/-- The VLAN of an FDB id: its one user; or, if the agent says of no VLAN what FDB id it has, the
VLAN of that number, where every FDB id is a VLAN it names. -/
def MacRead.FdbVlan (rd : MacRead) (m : Mib) (fid : ℕ) (vid : ℤ) : Prop :=
  (∀ vid', UsesFdb (m.cell dot1qVlanFdbId) fid vid' ↔ vid' = vid) ∨
    m.Empty dot1qVlanFdbId ∧ vid = fid ∧ ∀ fid' mac, m.HasFdb fid' mac → rd.Names m fid' ∧ fid' ≠ 0

/-- The interface of a bridge port: the one dot1dBasePortIfIndex gives it; or, where that table has
nothing usable, the port itself, if that is so for all ports of learned hosts. -/
def MacRead.Resolves (rd : MacRead) (m : Mib) (port : ℤ) (ifIndex : String) : Prop :=
  BasePort (m.cell dot1dBasePortIfindex) port ifIndex ∨
    (∀ port' ifIndex', ¬ BasePort (m.cell dot1dBasePortIfindex) port' ifIndex') ∧
      (∀ fid mac port', m.Learned rd.ifaces.own fid mac port' →
        rd.ifaces.isPort (toString port') = true) ∧ ifIndex = toString port

/-- Where a host on an interface is taken to be: on the port the interface stands on, if it is a
logical unit of one. -/
def MacRead.Folds (rd : MacRead) (m : Mib) (ifIndex ifIndex' : String) : Prop :=
  rd.FoldsOnto m ifIndex ifIndex' ∨
    (∀ port, ¬ rd.FoldsOnto m ifIndex port) ∧ ifIndex' = ifIndex

/-- A learned host, with the VLAN and the interface that the agent's tables give it. -/
def MacRead.Host (rd : MacRead) (m : Mib) (vlan : Option ℤ) (mac : Mac) (ifIndex : String) : Prop :=
  ∃ fid port resolved, m.Learned rd.ifaces.own fid mac port ∧
    (∀ vid, vlan = some vid ↔ rd.FdbVlan m fid vid) ∧ rd.Resolves m port resolved ∧
      rd.Folds m resolved ifIndex

end Snmp
