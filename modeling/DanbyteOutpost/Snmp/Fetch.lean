import DanbyteOutpost.Data.Results
import DanbyteOutpost.Snmp.Topology

/-!
# Polling devices

`fetch_snmp`, and the cycle of the Outpost around it. A poll has four stages (system facts,
interfaces, MAC table, topology). Each converts its arguments before it guards anything, so there
are two ways for a stage to fail: with a `SnmpFactsError`, which the poll takes for an answer, and
with any other exception, which costs the whole cycle.

What pysnmp does in a poll, and what the walks of a stage bring, is in the device's `DeviceNet`. The
rows of interfaces and of neighbours are handed on unseen.

## What fails how

* `Raised`: what a stage raises, a `SnmpFactsError` or something else.
* `beginStage`: the conversions that every stage makes of its arguments first, outside its `try`.
* `catchFacts`: the handler of the poll, which takes the first kind only.
* `snmpCycle`: a `gather` over the devices, so one exception of the second kind is enough to lose
  the results of all.
-/

namespace Snmp

variable {ι ν : Type}

/-! ### Arguments -/

/-- `int(params.get("port", 161))`; `none` when it raises. -/
def portOf (params : Json) : Option ℤ := do
  let port ← params.get? "port"
  (port.getD (.int 161)).pyInt

/-- `max(timeout_ms / 1000, 0.2)`; `none` when the quotient is too large for a float. -/
def secondsOf (timeoutMs : ℤ) : Option ℚ :=
  if |timeoutMs| < 1000 * (2 ^ 1024 - 2 ^ 970) then some (max (timeoutMs / 1000) (1 / 5)) else none

/-- What a MAC read looks at in the `params`. -/
def macParams (params : Json) : MacParams where
  macVlanContexts := (params.get? "mac_vlan_contexts").join.getD .null
  macBudgetS := (params.get? "mac_budget_s").join.getD .null
  macVlanHint := (params.get? "mac_vlan_hint").join.getD .null
  macMaxVlans := (params.get? "mac_max_vlans").join.getD .null

/-- `text[:n]`. -/
def cutTo (n : ℕ) (text : String) : String := String.ofList (text.toList.take n)

/-! ### The stages -/

/-- The exceptions a stage ends in: `SnmpFactsError`, or another one. -/
inductive Raised
  /-- `SnmpFactsError`. -/
  | facts (text : String)
  /-- Another exception, which `fetch_snmp` lets through. -/
  | other
  deriving DecidableEq

inductive Stage
  | facts | interfaces | mac | topology
  deriving DecidableEq

/-- What the guarded part of `fetch_system_facts` ends in: an exception, or a response with its
error indication, its error status and its bindings, as text. -/
inductive GetReply
  /-- An exception. -/
  | raised (text : String)
  /-- A response. -/
  | response (indication status : Option String) (binds : List (String × String))

/-- What a poll of a device meets. -/
structure DeviceNet (ι ν : Type) where
  /-- `_load_pysnmp()`. -/
  load : Stage → Except String Unit
  /-- The answer to the request for the facts, on a port and within a time. -/
  get : ℤ → ℚ → GetReply
  /-- The credentials and the transport. -/
  session : Stage → ℤ → ℚ → Except String Unit
  /-- Whether `SnmpEngine()` returns. -/
  engine : Stage → Bool
  /-- What the interface stage returns once it has a session. -/
  interfaces : List ι
  /-- What the MAC stage returns, of its options and the interfaces. -/
  macTable : MacOptions → List ι → List Row × MacMeta
  /-- What the topology stage returns, of the interfaces. -/
  topology : List ι → List ν × List ArpRow × ArpMeta

/-- What every stage begins with, before it guards anything. -/
def beginStage (net : DeviceNet ι ν) (stage : Stage) (params : Json) (timeoutMs : ℤ) :
    Except Raised (ℤ × ℚ) :=
  match net.load stage with
  | .error e => .error (.facts ("pysnmp unavailable: " ++ e))
  | .ok () =>
    match portOf params, secondsOf timeoutMs with
    | some port, some seconds => .ok (port, seconds)
    | _, _ => .error .other

/-- `SYSTEM_OIDS` -/
def systemOids : Dict String String := Dict.ofList
  [("1.3.6.1.2.1.1.1.0", "sys_descr"), ("1.3.6.1.2.1.1.2.0", "sys_object_id"),
    ("1.3.6.1.2.1.1.3.0", "sys_uptime"), ("1.3.6.1.2.1.1.4.0", "sys_contact"),
    ("1.3.6.1.2.1.1.5.0", "sys_name"), ("1.3.6.1.2.1.1.6.0", "sys_location")]

/-- The facts in the bindings of a response. -/
def factsOf (binds : List (String × String)) : Dict String String :=
  Dict.ofList (binds.filterMap fun b ↦ (systemOids.get? b.1).map fun key ↦ (key, b.2))

/-- What `fetch_system_facts` makes of the reply. -/
def readReply : GetReply → Except Raised (Dict String String)
  | .raised e => .error (.facts ("snmp error: " ++ e))
  | .response (some indication) _ _ => .error (.facts indication)
  | .response none (some status) _ => .error (.facts status)
  | .response none none binds => .ok (factsOf binds)

/-- `fetch_system_facts`. -/
def fetchSystemFacts (net : DeviceNet ι ν) (params : Json) (timeoutMs : ℤ) :
    Except Raised (Dict String String) := do
  let (port, seconds) ← beginStage net .facts params timeoutMs
  readReply (net.get port seconds)

/-- The other three stages up to their walks: the credentials and the transport are guarded, the
engine is not. -/
def openStage (net : DeviceNet ι ν) (stage : Stage) (params : Json) (timeoutMs : ℤ) :
    Except Raised Unit := do
  let (port, seconds) ← beginStage net stage params timeoutMs
  match net.session stage port seconds with
  | .error e => .error (.facts ("snmp error: " ++ e))
  | .ok () => if net.engine stage then .ok () else .error .other

/-- `fetch_interfaces`. -/
def interfacesStage (net : DeviceNet ι ν) (params : Json) (timeoutMs : ℤ) :
    Except Raised (List ι) := do
  openStage net .interfaces params timeoutMs
  return net.interfaces

/-- `fetch_mac_table`: the read itself (`MacRead.run`) raises nothing, but its options may. -/
def macStage (net : DeviceNet ι ν) (params : Json) (timeoutMs : ℤ) (mode : String)
    (interfaces : List ι) : Except Raised (List Row × MacMeta) := do
  openStage net .mac params timeoutMs
  match macOptions (macParams params) mode with
  | none => .error .other
  | some opts => .ok (net.macTable opts interfaces)

/-- `fetch_topology`. -/
def topologyStage (net : DeviceNet ι ν) (params : Json) (timeoutMs : ℤ) (interfaces : List ι) :
    Except Raised (List ν × List ArpRow × ArpMeta) := do
  openStage net .topology params timeoutMs
  return net.topology interfaces

/-! ### A poll -/

/-- What a poll reports. -/
structure SnmpResult (ι ν : Type) where
  /-- The facts. -/
  data : Dict String String
  /-- The rows of the interface stage. -/
  interfaces : List ι
  /-- The neighbours of the topology stage. -/
  neighbors : List ν
  /-- Its ARP rows. -/
  arp : List ArpRow
  /-- Whether they are all. -/
  arpMeta : ArpMeta
  /-- The rows of the MAC stage. -/
  fdb : List Row
  /-- Whether they are all, and why not. -/
  fdbMeta : MacMeta
  /-- The facts were read. -/
  reachable : Bool
  /-- Why they were not. -/
  error : String

/-- `_arp_meta(error=error)`. -/
def ArpMeta.failed (error : String) : ArpMeta := ⟨false, 0, error⟩

/-- `_mac_meta(error=error)`. -/
def MacMeta.failed (error : String) : MacMeta := { MacMeta.fresh with error := error }

/-- `out`, before the first stage. -/
def SnmpResult.notRead : SnmpResult ι ν where
  data := Dict.empty
  interfaces := []
  neighbors := []
  arp := []
  arpMeta := .failed "not read"
  fdb := []
  fdbMeta := .failed "not read"
  reachable := false
  error := ""

/-- `try: … except SnmpFactsError as exc: …` -/
def catchFacts {α : Type} (call : Except Raised α) (handler : String → α) : Except Raised α :=
  match call with
  | .ok a => .ok a
  | .error (.facts text) => .ok (handler text)
  | .error .other => .error .other

/-- `fetch_snmp`. -/
def fetchSnmp (net : DeviceNet ι ν) (params : Json) (timeoutMs : ℤ) (mode : String) :
    Except Raised (SnmpResult ι ν) :=
  match fetchSystemFacts net params timeoutMs with
  | .error .other => .error .other
  | .error (.facts text) => .ok { SnmpResult.notRead with error := cutTo 500 text }
  | .ok facts => do
    let interfaces ← catchFacts (interfacesStage net params timeoutMs) fun _ ↦ []
    let (fdb, fdbMeta) ← catchFacts (macStage net params timeoutMs mode interfaces)
      fun text ↦ ([], .failed (cutTo 300 text))
    let (neighbors, arp, arpMeta) ← catchFacts (topologyStage net params timeoutMs interfaces)
      fun text ↦ ([], [], .failed (cutTo 300 text))
    return {
      data := facts
      interfaces := interfaces
      neighbors := neighbors
      arp := arp
      arpMeta := arpMeta
      fdb := fdb
      fdbMeta := fdbMeta
      reachable := true
      error := "" }

/-! ### The cycle -/

/-- A device of the work list, `null` where it says nothing. What its target, version and
`secret_params` come to is in its `DeviceNet`. -/
structure Device where
  /-- `device_id`. -/
  deviceId : Json
  /-- `params`. -/
  params : Json
  /-- `timeout_ms`. -/
  timeoutMs : Json

/-- `device.get("params") or {}`. -/
def Device.paramsOrEmpty (d : Device) : Json := d.params.orElse (.obj [])

/-- `int(device.get("timeout_ms") or 2000)`; `none` when it raises. -/
def Device.timeout (d : Device) : Option ℤ := (d.timeoutMs.orElse (.int 2000)).pyInt

/-- `discover_device`: the result, and its `device_id`. -/
def discoverDevice (d : Device) (net : DeviceNet ι ν) : Except Raised (Json × SnmpResult ι ν) :=
  match d.timeout with
  | none => .error .other
  | some timeoutMs =>
    match fetchSnmp net d.paramsOrEmpty timeoutMs "full" with
    | .error e => .error e
    | .ok result => .ok (d.deviceId, result)

/-- `int(work.get("interval_seconds", interval)) or interval`; `none` when it raises. -/
def nextInterval (interval : ℤ) (intervalSeconds : Option Json) : Option ℤ :=
  (intervalSeconds.getD (.int interval)).pyInt.map fun n ↦ if n = 0 then interval else n

/-- `_snmp_cycle`: the interval, and the results that are posted (none where there is no device). -/
def snmpCycle (interval : ℤ) (intervalSeconds : Option Json)
    (devices : List (Device × DeviceNet ι ν)) :
    Except Raised (ℤ × List (Json × SnmpResult ι ν)) :=
  match nextInterval interval intervalSeconds with
  | none => .error .other
  | some interval =>
    match gatherAll (devices.map fun d ↦ discoverDevice d.1 d.2) with
    | .error e => .error e
    | .ok results => .ok (interval, results)

end Snmp
