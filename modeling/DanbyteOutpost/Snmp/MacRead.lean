import DanbyteOutpost.Snmp.Contexts
import Mathlib.Data.Rat.Floor

/-!
# Reading a MAC table

`_MacTableRead`. Its methods are cooperative tasks on the object's attributes that change
(`ReadState`); what the constructor fixes is `MacRead`. `_read` and the tasks of `_read_contexts`
wait for the network; what stands around them does not, so `run` puts them together: the default
context first (`read`), then the contexts of VLANs if there are any to be read, two at a time
(`one`), then what is made of them (`finish`). Every walk marks the log with its outcome.

## The parts

* `MacRead`: the agent's version and community, the options, what is known of its interfaces.
* `ReadState`: the report, the budget, the rows of the contexts, and what has been noted.
* `walk`, `walkDefault`, `canWalk`: a walk with the read's budget, and whether there may be
  another.
* `readBridge`, `readQbridge`, `read`: the default context, which ends in a `Plan`.
* `readContext`, `settle`, `one`: the context of a VLAN, and its end.
* `afterContexts`, `finish`: what is made of it all.

`Surroundings` is what a read depends on besides the object: the agent's answers, the clock, and
the order in which tasks go on, each of them a function of the log.
-/

namespace Snmp

open Coop PyText

/-! ### Tables -/

/-- `_DOT1D_BASE_PORT_IFINDEX` -/
def dot1dBasePortIfindex : Oid := [1, 3, 6, 1, 2, 1, 17, 1, 4, 1, 2]
/-- `_DOT1D_TP_FDB_PORT` -/
def dot1dTpFdbPort : Oid := [1, 3, 6, 1, 2, 1, 17, 4, 3, 1, 2]
/-- `_DOT1D_TP_FDB_STATUS` -/
def dot1dTpFdbStatus : Oid := [1, 3, 6, 1, 2, 1, 17, 4, 3, 1, 3]
/-- `_DOT1Q_TP_FDB_PORT` -/
def dot1qTpFdbPort : Oid := [1, 3, 6, 1, 2, 1, 17, 7, 1, 2, 2, 1, 2]
/-- `_DOT1Q_TP_FDB_STATUS` -/
def dot1qTpFdbStatus : Oid := [1, 3, 6, 1, 2, 1, 17, 7, 1, 2, 2, 1, 3]
/-- `_DOT1Q_VLAN_FDB_ID` -/
def dot1qVlanFdbId : Oid := [1, 3, 6, 1, 2, 1, 17, 7, 1, 4, 2, 1, 3]
/-- `_DOT1Q_VLAN_STATIC_NAME` -/
def dot1qVlanStaticName : Oid := [1, 3, 6, 1, 2, 1, 17, 7, 1, 4, 3, 1, 1]
/-- `_IF_STACK_STATUS` -/
def ifStackStatus : Oid := [1, 3, 6, 1, 2, 1, 31, 1, 2, 1, 3]
/-- `_VTP_VLAN_STATE` -/
def vtpVlanState : Oid := [1, 3, 6, 1, 4, 1, 9, 9, 46, 1, 3, 1, 1, 2]

/-- The columns of a walk: a key and an OID each. -/
abbrev Columns := Dict String Oid

/-- dot1dBasePortIfIndex. -/
def baseColumns : Columns := Dict.ofList [("if_index", dot1dBasePortIfindex)]

/-- dot1qVlanFdbId. -/
def vlanFdbColumns : Columns := Dict.ofList [("fdb", dot1qVlanFdbId)]

/-- dot1qTpFdbTable. -/
def qFdbColumns : Columns := Dict.ofList [("port", dot1qTpFdbPort), ("status", dot1qTpFdbStatus)]

/-- dot1dTpFdbTable. -/
def dFdbColumns : Columns := Dict.ofList [("port", dot1dTpFdbPort), ("status", dot1dTpFdbStatus)]

/-- dot1qVlanStaticName. -/
def nameColumns : Columns := Dict.ofList [("name", dot1qVlanStaticName)]

/-- ifStackTable. -/
def stackColumns : Columns := Dict.ofList [("status", ifStackStatus)]

/-- vtpVlanState. -/
def vtpColumns : Columns := Dict.ofList [("state", vtpVlanState)]

/-- `_ENT_LOGICAL_COLUMNS` -/
def entLogicalColumns : Columns := Dict.ofList
  [("descr", [1, 3, 6, 1, 2, 1, 47, 1, 2, 1, 1, 2]),
    ("type", [1, 3, 6, 1, 2, 1, 47, 1, 2, 1, 1, 3]),
    ("community", [1, 3, 6, 1, 2, 1, 47, 1, 2, 1, 1, 4]),
    ("context", [1, 3, 6, 1, 2, 1, 47, 1, 2, 1, 1, 8])]

/-- `MAC_MAX_REPETITIONS` -/
def macMaxRepetitions : ℤ := 50
/-- `MAC_RETRIES` -/
def macRetries : ℤ := 1
/-- `MAC_ROW_CAP` -/
def macRowCap : ℕ := 100000
/-- `MAC_CONTEXT_CONCURRENCY` -/
def macContextConcurrency : ℕ := 2
/-- `MAC_CONTEXT_ABORT_AFTER` -/
def macContextAbortAfter : ℕ := 3

/-! ### What a read keeps -/

/-- `source` of `fdb_meta`. -/
inductive Source
  | none | qbridge | bridge | bridgeVlan
  deriving DecidableEq

/-- `vlans` of `fdb_meta`. -/
structure VlanLists where
  /-- `read`: the contexts that were read whole. -/
  read : List ℤ
  /-- `skipped`: those not read, or not to their end, for want of time or rows, over the cap, or
  behind an abort. -/
  skipped : List ℤ
  /-- `failed`: those whose walks failed. -/
  failed : List ℤ
  deriving DecidableEq

/-- `fdb_meta`. -/
structure MacMeta where
  /-- Where the rows come from. -/
  source : Source
  /-- There is nothing to complain of. -/
  complete : Bool
  /-- The time or the allowance of rows was spent. -/
  truncated : Bool
  /-- How VLANs were found. -/
  vlanMap : VlanMap
  /-- How ports were mapped: the worst of the ways that were taken. -/
  portMap : PortMap
  /-- What became of each VLAN's context. -/
  vlans : VlanLists
  /-- What was left out. -/
  dropped : Dropped
  /-- How many rows there are. -/
  rows : ℕ
  /-- How long it took. -/
  elapsedMs : ℤ
  /-- What there is to complain of. -/
  error : String
  deriving DecidableEq

/-- `_mac_meta()`. -/
def MacMeta.fresh : MacMeta where
  source := .none
  complete := false
  truncated := false
  vlanMap := .none
  portMap := .none
  vlans := ⟨[], [], []⟩
  dropped := ⟨0, 0, 0, 0, 0⟩
  rows := 0
  elapsedMs := 0
  error := ""

/-- The variables of `_read_contexts` that its tasks share. -/
structure ContextReads where
  /-- The rows of each context. -/
  results : Dict ℤ (List Row)
  /-- Why a context failed. -/
  failures : Dict ℤ String
  /-- The VLANs that have failed since the last one that did not. -/
  streak : List ℤ
  /-- The VLANs that failed in a row, once there were enough of them. -/
  aborted : List ℤ

/-- The attributes of a `_MacTableRead` that change. -/
structure ReadState where
  /-- `budget`. -/
  budget : WalkBudget
  /-- `meta`. -/
  report : MacMeta
  /-- `problems`: why the read is incomplete. -/
  problems : List String
  /-- `port_maps`. -/
  portMaps : List PortMap
  /-- `default_base`: the default context has bridge ports. -/
  defaultBase : Bool
  /-- `stack`: the port under each logical unit; `none` before ifStackTable is read. -/
  stack : Option (Dict String String)
  /-- `halted`: the agent has stopped answering in the default context. -/
  halted : Bool
  /-- What the tasks of `_read_contexts` share. -/
  contexts : ContextReads

/-- How a walk of a read ended. -/
structure Outcome where
  /-- The credentials and the context it was made with. -/
  access : Access
  /-- What it walked. -/
  columns : Columns
  /-- What it brought. -/
  walked : Walked String

/-- Whether every walk that a log has marks of ended as told. -/
def allWalks (told : Outcome → Bool) (log : Log (net Outcome)) : Bool :=
  log.all fun e ↦
    match e with
    | .marked o => told o
    | _ => true

theorem allWalks_iff {told : Outcome → Bool} {log : Log (net Outcome)} :
    allWalks told log = true ↔ ∀ o, .marked o ∈ log → told o = true := by
  rw [allWalks, List.all_eq_true]
  constructor
  · exact fun h o ho ↦ h _ ho
  · intro h e he
    cases e with
    | polled p yes => rfl
    | asked q r => rfl
    | marked o => exact h o he

/-- What the methods of a read do. -/
abbrev Reader := Coro (net Outcome) ReadState

/-- `self.budget`. -/
def budgetRef : BudgetRef ReadState where
  get := ReadState.budget
  set := fun b s ↦ { s with budget := b }
  get_set := fun _ _ ↦ rfl
  set_get := fun _ ↦ rfl
  set_set := fun _ _ _ ↦ rfl

/-- The version of a profile. -/
inductive Version
  | v1 | v2c | v3
  deriving DecidableEq

/-- The attributes of a `_MacTableRead` that do not change, with the community as text. -/
structure MacRead where
  /-- `version`. -/
  version : Version
  /-- The community, of v1 and v2c. -/
  community : String
  /-- `opts`. -/
  opts : MacOptions
  /-- `ifaces`. -/
  ifaces : Ifaces

/-- `_why`. -/
def why (stats : Stats) : String :=
  if stats.timeout then "timeout" else if stats.error = "" then "error" else stats.error

/-- `stopped`. -/
def ReadState.stopped (s : ReadState) : Bool := s.halted || s.budget.truncated

/-- `note(what, stats)`, on the attributes. -/
def ReadState.note (what : String) (stats : Stats) (s : ReadState) : ReadState :=
  if stats.truncated then s
  else
    { s with
      problems := s.problems ++ [what ++ ": " ++ why stats]
      halted := s.halted || stats.timeout }

/-- `r["if_index"] = stack.get(r["if_index"], r["if_index"])`. -/
def Row.fold (stack : Dict String String) (row : Row) : Row :=
  { row with ifIndex := (stack.get? row.ifIndex).getD row.ifIndex }

/-- How `_read` ends: with its rows, or with contexts of VLANs to read (`advertised` by the agent or
not), or with an exception. -/
inductive Plan
  /-- The rows, with nothing more to read. -/
  | rows (rows : List Row)
  /-- The rows of the default context, and the VLANs whose contexts are to be read. -/
  | contexts (rows : List Row) (advertised : Bool) (vlans : List ℤ)
  /-- An exception. -/
  | raised (error : String)

namespace MacRead

variable (self : MacRead) (fuel : ℕ)

/-- `self.auth`, in the default context. -/
def access : Access :=
  match self.version with
  | .v3 => ⟨.usm, ""⟩
  | .v1 => ⟨.community self.community 0, ""⟩
  | .v2c => ⟨.community self.community 1, ""⟩

/-- `_context_auth(vid)`. -/
def contextAuth (vid : ℤ) : Access :=
  match self.version with
  | .v3 => ⟨.usm, "vlan-" ++ toString vid⟩
  | .v1 => ⟨.community (self.community ++ "@" ++ toString vid) 0, ""⟩
  | .v2c => ⟨.community (self.community ++ "@" ++ toString vid) 1, ""⟩

/-! ### Walks -/

/-- The arguments of a walk. -/
def call (columns : Columns) (access : Access) (capRows : Bool) (maxRep : ℤ) :
    WalkCall String ReadState where
  access := access
  columns := columns
  maxRep := maxRep
  retries := macRetries
  budget := some budgetRef
  capRows := capRows

/-- `walk(columns)`. -/
def walk (columns : Columns) (access : Access) (capRows : Bool) (maxRep : ℤ) :
    Reader (Walked String) := do
  let out ← walkColumns (call columns access capRows maxRep) fuel
  Coro.mark (I := net Outcome) ⟨access, columns, out⟩
  return out

/-- A walk of the default context, noted when it is not complete. -/
def walkDefault (what : String) (columns : Columns) (capRows : Bool) (maxRep : ℤ) :
    Reader (Walked String) := do
  let out ← walk fuel columns self.access capRows maxRep
  if out.complete then return out
  Coro.modify (ReadState.note what out.stats)
  return out

/-- `can_walk`. -/
def canWalk : Reader Bool := do
  let s ← Coro.get
  if s.halted then return false
  let late ← Coro.poll (I := net Outcome) ⟨.lookup, s.budget.deadline⟩
  return !late

/-! ### The VLANs and the ports of entries -/

/-- The VLANs the agent names: the PVIDs, and dot1qVlanStaticName if it can be walked. -/
def namedVlans : Reader (List ℤ) := do
  if ← canWalk then
    let names ← self.walkDefault fuel "dot1qVlanStaticName" nameColumns false macMaxRepetitions
    let vids := names.rows.keys.filterMap fun index ↦
      match index with
      | [vid] => some (Int.ofNat vid)
      | _ => none
    return self.ifaces.pvids ∪ vids.filter (· ≠ 0)
  else return self.ifaces.pvids

/-- `_qbridge_vlans`, and the entries after it. -/
def qbridgeVlans (entries : List Entry) (vlanFdb : Dict Oid String) (vlanFdbComplete : Bool) :
    Reader (List Entry) := do
  let named ← (if vlanFdb.items.isEmpty && vlanFdbComplete then some <$> self.namedVlans fuel
    else pure none : Reader (Option (List ℤ)))
  let vlanOf := mapFdbVlans (entries.filterMap Entry.fdbId) vlanFdb named
  Coro.modify fun s ↦ { s with report := { s.report with vlanMap := vlanOf.2 } }
  return entries.map (Entry.withVlan vlanOf.1)

/-- The walk of ifStackTable, if it has not been walked and can be. -/
def readStack : Reader Unit := do
  let s ← Coro.get
  if s.stack.isSome then return ()
  if ← canWalk then
    let stack ← self.walkDefault fuel "ifStackTable" stackColumns false macMaxRepetitions
    Coro.modify fun s ↦
      { s with stack := some (unitPorts self.ifaces (column stack.rows "status")) }

/-- An interface that is known and no port: a logical unit. -/
def isLogical (ifIndex : String) : Bool := self.ifaces.known ifIndex && !self.ifaces.isPort ifIndex

/-- `_learned(entries, base)`. -/
def learned (entries : List Entry) (base : Dict Oid String) : Reader (List Row) := do
  let s ← Coro.get
  let out := learnedRows self.ifaces entries base s.report.dropped
  Coro.modify fun s ↦ { s with
    report := { s.report with dropped := out.dropped }
    portMaps := s.portMaps ++ out.portMap.toList }
  if out.rows.all fun row ↦ !self.isLogical row.ifIndex then return out.rows
  self.readStack fuel
  let s ← Coro.get
  match s.stack with
  | none => return out.rows
  | some stack => return out.rows.map (Row.fold stack)

/-! ### The default context -/

/-- `_context_vlans()`. -/
def contextVlans : Reader (List Json × Bool) := do
  let entities ← self.walkDefault fuel "entLogicalTable" entLogicalColumns false 25
  let vlans := parseEntityVlans entities.rows
  if !vlans.isEmpty || (← Coro.get).stopped then return (vlans.map Json.int, !vlans.isEmpty)
  let states ← self.walkDefault fuel "vtpVlanState" vtpColumns false macMaxRepetitions
  let vlans := parseVtpVlans (column states.rows "state")
  if !vlans.isEmpty || (← Coro.get).stopped then return (vlans.map Json.int, !vlans.isEmpty)
  return (if self.opts.contexts = .always then self.opts.hint else [], false)

/-- `_per_vlan(rows)`, up to where the contexts are read. -/
def perVlan (rows : List Row) : Reader Plan := do
  let (vlans, advertised) ← self.contextVlans fuel
  match planContextVlans vlans self.opts.maxVlans with
  | none => return .raised "cannot convert float infinity to integer"
  | some (toRead, overCap) =>
    if (← Coro.get).stopped || toRead.isEmpty then return .rows rows
    Coro.modify fun s ↦ { s with report := { s.report with
      vlans := { s.report.vlans with skipped := s.report.vlans.skipped ++ overCap } } }
    if self.opts.quick then
      Coro.modify fun s ↦ { s with
        report := { s.report with
          vlans := { s.report.vlans with skipped := s.report.vlans.skipped ++ toRead } }
        problems := s.problems ++ ["quick read: per-VLAN MAC tables not read"] }
      return .contexts rows advertised []
    return .contexts rows advertised toRead

/-- `_read()` from dot1dTpFdbTable on. -/
def readBridge (base : Dict Oid String) : Reader Plan := do
  let fdb ← self.walkDefault fuel "dot1dTpFdbTable" dFdbColumns true macMaxRepetitions
  if !fdb.rows.items.isEmpty then
    Coro.modify fun s ↦ { s with report := { s.report with source := .bridge } }
  let rows ← self.learned fuel (parseFdbTable false fdb.rows) base
  if (← Coro.get).stopped || self.opts.contexts = .off then return .rows rows
  self.perVlan fuel rows

/-- `_read()` from dot1qTpFdbTable on. -/
def readQbridge (base : Dict Oid String) (vlanFdb : Walked String) : Reader Plan := do
  let fdb ← self.walkDefault fuel "dot1qTpFdbTable" qFdbColumns true macMaxRepetitions
  if !fdb.rows.items.isEmpty then
    Coro.modify fun s ↦ { s with report := { s.report with source := .qbridge } }
    let entries ← self.qbridgeVlans fuel (parseFdbTable true fdb.rows)
      (column vlanFdb.rows "fdb") vlanFdb.complete
    return .rows (← self.learned fuel entries base)
  if (← Coro.get).stopped then return .rows []
  self.readBridge fuel base

/-- `_read()`. -/
def read : Reader Plan := do
  let base ← self.walkDefault fuel "dot1dBasePortIfIndex" baseColumns false macMaxRepetitions
  if (← Coro.get).stopped then return .rows []
  let base := column base.rows "if_index"
  Coro.modify fun s ↦ { s with defaultBase := !base.items.isEmpty }
  let vlanFdb ← self.walkDefault fuel "dot1qVlanFdbId" vlanFdbColumns false macMaxRepetitions
  if (← Coro.get).stopped then return .rows []
  self.readQbridge fuel base vlanFdb

/-! ### The contexts of VLANs -/

/-- `_read_context(vid)`. -/
def readContext (vid : ℤ) : Reader (Bool × List Row × String) := do
  let base ← walk fuel baseColumns (self.contextAuth vid) false macMaxRepetitions
  let failure := fun (stats : Stats) ↦ if stats.truncated then "" else why stats
  if !base.complete then return (false, [], failure base.stats)
  let fdb ← walk fuel dFdbColumns (self.contextAuth vid) true macMaxRepetitions
  let entries := (parseFdbTable false fdb.rows).map fun entry ↦ { entry with vlan := some vid }
  let rows ← self.learned fuel entries (column base.rows "if_index")
  return (fdb.complete, rows, if fdb.complete then "" else failure fdb.stats)

/-- `listed["skipped"].append(vid)`. -/
def skip (vid : ℤ) (s : ReadState) : ReadState :=
  { s with report := { s.report with
    vlans := { s.report.vlans with skipped := s.report.vlans.skipped ++ [vid] } } }

/-- What a context leaves, once it is read. -/
def settle (vid : ℤ) (ok : Bool) (rows : List Row) (failure : String) (s : ReadState) :
    ReadState :=
  let s := { s with contexts := { s.contexts with results := s.contexts.results.set vid rows } }
  if ok then
    { s with
      report := { s.report with
        vlans := { s.report.vlans with read := s.report.vlans.read ++ [vid] } }
      contexts := { s.contexts with streak := [] } }
  else if failure = "" then skip vid s
  else
    let streak := s.contexts.streak ++ [vid]
    { s with
      report := { s.report with
        vlans := { s.report.vlans with failed := s.report.vlans.failed ++ [vid] } }
      contexts := { s.contexts with
        failures := s.contexts.failures.set vid failure
        streak := streak
        aborted :=
          if s.contexts.aborted ≠ [] then s.contexts.aborted ++ [vid]
          else if macContextAbortAfter ≤ streak.length then streak
          else [] } }

/-- The task of a VLAN, once the semaphore lets it go. -/
def one (vid : ℤ) : Reader Unit := do
  let s ← Coro.get
  if !s.contexts.aborted.isEmpty || s.budget.truncated then Coro.modify (skip vid)
  else
    let late ← Coro.poll (I := net Outcome) ⟨.gate, s.budget.deadline⟩
    if late then Coro.modify (skip vid)
    else
      let (ok, rows, failure) ← self.readContext fuel vid
      Coro.modify (settle vid ok rows failure)

/-- What `_read_contexts` says of the contexts that failed. -/
def contextProblems (reads : ContextReads) : List String :=
  let hint := if self.version = .v3 then "the v3 group may lack 'context vlan- match prefix'"
    else "the agent may not take community@vlan"
  let shown := ", ".intercalate (reads.aborted.map toString)
  let others := sortedSet (reads.failures.keys.filter fun vid ↦ decide (vid ∉ reads.aborted))
  (if reads.aborted = [] then [] else
    ["per-VLAN read stopped after " ++ toString reads.aborted.length ++
      " failed contexts in a row (VLAN " ++ shown ++ "); " ++ hint]) ++
  (if others = [] then [] else
    ["per-VLAN contexts failed: " ++ ", ".intercalate (others.map fun vid ↦
      "VLAN " ++ toString vid ++ " (" ++ (reads.failures.get? vid).getD "" ++ ")")])

/-- What `_read_contexts` returns. -/
def contextRows (reads : ContextReads) : List Row :=
  (sortedSet reads.results.keys).flatMap fun vid ↦ (reads.results.get? vid).getD []

/-- `_per_vlan(rows)` once the contexts are read. -/
def afterContexts (rows : List Row) (advertised : Bool) (s : ReadState) : List Row × ReadState :=
  let listed := s.report.vlans
  let vlanned := advertised || !listed.read.isEmpty
  let report := if listed.read.isEmpty then s.report else { s.report with source := .bridgeVlan }
  let report := if vlanned then { report with vlanMap := .context } else report
  let rows := if vlanned ∧ 1 ∈ listed.read then [] else rows
  let rows := if vlanned then
      rows.map fun row ↦ { row with vlan := some (row.vlan.getD 1) }
    else rows
  (rows ++ contextRows s.contexts,
    { s with report := report, problems := s.problems ++ self.contextProblems s.contexts })

end MacRead

section Settle

variable {vid : ℤ} {ok : Bool} {rows : List Row} {failure : String} {s : ReadState}

/-- A context that is settled has its rows, and the read goes on with the budget it had. -/
theorem settle_frame :
    (MacRead.settle vid ok rows failure s).contexts.results = s.contexts.results.set vid rows ∧
      (MacRead.settle vid ok rows failure s).budget = s.budget ∧
      (MacRead.settle vid ok rows failure s).halted = s.halted ∧
      (MacRead.settle vid ok rows failure s).stack = s.stack := by
  rw [MacRead.settle]
  split
  · exact ⟨rfl, rfl, rfl, rfl⟩
  · split
    · exact ⟨rfl, rfl, rfl, rfl⟩
    · exact ⟨rfl, rfl, rfl, rfl⟩

/-- The end of a context puts its rows under its VLAN. -/
theorem results_settle : (MacRead.settle vid ok rows failure s).contexts.results =
    s.contexts.results.set vid rows :=
  settle_frame.1

theorem budget_settle : (MacRead.settle vid ok rows failure s).budget = s.budget :=
  settle_frame.2.1

theorem halted_settle : (MacRead.settle vid ok rows failure s).halted = s.halted :=
  settle_frame.2.2.1

theorem stack_settle : (MacRead.settle vid ok rows failure s).stack = s.stack :=
  settle_frame.2.2.2

end Settle

/-! ### The end -/

/-- One row for each (vlan, mac, if_index), the first of them. -/
def uniqueRows (rows : List Row) : List Row :=
  rows.foldl (fun unique row ↦
    if unique.any fun row' ↦
        row'.vlan = row.vlan && row'.mac = row.mac && row'.ifIndex = row.ifIndex then unique
    else unique ++ [row]) []

/-- `_PORT_MAP_RANK` -/
def PortMap.rank : PortMap → ℕ
  | basePort => 0
  | assumed => 1
  | none => 2

/-- `max(port_maps, key=_PORT_MAP_RANK.__getitem__)`. -/
def worstPortMap (first : PortMap) (rest : List PortMap) : PortMap :=
  rest.foldl (fun worst how ↦ if worst.rank < how.rank then how else worst) first

/-- The problems of a read, and whether its budget was spent. -/
def ReadState.allProblems (s : ReadState) : List String :=
  if s.budget.truncated then
    s.problems ++ [if s.budget.reason = "time" then
        "time budget (" ++ toString s.budget.seconds ++ " s) reached"
      else "row cap (" ++ toString s.budget.rows ++ ") reached"]
  else s.problems

/-- `_finish(rows, started)`, with the clock at `now`. -/
def ReadState.finish (rows : List Row) (started now : ℚ) (s : ReadState) : List Row × MacMeta :=
  let unique := uniqueRows rows
  let problems := s.allProblems
  (unique,
    { s.report with
      truncated := s.budget.truncated
      complete := problems.isEmpty
      error := String.ofList (("; ".intercalate problems.eraseDups).toList.take 300)
      portMap := match s.portMaps with
        | first :: rest => worstPortMap first rest
        | [] => if s.defaultBase then .basePort else .none
      vlans :=
        { read := sortedSet s.report.vlans.read
          skipped := sortedSet s.report.vlans.skipped
          failed := sortedSet s.report.vlans.failed }
      rows := unique.length
      elapsedMs := ⌊max (now - started) 0 * 1000⌋ })

/-- A read that says it is complete has no problem, and its budget is not cut. -/
theorem no_problem_of_complete {s : ReadState} {rows : List Row} {started now : ℚ}
    (h : (s.finish rows started now).2.complete = true) :
    s.budget.truncated = false ∧ s.problems = [] := by
  have hproblems : s.allProblems = [] := List.isEmpty_iff.1 h
  rw [ReadState.allProblems] at hproblems
  split at hproblems
  case isTrue =>
    exact absurd hproblems (List.append_ne_nil_of_right_ne_nil _ (List.cons_ne_nil _ _))
  case isFalse huncut => exact ⟨Bool.eq_false_of_not_eq_true huncut, hproblems⟩

/-- What a read meets: the clock, the replies, and the order in which tasks that wait go on. -/
structure Surroundings where
  /-- What `time.monotonic()` says. -/
  clock : Log (net Outcome) → ℚ
  /-- What a request is answered. -/
  reply : Log (net Outcome) → Query → Reply
  /-- Which of the tasks that can go on does. -/
  pick : Log (net Outcome) → ℕ

/-- `budget.remaining() <= 0` by the clock. -/
def Surroundings.env (sur : Surroundings) : Env (net Outcome) where
  reading := fun log p ↦ decide (p.deadline - sur.clock log ≤ 0)
  reply := sur.reply
  pick := sur.pick

/-- A look behind the deadline finds it late. -/
theorem Surroundings.reading_of_clock {sur : Surroundings} {log : Log (net Outcome)} {probe : Probe}
    (h : sur.clock log < probe.deadline) : sur.env.reading log probe = false := by
  show decide (probe.deadline - sur.clock log ≤ 0) = false
  rw [decide_eq_false_iff_not]
  linarith

namespace MacRead

/-- `_MacTableRead(…)`, with the clock at `now`. -/
def start (self : MacRead) (now : ℚ) : ReadState where
  budget := WalkBudget.new self.opts.budgetS macRowCap now
  report := MacMeta.fresh
  problems := []
  portMaps := []
  defaultBase := false
  stack := none
  halted := false
  contexts := ⟨Dict.empty, Dict.empty, [], []⟩

/-- `run()`: what it returns, and the log. -/
def run (self : MacRead) (sur : Surroundings) (fuel : ℕ) (s : ReadState) :
    Option ((List Row × MacMeta) × Log (net Outcome)) := do
  let started := sur.clock []
  let (plan, s, log) ← (self.read fuel).run sur.env s []
  match plan with
  | .rows rows => return (s.finish rows started (sur.clock log), log)
  | .raised error =>
    let s := { s with problems := s.problems ++ ["MAC table read failed: " ++ error] }
    return (s.finish [] started (sur.clock log), log)
  | .contexts rows advertised vlans =>
    let (s, log) ← gather sur.env macContextConcurrency fuel (vlans.map (self.one fuel)) s log
    let (rows, s) := self.afterContexts rows advertised s
    return (s.finish rows started (sur.clock log), log)

end MacRead

end Snmp
