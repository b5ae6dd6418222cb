import DanbyteOutpost.Snmp.MacOrigin

/-!
# Neighbours and the ARP table

`fetch_topology`, up to the rows its answer is made of: the LLDP tables as they were walked, and the
ARP table as it is reported. Its walks have no budget and send no request twice.

## What is known of the walks

No other task touches a topology read, and it has no state of its own, so its rules only say what
the agent may answer (`TopologyAnswers`), and its invariant is that the marks in the log are sound
(`TopologySound`). Whatever fails, the rows of the ARP table are of entries of the walk that the
log has (`ArpRow.ReadAt`).
-/

namespace Snmp

open Coop PyText

/-! ### Tables -/

/-- `_ARP_PHYS` -/
def arpPhys : Oid := [1, 3, 6, 1, 2, 1, 4, 22, 1, 2]
/-- `_ARP_TYPE` -/
def arpType : Oid := [1, 3, 6, 1, 2, 1, 4, 22, 1, 4]
/-- `_LLDP_LOC_PORT_ID_SUBTYPE` -/
def lldpLocPortIdSubtype : Oid := [1, 0, 8802, 1, 1, 2, 1, 3, 7, 1, 2]
/-- `_LLDP_LOC_PORT_ID` -/
def lldpLocPortId : Oid := [1, 0, 8802, 1, 1, 2, 1, 3, 7, 1, 3]
/-- `_LLDP_LOC_PORT_DESC` -/
def lldpLocPortDesc : Oid := [1, 0, 8802, 1, 1, 2, 1, 3, 7, 1, 4]
/-- `_LLDP_REM_SYSNAME` -/
def lldpRemSysname : Oid := [1, 0, 8802, 1, 1, 2, 1, 4, 1, 1, 9]
/-- `_LLDP_REM_PORT_DESC` -/
def lldpRemPortDesc : Oid := [1, 0, 8802, 1, 1, 2, 1, 4, 1, 1, 8]
/-- `_LLDP_REM_PORT_ID` -/
def lldpRemPortId : Oid := [1, 0, 8802, 1, 1, 2, 1, 4, 1, 1, 7]
/-- `_LLDP_REM_SYS_CAP_ENABLED` -/
def lldpRemSysCapEnabled : Oid := [1, 0, 8802, 1, 1, 2, 1, 4, 1, 1, 12]
/-- `_LLDP_REPETITIONS` -/
def lldpRepetitions : ℤ := 10
/-- `_ARP_REPETITIONS` -/
def arpRepetitions : ℤ := 25

/-- The columns of ipNetToMediaTable. -/
def arpColumns : Columns := Dict.ofList [("mac", arpPhys), ("type", arpType)]

/-- The columns of lldpLocPortTable, the local ports. -/
def lldpLocColumns : Columns := Dict.ofList
  [("subtype", lldpLocPortIdSubtype), ("id", lldpLocPortId), ("desc", lldpLocPortDesc)]

/-- The columns of lldpRemTable, the neighbours. -/
def lldpRemColumns : Columns := Dict.ofList
  [("sysname", lldpRemSysname), ("port_desc", lldpRemPortDesc), ("port_id", lldpRemPortId),
    ("caps", lldpRemSysCapEnabled)]

/-- The columns `fetch_topology` may walk. -/
def topologyColumns : List Oid :=
  [lldpLocColumns, lldpRemColumns, baseColumns, arpColumns].flatMap fun columns ↦
    columns.items.map Prod.snd

/-! ### ARP entries -/

/-- `type` of an ARP row, from ipNetToMediaType: a name of `_ARP_TYPES`, or the text itself. -/
def arpKind (type : Option String) : String :=
  match strip (type.getD "") with
  | "1" => "other"
  | "2" => "invalid"
  | "3" => "dynamic"
  | "4" => "static"
  | raw => lower raw

/-- An ARP row. -/
structure ArpRow where
  /-- The interface. -/
  ifIndex : String
  /-- The address. -/
  ip : String
  /-- The address it is bound to. -/
  mac : String
  /-- How the agent comes to know it. -/
  type : String
  deriving DecidableEq

/-- The row of an entry of ipNetToMediaPhysAddress. -/
def arpRow (types : Oid → Option String) (e : Oid × String) : Option ArpRow :=
  match e.1 with
  | ifIndex :: a :: b :: c :: d :: _ =>
    if arpKind (types e.1) = "invalid" then none
    else some
      { ifIndex := toString ifIndex
        ip := dotted [a, b, c, d]
        mac := fmtMac e.2
        type := arpKind (types e.1) }
  | _ => none

/-- `parse_arp(phys, types)`. -/
def parseArp (phys types : Dict Oid String) : List ArpRow :=
  phys.items.filterMap (arpRow types.get?)

/-! ### The walks -/

/-- `arp_meta`. -/
structure ArpMeta where
  /-- The walk has come to its end. -/
  complete : Bool
  /-- How many rows there are. -/
  rows : ℕ
  /-- Why it has not. -/
  error : String
  deriving DecidableEq

/-- What `fetch_topology` reports of ARP, and the rows its neighbours are made of. -/
structure Topology where
  /-- The local ports. -/
  loc : Rows String
  /-- The neighbours. -/
  rem : Rows String
  /-- The bridge ports; nothing where there is no neighbour. -/
  base : Dict Oid String
  /-- The ARP rows. -/
  arp : List ArpRow
  /-- Whether they are all. -/
  arpMeta : ArpMeta

/-- The arguments of a walk of `fetch_topology`. -/
def topologyCall (auth : Auth) (columns : Columns) (maxRep : ℤ) : WalkCall String Unit where
  access := ⟨auth, ""⟩
  columns := columns
  maxRep := maxRep
  retries := 0
  budget := none
  capRows := false

/-- A walk of `fetch_topology`. -/
def topologyWalk (auth : Auth) (fuel : ℕ) (columns : Columns) (maxRep : ℤ) :
    Coro (net Outcome) Unit (Walked String) := do
  let out ← walkColumns (topologyCall auth columns maxRep) fuel
  Coro.mark (I := net Outcome) ⟨⟨auth, ""⟩, columns, out⟩
  return out

/-- `base`: the ports of the bridge, which are walked only if there are neighbours. -/
def topologyBase (auth : Auth) (fuel : ℕ) (rem : Rows String) :
    Coro (net Outcome) Unit (Dict Oid String) :=
  if rem.items.isEmpty then pure Dict.empty
  else do
    let base ← topologyWalk auth fuel baseColumns macMaxRepetitions
    return column base.rows "if_index"

/-- `fetch_topology`. -/
def fetchTopology (auth : Auth) (fuel : ℕ) : Coro (net Outcome) Unit Topology := do
  let loc ← topologyWalk auth fuel lldpLocColumns lldpRepetitions
  let rem ← topologyWalk auth fuel lldpRemColumns lldpRepetitions
  let base ← topologyBase auth fuel rem.rows
  let arp ← topologyWalk auth fuel arpColumns arpRepetitions
  let rows := parseArp (column arp.rows "mac") (column arp.rows "type")
  return {
    loc := loc.rows
    rem := rem.rows
    base := base
    arp := rows
    arpMeta :=
      { complete := arp.complete
        rows := rows.length
        error := if arp.complete then "" else String.ofList ((why arp.stats).toList.take 300) } }

/-! ### Where ARP rows come from -/

/-- A row is the entry of a walk of ipNetToMediaTable at an index. -/
structure ArpRow.ReadAt (row : ArpRow) (log : Log (net Outcome)) (f : Outcome) (index : Oid) :
    Prop where
  /-- The walk has ended. -/
  mark : .marked f ∈ log
  /-- It is of this table. -/
  columns : f.columns = arpColumns
  /-- It has read an address there, and the row is made of it. -/
  entry : ∃ mac, cellOf f.walked.rows index "mac" = some mac ∧
    arpRow (cellOf f.walked.rows · "type") (index, mac) = some row

/-- A row of the answer is an entry of the walk. -/
theorem mem_parseArp {rows : Rows String} {row : ArpRow} :
    row ∈ parseArp (column rows "mac") (column rows "type") ↔ ∃ index mac,
      cellOf rows index "mac" = some mac ∧
        arpRow (cellOf rows · "type") (index, mac) = some row := by
  have htypes : (column rows "type").get? = (cellOf rows · "type") :=
    funext fun index ↦ get?_column rows "type" index
  rw [parseArp, List.mem_filterMap, htypes]
  constructor
  · rintro ⟨⟨index, mac⟩, he, hrow⟩
    exact ⟨index, mac, (get?_column ..).symm.trans (Dict.get?_of_mem he), hrow⟩
  · rintro ⟨index, mac, hcell, hrow⟩
    exact ⟨(index, mac), Dict.mem_items_iff.2 ((get?_column ..).trans hcell), hrow⟩

/-- Every reply to `fetch_topology` is the agent's or a fault. -/
def TopologyAnswers (env : Env (net Outcome)) (agent : Agent) : Prop :=
  ∀ log q, Conforms agent topologyColumns q (env.reply log q) ∨
    Faulty agent topologyColumns q (env.reply log q)

/-- The walks of `fetch_topology` are sound, in the default context. -/
def TopologySound (agent : Agent) (auth : Auth) (w : World (net Outcome) Unit) : Prop :=
  ∀ o : Outcome, .marked o ∈ w.log → o.access = ⟨auth, ""⟩ ∧ o.Sound agent

/-- Any replies of an agent's, any faults, and any readings of the clock. -/
def topologyRules (agent : Agent) (auth : Auth) : Rules (net Outcome) Unit where
  answer := fun _ q r ↦ Conforms agent topologyColumns q r ∨ Faulty agent topologyColumns q r
  reading := fun _ _ _ ↦ True
  inv := TopologySound agent auth
  alone := False
  mayStop := True

variable {agent : Agent} {auth : Auth} {fuel : ℕ} {w : World (net Outcome) Unit}

theorem TopologySound.event (h : TopologySound agent auth w) {e : Event (net Outcome)}
    (he : ∀ o, e ≠ .marked o) : TopologySound agent auth ⟨w.st, e :: w.log⟩ :=
  fun o ho ↦ h o ((List.mem_cons.1 ho).resolve_left fun heq ↦ he o heq.symm)

/-- A walk without a budget keeps everything but the log. -/
theorem walkKeeps_topologyRules (columns : Columns) (maxRep : ℤ) :
    WalkKeeps (topologyRules agent auth) (topologyCall auth columns maxRep) where
  onTime := nofun
  late := nofun
  answered := fun s log _ _ h _ _ ↦ TopologySound.event (w := ⟨s, log⟩) h nofun
  expired := nofun
  row := nofun
  full := nofun

theorem topologyWalk_wp {columns : Columns} {maxRep : ℤ}
    (hcolumns : columns.items.map Prod.snd ⊆ topologyColumns) (h : TopologySound agent auth w) :
    (topologyWalk auth fuel columns maxRep).wp (topologyRules agent auth)
      (fun out w' ↦ TopologySound agent auth w' ∧
        .marked (⟨⟨auth, ""⟩, columns, out⟩ : Outcome) ∈ w'.log) w := by
  have hhonest : True →
      Honest (topologyRules agent auth) agent (topologyCall auth columns maxRep) :=
    fun _ _ _ _ hanswer _ ↦ hanswer.imp (Conforms.anti hcolumns) (Faulty.anti hcolumns)
  refine Coro.wp_bind.2 (Coro.wp_mono (walkColumns_wp (walkKeeps_topologyRules columns maxRep)
    hhonest h (.inl trivial)) fun out w' _ hend ↦ ⟨fun o ho ↦ ?_, List.mem_cons_self⟩)
  rcases List.mem_cons.1 ho with heq | ho
  · cases heq
    exact ⟨rfl, ⟨(hend.part trivial).cell, (hend.part trivial).row⟩, hend.whole trivial⟩
  · exact hend.inv o ho

/-- The bridge's ports are one walk, or none. -/
theorem topologyBase_wp (rem : Rows String) (h : TopologySound agent auth w) :
    (topologyBase auth fuel rem).wp (topologyRules agent auth)
      (fun _ w' ↦ TopologySound agent auth w') w := by
  rw [topologyBase]
  split
  · exact h
  · exact Coro.wp_bind.2 (Coro.wp_mono (topologyWalk_wp (by decide) h) fun _ _ _ h' ↦ h'.1)

/-- What `fetch_topology` reports of ARP comes from a walk in the log. -/
theorem fetchTopology_wp (h : TopologySound agent auth w) :
    (fetchTopology auth fuel).wp (topologyRules agent auth) (fun topology w' ↦
      TopologySound agent auth w' ∧
        ∀ row ∈ topology.arp, ∃ f index, row.ReadAt w'.log f index) w := by
  refine Coro.wp_bind.2 (Coro.wp_mono (topologyWalk_wp (by decide) h) fun _ w₁ _ ⟨h₁, _⟩ ↦ ?_)
  refine Coro.wp_bind.2 (Coro.wp_mono (topologyWalk_wp (by decide) h₁) fun rem w₂ _ ⟨h₂, _⟩ ↦ ?_)
  refine Coro.wp_bind.2 (Coro.wp_mono (topologyBase_wp rem.rows h₂) fun _ w₃ _ h₃ ↦ ?_)
  refine Coro.wp_bind.2 (Coro.wp_mono (topologyWalk_wp (by decide) h₃)
    fun arp w₄ _ ⟨h₄, hmark⟩ ↦ ⟨h₄, fun row hrow ↦ ?_⟩)
  obtain ⟨index, mac, hcell, hof⟩ := mem_parseArp.1 hrow
  exact ⟨_, index, hmark, rfl, mac, hcell, hof⟩

/-- The run lemma of `fetch_topology`. -/
theorem fetchTopology_inv {env : Env (net Outcome)} (hanswers : TopologyAnswers env agent)
    {topology : Topology} {log : Log (net Outcome)}
    (hrun : (fetchTopology auth fuel).run env () [] = some (topology, (), log)) :
    (∀ o : Outcome, .marked o ∈ log → o.access = ⟨auth, ""⟩ ∧ o.Sound agent) ∧
      ∀ row ∈ topology.arp, ∃ f index, row.ReadAt log f index := by
  have hobeys : env.Obeys (topologyRules agent auth) := ⟨hanswers, fun _ _ ↦ trivial⟩
  exact Coro.run_of_wp hobeys (fetchTopology_wp (w := ⟨(), []⟩) nofun) hrun

end Snmp
