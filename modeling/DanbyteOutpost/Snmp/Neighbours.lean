import DanbyteOutpost.Snmp.LearnedRows
import DanbyteOutpost.Snmp.LldpPorts
import DanbyteOutpost.Snmp.OidText
import DanbyteOutpost.Snmp.Rendering
import DanbyteOutpost.Snmp.Topology
import DanbyteOutpost.Snmp.WalkTable
import DanbyteOutpost.Snmp.WholeTables

/-!
# The neighbours

`parse_lldp`, and with it the rest of `fetch_topology`: four columns of lldpRemTable, joined with
the names of the local ports and with the interfaces these are. `neighbors_read` compares the rows
with the agent's tables. Whatever goes wrong, each row is of an entry of its own and has nothing of
another one; when nothing does, there is exactly one for each entry with a system name, and it says
what the tables say (`Mib.neighbor`). The ARP table is known to be whole from its `arp_meta`
(`arp_whole`).

## The parts

* `parseLldp`, `neighborOf`: a row is made of the columns at one index, and of what the local port
  in that index resolves to.
* `Mib.neighbor`, `Mib.named`: the same of the agent's tables, without walks.
* `Neighbor.ReadOf`: what a row is sure of when walks have failed: every cell is the entry's own,
  or is missing.

## The proof

A walk of the topology is alone and has no budget, so it is specified by `walkColumns_reads_table`
(`topologyWalk_alone`), and the program by its walks one after the other (`fetchTopology_alone`).
With fewer rows of the local ports, a port resolves to less, but to nothing else
(`LldpLocal.PartAt`): a name that was unique in the interfaces stays so.
-/

namespace Snmp

open Coop PyText

/-! ### Model -/

/-- A row of `neighbors`. -/
structure Neighbor where
  /-- The description of the local port, or its number. -/
  localPort : String
  /-- The name of the neighbour. -/
  remoteDevice : String
  /-- The description of its port, or its id. -/
  remotePort : String
  /-- The interface of the local port, where that is known. -/
  localIfIndex : String
  /-- What the neighbour says it is. -/
  remoteCaps : List String
  deriving DecidableEq

/-- `index.split(".")[1]`, or `""` where there is no such part. -/
def localPortNum : Oid → String
  | _ :: num :: _ => toString num
  | _ => ""

/-- `a or b`, for what a dict has. -/
def orText (a : Option String) (b : String) : String := if a.getD "" = "" then b else a.getD ""

/-- The row of an entry of lldpRemSysName. -/
def neighborOf (locPorts : Dict String String) (portDesc portId caps : Oid → Option String)
    (localIfIndex : Dict String String) (e : Oid × String) : Neighbor where
  localPort := orText (locPorts.get? (localPortNum e.1)) ("port " ++ localPortNum e.1)
  remoteDevice := e.2
  remotePort := orText (portDesc e.1) (orText (portId e.1) "")
  localIfIndex := (localIfIndex.get? (localPortNum e.1)).getD ""
  remoteCaps := parseLldpCaps ((caps e.1).getD "")

/-- `parse_lldp`, with `rem_caps` and `local_if_index`. -/
def parseLldp (locPorts : Dict String String) (sysname portDesc portId caps : Dict Oid String)
    (localIfIndex : Dict String String) : List Neighbor :=
  (sysname.items.filter fun e ↦ decide (e.2 ≠ "")).map
    (neighborOf locPorts portDesc.get? portId.get? caps.get? localIfIndex)

namespace Topology

variable (topology : Topology)

/-- `ports` -/
def ports : List String :=
  (topology.rem.keys.filter fun index ↦ decide (3 ≤ index.length)).map localPortNum

/-- What was read of the local ports. -/
def lldpLocal : LldpLocal where
  subtype := byText (column topology.loc "subtype")
  id := byText (column topology.loc "id")
  desc := byText (column topology.loc "desc")
  base := byText topology.base

/-- `neighbors` of `fetch_topology`. -/
def neighbors (interfaces : List NamedIface) : List Neighbor :=
  parseLldp topology.lldpLocal.desc (column topology.rem "sysname")
    (column topology.rem "port_desc") (column topology.rem "port_id") (column topology.rem "caps")
    (resolveLldpLocalPorts topology.ports topology.lldpLocal interfaces)

end Topology

/-! ### The agent's tables -/

namespace Mib

variable (m : Mib)

/-- A column of an agent, by the texts of its indexes. -/
def texts (base : Oid) : Dict String String := byText (Dict.ofList (m.column base))

/-- What an agent says of its local ports. -/
def lldpLocal : LldpLocal where
  subtype := m.texts lldpLocPortIdSubtype
  id := m.texts lldpLocPortId
  desc := m.texts lldpLocPortDesc
  base := m.texts dot1dBasePortIfindex

/-- An entry of lldpRemTable, with an index of three parts or more, is on the local port. -/
def OnPort (num : String) : Prop :=
  ∃ index ∈ m.indexes [lldpRemSysname, lldpRemPortDesc, lldpRemPortId, lldpRemSysCapEnabled],
    3 ≤ index.length ∧ localPortNum index = num

instance (num : String) : Decidable (m.OnPort num) := List.decidableBEx _ _

/-- What an agent says of the neighbour at an index of lldpRemTable. -/
def neighbor (interfaces : List NamedIface) (index : Oid) : Neighbor where
  localPort := orText (m.lldpLocal.desc.get? (localPortNum index)) ("port " ++ localPortNum index)
  remoteDevice := (m.cell lldpRemSysname index).getD ""
  remotePort := orText (m.cell lldpRemPortDesc index) (orText (m.cell lldpRemPortId index) "")
  localIfIndex :=
    if m.OnPort (localPortNum index) then
      resolvePort m.lldpLocal interfaces (localPortNum index)
    else ""
  remoteCaps := parseLldpCaps ((m.cell lldpRemSysCapEnabled index).getD "")

/-- The indexes of the neighbours that have a system name. -/
def named : List Oid :=
  ((m.column lldpRemSysname).filter fun e ↦ decide (e.2 ≠ "")).map Prod.fst

end Mib

/-- A row is of the entry at the index, with nothing of another one. What was not read is missing
from it. -/
structure Neighbor.ReadOf (m : Mib) (interfaces : List NamedIface) (index : Oid) (row : Neighbor) :
    Prop where
  /-- It has the entry's name. -/
  remoteDevice : m.cell lldpRemSysname index = some row.remoteDevice
  /-- Which is not empty. -/
  named : row.remoteDevice ≠ ""
  /-- Its port is the entry's, too. -/
  remotePort : row.remotePort = "" ∨ m.cell lldpRemPortDesc index = some row.remotePort ∨
    m.cell lldpRemPortId index = some row.remotePort
  /-- And so are its capabilities. -/
  remoteCaps : row.remoteCaps = parseLldpCaps "" ∨
    ∃ text ∈ m.cell lldpRemSysCapEnabled index, row.remoteCaps = parseLldpCaps text
  /-- The local port is the one in the entry's index. -/
  localPort : row.localPort = "port " ++ localPortNum index ∨
    m.lldpLocal.desc.get? (localPortNum index) = some row.localPort
  /-- And its interface is found by one of the three ways. -/
  localIfIndex : row.localIfIndex = "" ∨
    m.lldpLocal.ById interfaces (localPortNum index) row.localIfIndex ∨
    m.lldpLocal.ByBridge interfaces (localPortNum index) row.localIfIndex ∨
    m.lldpLocal.ByDesc interfaces (localPortNum index) row.localIfIndex

/-! ### Texts of indexes -/

/-- A table by the texts of its indexes says the same, the texts being those of no other index. -/
theorem get?_byText (d : Dict Oid String) (index : Oid) :
    (byText d).get? (dotted index) = d.get? index := by
  refine Option.ext fun text ↦ ?_
  rw [← Dict.mem_items_iff, ← Dict.mem_items_iff]
  constructor
  · intro h
    obtain ⟨⟨index', text'⟩, hmem, heq⟩ := List.mem_map.1 h
    obtain ⟨hindex, rfl⟩ := Prod.mk.inj heq
    rwa [← dotted_injective hindex]
  · intro h
    exact List.mem_map.2 ⟨(index, text), h, rfl⟩

/-- The second part of an index, as an index of its own. -/
def localPortIndex (index : Oid) : Oid := (index.drop 1).take 1

/-- The number of the local port is the second part of an index. -/
theorem dotted_localPortIndex (index : Oid) :
    dotted (localPortIndex index) = localPortNum index := by
  match index with
  | [] | [_] => rfl
  | _ :: num :: _ => rfl

variable {m : Mib} {agent : Agent} {auth : Auth} {fuel : ℕ} {calm : Prop} {columns : Columns}
  {interfaces : List NamedIface}

theorem Mib.nodup_column (m : Mib) (base : Oid) : ((m.column base).map Prod.fst).Nodup := by
  have hkeys : (m.column base).map Prod.fst =
      (m.entries.map Prod.fst).filterMap (indexIn base) := by
    rw [column, List.map_filterMap, List.filterMap_map]
    refine List.filterMap_congr fun e _ ↦ ?_
    show ((indexIn base e.1).map (·, e.2)).map Prod.fst = indexIn base e.1
    cases indexIn base e.1 <;> rfl
  rw [hkeys]
  refine (m.sorted.imp ne_of_lt).filterMap _ fun oid oid' hne index h index' h' heq ↦ hne ?_
  rw [(indexIn_eq_some.1 h).1, (indexIn_eq_some.1 h').1, heq]

theorem Mib.get?_texts (m : Mib) (base index : Oid) :
    (m.texts base).get? (dotted index) = m.cell base index := by
  refine Option.ext fun text ↦ ?_
  rw [texts, get?_byText, Dict.get?_ofList_iff (m.nodup_column base), mem_column]

/-! ### The walks -/

/-- A walk of the columns in the default context: what it read is in the agent's tables, and all of
it where `calm` holds. -/
structure WalkOf (agent : Agent) (auth : Auth) (calm : Prop) (columns : Columns) (o : Outcome) :
    Prop where
  /-- It was made in the default context. -/
  access : o.access = ⟨auth, ""⟩
  /-- It is of these columns. -/
  columns : o.columns = columns
  /-- It has read what is there. -/
  sound : o.Sound agent
  /-- And all of it, if nothing went wrong. -/
  whole : calm → o.walked.complete = true

/-- A cell that a walk brought is the agent's. -/
theorem WalkOf.cell {rows : Rows String}
    (h : ∃ o, WalkOf agent auth calm columns o ∧ o.walked.rows = rows) {key : String}
    {oid index : Oid} {text : String} (hkey : columns.get? key = some oid)
    (hcell : cellOf rows index key = some text) :
    (agent ⟨auth, ""⟩).cell oid index = some text := by
  obtain ⟨o, h, rfl⟩ := h
  rw [← h.access]
  exact h.sound.cell (h.columns ▸ hkey) hcell

/-- Every reply is the agent's. -/
def TopologyServed (env : Env (net Outcome)) (agent : Agent) : Prop :=
  ∀ log q, Conforms agent topologyColumns q (env.reply log q)

/-- Fuel for a walk of the columns. -/
def walkFuel (agent : Agent) (auth : Auth) (columns : Columns) (maxRep : ℤ) : ℕ :=
  (topologyCall auth columns maxRep).start.ahead (agent ⟨auth, ""⟩) + 1

/-- A walk of the stage ends, and is a walk of the agent's table. -/
theorem topologyWalk_alone {env : Env (net Outcome)} (hanswers : TopologyAnswers env agent)
    {columns : Columns} {maxRep : ℤ} (hcolumns : columns.items.map Prod.snd ⊆ topologyColumns)
    (hfuel : walkFuel agent auth columns maxRep ≤ fuel) (w : World (net Outcome) Unit) :
    (topologyWalk auth fuel columns maxRep).wp (aloneWith env)
      (fun out _ ↦
        WalkOf agent auth (TopologyServed env agent) columns ⟨⟨auth, ""⟩, columns, out⟩) w := by
  have hhonest : True → Honest (aloneWith env : Rules (net Outcome) Unit) agent
      (topologyCall auth columns maxRep) := by
    intro _ log q r hr _
    subst hr
    exact (hanswers log q).imp (Conforms.anti hcolumns) (Faulty.anti hcolumns)
  refine Coro.wp_bind.2 (Coro.wp_mono (walkColumns_wp (walkKeeps_aloneWith env _) hhonest trivial
    (.inr ⟨trivial, hfuel⟩)) fun out w' _ hend ↦ ?_)
  refine ⟨rfl, rfl, ⟨⟨(hend.part trivial).cell, (hend.part trivial).row⟩, hend.whole trivial⟩,
    fun hcalm ↦ ?_⟩
  by_contra hno
  rcases hend.fault trivial trivial (Bool.eq_false_of_not_eq_true hno) with
    hmishap | ⟨_, -, ref, href, -⟩
  · cases hmishap with
    | late ref href => cases href
    | reply log q r hr _ hfault =>
      subst hr
      exact hfault ((hcalm log q).anti hcolumns)
  · cases href

/-- What the answer of `fetch_topology` is made of. -/
structure TopologyRead (agent : Agent) (auth : Auth) (calm : Prop) (topology : Topology) :
    Prop where
  /-- The local ports come from a walk. -/
  loc : ∃ o, WalkOf agent auth calm lldpLocColumns o ∧ o.walked.rows = topology.loc
  /-- So do the neighbours. -/
  rem : ∃ o, WalkOf agent auth calm lldpRemColumns o ∧ o.walked.rows = topology.rem
  /-- And the bridge ports, which are only asked for where there is a neighbour. -/
  base : topology.rem.items ≠ [] → ∃ o, WalkOf agent auth calm baseColumns o ∧
    column o.walked.rows "if_index" = topology.base
  /-- And the ARP rows, whose walk says whether they are all. -/
  arp : ∃ o, WalkOf agent auth calm arpColumns o ∧ o.walked.complete = topology.arpMeta.complete ∧
    parseArp (column o.walked.rows "mac") (column o.walked.rows "type") = topology.arp

/-- Fuel for every walk of `fetch_topology`. -/
def topologyFuel (agent : Agent) (auth : Auth) : ℕ :=
  walkFuel agent auth lldpLocColumns lldpRepetitions +
    walkFuel agent auth lldpRemColumns lldpRepetitions +
    walkFuel agent auth baseColumns macMaxRepetitions +
    walkFuel agent auth arpColumns arpRepetitions

/-- The walk of the ports is made exactly where there are neighbours. -/
theorem topologyBase_alone {env : Env (net Outcome)} (hanswers : TopologyAnswers env agent)
    (hfuel : walkFuel agent auth baseColumns macMaxRepetitions ≤ fuel) (rem : Rows String)
    (w : World (net Outcome) Unit) :
    (topologyBase auth fuel rem).wp (aloneWith env)
      (fun base _ ↦ rem.items ≠ [] → ∃ o,
        WalkOf agent auth (TopologyServed env agent) baseColumns o ∧
          column o.walked.rows "if_index" = base) w := by
  rw [topologyBase]
  split
  case isTrue hempty => exact fun hne ↦ absurd (List.isEmpty_iff.1 hempty) hne
  case isFalse =>
    exact Coro.wp_bind.2 (Coro.wp_mono (topologyWalk_alone hanswers (by decide) hfuel w)
      fun _ _ _ h _ ↦ ⟨_, h, rfl⟩)

theorem fetchTopology_alone {env : Env (net Outcome)} (hanswers : TopologyAnswers env agent)
    (hfuel : topologyFuel agent auth ≤ fuel) (w : World (net Outcome) Unit) :
    (fetchTopology auth fuel).wp (aloneWith env)
      (fun topology _ ↦ TopologyRead agent auth (TopologyServed env agent) topology) w := by
  rw [topologyFuel] at hfuel
  refine Coro.wp_bind.2 (Coro.wp_mono (topologyWalk_alone hanswers (by decide) (by omega) w)
    fun loc w₁ _ hloc ↦ ?_)
  refine Coro.wp_bind.2 (Coro.wp_mono (topologyWalk_alone hanswers (by decide) (by omega) w₁)
    fun rem w₂ _ hrem ↦ ?_)
  refine Coro.wp_bind.2 (Coro.wp_mono (topologyBase_alone hanswers (by omega) rem.rows w₂)
    fun base w₃ _ hbase ↦ ?_)
  refine Coro.wp_bind.2 (Coro.wp_mono (topologyWalk_alone hanswers (by decide) (by omega) w₃)
    fun arp w₄ _ harp ↦ ?_)
  exact ⟨⟨_, hloc, rfl⟩, ⟨_, hrem, rfl⟩, hbase, ⟨_, harp, rfl, rfl⟩⟩

theorem fetchTopology_run {env : Env (net Outcome)} (hanswers : TopologyAnswers env agent)
    (hfuel : topologyFuel agent auth ≤ fuel) :
    ∃ topology log, (fetchTopology auth fuel).run env () [] = some (topology, (), log) ∧
      TopologyRead agent auth (TopologyServed env agent) topology := by
  obtain ⟨topology, s, log, hrun, hread⟩ := Coro.run_total_of_wp (obeys_aloneWith env) not_false
    (fetchTopology_alone hanswers hfuel ⟨(), []⟩)
  exact ⟨topology, log, hrun, hread⟩

/-! ### Local ports -/

/-- What is known of a port is what the agent says of it. -/
structure LldpLocal.PartAt (loc full : LldpLocal) (num : String) : Prop where
  /-- What kind of name it has. -/
  subtype : ∀ {text}, loc.subtype.get? num = some text → full.subtype.get? num = some text
  /-- The name. -/
  id : ∀ {text}, loc.id.get? num = some text → full.id.get? num = some text
  /-- The description. -/
  desc : ∀ {text}, loc.desc.get? num = some text → full.desc.get? num = some text
  /-- The interface of the bridge port. -/
  base : ∀ {text}, loc.base.get? num = some text → full.base.get? num = some text

/-- No interface is found by an empty name. -/
theorem not_named_empty {index : String} : ¬ Named interfaces (text "") index := by
  intro h
  exact h.1 (by decide +kernel)

namespace LldpLocal

variable {loc full : LldpLocal} {num index : String}

/-- What is found by the identifier that was read is found by the agent's. -/
theorem PartAt.byId (h : loc.PartAt full num) (hid : loc.ById interfaces num index) :
    full.ById interfaces num index := by
  obtain ⟨hnames, hnamed⟩ := hid
  rcases hsub : loc.subtype.get? num with - | subtype
  · rw [idNames, hsub] at hnames
    exact absurd hnames (by decide +kernel)
  rcases htext : loc.id.get? num with - | id
  · rw [idText, htext] at hnamed
    exact absurd hnamed not_named_empty
  · rw [idNames, hsub] at hnames
    rw [idText, htext] at hnamed
    refine ⟨?_, ?_⟩
    · rw [idNames, h.subtype hsub]
      exact hnames
    · rw [idText, h.id htext]
      exact hnamed

theorem PartAt.byBridge (h : loc.PartAt full num) (hbridge : loc.ByBridge interfaces num index) :
    full.ByBridge interfaces num index := by
  obtain ⟨via, hvia, hindex⟩ := hbridge
  refine ⟨via, ?_, hindex⟩
  rw [LldpLocal.via] at hvia ⊢
  rcases hbase : loc.base.get? num with - | text
  · rw [hbase] at hvia
    cases hvia
  · rw [h.base hbase, ← hbase]
    exact hvia

theorem PartAt.byDesc (h : loc.PartAt full num) (hdesc : loc.ByDesc interfaces num index) :
    full.ByDesc interfaces num index := by
  rw [ByDesc, descText] at hdesc ⊢
  rcases htext : loc.desc.get? num with - | desc
  · rw [htext] at hdesc
    exact absurd hdesc not_named_empty
  · rw [h.desc htext, ← htext]
    exact hdesc

/-- An index that is found is one the agent's tables say, by one of the three steps. -/
theorem PartAt.resolves (h : loc.PartAt full num) (hresolves : loc.Resolves interfaces num index) :
    index = "" ∨ full.ById interfaces num index ∨ full.ByBridge interfaces num index ∨
      full.ByDesc interfaces num index := by
  cases hresolves with
  | byId hid => exact .inr (.inl (h.byId hid))
  | byBridge _ hbridge => exact .inr (.inr (.inl (h.byBridge hbridge)))
  | byDesc _ _ hdesc => exact .inr (.inr (.inr (h.byDesc hdesc)))
  | unresolved => exact .inl rfl

end LldpLocal

/-- A port is resolved by what is known of it alone. -/
theorem resolvePort_eq {loc full : LldpLocal} {num : String}
    (hsubtype : loc.subtype.get? num = full.subtype.get? num)
    (hid : loc.id.get? num = full.id.get? num) (hdesc : loc.desc.get? num = full.desc.get? num)
    (hbase : loc.base.get? num = full.base.get? num) :
    resolvePort loc interfaces num = resolvePort full interfaces num := by
  have hnames : loc.idNames num = full.idNames num := by rw [LldpLocal.idNames, hsubtype]; rfl
  have htext : loc.idText num = full.idText num := by rw [LldpLocal.idText, hid]; rfl
  have hdescText : loc.descText num = full.descText num := by rw [LldpLocal.descText, hdesc]; rfl
  have hvia : loc.via num = full.via num := by rw [LldpLocal.via, hbase]; rfl
  rw [resolvePort, resolvePort, indexById, indexById, indexByBridge, indexByBridge, indexByDesc,
    indexByDesc, hnames, htext, hdescText, hvia]

/-! ### The rows -/

theorem orText_cases (a : Option String) (b : String) : orText a b = b ∨ a = some (orText a b) := by
  rw [orText]
  split
  case isTrue => exact .inl rfl
  case isFalse hne =>
    rcases a with - | a
    · exact absurd rfl hne
    · exact .inr rfl

namespace TopologyRead

variable {topology : Topology}

/-- Where there is a system name, something was read of the neighbours. -/
theorem rem_ne_nil {e : Oid × String} (he : e ∈ (column topology.rem "sysname").items) :
    topology.rem.items ≠ [] := by
  have hget := (get?_column ..).symm.trans (Dict.get?_of_mem he)
  exact Dict.items_ne_nil_iff.2 ⟨e.1, mem_keys_of_cellOf (hget ▸ Option.some_ne_none _)⟩

/-- What was read of a local port is in the agent's tables. -/
theorem partAt (h : TopologyRead agent auth calm topology) (hrem : topology.rem.items ≠ [])
    (index : Oid) :
    topology.lldpLocal.PartAt (agent ⟨auth, ""⟩).lldpLocal (localPortNum index) := by
  have hloc : ∀ {key oid text}, lldpLocColumns.get? key = some oid →
      (byText (column topology.loc key)).get? (localPortNum index) = some text →
      ((agent ⟨auth, ""⟩).texts oid).get? (localPortNum index) = some text := by
    intro key oid text hkey hget
    rw [← dotted_localPortIndex, get?_byText, get?_column] at hget
    rw [← dotted_localPortIndex, Mib.get?_texts]
    exact WalkOf.cell h.loc hkey hget
  refine ⟨hloc rfl, hloc rfl, hloc rfl, fun {text} hget ↦ ?_⟩
  obtain ⟨o, ho, hbase⟩ := h.base hrem
  rw [← dotted_localPortIndex] at hget ⊢
  change (byText topology.base).get? _ = some text at hget
  rw [get?_byText, ← hbase, get?_column] at hget
  exact (Mib.get?_texts ..).trans (WalkOf.cell ⟨o, ho, rfl⟩ rfl hget)

/-- The row of an entry has what was read of it. -/
theorem readOf (h : TopologyRead agent auth calm topology) {e : Oid × String}
    (he : e ∈ (column topology.rem "sysname").items) (hne : e.2 ≠ "") :
    (neighborOf topology.lldpLocal.desc (column topology.rem "port_desc").get?
      (column topology.rem "port_id").get? (column topology.rem "caps").get?
      (resolveLldpLocalPorts topology.ports topology.lldpLocal interfaces) e).ReadOf
      (agent ⟨auth, ""⟩) interfaces e.1 := by
  have hcell : ∀ {key oid text}, lldpRemColumns.get? key = some oid →
      (column topology.rem key).get? e.1 = some text →
      (agent ⟨auth, ""⟩).cell oid e.1 = some text :=
    fun hkey hget ↦ WalkOf.cell h.rem hkey ((get?_column ..).symm.trans hget)
  have hpart := h.partAt (rem_ne_nil he) e.1
  refine ⟨hcell rfl (Dict.get?_of_mem he), hne, ?_, ?_, ?_, ?_⟩
  · rcases orText_cases ((column topology.rem "port_desc").get? e.1)
        (orText ((column topology.rem "port_id").get? e.1) "") with heq | hdesc
    · rcases orText_cases ((column topology.rem "port_id").get? e.1) "" with heq' | hid
      · exact .inl (heq.trans heq')
      · exact .inr (.inr ((hcell rfl hid).trans (congrArg some heq.symm)))
    · exact .inr (.inl (hcell rfl hdesc))
  · rcases hcaps : (column topology.rem "caps").get? e.1 with - | text
    · exact .inl (by rw [neighborOf, hcaps]; rfl)
    · exact .inr ⟨text, hcell rfl hcaps, by rw [neighborOf, hcaps]; rfl⟩
  · exact (orText_cases _ _).imp_right hpart.desc
  · rcases hget : (resolveLldpLocalPorts topology.ports topology.lldpLocal interfaces).get?
        (localPortNum e.1) with - | index
    · exact .inl (by rw [neighborOf, hget]; rfl)
    · have hindex : (neighborOf topology.lldpLocal.desc (column topology.rem "port_desc").get?
          (column topology.rem "port_id").get? (column topology.rem "caps").get?
          (resolveLldpLocalPorts topology.ports topology.lldpLocal interfaces) e).localIfIndex =
          index := by rw [neighborOf, hget]; rfl
      rw [hindex]
      exact hpart.resolves (resolves_of_get? hget)

/-! ### Whole tables -/

variable (h : TopologyRead agent auth calm topology) (hcalm : calm)

include h hcalm

/-- A column of neighbours that was read whole is the agent's. -/
theorem column_rem {key : String} {oid : Oid} (hkey : lldpRemColumns.get? key = some oid) :
    (column topology.rem key).get? = (agent ⟨auth, ""⟩).cell oid := by
  obtain ⟨o, ho, hrows⟩ := h.rem
  rw [← hrows, ← ho.access]
  exact ho.sound.column_eq (ho.whole hcalm) (ho.columns ▸ hkey)

theorem mem_ports_iff (num : String) :
    num ∈ topology.ports ↔ (agent ⟨auth, ""⟩).OnPort num := by
  obtain ⟨o, ho, hrows⟩ := h.rem
  -- a walk that was whole has the indexes of the agent's table
  have hkeys : ∀ index, index ∈ topology.rem.keys ↔ index ∈ (agent ⟨auth, ""⟩).indexes
      [lldpRemSysname, lldpRemPortDesc, lldpRemPortId, lldpRemSysCapEnabled] := by
    intro index
    rw [← hrows, ← ho.access]
    have hbases : o.call.bases =
        [lldpRemSysname, lldpRemPortDesc, lldpRemPortId, lldpRemSysCapEnabled] := by
      show o.columns.items.map Prod.snd = _
      rw [ho.columns]
      rfl
    constructor
    · intro hindex
      exact hbases ▸ ho.sound.part.keys_subset index hindex
    · intro hindex
      rw [Mib.indexes, List.mem_dedup, List.mem_flatMap] at hindex
      obtain ⟨oid, hoid, hmem⟩ := hindex
      obtain ⟨e, he, hin⟩ := List.mem_filterMap.1 hmem
      obtain ⟨heq, hne⟩ := indexIn_eq_some.1 hin
      have hcell : (agent o.access).cell oid index = some e.2 :=
        Mib.cell_eq_some.2 ⟨hne, heq ▸ Mib.mem_iff.1 he⟩
      -- each of the four columns has a key
      have hkey : ∃ key, lldpRemColumns.get? key = some oid := by
        simp only [List.mem_cons, List.not_mem_nil, or_false] at hoid
        rcases hoid with rfl | rfl | rfl | rfl
        · exact ⟨"sysname", rfl⟩
        · exact ⟨"port_desc", rfl⟩
        · exact ⟨"port_id", rfl⟩
        · exact ⟨"caps", rfl⟩
      obtain ⟨key, hkey⟩ := hkey
      have hread := ho.sound.cell_of_complete (ho.whole hcalm) (ho.columns ▸ hkey) hcell
      exact mem_keys_of_cellOf (hread ▸ Option.some_ne_none _)
  rw [Topology.ports, Mib.OnPort, List.mem_map]
  constructor
  · intro hmem
    obtain ⟨index, hindex, hnum⟩ := hmem
    obtain ⟨hindex, hlen⟩ := List.mem_filter.1 hindex
    exact ⟨index, (hkeys index).1 hindex, of_decide_eq_true hlen, hnum⟩
  · intro hmem
    obtain ⟨index, hindex, hlen, hnum⟩ := hmem
    exact ⟨index, List.mem_filter.2 ⟨(hkeys index).2 hindex, decide_eq_true hlen⟩, hnum⟩

/-- With all of it read, a port is resolved as by the agent's tables. -/
theorem resolvePort_lldpLocal (hrem : topology.rem.items ≠ []) (index : Oid) :
    resolvePort topology.lldpLocal interfaces (localPortNum index) =
      resolvePort (agent ⟨auth, ""⟩).lldpLocal interfaces (localPortNum index) := by
  have hloc : ∀ {key oid}, lldpLocColumns.get? key = some oid →
      (byText (column topology.loc key)).get? (localPortNum index) =
        ((agent ⟨auth, ""⟩).texts oid).get? (localPortNum index) := by
    intro key oid hkey
    obtain ⟨o, ho, hrows⟩ := h.loc
    rw [← dotted_localPortIndex, get?_byText, Mib.get?_texts, ← hrows, ← ho.access,
      ho.sound.column_eq (ho.whole hcalm) (ho.columns ▸ hkey)]
  refine resolvePort_eq (hloc rfl) (hloc rfl) (hloc rfl) ?_
  obtain ⟨o, ho, hbase⟩ := h.base hrem
  show (byText topology.base).get? _ = ((agent ⟨auth, ""⟩).texts dot1dBasePortIfindex).get? _
  rw [← dotted_localPortIndex, get?_byText, Mib.get?_texts, ← hbase, ← ho.access,
    ho.sound.column_eq (ho.whole hcalm) (by rw [ho.columns]; rfl)]

/-- The row of an entry says what the agent's tables say. -/
theorem neighborOf_eq {e : Oid × String} (he : e ∈ (column topology.rem "sysname").items) :
    neighborOf topology.lldpLocal.desc (column topology.rem "port_desc").get?
      (column topology.rem "port_id").get? (column topology.rem "caps").get?
      (resolveLldpLocalPorts topology.ports topology.lldpLocal interfaces) e =
      (agent ⟨auth, ""⟩).neighbor interfaces e.1 := by
  have hrem := rem_ne_nil he
  have hdesc : topology.lldpLocal.desc.get? (localPortNum e.1) =
      (agent ⟨auth, ""⟩).lldpLocal.desc.get? (localPortNum e.1) := by
    obtain ⟨o, ho, hrows⟩ := h.loc
    have hkey : o.columns.get? "desc" = some lldpLocPortDesc := by
      rw [ho.columns]
      rfl
    show (byText (column topology.loc "desc")).get? _ = ((agent ⟨auth, ""⟩).texts _).get? _
    rw [← dotted_localPortIndex, get?_byText, Mib.get?_texts, ← hrows, ← ho.access,
      ho.sound.column_eq (ho.whole hcalm) hkey]
  have hsysname : lldpRemColumns.get? "sysname" = some lldpRemSysname := rfl
  have hname : (agent ⟨auth, ""⟩).cell lldpRemSysname e.1 = some e.2 := by
    rw [← h.column_rem hcalm hsysname, Dict.get?_of_mem he]
  have hindex : ((resolveLldpLocalPorts topology.ports topology.lldpLocal interfaces).get?
      (localPortNum e.1)).getD "" = if (agent ⟨auth, ""⟩).OnPort (localPortNum e.1) then
        resolvePort (agent ⟨auth, ""⟩).lldpLocal interfaces (localPortNum e.1) else "" := by
    split
    case isTrue hport =>
      rw [get?_resolveLldpLocalPorts_iff.2 ⟨(h.mem_ports_iff hcalm _).2 hport, rfl⟩,
        Option.getD_some, h.resolvePort_lldpLocal hcalm hrem]
    case isFalse hport =>
      rcases hget : (resolveLldpLocalPorts topology.ports topology.lldpLocal interfaces).get?
          (localPortNum e.1) with - | index
      · rfl
      · exact absurd ((h.mem_ports_iff hcalm _).1 (get?_resolveLldpLocalPorts_iff.1 hget).1) hport
  rw [neighborOf, Mib.neighbor, hdesc, hname, hindex, h.column_rem hcalm rfl,
    h.column_rem hcalm rfl, h.column_rem hcalm rfl]
  rfl

/-- When nothing goes wrong, the rows are one for each entry with a system name. -/
theorem neighbors_perm : (topology.neighbors interfaces).Perm
    ((agent ⟨auth, ""⟩).named.map ((agent ⟨auth, ""⟩).neighbor interfaces)) := by
  have hsysname : lldpRemColumns.get? "sysname" = some lldpRemSysname := rfl
  have hitems : (column topology.rem "sysname").items.Perm
      ((agent ⟨auth, ""⟩).column lldpRemSysname) := by
    refine (List.perm_ext_iff_of_nodup (.of_map _ (column topology.rem "sysname").nodup)
      (.of_map _ (Mib.nodup_column _ _))).2 fun e ↦ ?_
    rw [Dict.mem_items_iff, h.column_rem hcalm hsysname, Mib.mem_column]
  have hrows : topology.neighbors interfaces =
      ((column topology.rem "sysname").items.filter fun e ↦ decide (e.2 ≠ "")).map
        fun e ↦ (agent ⟨auth, ""⟩).neighbor interfaces e.1 :=
    List.map_congr_left fun e he ↦ h.neighborOf_eq hcalm (List.mem_filter.1 he).1
  rw [hrows, Mib.named, List.map_map]
  exact (hitems.filter _).map _

omit hcalm

/-- Each row is of an entry of its own, whatever goes wrong. -/
theorem neighbors_readOf : ∃ indexes : List Oid, indexes.Nodup ∧
    List.Forall₂ (Neighbor.ReadOf (agent ⟨auth, ""⟩) interfaces) indexes
      (topology.neighbors interfaces) := by
  refine ⟨((column topology.rem "sysname").items.filter fun e ↦ decide (e.2 ≠ "")).map Prod.fst,
    (column topology.rem "sysname").nodup.sublist (List.filter_sublist.map _), ?_⟩
  rw [Topology.neighbors, parseLldp, List.forall₂_map_left_iff, List.forall₂_map_right_iff,
    List.forall₂_same]
  intro e he
  obtain ⟨he, hne⟩ := List.mem_filter.1 he
  exact h.readOf he (of_decide_eq_true hne)

/-- The ARP rows of a complete walk are those of the agent's table. -/
theorem arp_perm (hcomplete : topology.arpMeta.complete = true) : topology.arp.Perm
    (((agent ⟨auth, ""⟩).column arpPhys).filterMap (arpRow ((agent ⟨auth, ""⟩).cell arpType))) := by
  obtain ⟨o, ho, hmeta, hrows⟩ := h.arp
  rw [← hmeta] at hcomplete
  have hcolumn : ∀ {key oid}, arpColumns.get? key = some oid →
      (column o.walked.rows key).get? = (agent ⟨auth, ""⟩).cell oid := by
    intro key oid hkey
    rw [← ho.access]
    exact ho.sound.column_eq hcomplete (ho.columns ▸ hkey)
  have hmac : arpColumns.get? "mac" = some arpPhys := rfl
  have htype : arpColumns.get? "type" = some arpType := rfl
  have hitems : (column o.walked.rows "mac").items.Perm ((agent ⟨auth, ""⟩).column arpPhys) := by
    refine (List.perm_ext_iff_of_nodup (.of_map _ (column o.walked.rows "mac").nodup)
      (.of_map _ (Mib.nodup_column _ _))).2 fun e ↦ ?_
    rw [Dict.mem_items_iff, hcolumn hmac, Mib.mem_column]
  rw [← hrows, parseArp, hcolumn htype]
  exact hitems.filterMap _

end TopologyRead

/-- **The neighbours.** The read ends, whatever the agent answers and whatever goes wrong. Each of
its rows is of an entry of lldpRemTable, no two of one entry. When nothing goes wrong, there is
exactly one for each entry with a system name, and it says what the agent's tables say.

That no row is made up needs replies that are the agent's or faults, and nothing of the clock; that
none is missing needs every walk to come to its end. -/
theorem neighbors_read (agent : Agent) (auth : Auth) (interfaces : List NamedIface) {fuel : ℕ}
    (hfuel : topologyFuel agent auth ≤ fuel) {env : Env (net Outcome)}
    (hanswers : TopologyAnswers env agent) :
    ∃ topology log, (fetchTopology auth fuel).run env () [] = some (topology, (), log) ∧
      (∃ indexes : List Oid, indexes.Nodup ∧
        List.Forall₂ (Neighbor.ReadOf (agent ⟨auth, ""⟩) interfaces) indexes
          (topology.neighbors interfaces)) ∧
      (TopologyServed env agent → (topology.neighbors interfaces).Perm
        ((agent ⟨auth, ""⟩).named.map ((agent ⟨auth, ""⟩).neighbor interfaces))) := by
  obtain ⟨topology, log, hrun, hread⟩ := fetchTopology_run hanswers hfuel
  exact ⟨topology, log, hrun, hread.neighbors_readOf, hread.neighbors_perm⟩

/-- A phone on port 7, which is named as an interface, and a neighbour without a name. -/
def phoneMib : Mib :=
  ⟨[(lldpLocPortIdSubtype ++ [7], "5"), (lldpLocPortId ++ [7], "Gi0/7"),
    (lldpLocPortDesc ++ [7], "desk"), (lldpRemPortId ++ [0, 7, 1], "0x001122334455"),
    (lldpRemPortDesc ++ [0, 7, 1], ""), (lldpRemSysname ++ [0, 7, 1], "phone"),
    (lldpRemSysname ++ [0, 8, 1], ""), (lldpRemSysCapEnabled ++ [0, 7, 1], "0x2400"),
    (arpPhys ++ [3, 192, 0, 2, 9], "0x001122334455"), (arpPhys ++ [3, 192, 0, 2, 10], "0x66"),
    (arpType ++ [3, 192, 0, 2, 9], "3"), (arpType ++ [3, 192, 0, 2, 10], "2")], by decide⟩

/-- An agent that answers each request in full. -/
def answering (mib : Mib) : Env (net Outcome) where
  reading := fun _ _ ↦ false
  reply := fun _ q ↦ Agent.serve (fun _ ↦ mib) q
  pick := fun _ ↦ 0

/-- An agent that answers every request has been served. -/
theorem topologyServed_answering (mib : Mib) : TopologyServed (answering mib) fun _ ↦ mib :=
  fun _ q ↦ Agent.serve_conforms _ _ q

/-- The phone behind the port is the neighbour. -/
theorem neighbors_read_phone : ∃ fuel topology log,
    (fetchTopology .usm fuel).run (answering phoneMib) () [] = some (topology, (), log) ∧
      topology.neighbors [⟨"3", "gi0/7", "", ""⟩] =
        [⟨"desk", "phone", "0x001122334455", "3", ["bridge", "telephone"]⟩] := by
  have hcalm : TopologyServed (answering phoneMib) fun _ ↦ phoneMib :=
    topologyServed_answering phoneMib
  obtain ⟨topology, log, hrun, -, hwhole⟩ := neighbors_read (fun _ ↦ phoneMib) .usm
    [⟨"3", "gi0/7", "", ""⟩] le_rfl fun log q ↦ .inl (hcalm log q)
  have hrows : phoneMib.named.map (phoneMib.neighbor [⟨"3", "gi0/7", "", ""⟩]) =
      [⟨"desk", "phone", "0x001122334455", "3", ["bridge", "telephone"]⟩] := by
    decide +kernel
  exact ⟨_, topology, log, hrun, List.perm_singleton.1 (hrows ▸ hwhole hcalm)⟩

/-- **The ARP table.** Where `arp_meta` says that the table is complete, its rows are those that the
agent's whole table makes; and it says so when nothing goes wrong. -/
theorem arp_whole (agent : Agent) (auth : Auth) {fuel : ℕ} (hfuel : topologyFuel agent auth ≤ fuel)
    {env : Env (net Outcome)} (hanswers : TopologyAnswers env agent) :
    ∃ topology log, (fetchTopology auth fuel).run env () [] = some (topology, (), log) ∧
      (topology.arpMeta.complete = true → topology.arp.Perm
        (((agent ⟨auth, ""⟩).column arpPhys).filterMap
          (arpRow ((agent ⟨auth, ""⟩).cell arpType)))) ∧
      (TopologyServed env agent → topology.arpMeta.complete = true) := by
  obtain ⟨topology, log, hrun, hread⟩ := fetchTopology_run hanswers hfuel
  obtain ⟨o, ho, hcomplete, -⟩ := hread.arp
  exact ⟨topology, log, hrun, hread.arp_perm, fun hcalm ↦ hcomplete ▸ ho.whole hcalm⟩

theorem arp_whole_phone : ∃ fuel topology log,
    (fetchTopology .usm fuel).run (answering phoneMib) () [] = some (topology, (), log) ∧
      topology.arp = [⟨"3", "192.0.2.9", "00:11:22:33:44:55", "dynamic"⟩] := by
  have hcalm : TopologyServed (answering phoneMib) fun _ ↦ phoneMib :=
    topologyServed_answering phoneMib
  obtain ⟨topology, log, hrun, hwhole, hcomplete⟩ := arp_whole (fun _ ↦ phoneMib) .usm le_rfl
    fun log q ↦ .inl (hcalm log q)
  have hrows : (phoneMib.column arpPhys).filterMap (arpRow (phoneMib.cell arpType)) =
      [⟨"3", "192.0.2.9", "00:11:22:33:44:55", "dynamic"⟩] := by
    decide +kernel
  exact ⟨_, topology, log, hrun, List.perm_singleton.1 (hrows ▸ hwhole (hcomplete hcalm))⟩

end Snmp
