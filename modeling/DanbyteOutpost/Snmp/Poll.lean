import DanbyteOutpost.Snmp.InterfaceRows
import DanbyteOutpost.Snmp.Neighbours
import DanbyteOutpost.Snmp.PollCycle

/-!
# What a poll reports

`fetch_snmp` hands the rows of its interface stage on to the topology stage, and keeps what each of
its stages brought. `poll_reads` puts the reads together: in the result of a poll, whatever became
of its stages, the interfaces are the joined rows or none, the neighbours are of the agent's
entries, their local ports are looked up among the interfaces of the same result, and an ARP table
that is called complete is the agent's. A topology stage that raised leaves a result without
neighbours, and `arp_meta` says so; a stage that came to its end may still have lost some of them,
which nothing in the result tells.

## What is put together

* `DeviceNet.Reads`: the rows of a poll's stages are those of the two reads, of one agent.
* `TopologyRight`: what the topology stage leaves in a result. Its last part is conditional on the
  stage having come to its end, which `TopologyFailed` denies, and on nothing having gone wrong in
  it.
* `poll_reads`: the interfaces that the neighbours are looked up among are those of the same
  result.

`portMib` and `phoneNet` are a switch with one port and a phone behind it.
-/

namespace Snmp

open Coop

/-- What `_interface_names` looks at in a row. -/
def InterfaceRow.named (row : InterfaceRow) : NamedIface :=
  ⟨row.ifIndex, row.name, row.descr, row.ifAlias⟩

/-- What `fetch_topology` brings, over the interfaces of the poll. -/
def topologyOf (auth : Auth) (env : Env (net Outcome)) (fuel : ℕ) (interfaces : List InterfaceRow) :
    List Neighbor × List ArpRow × ArpMeta :=
  match (fetchTopology auth fuel).run env () [] with
  | none => ([], [], .failed "")
  | some (topology, _, _) =>
    (topology.neighbors (interfaces.map InterfaceRow.named), topology.arp, topology.arpMeta)

/-- The topology stage raised: what `fetch_snmp` puts in the place of what it would have brought. -/
def TopologyFailed (out : List Neighbor × List ArpRow × ArpMeta) : Prop :=
  ∃ text, out = ([], [], .failed text)

/-- The rows of the poll come from these walks and this environment. -/
structure DeviceNet.Reads (net : DeviceNet InterfaceRow Neighbor) (walks : Oid → BulkWalk)
    (auth : Auth) (env : Env (Snmp.net Outcome)) (fuel : ℕ) : Prop where
  /-- The interface stage is the one modelled. -/
  interfaces : net.interfaces = fetchInterfaces walks
  /-- And so is the topology stage. -/
  topology : net.topology = topologyOf auth env fuel

variable {net : DeviceNet InterfaceRow Neighbor} {walks : Oid → BulkWalk} {agent : Agent}
  {auth : Auth} {env : Env (Snmp.net Outcome)} {fuel : ℕ} {params : Json} {timeoutMs : ℤ}
  {mode : String}

/-- The interfaces stage fails, or reports what its walks brought. -/
theorem DeviceNet.Reads.interfacesStage (h : net.Reads walks auth env fuel)
    {interfaces : List InterfaceRow} (hstage : StageOutcome (interfacesStage net params timeoutMs)
      (fun _ ↦ []) interfaces) : interfaces = [] ∨ interfaces = fetchInterfaces walks := by
  rcases hstage with hok | ⟨text, -, hfailed⟩
  · obtain ⟨-, -, hreturn⟩ := except_bind_eq_ok.1 hok
    rw [h.interfaces] at hreturn
    exact .inr (Except.ok.inj hreturn).symm
  · exact .inl hfailed

theorem DeviceNet.Reads.topologyStage (h : net.Reads walks auth env fuel)
    {interfaces : List InterfaceRow} {out : List Neighbor × List ArpRow × ArpMeta}
    (hstage : StageOutcome (topologyStage net params timeoutMs interfaces)
      (fun text ↦ ([], [], .failed (cutTo 300 text))) out) :
    TopologyFailed out ∨ out = topologyOf auth env fuel interfaces := by
  rcases hstage with hok | ⟨text, -, hfailed⟩
  · obtain ⟨-, -, hreturn⟩ := except_bind_eq_ok.1 hok
    rw [h.topology] at hreturn
    exact .inr (Except.ok.inj hreturn).symm
  · exact .inl ⟨_, hfailed⟩

/-- What the topology stage leaves in a result, if it came to its end or not. -/
structure TopologyRight (agent : Agent) (auth : Auth) (env : Env (Snmp.net Outcome))
    (interfaces : List InterfaceRow) (out : List Neighbor × List ArpRow × ArpMeta) : Prop where
  /-- Each neighbour is of an entry of its own. -/
  neighbors : ∃ indexes : List Oid, indexes.Nodup ∧
    List.Forall₂
      (Neighbor.ReadOf (agent ⟨auth, ""⟩) (interfaces.map InterfaceRow.named)) indexes out.1
  /-- Where the ARP table is called complete, it is the agent's. -/
  arp : out.2.2.complete = true → out.2.1.Perm
    (((agent ⟨auth, ""⟩).column arpPhys).filterMap (arpRow ((agent ⟨auth, ""⟩).cell arpType)))
  /-- Where the stage came to its end and nothing went wrong with its walks, no neighbour is
  missing. -/
  whole : ¬ TopologyFailed out → TopologyServed env agent → out.1.Perm
    ((agent ⟨auth, ""⟩).named.map
      ((agent ⟨auth, ""⟩).neighbor (interfaces.map InterfaceRow.named)))

/-- A stage that failed reports nothing that could be wrong. -/
theorem topologyRight_failed {interfaces : List InterfaceRow} (text : String) :
    TopologyRight agent auth env interfaces ([], [], .failed text) :=
  ⟨⟨[], List.nodup_nil, .nil⟩, fun h ↦ (by cases h), fun h ↦ absurd ⟨text, rfl⟩ h⟩

/-- One that came to its end is right by its own theorems. -/
theorem topologyRight_topologyOf (hfuel : topologyFuel agent auth ≤ fuel)
    (hanswers : TopologyAnswers env agent) (interfaces : List InterfaceRow) :
    TopologyRight agent auth env interfaces (topologyOf auth env fuel interfaces) := by
  obtain ⟨topology, log, hrun, hread⟩ := fetchTopology_run hanswers hfuel
  rw [topologyOf, hrun]
  exact ⟨hread.neighbors_readOf, hread.arp_perm, fun _ hcalm ↦ hread.neighbors_perm hcalm⟩

/-- Where nothing goes wrong the stage does not only come to its end, it calls its ARP table
complete. -/
theorem complete_topologyOf (hfuel : topologyFuel agent auth ≤ fuel)
    (hserved : TopologyServed env agent) (interfaces : List InterfaceRow) :
    (topologyOf auth env fuel interfaces).2.2.complete = true := by
  obtain ⟨topology, log, hrun, hread⟩ :=
    fetchTopology_run (fun log q ↦ .inl (hserved log q)) hfuel
  obtain ⟨o, ho, hcomplete, -⟩ := hread.arp
  rw [topologyOf, hrun]
  exact hcomplete ▸ ho.whole hserved

/-- **A poll.** In the result of a poll, whatever became of its stages, each interface is the joined
row of its own, each neighbour is of an entry of the agent's and its local port is looked up among
the interfaces of the result, and the ARP table is the agent's where `arp_meta` calls it complete.
Where the topology stage came to its end and nothing went wrong with its walks, the neighbours are
all there. -/
theorem poll_reads (hnet : net.Reads walks auth env fuel) (hfuel : topologyFuel agent auth ≤ fuel)
    (hanswers : TopologyAnswers env agent) {result : SnmpResult InterfaceRow Neighbor}
    (hpoll : fetchSnmp net params timeoutMs mode = .ok result) :
    (∀ row ∈ result.interfaces, Listed walks row.ifIndex ∧ row = joined walks row.ifIndex) ∧
      TopologyRight agent auth env result.interfaces
        (result.neighbors, result.arp, result.arpMeta) := by
  cases fetchSnmp_eq_ok.1 hpoll with
  | unreachable => exact ⟨fun row hrow ↦ (by cases hrow), topologyRight_failed _⟩
  | reached _ hinterfaces _ htopology =>
    refine ⟨fun row hrow ↦ ?_, ?_⟩
    · rcases hnet.interfacesStage hinterfaces with hnone | hread
      · rw [hnone] at hrow
        cases hrow
      · rw [hread] at hrow
        exact mem_fetchInterfaces_iff.1 hrow
    · rcases hnet.topologyStage htopology with ⟨text, hfailed⟩ | hread
      · rw [hfailed]
        exact topologyRight_failed text
      · rw [hread]
        exact topologyRight_topologyOf hfuel hanswers result.interfaces

/-- A switch with one port, an access port without an address. -/
def portMib : Mib :=
  ⟨[([1, 3, 6, 1, 2, 1, 2, 2, 1, 2, 3], "GigabitEthernet0/7"), (ifTypeColumn ++ [3], "6"),
    ([1, 3, 6, 1, 2, 1, 31, 1, 1, 1, 1, 3], "gi0/7")], by decide⟩

/-- Its walks, all of which come to their ends. -/
def portWalks (base : Oid) : BulkWalk := portMib.walkUpTo base none

/-- The switch, with the phone behind its port. -/
def phoneNet : DeviceNet InterfaceRow Neighbor where
  load _ := .ok ()
  get _ _ := .response none none []
  session _ _ _ := .ok ()
  engine _ := true
  interfaces := fetchInterfaces portWalks
  macTable _ _ := ([], .failed "")
  topology := topologyOf .usm (answering phoneMib) (topologyFuel (fun _ ↦ phoneMib) .usm)

theorem fetchInterfaces_portWalks : (fetchInterfaces portWalks).map InterfaceRow.named =
    [⟨"3", "gi0/7", "GigabitEthernet0/7", ""⟩] := by
  set rows := (readIfTable portWalks).items.map fun e ↦
    interfaceRow (readAddresses (portWalks ipAdEntIfindex)) (readVlans portWalks)
      (readLag portWalks) e.1 e.2 with hrows
  have hnamed : rows.map InterfaceRow.named = [⟨"3", "gi0/7", "GigabitEthernet0/7", ""⟩] := by
    decide +kernel
  obtain ⟨row, hrow, -⟩ := List.map_eq_singleton_iff.1 hnamed
  have hsorted : fetchInterfaces portWalks = rows := by
    rw [fetchInterfaces, ← hrows, hrow, List.mergeSort_singleton]
  rw [hsorted, hnamed]

/-- The stages of its poll all come to their ends. -/
theorem poll_phoneNet : ∃ result, fetchSnmp phoneNet (.obj []) 2000 "full" = .ok result ∧
    result.interfaces = phoneNet.interfaces ∧
      (result.neighbors, result.arp, result.arpMeta) = phoneNet.topology phoneNet.interfaces := by
  have hport : portOf (.obj []) = some 161 := rfl
  have hoptions : (macOptions (macParams (.obj [])) "full").isSome := by decide
  obtain ⟨opts, hopts⟩ := Option.isSome_iff_exists.1 hoptions
  have hopen (stage : Stage) : openStage phoneNet stage (.obj []) 2000 = .ok () :=
    openStage_eq_ok.2 ⟨⟨161, 2, rfl, hport, secondsOf_default, rfl⟩, rfl⟩
  obtain ⟨neighbors, arp, arpMeta, hout⟩ : ∃ neighbors arp arpMeta,
      phoneNet.topology phoneNet.interfaces = (neighbors, arp, arpMeta) := ⟨_, _, _, rfl⟩
  have hfacts : fetchSystemFacts phoneNet (.obj []) 2000 = .ok Dict.empty :=
    except_bind_eq_ok.2 ⟨(161, 2), beginStage_eq_ok.2 ⟨rfl, hport, secondsOf_default⟩, rfl⟩
  have hinterfaces : interfacesStage phoneNet (.obj []) 2000 = .ok phoneNet.interfaces :=
    except_bind_eq_ok.2 ⟨(), hopen _, rfl⟩
  have hmac : macStage phoneNet (.obj []) 2000 "full" phoneNet.interfaces =
      .ok ([], .failed "") :=
    except_bind_eq_ok.2 ⟨(), hopen _, by simp only [hopts, phoneNet]⟩
  have htopology : topologyStage phoneNet (.obj []) 2000 phoneNet.interfaces =
      .ok (neighbors, arp, arpMeta) :=
    except_bind_eq_ok.2 ⟨(), hopen _, congrArg Except.ok hout⟩
  exact ⟨⟨Dict.empty, phoneNet.interfaces, neighbors, arp, arpMeta, [], .failed "", true, ""⟩,
    fetchSnmp_eq_ok.2 (.reached hfacts (.inl hinterfaces) (.inl hmac) (.inl htopology) rfl rfl),
    rfl, hout.symm⟩

/-- The poll of the switch finds its port, and the phone on it. -/
theorem poll_reads_phone : ∃ result, fetchSnmp phoneNet (.obj []) 2000 "full" = .ok result ∧
    result.interfaces.map InterfaceRow.named = [⟨"3", "gi0/7", "GigabitEthernet0/7", ""⟩] ∧
      (∀ row ∈ result.interfaces, row = joined portWalks row.ifIndex) ∧
        result.neighbors =
          [⟨"desk", "phone", "0x001122334455", "3", ["bridge", "telephone"]⟩] := by
  obtain ⟨result, hpoll, hinterfaces, hout⟩ := poll_phoneNet
  have hserved : TopologyServed (answering phoneMib) fun _ ↦ phoneMib :=
    topologyServed_answering phoneMib
  have hreads : phoneNet.Reads portWalks .usm (answering phoneMib)
      (topologyFuel (fun _ ↦ phoneMib) .usm) := ⟨rfl, rfl⟩
  obtain ⟨hjoined, hright⟩ := poll_reads hreads le_rfl (fun log q ↦ .inl (hserved log q)) hpoll
  have hnamed : result.interfaces.map InterfaceRow.named =
      [⟨"3", "gi0/7", "GigabitEthernet0/7", ""⟩] := by
    rw [hinterfaces]
    exact fetchInterfaces_portWalks
  have hphone : phoneMib.named.map
      (phoneMib.neighbor [⟨"3", "gi0/7", "GigabitEthernet0/7", ""⟩]) =
        [⟨"desk", "phone", "0x001122334455", "3", ["bridge", "telephone"]⟩] := by
    decide +kernel
  have hended : ¬ TopologyFailed (result.neighbors, result.arp, result.arpMeta) := by
    rintro ⟨text, hfailed⟩
    have hcomplete : (topologyOf .usm (answering phoneMib) (topologyFuel (fun _ ↦ phoneMib) .usm)
        phoneNet.interfaces).2.2.complete = true := complete_topologyOf le_rfl hserved _
    rw [← hreads.topology, ← hout, hfailed] at hcomplete
    cases hcomplete
  have hwhole := hright.whole hended hserved
  rw [hnamed, hphone] at hwhole
  exact ⟨result, hpoll, hnamed, fun row hrow ↦ (hjoined row hrow).2, List.perm_singleton.1 hwhole⟩

end Snmp
