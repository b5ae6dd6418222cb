import DanbyteOutpost.Snmp.AgentTables
import DanbyteOutpost.Snmp.MacOrigin

/-!
# The interface of a row

A row gets its interface from dot1dBasePortIfIndex, or takes its bridge port for one where that
table has nothing; and a logical unit is folded onto the one port that ifStackTable shows below it.
Both reason from rows that are not there, and a read goes on after walks of either table that
failed.

## The statement

`MacRead.PortJustified` says of a row that the agent's own tables give it its interface, perhaps
through the port that a logical unit stands on. `port_justified` holds of every row of every run
in which no walk of either table was misleading: of the base-port table, one that got nothing
usable from a table that has rows (`MacRead.BaseRead`); of the stack table, one that saw one of
several ports under a unit (`MacRead.StackRead`). `port_assumed_wrongly` is a run with the former.
-/

namespace Snmp

open Coop PyText

variable {rd : MacRead} {agent : Agent} {log : Log (net Outcome)}

/-! ### What justifies an interface -/

/-- The bridge ports of the entries that a walk of a forwarding table read and the filter left. -/
def MacRead.keptOf (rd : MacRead) (qbridge : Bool) (f : Outcome) : List ℤ :=
  keptPorts rd.ifaces (parseFdbTable qbridge f.walked.rows)

/-- The interface of a bridge port by the agent's table: the one it names, or where it names none
the port itself, if that goes for every port of the entries left. -/
def MacRead.PortOf (rd : MacRead) (m : Mib) (kept : List ℤ) (port : ℤ) (ifIndex : String) : Prop :=
  BasePort (m.cell dot1dBasePortIfindex) port ifIndex ∨
    m.Empty dot1dBasePortIfindex ∧ AllPorts rd.ifaces kept ∧ ifIndex = toString port

/-- The agent's tables give the row its interface. -/
def MacRead.PortJustified (rd : MacRead) (agent : Agent) (log : Log (net Outcome)) (row : Row) :
    Prop :=
  ∃ access qbridge f, rd.ReadIn log row access qbridge f ∧
    ∃ ifIndex, rd.PortOf (agent access) (rd.keptOf qbridge f) row.bridgePort ifIndex ∧
      (row.ifIndex = ifIndex ∨ rd.FoldsOnto (agent rd.access) ifIndex row.ifIndex)

/-! ### When it is justified -/

/-- No walk of dot1dBasePortIfIndex, of a table that has rows, ended without a usable one where each
port of the entries left could be taken for an interface. -/
def MacRead.BaseRead (rd : MacRead) (agent : Agent) (log : Log (net Outcome)) : Prop :=
  ∀ access qbridge b f, MacRead.Walks log access qbridge b f →
    (∃ port ∈ rd.keptOf qbridge f, port ≠ 0) → AllPorts rd.ifaces (rd.keptOf qbridge f) →
      ¬ (agent access).Empty dot1dBasePortIfindex →
        ∃ port ifIndex, BasePort (column b.walked.rows "if_index").get? port ifIndex

/-- No walk of ifStackTable that broke off read one of several ports below a logical unit, if a
bridge port is mapped to that unit. -/
def MacRead.StackRead (rd : MacRead) (agent : Agent) (log : Log (net Outcome)) : Prop :=
  ∀ k : Outcome, .marked k ∈ log → k.access = rd.access → k.columns = stackColumns →
    k.walked.complete = false →
    ∀ access qbridge b f, MacRead.Walks log access qbridge b f → ∀ port unit,
      (mapBridgePorts rd.ifaces (rd.keptOf qbridge f) (column b.walked.rows "if_index")).1 port =
        some unit → rd.isLogical unit = true →
      ∀ lower lower', lower' ≠ lower →
        StacksOn ((agent rd.access).cell ifStackStatus) unit lower' →
          rd.ifaces.isPort lower' = true →
        StacksOn (column k.walked.rows "status").get? unit lower → rd.ifaces.isPort lower = true →
          ∃ lower'' ≠ lower, StacksOn (column k.walked.rows "status").get? unit lower'' ∧
            rd.ifaces.isPort lower'' = true

/-- A bridge port that is mapped by the walks of a context is mapped by the agent's table. -/
theorem portOf_of_mapped {access : Access} {qbridge : Bool} {b f : Outcome}
    (hwalks : MacRead.Walks log access qbridge b f) (hsound : b.Sound agent)
    (hread : rd.BaseRead agent log)
    {port : ℤ} {ifIndex : String}
    (h : (mapBridgePorts rd.ifaces (rd.keptOf qbridge f)
      (column b.walked.rows "if_index")).1 port = some ifIndex) :
    rd.PortOf (agent access) (rd.keptOf qbridge f) port ifIndex := by
  have hkey : b.columns.get? "if_index" = some dot1dBasePortIfindex := by
    rw [hwalks.baseColumns]
    rfl
  obtain ⟨hkept, hne, hbase | ⟨hnone, hall, heq⟩⟩ := mapBridgePorts_eq_some.1 h
  · obtain ⟨p, text, index, hget, hrest⟩ := hbase
    exact .inl ⟨p, text, index, hwalks.baseAccess ▸ hsound.column hkey hget, hrest⟩
  · refine .inr ⟨?_, hall, heq⟩
    by_contra hrows
    obtain ⟨port', ifIndex', hbase⟩ := hread access qbridge b f hwalks ⟨port, hkept, hne⟩ hall hrows
    exact hnone port' ifIndex' hbase

/-- A unit that is folded onto a port by a walk of ifStackTable is folded onto it by the table. -/
theorem foldsOnto_of_stack {stack : Dict String String} (hstack : rd.StackFrom log stack)
    (hsound : ∀ k : Outcome, .marked k ∈ log → k.Sound agent) (hread : rd.StackRead agent log)
    {access : Access} {qbridge : Bool} {b f : Outcome}
    (hwalks : MacRead.Walks log access qbridge b f)
    {p : ℤ} {unit port : String}
    (hmapped : (mapBridgePorts rd.ifaces (rd.keptOf qbridge f)
      (column b.walked.rows "if_index")).1 p = some unit)
    (h : stack.get? unit = some port) : rd.FoldsOnto (agent rd.access) unit port := by
  obtain ⟨k, hmark, haccess, hcolumns, rfl⟩ := hstack
  obtain ⟨⟨hknown, hport⟩, hone⟩ := get?_unitPorts.1 h
  have hlogical : rd.isLogical unit = true := by
    rw [MacRead.isLogical]
    rw [hknown, hport]
    rfl
  have hkey : k.columns.get? "status" = some ifStackStatus := by
    rw [hcolumns]
    rfl
  have hthere : ∀ {lower}, StacksOn (column k.walked.rows "status").get? unit lower →
      StacksOn ((agent rd.access).cell ifStackStatus) unit lower := by
    rintro lower ⟨index, text, hget, hs⟩
    exact ⟨index, text, haccess ▸ (hsound k hmark).column hkey hget, hs⟩
  refine ⟨hlogical, fun lower ↦ ⟨fun ⟨hstacks, hlower⟩ ↦ ?_, ?_⟩⟩
  · obtain ⟨hread₀, hport₀⟩ := (hone port).2 rfl
    by_contra hne
    rcases hcomplete : k.walked.complete with - | -
    · obtain ⟨lower'', hne', hread'', hport''⟩ := hread k hmark haccess hcolumns hcomplete access
        qbridge b f hwalks p unit hmapped hlogical port lower hne hstacks hlower hread₀ hport₀
      exact hne' ((hone lower'').1 ⟨hread'', hport''⟩)
    · obtain ⟨index, text, hcell, hs⟩ := hstacks
      refine hne ((hone lower).1 ⟨⟨index, text, ?_, hs⟩, hlower⟩)
      exact (hsound k hmark).column_of_complete hcomplete hkey (haccess.symm ▸ hcell)
  · rintro rfl
    exact ⟨hthere ((hone lower).2 rfl).1, ((hone lower).2 rfl).2⟩

/-- Where no walk of dot1dBasePortIfIndex or ifStackTable left out the rows that say otherwise, the
agent's tables give every row its interface.

The base ports count for the mapping when none of them was read: a table that could not be read is
taken for an empty one. The stack counts for the folding when one of several ports under a unit was
read. -/
theorem port_justified {sur : Surroundings} {fuel : ℕ} {now : ℚ} (hanswers : sur.Answers agent)
    {rows : List Row} {report : MacMeta}
    (hrun : rd.run sur fuel (rd.start now) = some ((rows, report), log))
    (hbase : rd.BaseRead agent log) (hstack : rd.StackRead agent log) :
    ∀ row ∈ rows, rd.PortJustified agent log row := by
  obtain ⟨s, rows', started, now', hfinish, hinv, hfrom⟩ := run_inv (fun _ : True ↦ hanswers) hrun
  have hsound := hinv.sound trivial
  intro row hrow
  obtain rfl : rows = uniqueRows rows' := congrArg Prod.fst hfinish
  obtain ⟨access, qbridge, b, f, vlan, learned, h⟩ := hfrom row (mem_of_mem_uniqueRows hrow)
  obtain ⟨entry, -, -, port, ifIndex, -, hmapped, rfl⟩ := MacRead.mem_learnedFrom.1 h.mem
  have hport' : row.bridgePort = port := by rw [h.same]
  refine ⟨access, qbridge, f, h.readIn, ifIndex, ?_, ?_⟩
  · exact hport' ▸ portOf_of_mapped h.walks (hsound b h.walks.base) hbase hmapped
  · obtain hself | ⟨stack, hfrom, hget⟩ := h.ifIndex
    · exact .inl hself
    · exact .inr (foldsOnto_of_stack hfrom hsound hstack h.walks hmapped hget)

/-- Bridge port 1 is ifIndex 7, and the walk of dot1dBasePortIfIndex fails with genErr at once; but
ifIndex 1 is an ethernet port too. -/
theorem port_assumed_wrongly :
    let mib : Mib := ⟨[(dot1dBasePortIfindex ++ [1], "7"),
      (dot1dTpFdbPort ++ [0, 17, 34, 51, 68, 85], "1"),
      (dot1dTpFdbStatus ++ [0, 17, 34, 51, 68, 85], "3")], by decide⟩
    let rd : MacRead :=
      { version := .v2c, community := "public", opts := ⟨.off, false, 120, 128, []⟩
        ifaces := ⟨Dict.ofList [("1", ("6", "ethernet")), ("7", ("6", "ethernet"))], [], []⟩ }
    let sur : Surroundings :=
      { clock := fun _ ↦ 0
        reply := fun _ q ↦
          if q.cursors = [dot1dBasePortIfindex] then .response none 5 "genErr" 0 []
          else Agent.serve (fun _ ↦ mib) q
        pick := fun _ ↦ 0 }
    sur.Answers (fun _ ↦ mib) ∧ ∃ rows report log,
      rd.run sur 10 (rd.start 0) = some ((rows, report), log) ∧
        ∃ row ∈ rows, ¬ rd.PortJustified (fun _ ↦ mib) log row := by
  intro mib rd sur
  refine ⟨fun log q ↦ (Agent.serve_conforms ..).orGenErr _, ?_⟩
  have hrun : (rd.run sur 10 (rd.start 0)).map (fun out ↦ out.1.1) = some
      [⟨⟨[0, 17, 34, 51, 68, 85], rfl, by decide⟩, "1", none, none, 1, .learned⟩] := by
    decide +kernel
  obtain ⟨⟨⟨rows, report⟩, log⟩, hrun, hrows⟩ := Option.map_eq_some_iff.1 hrun
  refine ⟨rows, report, log, hrun, _, hrows ▸ List.mem_singleton_self _, ?_⟩
  rintro ⟨access, qbridge, f, -, ifIndex, ⟨p, text, index, hcell, htext, -, -, hport, rfl⟩ |
    ⟨hempty, -⟩, hfold⟩
  · obtain rfl : p = 1 := by simpa using hport.symm
    have hseven : mib.cell dot1dBasePortIfindex [1] = some "7" := by decide +kernel
    obtain rfl := Option.some.inj (hseven.symm.trans hcell)
    obtain rfl := Option.some.inj ((by decide : intOfText "7" = some 7).symm.trans htext)
    rcases hfold with heq | ⟨hlogical, -⟩
    · exact absurd heq (by decide)
    · exact absurd hlogical (by decide +kernel)
  · have hseven : mib.cell dot1dBasePortIfindex [1] = some "7" := by decide +kernel
    exact absurd (hseven.symm.trans (hempty [1])) nofun

/-- Bridge port 1 is a unit stacked on ethernet port 5, and the walk of dot1dBasePortIfIndex fails
behind the row that says so. -/
theorem port_justified_folded :
    let mib : Mib := ⟨[(dot1dBasePortIfindex ++ [1], "10"), (dot1dBasePortIfindex ++ [2], "11"),
      (dot1dTpFdbPort ++ [0, 17, 34, 51, 68, 85], "1"),
      (dot1dTpFdbStatus ++ [0, 17, 34, 51, 68, 85], "3"), (ifStackStatus ++ [10, 5], "1")],
      by decide⟩
    let rd : MacRead :=
      { version := .v2c, community := "public", opts := ⟨.off, false, 120, 128, []⟩
        ifaces := ⟨Dict.ofList [("5", ("6", "ethernet")), ("10", ("53", "virtual"))], [], []⟩ }
    let sur : Surroundings :=
      { clock := fun _ ↦ 0
        reply := fun _ q ↦
          if q.cursors = [dot1dBasePortIfindex ++ [1]] then .response none 5 "genErr" 0 []
          else Agent.serve (fun _ ↦ mib) q
        pick := fun _ ↦ 0 }
    ∃ rows report log, rd.run sur 10 (rd.start 0) = some ((rows, report), log) ∧
      (∃ row ∈ rows, row.bridgePort = 1 ∧ row.ifIndex = "5") ∧
        ∀ row ∈ rows, rd.PortJustified (fun _ ↦ mib) log row := by
  intro mib rd sur
  have hanswers : sur.Answers (fun _ ↦ mib) :=
    fun log q ↦ (Agent.serve_conforms ..).orGenErr _
  have hrun : (rd.run sur 10 (rd.start 0)).map (fun out ↦ out.1.1) = some
      [⟨⟨[0, 17, 34, 51, 68, 85], rfl, by decide⟩, "5", none, none, 1, .learned⟩] := by
    decide +kernel
  -- the walks of the two tables
  have hmarks : (rd.run sur 10 (rd.start 0)).map (fun out ↦ allWalks (fun o ↦
      (o.columns ≠ baseColumns ||
        (basePorts (column o.walked.rows "if_index")).get? 1 = some "10") &&
      (o.columns ≠ stackColumns || o.walked.complete)) out.2) = some true := by
    decide +kernel
  obtain ⟨⟨⟨rows, report⟩, log⟩, hout, hrows⟩ := Option.map_eq_some_iff.1 hrun
  rw [hout, Option.map_some, Option.some.injEq, allWalks_iff] at hmarks
  refine ⟨rows, report, log, hout, ⟨_, hrows ▸ List.mem_singleton_self _, rfl, rfl⟩, ?_⟩
  refine port_justified hanswers hout ?_ ?_
  · intro access qbridge b f hwalks _ _ _
    have hread := hmarks _ hwalks.base
    simp only [hwalks.baseColumns, ne_eq, not_true_eq_false, decide_false, Bool.false_or,
      Bool.and_eq_true, decide_eq_true_eq] at hread
    exact ⟨1, "10", get?_basePorts.1 hread.1⟩
  · intro k hmark _ hcolumns hcut
    have hread := hmarks _ hmark
    simp only [hcolumns, ne_eq, not_true_eq_false, decide_false, Bool.false_or,
      Bool.and_eq_true] at hread
    exact absurd (hcut.symm.trans hread.2) Bool.false_ne_true

end Snmp
