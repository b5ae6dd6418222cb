import DanbyteOutpost.Snmp.AgentTables
import DanbyteOutpost.Snmp.Topology

/-!
# Entries without a status

A row of a forwarding table without a status, like a row of ipNetToMediaTable without a type, is
kept: there are agents without that column. But a walk that is cut has rows without it too, wherever
the response it got last ended before the column's binding of a row.

## The statement

An entry is to be left out when its status is one of those the code refuses (`Refused`), in the
agent's table; for ARP entries it is their type. `entries_kept` says of every run that no such
entry is among the rows, if no walk stopped between the port of such an entry and its status
(`StatusRead`, `TypeRead`). `entries_kept_unread` is a walk that did, and `entries_kept_read` one
that did not.
-/

namespace Snmp

open Coop PyText

variable {rd : MacRead} {agent : Agent} {log : Log (net Outcome)}

/-! ### Forwarding entries -/

/-- A row is the entry of a walk of a forwarding table at an index whose status in the agent's table
does not keep it out. -/
def MacRead.StatusKept (rd : MacRead) (agent : Agent) (log : Log (net Outcome)) (row : Row) :
    Prop :=
  ∃ access qbridge f, rd.ReadIn log row access qbridge f ∧
    ∃ index, entryKey qbridge index = some (row.fdbId, row.mac) ∧
      ¬ Refused ((agent access).cell (fdbStatusColumn qbridge) index)

/-- No walk of a forwarding table read the port but not the status of an entry whose status keeps it
out. -/
def StatusRead (agent : Agent) (log : Log (net Outcome)) : Prop :=
  ∀ f : Outcome, .marked f ∈ log → ∀ qbridge, f.columns = fdbColumns qbridge → ∀ index,
    cellOf f.walked.rows index "port" ≠ none → cellOf f.walked.rows index "status" = none →
      ¬ Refused ((agent f.access).cell (fdbStatusColumn qbridge) index)

theorem get?_fdbColumns_status (qbridge : Bool) :
    (fdbColumns qbridge).get? "status" = some (fdbStatusColumn qbridge) := by
  cases qbridge <;> rfl

/-- The status of an entry that the filter leaves is not one that keeps it out, in the agent's
table. -/
theorem statusKept_of_readIn {row : Row} {access : Access} {qbridge : Bool} {f : Outcome}
    (h : rd.ReadIn log row access qbridge f) (hsound : f.Sound agent)
    (hread : StatusRead agent log) : rd.StatusKept agent log row := by
  obtain ⟨entry, hentry, hdrop, hmac, hfdbId, hport⟩ := h.entry
  obtain ⟨index, cells, hcells, hof⟩ := mem_parseFdbTable.1 hentry
  obtain ⟨hkey, hentryPort, hstatus, -⟩ := entryOf_eq_some.1 hof
  have hkept := (Entry.drop_eq_none.1 hdrop).1
  refine ⟨access, qbridge, f, h, index, hmac ▸ hfdbId ▸ hkey, ?_⟩
  rcases hcell : cells.get? "status" with - | text
  · have hthere : cellOf f.walked.rows index "port" ≠ none := by
      obtain ⟨text, htext, -⟩ := Option.bind_eq_some_iff.1 (hentryPort.symm.trans hport)
      rw [cellOf_eq_some.2 ⟨cells, hcells, htext⟩]
      exact Option.some_ne_none text
    have hmissing : cellOf f.walked.rows index "status" = none := by
      rw [cellOf, hcells]
      exact hcell
    exact h.fdbAccess ▸ hread f h.fdb qbridge h.fdbColumns index hthere hmissing
  · have hagent := hsound.cell (h.fdbColumns ▸ get?_fdbColumns_status qbridge)
      (cellOf_eq_some.2 ⟨cells, hcells, hcell⟩)
    rw [h.fdbAccess] at hagent
    rw [hagent]
    rw [hcell] at hstatus
    rintro (hself | hinvalid)
    · exact hkept.1 (hstatus.trans hself)
    · exact hkept.2 (hstatus.trans hinvalid)

/-! ### ARP entries -/

/-- A row is the entry of a walk of ipNetToMediaTable at an index whose type in the agent's table is
not invalid. -/
def ArpRow.TypeKept (agent : Agent) (auth : Auth) (log : Log (net Outcome)) (row : ArpRow) : Prop :=
  ∃ f index, row.ReadAt log f index ∧
    arpKind ((agent ⟨auth, ""⟩).cell arpType index) ≠ "invalid"

/-- No walk of ipNetToMediaTable read the address but not the type of an invalid entry. -/
def TypeRead (agent : Agent) (auth : Auth) (log : Log (net Outcome)) : Prop :=
  ∀ f : Outcome, .marked f ∈ log → f.columns = arpColumns → ∀ index,
    cellOf f.walked.rows index "mac" ≠ none → cellOf f.walked.rows index "type" = none →
      arpKind ((agent ⟨auth, ""⟩).cell arpType index) ≠ "invalid"

/-- An ARP row has the type that its walk read at its index, if the column was read that far. -/
theorem typeKept_of_readAt {auth : Auth} {row : ArpRow} {f : Outcome} {index : Oid}
    (h : row.ReadAt log f index) (haccess : f.access = ⟨auth, ""⟩) (hsound : f.Sound agent)
    (hread : TypeRead agent auth log) : row.TypeKept agent auth log := by
  refine ⟨f, index, h, ?_⟩
  obtain ⟨mac, hmac, hrow⟩ := h.entry
  rcases hcell : cellOf f.walked.rows index "type" with - | text
  · exact hread f h.mark h.columns index (hmac ▸ Option.some_ne_none mac) hcell
  · have hkey : f.columns.get? "type" = some arpType := by
      rw [h.columns]
      rfl
    rw [← haccess, hsound.cell hkey hcell]
    rw [arpRow] at hrow
    split at hrow
    case h_1 =>
      split at hrow
      case isTrue => cases hrow
      case isFalse hkind =>
        change ¬ arpKind (cellOf f.walked.rows index "type") = "invalid" at hkind
        rwa [hcell] at hkind
    case h_2 => cases hrow

/-! ### Both tables -/

/-- Where no walk of their tables stopped between an entry that is not to be kept and its status, no
entry whose status is self or invalid is in the rows of a MAC read, and none whose type is invalid
in the ARP rows of `fetch_topology`.

A walk that breaks off keeps the rows it has, the half filled ones too, and a status that was not
read is taken for one that the agent does not have. -/
theorem entries_kept (agent : Agent) :
    (∀ (rd : MacRead) (sur : Surroundings) (fuel : ℕ) (now : ℚ) (rows : List Row) (report : MacMeta)
      (log : Log (net Outcome)), sur.Answers agent →
        rd.run sur fuel (rd.start now) = some ((rows, report), log) → StatusRead agent log →
          ∀ row ∈ rows, rd.StatusKept agent log row) ∧
      ∀ (auth : Auth) (env : Env (net Outcome)) (fuel : ℕ) (topology : Topology)
        (log : Log (net Outcome)), TopologyAnswers env agent →
          (fetchTopology auth fuel).run env () [] = some (topology, (), log) →
            TypeRead agent auth log → ∀ row ∈ topology.arp, row.TypeKept agent auth log := by
  refine ⟨fun rd sur fuel now rows report log hanswers hrun hread row hrow ↦ ?_,
    fun auth env fuel topology log hanswers hrun hread row hrow ↦ ?_⟩
  · obtain ⟨s, rows', started, now', hfinish, hinv, hfrom⟩ :=
      run_inv (fun _ : True ↦ hanswers) hrun
    obtain rfl : rows = uniqueRows rows' := congrArg Prod.fst hfinish
    obtain ⟨access, qbridge, b, f, vlan, learned, h⟩ := hfrom row (mem_of_mem_uniqueRows hrow)
    exact statusKept_of_readIn h.readIn (hinv.sound trivial f h.walks.fdb) hread
  · obtain ⟨hsound, hfrom⟩ := fetchTopology_inv hanswers hrun
    obtain ⟨f, index, h⟩ := hfrom row hrow
    exact typeKept_of_readAt h (hsound f h.mark).1 (hsound f h.mark).2 hread

/-- An agent that answers with one binding at a time fails with genErr where the status, or the
type, of its one entry is next: an entry of its own, and an invalid one. -/
theorem entries_kept_unread :
    let mib : Mib := ⟨[(arpPhys ++ [3, 192, 0, 2, 9], "0x001122334455"),
      (arpType ++ [3, 192, 0, 2, 9], "2"), (dot1dBasePortIfindex ++ [1], "1"),
      (dot1dTpFdbPort ++ [0, 17, 34, 51, 68, 85], "1"),
      (dot1dTpFdbStatus ++ [0, 17, 34, 51, 68, 85], "4")], by decide⟩
    let rd : MacRead :=
      { version := .v2c, community := "public", opts := ⟨.off, false, 120, 128, []⟩
        ifaces := ⟨Dict.ofList [("1", ("6", "ethernet"))], [], []⟩ }
    let sur : Surroundings :=
      { clock := fun _ ↦ 0
        reply := fun _ q ↦
          if q.cursors = [dot1dTpFdbStatus] ∨ q.cursors = [arpType] then
            .response none 5 "genErr" 0 []
          else Agent.serveOne (fun _ ↦ mib) q
        pick := fun _ ↦ 0 }
    (sur.Answers (fun _ ↦ mib) ∧ ∃ rows report log,
      rd.run sur 10 (rd.start 0) = some ((rows, report), log) ∧
        ∃ row ∈ rows, ¬ rd.StatusKept (fun _ ↦ mib) log row) ∧
    TopologyAnswers sur.env (fun _ ↦ mib) ∧ ∃ topology log,
      (fetchTopology (.community "public" 1) 10).run sur.env () [] = some (topology, (), log) ∧
        ∃ row ∈ topology.arp, ¬ row.TypeKept (fun _ ↦ mib) (.community "public" 1) log := by
  intro mib rd sur
  have hreply : ∀ columns log q, Conforms (fun _ ↦ mib) columns q (sur.reply log q) ∨
      Faulty (fun _ ↦ mib) columns q (sur.reply log q) :=
    fun columns log q ↦ (Agent.serveOne_conforms ..).orGenErr _
  refine ⟨⟨fun log q ↦ hreply _ log q, ?_⟩, fun log q ↦ hreply _ log q, ?_⟩
  · have hrun : (rd.run sur 10 (rd.start 0)).map (fun out ↦ out.1.1) = some
        [⟨⟨[0, 17, 34, 51, 68, 85], rfl, by decide⟩, "1", none, none, 1, .blank⟩] := by
      decide +kernel
    obtain ⟨⟨⟨rows, report⟩, log⟩, hrun, hrows⟩ := Option.map_eq_some_iff.1 hrun
    refine ⟨rows, report, log, hrun, _, hrows ▸ List.mem_singleton_self _, ?_⟩
    rintro ⟨access, qbridge, f, -, index, hkey, hkept⟩
    -- the entry has one index, in the table of BRIDGE-MIB
    rcases entryKey_eq_some.1 hkey with ⟨-, fid, hno, -⟩ | ⟨rfl, -, rfl⟩
    · cases hno
    · have hself : mib.cell dot1dTpFdbStatus [0, 17, 34, 51, 68, 85] = some "4" := by decide +kernel
      refine hkept (.inl ?_)
      show fdbStatus (mib.cell dot1dTpFdbStatus _) = _
      rw [hself]
      rfl
  · have hrun : ((fetchTopology (.community "public" 1) 10).run sur.env () []).map
        (fun out ↦ out.1.arp) = some [⟨"3", "192.0.2.9", "00:11:22:33:44:55", ""⟩] := by
      decide +kernel
    -- the walk of ipNetToMediaTable has a row at one index
    have hmarks : ((fetchTopology (.community "public" 1) 10).run sur.env () []).map
        (fun out ↦ allWalks (fun o ↦ o.columns ≠ arpColumns ||
          o.walked.rows.keys = [[3, 192, 0, 2, 9]]) out.2.2) = some true := by
      decide +kernel
    obtain ⟨⟨topology, ⟨⟩, log⟩, hout, hrows⟩ := Option.map_eq_some_iff.1 hrun
    rw [hout, Option.map_some, Option.some.injEq, allWalks_iff] at hmarks
    refine ⟨topology, log, hout, _, hrows ▸ List.mem_singleton_self _, ?_⟩
    rintro ⟨f, index, hat, hkept⟩
    obtain ⟨mac, hcell, -⟩ := hat.entry
    have hread := hmarks _ hat.mark
    simp only [hat.columns, ne_eq, not_true_eq_false, decide_false, Bool.false_or,
      decide_eq_true_eq] at hread
    have hindex := mem_keys_of_cellOf (hcell ▸ Option.some_ne_none _)
    rw [hread, List.mem_singleton] at hindex
    have hinvalid : mib.cell arpType [3, 192, 0, 2, 9] = some "2" := by decide +kernel
    refine hkept ?_
    show arpKind (mib.cell arpType index) = _
    rw [hindex, hinvalid]
    decide

/-- The same agent with two entries in each table fails behind the status, or the type, of the one
that is not to be kept. -/
theorem entries_kept_read :
    let mib : Mib := ⟨[(arpPhys ++ [3, 192, 0, 2, 9], "0x001122334455"),
      (arpPhys ++ [3, 192, 0, 2, 10], "0x001122334466"), (arpType ++ [3, 192, 0, 2, 9], "2"),
      (arpType ++ [3, 192, 0, 2, 10], "3"), (dot1dBasePortIfindex ++ [1], "1"),
      (dot1dTpFdbPort ++ [0, 17, 34, 51, 68, 85], "1"),
      (dot1dTpFdbPort ++ [0, 17, 34, 51, 68, 102], "1"),
      (dot1dTpFdbStatus ++ [0, 17, 34, 51, 68, 85], "4"),
      (dot1dTpFdbStatus ++ [0, 17, 34, 51, 68, 102], "3")], by decide⟩
    let rd : MacRead :=
      { version := .v2c, community := "public", opts := ⟨.off, false, 120, 128, []⟩
        ifaces := ⟨Dict.ofList [("1", ("6", "ethernet"))], [], []⟩ }
    let sur : Surroundings :=
      { clock := fun _ ↦ 0
        reply := fun _ q ↦
          if q.cursors = [dot1dTpFdbStatus ++ [0, 17, 34, 51, 68, 85]] ∨
              q.cursors = [arpType ++ [3, 192, 0, 2, 9]] then
            .response none 5 "genErr" 0 []
          else Agent.serveOne (fun _ ↦ mib) q
        pick := fun _ ↦ 0 }
    (∃ rows report log, rd.run sur 10 (rd.start 0) = some ((rows, report), log) ∧ rows ≠ [] ∧
      ∀ row ∈ rows, rd.StatusKept (fun _ ↦ mib) log row) ∧
    ∃ topology log,
      (fetchTopology (.community "public" 1) 10).run sur.env () [] = some (topology, (), log) ∧
        topology.arp ≠ [] ∧
          ∀ row ∈ topology.arp, row.TypeKept (fun _ ↦ mib) (.community "public" 1) log := by
  intro mib rd sur
  have hreply : ∀ columns log q, Conforms (fun _ ↦ mib) columns q (sur.reply log q) ∨
      Faulty (fun _ ↦ mib) columns q (sur.reply log q) :=
    fun columns log q ↦ (Agent.serveOne_conforms ..).orGenErr _
  obtain ⟨hmac, harp⟩ := entries_kept (fun _ ↦ mib)
  refine ⟨?_, ?_⟩
  · have hrun : (rd.run sur 10 (rd.start 0)).map (fun out ↦ decide (out.1.1 ≠ [])) = some true := by
      decide +kernel
    -- the walks of forwarding tables left out one status
    have hmarks : (rd.run sur 10 (rd.start 0)).map (fun out ↦ allWalks (fun o ↦
        o.columns ≠ dFdbColumns && o.columns ≠ qFdbColumns ||
          o.walked.rows.keys.all fun index ↦ cellOf o.walked.rows index "status" ≠ none ||
            index = [0, 17, 34, 51, 68, 102]) out.2) = some true := by
      decide +kernel
    have hlearned : ∀ qbridge,
        ¬ Refused (mib.cell (fdbStatusColumn qbridge) [0, 17, 34, 51, 68, 102]) := by
      decide +kernel
    obtain ⟨⟨⟨rows, report⟩, log⟩, hout, hrows⟩ := Option.map_eq_some_iff.1 hrun
    rw [hout, Option.map_some, Option.some.injEq, allWalks_iff] at hmarks
    refine ⟨rows, report, log, hout, of_decide_eq_true hrows,
      hmac rd sur 10 0 rows report log (fun log q ↦ hreply _ log q) hout ?_⟩
    intro f hmark qbridge hcolumns index hport hstatus
    have hread := hmarks _ hmark
    have hfdb : ¬ (f.columns ≠ dFdbColumns ∧ f.columns ≠ qFdbColumns) := by
      rw [hcolumns]
      cases qbridge <;> decide
    simp only [Bool.or_eq_true, Bool.and_eq_true, decide_eq_true_eq, hfdb, false_or,
      List.all_eq_true] at hread
    have hindex := (hread index (mem_keys_of_cellOf hport)).resolve_left fun h ↦ h hstatus
    exact hindex ▸ hlearned qbridge
  · have hrun : ((fetchTopology (.community "public" 1) 10).run sur.env () []).map
        (fun out ↦ decide (out.1.arp ≠ [])) = some true := by
      decide +kernel
    have hmarks : ((fetchTopology (.community "public" 1) 10).run sur.env () []).map
        (fun out ↦ allWalks (fun o ↦ o.columns ≠ arpColumns ||
          o.walked.rows.keys.all fun index ↦ cellOf o.walked.rows index "type" ≠ none ||
            index = [3, 192, 0, 2, 10]) out.2.2) = some true := by
      decide +kernel
    have hdynamic : arpKind (mib.cell arpType [3, 192, 0, 2, 10]) ≠ "invalid" := by decide +kernel
    obtain ⟨⟨topology, ⟨⟩, log⟩, hout, hrows⟩ := Option.map_eq_some_iff.1 hrun
    rw [hout, Option.map_some, Option.some.injEq, allWalks_iff] at hmarks
    refine ⟨topology, log, hout, of_decide_eq_true hrows,
      harp _ _ 10 topology log (fun log q ↦ hreply _ log q) hout ?_⟩
    intro f hmark hcolumns index hmac' htype
    have hread := hmarks _ hmark
    simp only [Bool.or_eq_true, decide_eq_true_eq, hcolumns, ne_eq, not_true_eq_false, false_or,
      List.all_eq_true] at hread
    have hindex := (hread index (mem_keys_of_cellOf hmac')).resolve_left fun h ↦ h htype
    exact hindex ▸ hdynamic

end Snmp
