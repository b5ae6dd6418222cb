import DanbyteOutpost.Snmp.AgentTables
import DanbyteOutpost.Snmp.MacOrigin

/-!
# The VLAN of a Q-BRIDGE row

A row of Q-BRIDGE gets its VLAN because the rows of dot1qVlanFdbId show no second user of its FDB
id. That is sound on the whole table. A walk of it that ends in a timeout or with the budget ends
the read, but one that ends in another fault does not, and the rows it got are used as if they were
all.

## The statement

`MacRead.VlanJustified` is what a VLAN on a row should rest on: it is the one user of the row's
FDB id in the agent's table, or the agent has no such table and names every FDB id as a VLAN.
`vlan_justified` says so of every row of every run in which no walk of dot1qVlanFdbId broke off
between two users of an id (`MacRead.UsersRead`), and `vlan_shared_guessed` is a run in which one
did.
-/

namespace Snmp

open Coop PyText

variable {rd : MacRead} {agent : Agent} {log : Log (net Outcome)}

/-- The VLANs that use an FDB id, by what the agent keeps. -/
def MacRead.AgentUses (rd : MacRead) (agent : Agent) (fid vid : ℤ) : Prop :=
  UsesFdb ((agent rd.access).cell dot1qVlanFdbId) fid vid

instance (fid vid : ℤ) : Decidable (rd.AgentUses agent fid vid) :=
  decidable_of_iff _ Mib.usesFdb_iff.symm

/-- The FDB ids of the entries a walk of dot1qTpFdbTable read. -/
def fdbIdsOf (f : Outcome) : List ℤ := (parseFdbTable true f.walked.rows).filterMap Entry.fdbId

/-- What a VLAN has to be for a row with its FDB id. -/
def MacRead.VlanJustified (rd : MacRead) (agent : Agent) (log : Log (net Outcome)) (row : Row) :
    Prop :=
  ∀ fid vid, row.fdbId = some fid → row.vlan = some vid →
    (∀ vid', rd.AgentUses agent fid vid' ↔ vid' = vid) ∨
      (agent rd.access).Empty dot1qVlanFdbId ∧
        ∃ f : Outcome, .marked f ∈ log ∧ f.access = rd.access ∧ f.columns = qFdbColumns ∧
          ∀ fid' ∈ fdbIdsOf f, rd.Names (agent rd.access) fid'

/-- No walk of dot1qVlanFdbId that ended in a fault other than a timeout or the budget read one user
alone of an FDB id that has another. -/
def MacRead.UsersRead (rd : MacRead) (agent : Agent) (log : Log (net Outcome)) : Prop :=
  ∀ v : Outcome, .marked v ∈ log → v.access = rd.access → v.columns = vlanFdbColumns →
    v.walked.complete = false → v.walked.stats.timeout = false →
    v.walked.stats.truncated = false →
    ∀ f : Outcome, .marked f ∈ log → f.access = rd.access → f.columns = qFdbColumns →
      ∀ fid ∈ fdbIdsOf f, ∀ vid vid', vid' ≠ vid → rd.AgentUses agent fid vid' →
        UsesFdb (column v.walked.rows "fdb").get? fid vid →
          ∃ vid'' ≠ vid, UsesFdb (column v.walked.rows "fdb").get? fid vid''

/-- What the rows of dot1qVlanFdbId say of a VLAN, the agent's table says. -/
theorem agentUses_of_read {v : Outcome} (hsound : v.Sound agent) (haccess : v.access = rd.access)
    (hcolumns : v.columns = vlanFdbColumns) {fid vid : ℤ}
    (h : UsesFdb (column v.walked.rows "fdb").get? fid vid) : rd.AgentUses agent fid vid := by
  obtain ⟨index, text, hget, h⟩ := h
  exact ⟨index, text, haccess ▸ hsound.column (by rw [hcolumns]; rfl) hget, h⟩

/-- A complete walk of dot1qVlanFdbId says all the agent's table says. -/
theorem read_of_agentUses {v : Outcome} (hsound : v.Sound agent) (haccess : v.access = rd.access)
    (hcolumns : v.columns = vlanFdbColumns) (hcomplete : v.walked.complete = true) {fid vid : ℤ}
    (h : rd.AgentUses agent fid vid) : UsesFdb (column v.walked.rows "fdb").get? fid vid := by
  obtain ⟨index, text, hcell, h⟩ := h
  refine ⟨index, text, ?_, h⟩
  exact hsound.column_of_complete hcomplete (by rw [hcolumns]; rfl) (haccess.symm ▸ hcell)

/-- Where no walk of dot1qVlanFdbId read one of several users alone, the VLAN of every Q-BRIDGE row
is the one its FDB id has, or the agent says of no VLAN what FDB id it has and names them all.

`_read` goes on behind a walk of dot1qVlanFdbId that an agent broke off with anything but a timeout,
and `map_fdb_vlans` takes what was read for the whole table. The condition is about the rows that
were sent, so that it can be held against the agent's own table. -/
theorem vlan_justified {sur : Surroundings} {fuel : ℕ} {now : ℚ} (hanswers : sur.Answers agent)
    {rows : List Row} {report : MacMeta}
    (hrun : rd.run sur fuel (rd.start now) = some ((rows, report), log))
    (hread : rd.UsersRead agent log) : ∀ row ∈ rows, rd.VlanJustified agent log row := by
  obtain ⟨s, rows', started, now', hfinish, hinv, hfrom⟩ := run_inv (fun _ : True ↦ hanswers) hrun
  intro row hrow fid vid hfid hvid
  obtain rfl : rows = uniqueRows rows' := congrArg Prod.fst hfinish
  obtain ⟨access, qbridge, b, f, vlan, learned, h⟩ := hfrom row (mem_of_mem_uniqueRows hrow)
  obtain ⟨e, he, -, port, ifIndex, -, -, rfl⟩ := MacRead.mem_learnedFrom.1 h.mem
  have hfid' : e.fdbId = some fid := by
    rw [h.same] at hfid
    exact hfid
  obtain ⟨index, cells, -, hof⟩ := mem_parseFdbTable.1 he
  -- only Q-BRIDGE entries have an FDB id
  obtain rfl : qbridge = true := by
    have hkey := (entryOf_eq_some.1 hof).1
    rcases qbridge with - | -
    · obtain ⟨_, -, heq⟩ := Option.map_eq_some_iff.1 hkey
      rw [hfid'] at heq
      cases heq
    · rfl
  obtain ⟨rfl, hsame, v, named, hmark, haccess, hcolumns, hend, hnamed, rfl⟩ := h.vlans rfl
  have hmapped : (mapFdbVlans (fdbIdsOf f) (column v.walked.rows "fdb") named).1 fid =
      some vid := by
    have : (e.fdbId.bind _) = some vid := hsame.symm.trans hvid
    rw [hfid'] at this
    exact this
  have hsound := hinv.sound trivial
  obtain ⟨hmem, hone | ⟨-, rfl, vids, hvids, hall⟩⟩ := mapFdbVlans_eq_some.1 hmapped
  · refine .inl fun vid' ↦ ⟨fun huses ↦ ?_, ?_⟩
    · by_contra hne
      rcases hend with hcomplete | ⟨htimeout, htruncated⟩
      · exact hne ((hone vid').1
          (read_of_agentUses (hsound v hmark) haccess hcolumns hcomplete huses))
      · rcases hcomplete : v.walked.complete with - | -
        · obtain ⟨vid'', hne', huses'⟩ := hread v hmark haccess hcolumns hcomplete htimeout
            htruncated f h.walks.fdb h.walks.fdbAccess h.walks.fdbColumns fid hmem vid vid' hne
              huses
            ((hone vid).2 rfl)
          exact hne' ((hone vid'').1 huses')
        · exact hne ((hone vid').1
            (read_of_agentUses (hsound v hmark) haccess hcolumns hcomplete huses))
    · rintro rfl
      exact agentUses_of_read (hsound v hmark) haccess hcolumns ((hone vid').2 rfl)
  · obtain ⟨hempty, hcomplete, hfrom'⟩ := hnamed vids hvids
    refine .inr ⟨fun index ↦ ?_, f, h.walks.fdb, h.walks.fdbAccess, h.walks.fdbColumns,
      fun fid' hfid' ↦ (hfrom' fid' (hall fid' hfid').1).imp_right ?_⟩
    · by_contra hne
      obtain ⟨text, hcell⟩ := Option.ne_none_iff_exists'.1 hne
      have hkey : v.columns.get? "fdb" = some dot1qVlanFdbId := by
        rw [hcolumns]
        rfl
      have hread := (hsound v hmark).column_of_complete hcomplete hkey (haccess.symm ▸ hcell)
      exact absurd hempty (Dict.items_ne_nil_iff.2 ⟨index, Dict.mem_keys_iff.2 ⟨text, hread⟩⟩)
    · rintro ⟨n, hn, hnaccess, hncolumns, i, rfl, -, hi⟩
      obtain ⟨text, hcell⟩ := (hsound n hn).cell_of_mem hncolumns hi
      exact ⟨i, text, rfl, hnaccess ▸ hcell⟩

/-- VLANs 10 and 20 share FDB id 1, and dot1qVlanFdbId breaks off with genErr behind VLAN 10. -/
theorem vlan_shared_guessed :
    let mib : Mib := ⟨[(dot1dBasePortIfindex ++ [1], "1"),
      (dot1qTpFdbPort ++ [1, 0, 17, 34, 51, 68, 85], "1"),
      (dot1qTpFdbStatus ++ [1, 0, 17, 34, 51, 68, 85], "3"), (dot1qVlanFdbId ++ [0, 10], "1"),
      (dot1qVlanFdbId ++ [0, 20], "1")], by decide⟩
    let rd : MacRead :=
      { version := .v2c, community := "public", opts := ⟨.auto, false, 120, 128, []⟩
        ifaces := ⟨Dict.ofList [("1", ("6", "ethernet"))], [], []⟩ }
    let sur : Surroundings :=
      { clock := fun _ ↦ 0
        reply := fun _ q ↦
          if q.cursors = [dot1qVlanFdbId ++ [0, 10]] then .response none 5 "genErr" 0 []
          else Agent.serve (fun _ ↦ mib) q
        pick := fun _ ↦ 0 }
    sur.Answers (fun _ ↦ mib) ∧ ∃ rows report log,
      rd.run sur 10 (rd.start 0) = some ((rows, report), log) ∧
        ∃ row ∈ rows, ¬ rd.VlanJustified (fun _ ↦ mib) log row := by
  intro mib rd sur
  refine ⟨fun log q ↦ (Agent.serve_conforms ..).orGenErr _, ?_⟩
  have hrun : (rd.run sur 10 (rd.start 0)).map (fun out ↦ out.1.1) = some
      [⟨⟨[0, 17, 34, 51, 68, 85], rfl, by decide⟩, "1", some 10, some 1, 1, .learned⟩] := by
    decide +kernel
  obtain ⟨⟨⟨rows, report⟩, log⟩, hrun, hrows⟩ := Option.map_eq_some_iff.1 hrun
  refine ⟨rows, report, log, hrun, _, hrows ▸ List.mem_singleton_self _, fun h ↦ ?_⟩
  rcases h 1 10 rfl rfl with hone | ⟨hempty, -⟩
  · have huses : rd.AgentUses (fun _ ↦ mib) 1 20 := by decide +kernel
    exact absurd ((hone 20).1 huses) (by decide)
  · exact absurd (hempty [0, 10]) (by decide +kernel)

/-- Each of two VLANs has an FDB id of its own, and dot1qVlanFdbId breaks off between them. -/
theorem vlan_justified_apart :
    let mib : Mib := ⟨[(dot1dBasePortIfindex ++ [1], "1"),
      (dot1qTpFdbPort ++ [1, 0, 17, 34, 51, 68, 85], "1"),
      (dot1qTpFdbStatus ++ [1, 0, 17, 34, 51, 68, 85], "3"), (dot1qVlanFdbId ++ [0, 10], "1"),
      (dot1qVlanFdbId ++ [0, 20], "2")], by decide⟩
    let rd : MacRead :=
      { version := .v2c, community := "public", opts := ⟨.auto, false, 120, 128, []⟩
        ifaces := ⟨Dict.ofList [("1", ("6", "ethernet"))], [], []⟩ }
    let sur : Surroundings :=
      { clock := fun _ ↦ 0
        reply := fun _ q ↦
          if q.cursors = [dot1qVlanFdbId ++ [0, 10]] then .response none 5 "genErr" 0 []
          else Agent.serve (fun _ ↦ mib) q
        pick := fun _ ↦ 0 }
    ∃ rows report log, rd.run sur 10 (rd.start 0) = some ((rows, report), log) ∧
      (∃ row ∈ rows, row.fdbId = some 1 ∧ row.vlan = some 10) ∧
        ∀ row ∈ rows, rd.VlanJustified (fun _ ↦ mib) log row := by
  intro mib rd sur
  have hanswers : sur.Answers (fun _ ↦ mib) :=
    fun log q ↦ (Agent.serve_conforms ..).orGenErr _
  have hrun : (rd.run sur 10 (rd.start 0)).map (fun out ↦ out.1.1) = some
      [⟨⟨[0, 17, 34, 51, 68, 85], rfl, by decide⟩, "1", some 10, some 1, 1, .learned⟩] := by
    decide +kernel
  -- what the walk of dot1qVlanFdbId read
  have hmarks : (rd.run sur 10 (rd.start 0)).map (fun out ↦ allWalks (fun o ↦
      o.columns ≠ vlanFdbColumns ||
        (column o.walked.rows "fdb").items.filterMap fdbUser = [(1, 10)]) out.2) = some true := by
    decide +kernel
  have hagent : ((mib).column dot1qVlanFdbId).filterMap fdbUser = [(1, 10), (2, 20)] := by
    decide +kernel
  obtain ⟨⟨⟨rows, report⟩, log⟩, hout, hrows⟩ := Option.map_eq_some_iff.1 hrun
  rw [hout, Option.map_some, Option.some.injEq, allWalks_iff] at hmarks
  refine ⟨rows, report, log, hout, ⟨_, hrows ▸ List.mem_singleton_self _, rfl, rfl⟩, ?_⟩
  refine vlan_justified hanswers hout ?_
  intro v hmark _ hcolumns _ _ _ _ _ _ _ fid _ vid vid' hne huses' huses
  have hread : (column v.walked.rows "fdb").items.filterMap fdbUser = [(1, 10)] := by
    have := hmarks _ hmark
    simpa [hcolumns] using this
  have hone : (fid, vid) ∈ [((1 : ℤ), (10 : ℤ))] := hread ▸ mem_fdbUsers.2 huses
  have hboth : (fid, vid') ∈ [((1 : ℤ), (10 : ℤ)), (2, 20)] := hagent ▸ Mib.usesFdb_iff.1 huses'
  obtain ⟨rfl, rfl⟩ := Prod.mk.inj (List.mem_singleton.1 hone)
  -- FDB id 1 has no user but VLAN 10
  rcases List.mem_cons.1 hboth with heq | hboth
  · exact absurd (Prod.mk.inj heq).2 hne
  · exact absurd (Prod.mk.inj (List.mem_singleton.1 hboth)).1 (by decide)

end Snmp
