import DanbyteOutpost.Snmp.MacOrigin

/-!
# The form of the rows

Whatever the agent answers, a row of a MAC read is a host's: its filter (`Entry.drop`) is passed
before a row is relabelled, and no relabelling touches what the filter looked at. The last step of a
read leaves one row for each VLAN, address and interface.

The address of a row is a `Mac`, so its canonical text needs no proof here beyond `normMac_text`;
that it is no group address, not zero and not the device's own is what the filter asks of its
entry. The origin of a row (`MacRead.HasOrigin`) leads back to that entry, and what was changed on
the way, the interface and the VLAN, is not empty by the lemmas about texts of numbers.
-/

namespace Snmp

open Coop PyText

/-! ### Texts of numbers -/

theorem dotted_ne_empty {oid : Oid} (h : oid ≠ []) : dotted oid ≠ "" := by
  obtain ⟨part, rest, rfl⟩ := List.exists_cons_of_ne_nil h
  intro hempty
  have hlist := congrArg String.toList hempty
  cases rest with
  | nil => simp [dotted] at hlist
  | cons part' rest => simp [dotted] at hlist

/-- A bridge port is mapped to an interface that has an index. -/
theorem mapBridgePorts_ne_empty {ifaces : Ifaces} {ports : List ℤ} {base : Dict Oid String}
    {port : ℤ} {ifIndex : String} (h : (mapBridgePorts ifaces ports base).1 port = some ifIndex) :
    ifIndex ≠ "" := by
  obtain ⟨-, -, ⟨_, _, index, -, -, -, -, -, rfl⟩ | ⟨-, -, rfl⟩⟩ := mapBridgePorts_eq_some.1 h
  · exact toString_int_ne_empty index
  · exact toString_int_ne_empty port

/-- So is a unit folded onto one. -/
theorem unitPorts_ne_empty {ifaces : Ifaces} {ifStack : Dict Oid String} {unit port : String}
    (h : (unitPorts ifaces ifStack).get? unit = some port) : port ≠ "" := by
  obtain ⟨-, hone⟩ := get?_unitPorts.1 h
  obtain ⟨⟨index, text, -, hstacked⟩, -⟩ := (hone port).2 rfl
  cases index with
  | nil => cases hstacked
  | cons higher lower =>
    simp only [stacked] at hstacked
    split at hstacked
    case isTrue hactive =>
      obtain ⟨-, rfl⟩ := Prod.mk.inj (Option.some.inj hstacked)
      exact dotted_ne_empty hactive.2.2.1
    case isFalse => cases hstacked

/-! ### The rows -/

/-- The form of a row, with the device's own addresses in `own`. -/
structure Row.WellFormed (own : List String) (row : Row) : Prop where
  /-- The address is written as the code writes it. -/
  canonical : normMac row.mac.text = row.mac.text
  /-- In lower case, with colons. -/
  lowerCase : ∀ c ∈ row.mac.text.toList, c = ':' ∨ ∃ n < 16, c = Nat.digitChar n
  /-- The group bit is not set. -/
  unicast : row.mac.octets.headD 0 % 2 = 0
  /-- It is not all zeros. -/
  nonzero : row.mac.octets ≠ List.replicate 6 0
  /-- No interface of the device has it. -/
  foreign : row.mac.text ∉ own
  /-- It has a port. -/
  bridgePort : row.bridgePort ≠ 0
  /-- And an interface. -/
  ifIndex : row.ifIndex ≠ ""
  /-- Its status speaks for a host that was learned. -/
  status : row.status ∈ [FdbStatus.learned, .other, .mgmt, .blank]

/-- What a row is known by in `_finish`. -/
def Row.key (row : Row) : Option ℤ × Mac × String := (row.vlan, row.mac, row.ifIndex)

/-- A row is added unless there is one under its key. -/
theorem uniqueRows_append_singleton (rows : List Row) (row : Row) :
    uniqueRows (rows ++ [row]) = if row.key ∈ (uniqueRows rows).map Row.key then uniqueRows rows
      else uniqueRows rows ++ [row] := by
  rw [uniqueRows, List.foldl_append]
  show (if (uniqueRows rows).any _ = true then _ else _) = _
  refine if_congr ?_ rfl rfl
  simp only [List.any_eq_true, List.mem_map, Row.key, Prod.mk.injEq, Bool.and_eq_true,
    decide_eq_true_eq, and_assoc]

theorem nodup_keys_uniqueRows (rows : List Row) : ((uniqueRows rows).map Row.key).Nodup := by
  induction rows using List.reverseRecOn with
  | nil => exact List.nodup_nil
  | append_singleton rows row ih =>
    rw [uniqueRows_append_singleton]
    split
    case isTrue => exact ih
    case isFalse hnew =>
      rw [List.map_append, List.map_singleton, List.nodup_append]
      refine ⟨ih, List.nodup_singleton _, fun key hkey key' hkey' heq ↦ hnew ?_⟩
      rw [List.mem_singleton] at hkey'
      exact hkey' ▸ heq ▸ hkey

theorem mem_keys_uniqueRows {rows : List Row} {key : Option ℤ × Mac × String} :
    key ∈ (uniqueRows rows).map Row.key ↔ key ∈ rows.map Row.key := by
  induction rows using List.reverseRecOn with
  | nil => rfl
  | append_singleton rows row ih =>
    rw [uniqueRows_append_singleton, List.map_append, List.map_singleton, List.mem_append,
      List.mem_singleton]
    split
    case isTrue hold =>
      refine ih.trans ⟨.inl, fun h ↦ h.elim id fun heq ↦ ?_⟩
      exact heq ▸ ih.1 (heq ▸ hold)
    case isFalse =>
      rw [List.map_append, List.map_singleton, List.mem_append, List.mem_singleton, ih]

variable {rd : MacRead} {log : Log (net Outcome)}

/-- A row that walks were made into is well formed. -/
theorem MacRead.HasOrigin.wellFormed {row : Row} (h : rd.HasOrigin log row) :
    row.WellFormed rd.ifaces.own := by
  obtain ⟨access, qbridge, b, f, vlan, learned, h⟩ := h
  obtain ⟨entry, -, hdrop, port, ifIndex, hport, hmapped, rfl⟩ := MacRead.mem_learnedFrom.1 h.mem
  obtain ⟨⟨hself, hinvalid⟩, hreason, hport0⟩ := Entry.drop_eq_none.1 hdrop
  obtain ⟨hunicast, hnonzero, hforeign⟩ := entry.mac.dropReason_eq_none.1 hreason
  have hmac : row.mac = entry.mac := by rw [h.same]
  have hbridge : row.bridgePort = port := by rw [h.same]
  have hstatus : row.status = entry.status := by rw [h.same]
  refine ⟨row.mac.normMac_text, fun c ↦ row.mac.mem_text, hmac ▸ hunicast, hmac ▸ hnonzero,
    hmac ▸ hforeign, ?_, ?_, ?_⟩
  · rw [hport, Option.getD_some] at hport0
    exact hbridge ▸ hport0
  · rcases h.ifIndex with heq | ⟨stack, ⟨k, -, -, -, rfl⟩, hget⟩
    · exact heq ▸ mapBridgePorts_ne_empty hmapped
    · exact unitPorts_ne_empty hget
  · rw [hstatus]
    cases hcases : entry.status with
    | self => exact absurd hcases hself
    | invalid => exact absurd hcases hinvalid
    | _ => simp

/-- Whatever a read meets, its rows are well formed, no two of them are the same one, and it counts
them.

The filter of `learned_rows` is applied to every row, in the default context and in those of VLANs,
and folding a unit onto a port and giving a VLAN to a row change no field that is filtered on. -/
theorem rows_wellFormed (sur : Surroundings) (fuel : ℕ) (now : ℚ) {rows : List Row}
    {report : MacMeta} (hrun : rd.run sur fuel (rd.start now) = some ((rows, report), log)) :
    (∀ row ∈ rows, row.WellFormed rd.ifaces.own) ∧ (rows.map Row.key).Nodup ∧
      report.rows = rows.length := by
  -- nothing is asked of the replies
  have hanswers : False → sur.Answers fun _ ↦ ⟨[], .nil⟩ := False.elim
  obtain ⟨s, rows', started, now', hfinish, -, hfrom⟩ := run_inv hanswers hrun
  obtain ⟨rfl, rfl⟩ := Prod.mk.inj hfinish
  exact ⟨fun row hrow ↦ (hfrom row (mem_of_mem_uniqueRows hrow)).wellFormed,
    nodup_keys_uniqueRows rows', rfl⟩

/-- An agent with one entry, under a bridge port that is a unit of another port. -/
theorem rows_wellFormed_folded :
    let mib : Mib := ⟨[(dot1dBasePortIfindex ++ [1], "10"),
      (dot1dTpFdbPort ++ [0, 17, 34, 51, 68, 85], "1"),
      (dot1dTpFdbStatus ++ [0, 17, 34, 51, 68, 85], "3"), (ifStackStatus ++ [10, 5], "1")],
      by decide⟩
    let rd : MacRead :=
      { version := .v2c, community := "public", opts := ⟨.off, false, 120, 128, []⟩
        ifaces := ⟨Dict.ofList [("5", ("6", "ethernet")), ("10", ("53", "virtual"))],
          ["00:11:22:33:44:66"], []⟩ }
    let sur : Surroundings :=
      { clock := fun _ ↦ 0, reply := fun _ q ↦ Agent.serve (fun _ ↦ mib) q, pick := fun _ ↦ 0 }
    ∃ rows report log, rd.run sur 10 (rd.start 0) = some ((rows, report), log) ∧
      rows.map Row.key = [(none, ⟨[0, 17, 34, 51, 68, 85], rfl, by decide⟩, "5")] ∧
        (∀ row ∈ rows, row.WellFormed rd.ifaces.own) ∧ (rows.map Row.key).Nodup ∧
          report.rows = rows.length := by
  intro mib rd sur
  have hrun : (rd.run sur 10 (rd.start 0)).map (fun out ↦ out.1.1.map Row.key) =
      some [(none, ⟨[0, 17, 34, 51, 68, 85], rfl, by decide⟩, "5")] := by
    decide +kernel
  obtain ⟨⟨⟨rows, report⟩, log⟩, hout, hrows⟩ := Option.map_eq_some_iff.1 hrun
  exact ⟨rows, report, log, hout, hrows, rows_wellFormed sur 10 0 hout⟩

end Snmp
