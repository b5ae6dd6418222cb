import DanbyteOutpost.Snmp.LagUnread

/-!
# The rows of the interfaces

`fetch_interfaces` fills its rows column by column and joins them with three more tables. What comes
out can be said interface by interface (`joined`): each text is the one that the interface's own
column has for it, each address and each VLAN the interface's own. `fetchInterfaces_joined` says
that these are the rows, one for each interface of which anything was read, by ascending ifIndex,
whatever the walks yielded and however they ended.

## The proof

The loop over the columns fills a table of cells, so what is read at an interface and a column is
what the walk of that column had for it, the last time (`ifCell_readIfTable`). Addresses, VLANs
and aggregates are tables of their own, of which a row takes its own entry (`getD_readAddresses`,
`get?_parseVlans`, `get?_readLag`). `interfaceRow_eq` puts them together for one interface.
-/

namespace Snmp

open PyText

/-! ### One interface -/

/-- What an interface's own column has for it: the last text that was read, `""` where there is
none. -/
def textOf (binds : List (Oid × String)) (i : String) : String :=
  (((binds.filter fun b ↦ ifIndexText b.1 = i).getLast?).map Prod.snd).getD ""

/-- The addresses an interface has in ipAddrTable. -/
def addressesOf (binds : List (Oid × String)) (i : String) : List String :=
  (binds.filter fun b ↦ b.2 = i).map fun b ↦ tailText ipAdEntIfindex b.1

/-- The PVID of a bridge port that is the interface: of the last one, where there are several. -/
def pvidOf (basePortIfindex pvidByPort : Dict String String) (i : String) : Option String :=
  ((pvidByPort.items.filter fun e ↦
    basePortIfindex.get? e.1 = some i ∧ i ≠ "" ∧ e.2 ≠ "").getLast?).map Prod.snd

/-- The aggregate of a port: by the LAG MIB, else by the stack. -/
def aggregateOf (read : Oid → BulkWalk) (i : String) : Option String :=
  (attachedTo (walkColumn dot3adAggPortAttachedAggId (read dot3adAggPortAttachedAggId) none) i).or
    (firstOver (typesOf (read ifTypeColumn).read)
      (walkColumn ifStackStatus (read ifStackStatus) none) i)

open Classical in
/-- The row of an interface, from what was read. -/
noncomputable def joined (walks : Oid → BulkWalk) (i : String) : InterfaceRow :=
  let text := fun base ↦ textOf (walks base).read i
  let descr := text [1, 3, 6, 1, 2, 1, 2, 2, 1, 2]
  let name := text [1, 3, 6, 1, 2, 1, 31, 1, 1, 1, 1]
  let mac := text [1, 3, 6, 1, 2, 1, 2, 2, 1, 6]
  let addresses := addressesOf (walks ipAdEntIfindex).read i
  let vlan := pvidOf (readVlanColumn dot1dBasePortIfindex (walks dot1dBasePortIfindex))
    (readVlanColumn dot1qPvid (walks dot1qPvid)) i
  { ifIndex := i
    name := if name ≠ "" then name else if descr ≠ "" then descr else "if" ++ i
    descr := descr
    ifAlias := text [1, 3, 6, 1, 2, 1, 31, 1, 1, 1, 18]
    type := text ifTypeColumn
    typeName :=
      if ∃ j, aggregateOf walks j = some i then "lag"
      else (ianaIftype.get? (text ifTypeColumn)).getD ""
    lagIfIndex := (aggregateOf walks i).getD ""
    mtu := text [1, 3, 6, 1, 2, 1, 2, 2, 1, 4]
    mac := if mac ≠ "" then fmtMac mac else ""
    adminStatus := ifStatusName (text [1, 3, 6, 1, 2, 1, 2, 2, 1, 7])
    operStatus := ifStatusName (text [1, 3, 6, 1, 2, 1, 2, 2, 1, 8])
    speedMbps := text [1, 3, 6, 1, 2, 1, 31, 1, 1, 1, 15]
    inOctets := text [1, 3, 6, 1, 2, 1, 31, 1, 1, 1, 6]
    outOctets := text [1, 3, 6, 1, 2, 1, 31, 1, 1, 1, 10]
    ipAddresses := addresses
    layer := if addresses ≠ [] then "L3" else "L2"
    vlan := vlan.getD ""
    vlanName := (vlan.bind
      (readVlanColumn dot1qVlanStaticName (walks dot1qVlanStaticName)).get?).getD "" }

/-! ### The columns -/

variable {walks : Oid → BulkWalk} {i : String}

/-- The type of an interface is the last one read. -/
theorem get?_typesOf (binds : List (Oid × String)) (i : String) :
    (typesOf binds).get? i =
      ((binds.filter fun b ↦ ifIndexText b.1 = i).getLast?).map Prod.snd := by
  induction binds using List.reverseRecOn with
  | nil => rfl
  | append_singleton binds b ih =>
    have hset : typesOf (binds ++ [b]) = (typesOf binds).set (ifIndexText b.1) b.2 := by
      rw [typesOf, typesOf, List.map_append, Dict.ofList, Dict.ofList, List.foldl_append]
      rfl
    rw [hset, Dict.get?_set, ih, List.filter_append, List.filter_cons,
      List.filter_nil]
    by_cases hi : ifIndexText b.1 = i
    · rw [if_pos hi, if_pos (decide_eq_true hi), List.getLast?_concat]
      rfl
    · rw [if_neg hi, if_neg (by simpa using hi), List.append_nil]

theorem textOf_eq (binds : List (Oid × String)) (i : String) :
    textOf binds i = ((typesOf binds).get? i).getD "" := by
  rw [textOf, get?_typesOf]

/-- The cells of a column are what its own walk read. -/
theorem ifCell_readIfTable {key : String} {base : Oid} (h : (key, base) ∈ ifColumns) :
    ifCell (readIfTable walks) i key = (typesOf (walks base).read).get? i := by
  obtain ⟨before, after, hsplit⟩ := List.append_of_mem h
  have hkeys : (ifColumns.map Prod.fst).Nodup := by decide
  rw [hsplit, List.map_append, List.map_cons, List.nodup_append] at hkeys
  have hbefore : ∀ c ∈ before, c.1 ≠ key := fun c hc ↦
    hkeys.2.2 c.1 (List.mem_map_of_mem hc) key List.mem_cons_self
  have hafter : ∀ c ∈ after, c.1 ≠ key := fun c hc heq ↦
    (List.nodup_cons.1 hkeys.2.1).1 (List.mem_map.2 ⟨c, hc, heq⟩)
  rw [readIfTable, hsplit, List.foldl_append, List.foldl_cons, ifCell_columns hafter,
    BulkWalk.forEach_eq, typesOf, Dict.ofList, List.foldl_map]
  refine ifCell_column ?_
  rw [ifCell_columns hbefore]
  rfl

/-- The cells of an interface are the texts read of it. -/
theorem cell_eq {e : String × IfCells} (he : e ∈ (readIfTable walks).items) {key : String}
    {base : Oid} (h : (key, base) ∈ ifColumns) :
    (e.2.get? key).getD "" = textOf (walks base).read e.1 := by
  rw [textOf_eq, ← ifCell_readIfTable h, ifCell, Dict.get?_of_mem he, Option.bind_some]

/-! ### The other tables -/

/-- The addresses of an interface are the rows that name it, in their order. -/
theorem getD_readAddresses (walk : BulkWalk) (i : String) :
    ((readAddresses walk).get? i).getD [] = addressesOf walk.read i := by
  rw [readAddresses, BulkWalk.forEach_eq, addressesOf]
  induction walk.read using List.reverseRecOn with
  | nil => rfl
  | append_singleton binds b ih =>
    rw [List.foldl_append, List.foldl_cons, List.foldl_nil, addAddress, Dict.get?_set,
      List.filter_append, List.map_append, List.filter_cons, List.filter_nil, ← ih]
    by_cases hi : b.2 = i
    · rw [if_pos hi, if_pos (decide_eq_true hi), hi]
      rfl
    · rw [if_neg hi, if_neg (by simpa using hi), List.map_nil, List.append_nil]

/-- The VLAN of an interface is the one its port has, with its name if it has one. -/
theorem get?_parseVlans (base pvid names : Dict String String) (i : String) :
    (parseVlans base pvid names).get? i =
      (pvidOf base pvid i).map fun vid ↦ ⟨vid, (names.get? vid).getD ""⟩ := by
  rw [parseVlans, pvidOf]
  induction pvid.items using List.reverseRecOn with
  | nil => rfl
  | append_singleton es e ih =>
    rw [List.foldl_append, List.foldl_cons, List.foldl_nil, List.filter_append,
      List.filter_cons, List.filter_nil, vlanOfPort]
    rcases hbase : base.get? e.1 with - | ifIndex
    · rw [if_neg (by simp), List.append_nil]
      exact ih
    · dsimp only
      by_cases hblank : ifIndex = "" ∨ e.2 = ""
      · rw [if_pos hblank, if_neg, List.append_nil]
        · exact ih
        · rw [decide_eq_true_eq, Option.some.injEq]
          intro h
          obtain ⟨rfl, hne, hvid⟩ := h
          exact hblank.elim hne hvid
      · rw [not_or] at hblank
        rw [if_neg (not_or.2 hblank), Dict.get?_set]
        by_cases hi : ifIndex = i
        · subst hi
          rw [if_pos rfl, if_pos (decide_eq_true ⟨rfl, hblank⟩), List.getLast?_concat]
          rfl
        · rw [if_neg hi, if_neg, List.append_nil]
          · exact ih
          · rw [decide_eq_true_eq, Option.some.injEq]
            exact fun h ↦ hi h.1

theorem firstOver_congr {types types' ifStack : Dict String String}
    (h : ∀ j, (types.get? j).getD "" = (types'.get? j).getD "") :
    firstOver types ifStack i = firstOver types' ifStack i := by
  have hover : ∀ e, aggregateOver types i e = aggregateOver types' i e := fun e ↦
    if_congr ⟨.congr (h _), .congr (h _).symm⟩ rfl rfl
  rw [firstOver, firstOver, funext hover]

/-- The aggregate of an interface is the one it is attached to, or the first that is stacked over
it. -/
theorem get?_readLag (walks : Oid → BulkWalk) (i : String) :
    (readLag walks).get? i = aggregateOf walks i := by
  rw [readLag, get?_parseLagMembership, aggregateOf, firstOver_congr fun j ↦ ifTypes_readIfTable]

/-! ### The rows -/

/-- The row of an interface is the join of what was read of it. -/
theorem interfaceRow_eq {e : String × IfCells} (he : e ∈ (readIfTable walks).items) :
    interfaceRow (readAddresses (walks ipAdEntIfindex)) (readVlans walks) (readLag walks) e.1 e.2 =
      joined walks e.1 := by
  have hcell : ∀ {key base}, (key, base) ∈ ifColumns →
      (e.2.get? key).getD "" = textOf (walks base).read e.1 := cell_eq he
  have hlag : e.1 ∈ (readLag walks).items.map Prod.snd ↔ ∃ j, aggregateOf walks j = some e.1 := by
    simp only [← get?_readLag, ← Dict.mem_items_iff, List.mem_map]
    constructor
    · intro h
      obtain ⟨⟨j, agg⟩, hmem, rfl⟩ := h
      exact ⟨j, hmem⟩
    · intro h
      obtain ⟨j, hmem⟩ := h
      exact ⟨(j, e.1), hmem, rfl⟩
  have hvlans : (readVlans walks).get? e.1 =
      (pvidOf (readVlanColumn dot1dBasePortIfindex (walks dot1dBasePortIfindex))
        (readVlanColumn dot1qPvid (walks dot1qPvid)) e.1).map fun vid ↦
          ⟨vid, ((readVlanColumn dot1qVlanStaticName
            (walks dot1qVlanStaticName)).get? vid).getD ""⟩ :=
    get?_parseVlans _ _ _ _
  -- the columns, one by one
  have hdescr := hcell (show ("descr", [1, 3, 6, 1, 2, 1, 2, 2, 1, 2]) ∈ ifColumns by decide)
  have htype := hcell (show ("type", ifTypeColumn) ∈ ifColumns by decide)
  have hmtu := hcell (show ("mtu", [1, 3, 6, 1, 2, 1, 2, 2, 1, 4]) ∈ ifColumns by decide)
  have hmac := hcell (show ("mac", [1, 3, 6, 1, 2, 1, 2, 2, 1, 6]) ∈ ifColumns by decide)
  have hadmin := hcell (show ("admin_status", [1, 3, 6, 1, 2, 1, 2, 2, 1, 7]) ∈ ifColumns by decide)
  have hoper := hcell (show ("oper_status", [1, 3, 6, 1, 2, 1, 2, 2, 1, 8]) ∈ ifColumns by decide)
  have hname := hcell (show ("name", [1, 3, 6, 1, 2, 1, 31, 1, 1, 1, 1]) ∈ ifColumns by decide)
  have halias := hcell (show ("alias", [1, 3, 6, 1, 2, 1, 31, 1, 1, 1, 18]) ∈ ifColumns by decide)
  have hspeed := hcell
    (show ("speed_mbps", [1, 3, 6, 1, 2, 1, 31, 1, 1, 1, 15]) ∈ ifColumns by decide)
  have hin := hcell (show ("in_octets", [1, 3, 6, 1, 2, 1, 31, 1, 1, 1, 6]) ∈ ifColumns by decide)
  have hout := hcell
    (show ("out_octets", [1, 3, 6, 1, 2, 1, 31, 1, 1, 1, 10]) ∈ ifColumns by decide)
  rw [interfaceRow, joined]
  classical
  simp only [getD_readAddresses, get?_readLag, hvlans, hdescr, htype, hmtu, hmac, hadmin, hoper,
    hname, halias, hspeed, hin, hout, if_congr hlag rfl rfl]
  cases pvidOf (readVlanColumn dot1dBasePortIfindex (walks dot1dBasePortIfindex))
    (readVlanColumn dot1qPvid (walks dot1qPvid)) e.1 <;> rfl

/-- And the rows are those of the interfaces of which something was read. -/
theorem mem_fetchInterfaces_iff {row : InterfaceRow} : row ∈ fetchInterfaces walks ↔
    Listed walks row.ifIndex ∧ row = joined walks row.ifIndex := by
  constructor
  · intro hrow
    obtain ⟨e, he, rfl⟩ := mem_fetchInterfaces.1 hrow
    exact ⟨exists_row_iff.1 ⟨_, hrow, rfl⟩, interfaceRow_eq he⟩
  · intro h
    obtain ⟨hlisted, hjoined⟩ := h
    obtain ⟨e, hget⟩ := Dict.mem_keys_iff.1 (mem_keys_readIfTable.2 hlisted)
    have he : (row.ifIndex, e) ∈ (readIfTable walks).items := Dict.mem_items_iff.2 hget
    rw [hjoined]
    exact mem_fetchInterfaces.2 ⟨_, he, interfaceRow_eq he⟩

/-- **The interfaces.** Whatever the walks yield and however they end, `fetch_interfaces` has one
row for each interface of which anything was read, by ascending ifIndex, and every row is that
interface's own. -/
theorem fetchInterfaces_joined (walks : Oid → BulkWalk) :
    ((fetchInterfaces walks).map InterfaceRow.ifIndex).Nodup ∧
      (fetchInterfaces walks).Pairwise
        (fun row row' ↦ ifIndexKey row.ifIndex ≤ ifIndexKey row'.ifIndex) ∧
      ∀ row, row ∈ fetchInterfaces walks ↔
        Listed walks row.ifIndex ∧ row = joined walks row.ifIndex := by
  refine ⟨?_, ?_, fun row ↦ mem_fetchInterfaces_iff⟩
  · have hindexes : ((fetchInterfaces walks).map InterfaceRow.ifIndex).Perm
        (readIfTable walks).keys := by
      refine ((List.mergeSort_perm _ _).map _).trans ?_
      rw [List.map_map]
      exact List.Perm.refl _
    exact hindexes.nodup_iff.2 (readIfTable walks).nodup
  · refine (List.pairwise_mergeSort (fun row row' row'' h h' ↦ ?_) (fun row row' ↦ ?_) _).imp
      of_decide_eq_true
    · exact decide_eq_true ((of_decide_eq_true h).trans (of_decide_eq_true h'))
    · rw [Bool.or_eq_true, decide_eq_true_eq, decide_eq_true_eq]
      exact le_total _ _

end Snmp
