import DanbyteOutpost.Snmp.Interfaces
import DanbyteOutpost.Snmp.OidText

/-!
# Members that go unread

A row of `fetch_interfaces` always has a `lag_if_index`, and it is blank where no row that was read
makes the interface a member, whether or not the walks of the two membership tables came to their
ends. So where one of them fails, some interface is said to be no member on the word of a table that
was not read to its end, unless every interface listed is made a member by a row that was read
(`fetchInterfaces_blank_iff`).

## Both directions

A walk that comes to its end has read all that the agent has (`Mib.Walks`), and one that fails a
part of it. Where both membership tables were read to their ends, a blank can still be wrong of a
stack row over an aggregate whose ifType was not read (`exists_stacked_of_blank`). Where one was
not, a blank is one too many, whether it is right or not. `fetchInterfaces_blank_iff` has the two
as one equivalence.


* `lagIfIndex_eq_blank_iff`: the cell is blank where no row that was read makes the interface a
  member.
* `blank_on_timeout`: a run in which a member is called none.
-/

namespace Snmp

open PyText

/-! ### What is read of an agent -/

/-- The objects of a column, under their OIDs. -/
def Mib.bindings (m : Mib) (base : Oid) : List (Oid × String) :=
  m.entries.filter fun e ↦ (indexIn base e.1).isSome

/-- A walk of the agent's column: it yields what is there in order, and all of it if it does not
fail. -/
structure Mib.Walks (m : Mib) (base : Oid) (walk : BulkWalk) : Prop where
  /-- It is cut off at some point, and nothing is left out before that. -/
  part : walk.read <+: m.bindings base
  /-- Without a failure there is no such point. -/
  whole : ¬ walk.Failed → walk.read = m.bindings base

/-- The types of interfaces, from objects of ifType. -/
def typesOf (binds : List (Oid × String)) : Dict String String :=
  Dict.ofList (binds.map fun b ↦ (ifIndexText b.1, b.2))

/-- An object of dot3adAggPortAttachedAggID that makes the interface `i` a member. -/
def Attaches (b : Oid × String) (i : String) : Prop :=
  tailText dot3adAggPortAttachedAggId b.1 = i ∧ attachesTo b.2 i

/-- An object of ifStackStatus that puts the interface `i` under the aggregate `h`. -/
def Stacks (types : Dict String String) (b : Oid × String) (h i : String) : Prop :=
  StacksOver types (tailText ifStackStatus b.1, b.2) h i

/-- The agent's tables make the interface a member of an aggregate. -/
def Mib.InAggregate (m : Mib) (i : String) : Prop :=
  (∃ b ∈ m.bindings dot3adAggPortAttachedAggId, Attaches b i) ∨
    ∃ b ∈ m.bindings ifStackStatus, ∃ h ≠ i, Stacks (typesOf (m.bindings ifTypeColumn)) b h i

/-- What was read makes the interface a member. -/
def MadeMember (walks : Oid → BulkWalk) (i : String) : Prop :=
  (∃ b ∈ (walks dot3adAggPortAttachedAggId).read, Attaches b i) ∨
    ∃ b ∈ (walks ifStackStatus).read, ∃ h, Stacks (typesOf (walks ifTypeColumn).read) b h i

/-- An object of the interface was read. -/
def Listed (walks : Oid → BulkWalk) (i : String) : Prop :=
  ∃ c ∈ ifColumns, ∃ b ∈ (walks c.2).read, ifIndexText b.1 = i

/-- The walk of a membership table failed. -/
def MembershipFailed (walks : Oid → BulkWalk) : Prop :=
  (walks dot3adAggPortAttachedAggId).Failed ∨ (walks ifStackStatus).Failed

/-! ### What the loops make of it -/

variable {walks : Oid → BulkWalk} {i : String}

/-- A loop over a walk is a loop over what was read, up to the failure. -/
theorem BulkWalk.forEach_eq {α : Type} (walk : BulkWalk) (body : α → Oid × String → α) (init : α) :
    walk.forEach body init = walk.read.foldl body init := by
  rw [forEach, read, List.foldl_flatMap]

theorem walkColumn_eq (base : Oid) (walk : BulkWalk) :
    walkColumn base walk none = walk.read.foldl (setTail base) Dict.empty := by
  have hfrom : ∀ ys result, walkColumnFrom base none ys result =
      ((ys.takeWhile fun y ↦ !y.failed).flatMap BulkYield.binds).foldl (setTail base) result := by
    intro ys
    induction ys with
    | nil => exact fun _ ↦ rfl
    | cons y ys ih =>
      intro result
      rw [walkColumnFrom, List.takeWhile_cons]
      cases y.failed with
      | true => rfl
      | false =>
        rw [Bool.not_false, if_pos rfl, List.flatMap_cons, List.foldl_append]
        exact ih _
  exact hfrom _ _

/-- The rest of an OID behind its column, as text. -/
theorem tailText_eq {base oid index : Oid} (hbase : base ≠ []) (h : indexIn base oid = some index) :
    tailText base oid = dotted index := by
  have hlength : (dotted base ++ ".").length = (dotted base).length + 1 := String.length_append ..
  rw [tailText, ← hlength, drop_dotted hbase h, String.ofList_toList]

/-- An object of a column has something behind it. -/
theorem Mib.tail_ne {m : Mib} {base : Oid} (hbase : base ≠ []) {b : Oid × String}
    (hb : b ∈ m.bindings base) : tailText base b.1 ≠ "" := by
  obtain ⟨index, hindex⟩ := Option.isSome_iff_exists.1 (List.mem_filter.1 hb).2
  rw [tailText_eq hbase hindex]
  have hnil : dotted [] = "" := rfl
  exact fun h ↦ (indexIn_eq_some.1 hindex).2 (dotted_injective (h.trans hnil.symm))

theorem Mib.nodup_tails (m : Mib) {base : Oid} (hbase : base ≠ []) :
    ((m.bindings base).map fun b ↦ tailText base b.1).Nodup := by
  have hnames : ((m.bindings base).map Prod.fst).Nodup :=
    m.nodup.sublist (List.filter_sublist.map Prod.fst)
  refine (List.pairwise_map.2 ((List.pairwise_map.1 hnames).imp_of_mem fun {b b'} hb hb' hne ↦ ?_))
  obtain ⟨index, hindex⟩ := Option.isSome_iff_exists.1 (List.mem_filter.1 hb).2
  obtain ⟨index', hindex'⟩ := Option.isSome_iff_exists.1 (List.mem_filter.1 hb').2
  rw [tailText_eq hbase hindex, tailText_eq hbase hindex']
  intro heq
  have hsame : index = index' := dotted_injective heq
  exact hne ((indexIn_eq_some.1 hindex).1.trans (hsame ▸ (indexIn_eq_some.1 hindex').1.symm))

/-- A walk of a column gives the texts of what was read. -/
theorem mem_walkColumn {m : Mib} {base : Oid} {walk : BulkWalk} (hbase : base ≠ [])
    (h : m.Walks base walk) {e : String × String} :
    e ∈ (walkColumn base walk none).items ↔ ∃ b ∈ walk.read, (tailText base b.1, b.2) = e := by
  have hset : ∀ d : Dict String String, ∀ b ∈ walk.read,
      setTail base d b = d.set (tailText base b.1) b.2 :=
    fun d b hb ↦ if_neg (Mib.tail_ne hbase (h.part.subset hb))
  have hlist : walkColumn base walk none =
      Dict.ofList (walk.read.map fun b ↦ (tailText base b.1, b.2)) := by
    rw [walkColumn_eq, Dict.ofList, List.foldl_map]
    exact List.foldl_ext _ _ _ hset
  have hnodup : ((walk.read.map fun b ↦ (tailText base b.1, b.2)).map Prod.fst).Nodup := by
    rw [List.map_map]
    exact (m.nodup_tails hbase).sublist (h.part.sublist.map _)
  rw [hlist, Dict.mem_items_iff (k := e.1) (v := e.2), Dict.get?_ofList_iff hnodup, List.mem_map]

/-- A cell of the table. -/
def ifCell (rows : Dict String IfCells) (i key : String) : Option String :=
  (rows.get? i).bind fun r ↦ r.get? key

/-- An object sets one cell of one interface. -/
theorem ifCell_setIfCell (rows : Dict String IfCells) (key : String) (b : Oid × String)
    (key' : String) : ifCell (setIfCell key rows b) i key' =
      if ifIndexText b.1 = i ∧ key = key' then some b.2 else ifCell rows i key' := by
  rw [ifCell, setIfCell, Dict.get?_set]
  by_cases hi : ifIndexText b.1 = i
  · rw [if_pos hi, Option.bind_some, Dict.get?_set, ← hi, ifCell]
    by_cases hkey : key = key'
    · rw [if_pos hkey, if_pos ⟨rfl, hkey⟩]
    · rw [if_neg hkey, if_neg fun h ↦ hkey h.2]
      cases rows.get? (ifIndexText b.1) <;> rfl
  · rw [if_neg hi, if_neg fun h ↦ hi h.1, ifCell]

/-- The walk of another column leaves a cell as it is. -/
theorem ifCell_columns {key : String} {cs : List (String × Oid)} (h : ∀ c ∈ cs, c.1 ≠ key)
    (rows : Dict String IfCells) :
    ifCell (cs.foldl (fun rows c ↦ (walks c.2).forEach (setIfCell c.1) rows) rows) i key =
      ifCell rows i key := by
  refine List.foldlRecOn (motive := fun d ↦ ifCell d i key = ifCell rows i key) _ _ rfl
    fun d hd c hc ↦ ?_
  rw [BulkWalk.forEach_eq]
  refine List.foldlRecOn (motive := fun d ↦ ifCell d i key = ifCell rows i key) _ _ hd
    fun d hd b _ ↦ ?_
  rw [ifCell_setIfCell, if_neg fun hno ↦ h c hc hno.2, hd]

/-- The walk of a column gives each interface its last object. -/
theorem ifCell_column {key : String} {binds : List (Oid × String)} {rows : Dict String IfCells}
    {d : Dict String String} (h : ifCell rows i key = d.get? i) :
    ifCell (binds.foldl (setIfCell key) rows) i key =
      (binds.foldl (fun d b ↦ d.set (ifIndexText b.1) b.2) d).get? i := by
  induction binds generalizing rows d with
  | nil => exact h
  | cons b binds ih =>
    refine ih ?_
    rw [ifCell_setIfCell, Dict.get?_set, h]
    simp only [and_true]

/-- The types that the stack rows are judged by are those read in the interface table. -/
theorem ifTypes_readIfTable : ((ifTypes (readIfTable walks)).get? i).getD "" =
    ((typesOf (walks ifTypeColumn).read).get? i).getD "" := by
  have hcell : ifCell (readIfTable walks) i "type" =
      (typesOf (walks ifTypeColumn).read).get? i := by
    have hsplit : ifColumns =
        ifColumns.take 1 ++ ("type", ifTypeColumn) :: ifColumns.drop 2 := rfl
    rw [readIfTable, hsplit, List.foldl_append, List.foldl_cons, ifCell_columns (by decide),
      BulkWalk.forEach_eq, typesOf, Dict.ofList, List.foldl_map]
    refine ifCell_column ?_
    rw [ifCell_columns (by decide)]
    rfl
  rw [← hcell, ifTypes, Dict.get?_mapValues, ifCell]
  cases (readIfTable walks).get? i <;> rfl

/-- An interface is in the table if anything of it was read. -/
theorem mem_keys_readIfTable : i ∈ (readIfTable walks).keys ↔ Listed walks i := by
  have hbind : ∀ (key : String) (d : Dict String IfCells) (b : Oid × String) (k : String),
      k ∈ (setIfCell key d b).keys ↔ ifIndexText b.1 = k ∨ k ∈ d.keys := by
    intro key d b k
    rw [setIfCell, Dict.mem_keys_set, eq_comm]
  have hcolumn : ∀ (d : Dict String IfCells) (c : String × Oid) (k : String),
      k ∈ ((walks c.2).forEach (setIfCell c.1) d).keys ↔
        (∃ b ∈ (walks c.2).read, ifIndexText b.1 = k) ∨ k ∈ d.keys := by
    intro d c k
    rw [BulkWalk.forEach_eq, Dict.mem_keys_foldl (hbind c.1)]
  rw [readIfTable, Dict.mem_keys_foldl hcolumn]
  exact ⟨fun h ↦ h.resolve_right List.not_mem_nil, .inl⟩

/-- Of the types, only that of the higher layer matters. -/
theorem StacksOver.congr {types types' : Dict String String} {e : String × String} {h : String}
    (htypes : (types.get? h).getD "" = (types'.get? h).getD "") (hover : StacksOver types e h i) :
    StacksOver types' e h i :=
  { hover with lag := htypes.symm.trans hover.lag }

variable {m : Mib}

/-- An interface has an aggregate exactly if a row that was read makes it a member. -/
theorem mem_keys_readLag (hwalks : ∀ base, m.Walks base (walks base)) :
    i ∈ (readLag walks).keys ↔ MadeMember walks i := by
  have hover : ∀ {e : String × String} {h : String},
      StacksOver (ifTypes (readIfTable walks)) e h i ↔
        StacksOver (typesOf (walks ifTypeColumn).read) e h i :=
    ⟨.congr ifTypes_readIfTable, .congr ifTypes_readIfTable.symm⟩
  rw [readLag, mem_keys_parseLagMembership, MadeMember]
  refine or_congr ⟨?_, ?_⟩ ⟨?_, ?_⟩
  · rintro ⟨e, he, hattach⟩
    obtain ⟨b, hb, rfl⟩ := (mem_walkColumn (List.cons_ne_nil _ _) (hwalks _)).1 he
    exact ⟨b, hb, hattach⟩
  · rintro ⟨b, hb, hattach⟩
    exact ⟨_, (mem_walkColumn (List.cons_ne_nil _ _) (hwalks _)).2 ⟨b, hb, rfl⟩, hattach⟩
  · rintro ⟨e, he, h, hstack⟩
    obtain ⟨b, hb, rfl⟩ := (mem_walkColumn (List.cons_ne_nil _ _) (hwalks _)).1 he
    exact ⟨b, hb, h, hover.1 hstack⟩
  · rintro ⟨b, hb, h, hstack⟩
    exact ⟨_, (mem_walkColumn (List.cons_ne_nil _ _) (hwalks _)).2 ⟨b, hb, rfl⟩, h, hover.2 hstack⟩

/-- There is a row for each interface of the table. -/
theorem mem_fetchInterfaces {row : InterfaceRow} : row ∈ fetchInterfaces walks ↔
    ∃ e ∈ (readIfTable walks).items,
      interfaceRow (readAddresses (walks ipAdEntIfindex)) (readVlans walks)
        (readLag walks) e.1 e.2 =
        row := by
  rw [fetchInterfaces, List.mem_mergeSort, List.mem_map]

/-- That is, for each of which anything was read. -/
theorem exists_row_iff : (∃ row ∈ fetchInterfaces walks, row.ifIndex = i) ↔ Listed walks i := by
  rw [← mem_keys_readIfTable, Dict.keys, List.mem_map]
  constructor
  · rintro ⟨row, hrow, rfl⟩
    obtain ⟨e, he, rfl⟩ := mem_fetchInterfaces.1 hrow
    exact ⟨e, he, rfl⟩
  · rintro ⟨e, he, rfl⟩
    exact ⟨_, mem_fetchInterfaces.2 ⟨e, he, rfl⟩, rfl⟩

/-- A row says "not a member" when nothing that was read makes its interface one. -/
theorem lagIfIndex_eq_blank_iff (hwalks : ∀ base, m.Walks base (walks base)) {row : InterfaceRow}
    (hrow : row ∈ fetchInterfaces walks) :
    row.lagIfIndex = "" ↔ ¬ MadeMember walks row.ifIndex := by
  obtain ⟨e, -, rfl⟩ := mem_fetchInterfaces.1 hrow
  rw [← mem_keys_readLag hwalks]
  exact getD_parseLagMembership_eq_blank_iff

/-! ### When blank is right -/

/-- A row that is blank though its walks came to their ends: what makes its interface a member is a
stack row over an aggregate whose ifType was not read. -/
theorem exists_stacked_of_blank (hwalks : ∀ base, m.Walks base (walks base))
    (hdone : ¬ MembershipFailed walks) (hno : ¬ MadeMember walks i) (hin : m.InAggregate i) :
    ∃ b ∈ m.bindings ifStackStatus, ∃ h ≠ i, Stacks (typesOf (m.bindings ifTypeColumn)) b h i ∧
      ¬ Stacks (typesOf (walks ifTypeColumn).read) b h i := by
  obtain ⟨hattached, hstacked⟩ := not_or.1 hdone
  rcases hin with ⟨b, hb, hattach⟩ | ⟨b, hb, h, hne, hstack⟩
  · rw [← (hwalks _).whole hattached] at hb
    exact absurd (.inl ⟨b, hb, hattach⟩) hno
  · refine ⟨b, hb, h, hne, hstack, fun hseen ↦ hno ?_⟩
    rw [← (hwalks _).whole hstacked] at hb
    exact .inr ⟨b, hb, h, hseen⟩

/-- A blank `lag_if_index` is an interface's that is in no aggregate, and there is none where the
walk of a membership table failed, exactly when two things hold of every interface listed. Where a
walk failed, a row that was read makes it a member; and so it is where it lies, in the agent's
tables, under an aggregate whose ifType was not read.

`_walk_column` gives back what it has read and not how it ended, and `fetch_interfaces` writes the
blank for every interface without an aggregate. Both sentences are covered by one condition because
both fail in this one place. -/
theorem fetchInterfaces_blank_iff (hwalks : ∀ base, m.Walks base (walks base)) :
    ((∀ row ∈ fetchInterfaces walks, row.lagIfIndex = "" → ¬ m.InAggregate row.ifIndex) ∧
        (MembershipFailed walks → ∀ row ∈ fetchInterfaces walks, row.lagIfIndex ≠ "")) ↔
      ∀ i, Listed walks i →
        (MembershipFailed walks → MadeMember walks i) ∧
        ∀ b ∈ m.bindings ifStackStatus, ∀ h ≠ i,
          Stacks (typesOf (m.bindings ifTypeColumn)) b h i →
          ¬ Stacks (typesOf (walks ifTypeColumn).read) b h i → MadeMember walks i := by
  constructor
  · rintro ⟨hright, hnone⟩ i hlisted
    obtain ⟨row, hrow, rfl⟩ := exists_row_iff.2 hlisted
    refine ⟨fun hfailed ↦ ?_, fun b hb h hne hstack _ ↦ ?_⟩
    · by_contra hno
      exact hnone hfailed row hrow ((lagIfIndex_eq_blank_iff hwalks hrow).2 hno)
    · by_contra hno
      exact hright row hrow ((lagIfIndex_eq_blank_iff hwalks hrow).2 hno)
        (.inr ⟨b, hb, h, hne, hstack⟩)
  · intro hcover
    refine ⟨fun row hrow hblank hin ↦ ?_, fun hfailed row hrow hblank ↦ ?_⟩
    · have hno := (lagIfIndex_eq_blank_iff hwalks hrow).1 hblank
      obtain ⟨hmade, hstacked⟩ := hcover row.ifIndex (exists_row_iff.1 ⟨row, hrow, rfl⟩)
      by_cases hfailed : MembershipFailed walks
      · exact hno (hmade hfailed)
      · obtain ⟨b, hb, h, hne, hstack, hunseen⟩ :=
          exists_stacked_of_blank hwalks hfailed hno hin
        exact hno (hstacked b hb h hne hstack hunseen)
    · exact (lagIfIndex_eq_blank_iff hwalks hrow).1 hblank
        ((hcover row.ifIndex (exists_row_iff.1 ⟨row, hrow, rfl⟩)).1 hfailed)

/-- A walk that reads a column to its end, or some objects of it and then times out. -/
def Mib.walkUpTo (m : Mib) (base : Oid) : Option ℕ → BulkWalk
  | none => ⟨[⟨none, 0, m.bindings base⟩], none⟩
  | some count =>
    ⟨[⟨none, 0, (m.bindings base).take count⟩,
      ⟨some ⟨"RequestTimedOut", "No SNMP response received before timeout"⟩, 0, []⟩], none⟩

/-- A walk that reads some objects only has failed. -/
theorem Mib.failed_walkUpTo (m : Mib) (base : Oid) (count : Option ℕ) :
    (m.walkUpTo base count).Failed ↔ count ≠ none := by
  cases count with
  | none =>
    refine iff_of_false ?_ fun h ↦ h rfl
    rintro (hraised | ⟨y, hy, hfailed⟩)
    · exact hraised rfl
    · obtain rfl := List.mem_singleton.1 hy
      exact Bool.false_ne_true hfailed
  | some count =>
    exact iff_of_true (.inr ⟨_, List.mem_cons_of_mem _ List.mem_cons_self, rfl⟩) nofun

/-- Either way it is a walk of the agent's column. -/
theorem Mib.walks_walkUpTo (m : Mib) (base : Oid) (count : Option ℕ) :
    m.Walks base (m.walkUpTo base count) := by
  cases count with
  | none =>
    have hread : (m.walkUpTo base none).read = m.bindings base := List.append_nil _
    exact ⟨hread ▸ List.prefix_rfl, fun _ ↦ hread⟩
  | some count =>
    have hread : (m.walkUpTo base (some count)).read = (m.bindings base).take count :=
      List.append_nil _
    exact ⟨hread ▸ List.take_prefix _ _,
      fun h ↦ absurd ((m.failed_walkUpTo base (some count)).2 nofun) h⟩

/-- An agent stops answering behind two ports that it attaches to the aggregate 5. -/
theorem blank_right_attached :
    let m : Mib := ⟨[([1, 2, 840, 10006, 300, 43, 1, 2, 1, 1, 13, 2], "5"),
      ([1, 2, 840, 10006, 300, 43, 1, 2, 1, 1, 13, 3], "5"),
      ([1, 3, 6, 1, 2, 1, 2, 2, 1, 3, 2], "6"), ([1, 3, 6, 1, 2, 1, 2, 2, 1, 3, 3], "6"),
      ([1, 3, 6, 1, 2, 1, 2, 2, 1, 3, 5], "161"),
      ([1, 3, 6, 1, 2, 1, 31, 1, 2, 1, 3, 5, 2], "1"),
      ([1, 3, 6, 1, 2, 1, 31, 1, 2, 1, 3, 5, 3], "1")], by decide⟩
    let walks : Oid → BulkWalk := fun base ↦
      m.walkUpTo base (some (if base = ifStackStatus then 0 else 2))
    MembershipFailed walks ∧ (∃ row ∈ fetchInterfaces walks, row.ifIndex = "2") ∧
      (∀ row ∈ fetchInterfaces walks, row.lagIfIndex = "" → ¬ m.InAggregate row.ifIndex) ∧
        ∀ row ∈ fetchInterfaces walks, row.lagIfIndex ≠ "" := by
  intro m walks
  have hfailed : MembershipFailed walks := .inr ((m.failed_walkUpTo _ _).2 nofun)
  have hkeys : (readIfTable walks).keys = ["2", "3"] := by decide +kernel
  have hlisted : ∀ {i}, Listed walks i ↔ i = "2" ∨ i = "3" := by
    intro i
    rw [← mem_keys_readIfTable, hkeys, List.mem_pair]
  have hmade : ∀ i, Listed walks i → MadeMember walks i := by
    intro i hi
    rcases hlisted.1 hi with rfl | rfl
    · refine .inl ⟨([1, 2, 840, 10006, 300, 43, 1, 2, 1, 1, 13, 2], "5"), ?_, ?_, ?_⟩ <;>
        decide +kernel
    · refine .inl ⟨([1, 2, 840, 10006, 300, 43, 1, 2, 1, 1, 13, 3], "5"), ?_, ?_, ?_⟩ <;>
        decide +kernel
  obtain ⟨hright, hnone⟩ := (fetchInterfaces_blank_iff fun base ↦ m.walks_walkUpTo base _).2
    fun i hi ↦ ⟨fun _ ↦ hmade i hi, fun _ _ _ _ _ _ ↦ hmade i hi⟩
  exact ⟨hfailed, exists_row_iff.2 (hlisted.2 (.inl rfl)), hright, hnone hfailed⟩

/-- Port 2 is stacked under the aggregate 5, and the walk of ifStackTable times out. -/
theorem blank_on_timeout :
    let m : Mib := ⟨[([1, 3, 6, 1, 2, 1, 2, 2, 1, 3, 2], "6"),
      ([1, 3, 6, 1, 2, 1, 2, 2, 1, 3, 5], "161"),
      ([1, 3, 6, 1, 2, 1, 31, 1, 2, 1, 3, 5, 2], "1")], by decide⟩
    let walks : Oid → BulkWalk := fun base ↦
      m.walkUpTo base (if base = ifStackStatus then some 0 else none)
    (∀ base, m.Walks base (walks base)) ∧ (∀ base ≠ ifStackStatus, ¬ (walks base).Failed) ∧
      (walks ifStackStatus).Failed ∧
      ∃ row ∈ fetchInterfaces walks, row.ifIndex = "2" ∧ row.lagIfIndex = "" ∧
        m.InAggregate row.ifIndex := by
  intro m walks
  have hwalks : ∀ base, m.Walks base (walks base) := fun base ↦ m.walks_walkUpTo base _
  have hlisted : Listed walks "2" := by
    refine ⟨("type", ifTypeColumn), by decide, ([1, 3, 6, 1, 2, 1, 2, 2, 1, 3, 2], "6"), ?_, ?_⟩ <;>
      decide +kernel
  have hunread : ¬ MadeMember walks "2" := by
    have hagg : (walks dot3adAggPortAttachedAggId).read = [] := by decide +kernel
    have hstack : (walks ifStackStatus).read = [] := by decide +kernel
    rw [MadeMember, hagg, hstack]
    rintro (⟨b, hb, -⟩ | ⟨b, hb, -⟩)
    · exact List.not_mem_nil hb
    · exact List.not_mem_nil hb
  have hin : m.InAggregate "2" := by
    refine .inr ⟨([1, 3, 6, 1, 2, 1, 31, 1, 2, 1, 3, 5, 2], "1"), ?_, "5", by decide, ?_⟩
    · decide +kernel
    · exact ⟨by decide +kernel, .inl rfl, by decide, by decide, by decide +kernel⟩
  refine ⟨hwalks, fun base hbase ↦ ?_, (m.failed_walkUpTo _ _).2 nofun, ?_⟩
  · show ¬ (m.walkUpTo base (if base = ifStackStatus then some 0 else none)).Failed
    rw [m.failed_walkUpTo, if_neg hbase]
    exact fun h ↦ h rfl
  · obtain ⟨row, hrow, hindex⟩ := exists_row_iff.2 hlisted
    refine ⟨row, hrow, hindex, (lagIfIndex_eq_blank_iff hwalks hrow).2 ?_, ?_⟩
    · exact hindex ▸ hunread
    · exact hindex ▸ hin

end Snmp
