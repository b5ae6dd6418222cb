import DanbyteOutpost.Snmp.ContextLists
import DanbyteOutpost.Snmp.DefaultRead
import DanbyteOutpost.Snmp.FdbVlans

/-!
# The rows of the default context

The rows that `_read` has at its end, told exactly by the walks its log marks (`RowsRead`): those of
dot1qTpFdbTable, each with the VLAN `map_fdb_vlans` gives its FDB id, or else those of
dot1dTpFdbTable, without a VLAN.

## The marks

Each walk leaves a mark, so the log tells which tables were walked and what they held. `Marks`
says of a method which walks it may add, and `markedRead_wp` of the whole default context that its
rows are those of its marks. Where the forwarding table of Q-BRIDGE held anything, the rows come
from exactly one walk of it and one of the base ports; where it held nothing, no row has a VLAN.
-/

namespace Snmp

open Coop

/-- The walks that a log has marks of, the latest first. -/
def marks (log : Log (net Outcome)) : List Outcome :=
  log.filterMap fun e ↦
    match e with
    | .marked o => some o
    | _ => none

theorem mem_marks {log : Log (net Outcome)} {o : Outcome} : o ∈ marks log ↔ .marked o ∈ log := by
  rw [marks, List.mem_filterMap]
  constructor
  · rintro ⟨e, he, heq⟩
    cases e with
    | polled | asked => cases heq
    | marked o' => exact Option.some.inj heq ▸ he
  · exact fun h ↦ ⟨_, h, rfl⟩

theorem Outcome.EndsWalk.marks {o : Outcome} {w w' : World (net Outcome) ReadState}
    (h : o.EndsWalk w w') : marks w'.log = o :: marks w.log := by
  obtain ⟨new, hlog, hnew⟩ := h.log
  have hnone : Snmp.marks new = [] :=
    List.eq_nil_iff_forall_not_mem.2 fun o' ho' ↦ hnew o' (mem_marks.1 ho')
  rw [hlog]
  show o :: Snmp.marks (new ++ w.log) = o :: Snmp.marks w.log
  rw [Snmp.marks, List.filterMap_append]
  exact congrArg (o :: · ++ Snmp.marks w.log) hnone

/-- From one world to another the lists of VLANs stay. -/
def ListsStay (w w' : World (net Outcome) ReadState) : Prop :=
  w'.st.report.vlans = w.st.report.vlans

/-- Walks of some tables were marked, and no others. -/
def Marks (tables : List Columns) (w w' : World (net Outcome) ReadState) : Prop :=
  ∃ later, marks w'.log = later ++ marks w.log ∧ ∀ o ∈ later, o.columns ∈ tables

section Marks

variable {tables : List Columns} {w w' w'' : World (net Outcome) ReadState}

theorem Marks.refl (h : marks w'.log = marks w.log) : Marks tables w w' := ⟨[], h, nofun⟩

theorem Marks.one {o : Outcome} (h : marks w'.log = o :: marks w.log) (ho : o.columns ∈ tables) :
    Marks tables w w' :=
  ⟨[o], h, fun _ ho' ↦ List.mem_singleton.1 ho' ▸ ho⟩

/-- Two stretches in a row walk the tables of both. -/
theorem Marks.trans (h : Marks tables w w') (h' : Marks tables w' w'') : Marks tables w w'' := by
  obtain ⟨later, hlater, hall⟩ := h
  obtain ⟨later', hlater', hall'⟩ := h'
  refine ⟨later' ++ later, by rw [hlater', hlater, List.append_assoc], fun o ho ↦ ?_⟩
  exact (List.mem_append.1 ho).elim (hall' o) (hall o)

theorem Marks.mono {tables' : List Columns} (h : Marks tables w w') (hsub : tables ⊆ tables') :
    Marks tables' w w' := by
  obtain ⟨later, hlater, hall⟩ := h
  exact ⟨later, hlater, fun o ho ↦ hsub (hall o ho)⟩

/-- A walk of another table was marked before, if it is marked now. -/
theorem Marks.before (h : Marks tables w w') {o : Outcome} (ho : o ∈ marks w'.log)
    (hother : o.columns ∉ tables) : o ∈ marks w.log := by
  obtain ⟨later, hlater, hall⟩ := h
  rw [hlater] at ho
  exact (List.mem_append.1 ho).resolve_left fun hlate ↦ hother (hall o hlate)

theorem Marks.after (h : Marks tables w w') {o : Outcome} (ho : o ∈ marks w.log) :
    o ∈ marks w'.log := by
  obtain ⟨later, hlater, -⟩ := h
  exact hlater ▸ List.mem_append_right _ ho

end Marks

namespace MacRead

variable (rd : MacRead) (log : Log (net Outcome))

/-- The agent names a VLAN, by the walks of dot1qVlanStaticName, or a port is in it. -/
def NamedIn (vid : ℤ) : Prop :=
  vid ∈ rd.ifaces.pvids ∨ ∃ n : Outcome, n ∈ marks log ∧ n.columns = nameColumns ∧
    ∃ i : ℕ, vid = i ∧ i ≠ 0 ∧ [i] ∈ n.walked.rows.keys

/-- The FDB ids that a walk of dot1qTpFdbTable read are taken for VLANs: a walk of dot1qVlanFdbId
ended empty, and each of them is a VLAN the agent names. -/
def TakesFdbIds (f : Outcome) : Prop :=
  (∃ v : Outcome, v ∈ marks log ∧ v.columns = vlanFdbColumns ∧ v.walked.complete = true ∧
    (column v.walked.rows "fdb").items = []) ∧
      ∀ fid ∈ fdbIdsOf f, fid ≠ 0 ∧ rd.NamedIn log fid

end MacRead

/-! ### The walks of the methods -/

variable {rd : MacRead} {fuel : ℕ} {w : World (net Outcome) ReadState}

/-- A walk in the default context leaves one mark. -/
theorem markedWalk_wp {what : String} {columns : Columns} {capRows : Bool} {maxRep : ℤ} :
    (rd.walkDefault fuel what columns capRows maxRep).wp MacRead.aloneRules (fun out w' ↦
      marks w'.log = ⟨rd.access, columns, out⟩ :: marks w.log ∧ ListsStay w w') w := by
  refine Coro.wp_bind.2 (Coro.wp_mono aloneWalk_wp fun out w₁ _ hend ↦ ?_)
  have hlists : ListsStay w w₁ := by rw [ListsStay, hend.st]
  split
  · exact ⟨hend.marks, hlists⟩
  · exact Coro.wp_bind.2 (Coro.wp_modify.2 ⟨hend.marks, (note_frame ..).vlans.trans hlists⟩)

theorem markedCanWalk_wp : MacRead.canWalk.wp MacRead.aloneRules
    (fun _ w' ↦ marks w'.log = marks w.log ∧ ListsStay w w') w := by
  refine Coro.wp_bind.2 (Coro.wp_get.2 ?_)
  split
  · exact ⟨rfl, rfl⟩
  · exact Coro.wp_bind.2 (Coro.wp_poll.2 fun _ _ ↦ ⟨rfl, rfl⟩)

/-- The VLANs taken as named are the ones the agent names. -/
theorem markedNamedVlans_wp (hno : ∀ o ∈ marks w.log, o.columns ≠ nameColumns) :
    (rd.namedVlans fuel).wp MacRead.aloneRules (fun vids w' ↦ Marks [nameColumns] w w' ∧
      ListsStay w w' ∧ ∀ vid, vid ∈ vids ↔ rd.NamedIn w'.log vid) w := by
  refine Coro.wp_bind.2 (Coro.wp_mono markedCanWalk_wp fun yes w₁ _ ⟨hpoll, hlists⟩ ↦ ?_)
  split
  case isFalse =>
    refine ⟨.refl hpoll, hlists, fun vid ↦ ⟨.inl, fun h ↦ h.resolve_right ?_⟩⟩
    rintro ⟨n, hn, hcolumns, -⟩
    exact hno n (hpoll ▸ hn) hcolumns
  case isTrue =>
    refine Coro.wp_bind.2 (Coro.wp_mono markedWalk_wp fun names w₂ _ ⟨hwalk, hlists₂⟩ ↦ ?_)
    rw [hpoll] at hwalk
    refine ⟨.one hwalk (List.mem_singleton_self _), hlists₂.trans hlists, fun vid ↦
      List.mem_union_iff.trans (or_congr_right ?_)⟩
    rw [List.mem_filter, List.mem_filterMap]
    constructor
    · rintro ⟨⟨index, hindex, heq⟩, hne⟩
      refine ⟨_, hwalk ▸ List.mem_cons_self, rfl, ?_⟩
      split at heq
      case h_1 i =>
        obtain rfl := Option.some.inj heq
        refine ⟨i, rfl, ?_, hindex⟩
        rintro rfl
        exact of_decide_eq_true hne rfl
      case h_2 => cases heq
    · rintro ⟨n, hn, hcolumns, i, rfl, hi, hkey⟩
      -- the one walk of dot1qVlanStaticName
      obtain rfl : n = ⟨rd.access, nameColumns, names⟩ := by
        rw [hwalk] at hn
        exact (List.mem_cons.1 hn).resolve_right fun hold ↦ hno n hold hcolumns
      exact ⟨⟨[i], hkey, rfl⟩, decide_eq_true (Int.natCast_ne_zero.2 hi)⟩

/-- The VLANs of the entries a walk of dot1qTpFdbTable read. -/
structure MacRead.FdbVlans (rd : MacRead) (log : Log (net Outcome)) (f : Outcome)
    (vlanOf : ℤ → Option ℤ) : Prop where
  /-- Where FDB ids are VLAN ids, each is its own. -/
  taken : rd.TakesFdbIds log f → ∀ fid ∈ fdbIdsOf f, vlanOf fid = some fid
  /-- Where they are not, a VLAN comes from the map and is one. -/
  used : ¬ rd.TakesFdbIds log f → ∀ fid vid, vlanOf fid = some vid → isVlan vid = true

/-- The VLANs of entries are those of the walk of dot1qVlanFdbId, or those of the names. -/
theorem markedQbridgeVlans_wp {b v f : Outcome} (hmarks : marks w.log = [f, v, b])
    (hbase : b.columns = baseColumns) (husers : v.columns = vlanFdbColumns)
    (hfdb : f.columns = qFdbColumns) :
    (rd.qbridgeVlans fuel (parseFdbTable true f.walked.rows) (column v.walked.rows "fdb")
      v.walked.complete).wp MacRead.aloneRules (fun entries w' ↦ Marks [nameColumns] w w' ∧
        ListsStay w w' ∧ ∃ vlanOf, rd.FdbVlans w'.log f vlanOf ∧
          entries = MacRead.entriesOf true f fun entry ↦ entry.fdbId.bind vlanOf) w := by
  have hno : ∀ o ∈ marks w.log, o.columns ≠ nameColumns := by
    rw [hmarks]
    simp only [List.forall_mem_cons, hbase, husers, hfdb]
    decide
  have hnamed : (if (column v.walked.rows "fdb").items.isEmpty && v.walked.complete then
      some <$> rd.namedVlans fuel else pure none : Reader (Option (List ℤ))).wp MacRead.aloneRules
        (fun named w' ↦ Marks [nameColumns] w w' ∧ ListsStay w w' ∧
          (named.isSome ↔ (column v.walked.rows "fdb").items = [] ∧ v.walked.complete = true) ∧
            ∀ vids ∈ named, ∀ vid, vid ∈ vids ↔ rd.NamedIn w'.log vid) w := by
    split
    case isTrue hempty =>
      rw [Bool.and_eq_true, List.isEmpty_iff] at hempty
      refine Coro.wp_bind.2 (Coro.wp_mono (markedNamedVlans_wp hno)
        fun vids w' _ ⟨hlater, hlists, hvids⟩ ↦ ⟨hlater, hlists, ⟨fun _ ↦ hempty, fun _ ↦ rfl⟩, ?_⟩)
      rintro vids' ⟨⟩
      exact hvids
    case isFalse hempty =>
      rw [Bool.and_eq_true, List.isEmpty_iff] at hempty
      exact ⟨.refl rfl, rfl, ⟨nofun, fun h ↦ absurd h hempty⟩, nofun⟩
  refine Coro.wp_bind.2 (Coro.wp_mono hnamed fun named w₁ _ ⟨hlater, hlists, hsome, hvids⟩ ↦ ?_)
  dsimp only
  generalize hvlanOf : mapFdbVlans _ _ named = vlanOf
  refine Coro.wp_bind.2 (Coro.wp_modify.2 ⟨hlater, hlists, vlanOf.1, ⟨fun htakes fid hfid ↦ ?_,
    fun htakes fid vid hvid ↦ ?_⟩, rfl⟩)
  · obtain ⟨⟨v', hv', hcolumns, hcomplete, hempty⟩, hall⟩ := htakes
    -- the one walk of dot1qVlanFdbId
    obtain rfl : v' = v := by
      have hbefore := hlater.before hv' (by rw [hcolumns]; decide)
      rw [hmarks] at hbefore
      rcases List.mem_cons.1 hbefore with rfl | hbefore
      · exact absurd (hcolumns.symm.trans hfdb) (by decide)
      rcases List.mem_cons.1 hbefore with heq | hbefore
      · exact heq
      obtain rfl := List.mem_singleton.1 hbefore
      exact absurd (hcolumns.symm.trans hbase) (by decide)
    obtain ⟨vids, rfl⟩ := Option.isSome_iff_exists.1 (hsome.2 ⟨hempty, hcomplete⟩)
    refine hvlanOf ▸ mapFdbVlans_eq_some.2 ⟨hfid, .inr ⟨?_, rfl, vids, rfl, fun fid' hfid' ↦
      ⟨(hvids vids rfl fid').2 (hall fid' hfid').2, (hall fid' hfid').1⟩⟩⟩
    rintro fid' vid' ⟨index, text, hget, -⟩
    exact List.ne_nil_of_mem (Dict.mem_items_iff.2 hget) hempty
  · rw [← hvlanOf] at hvid
    obtain ⟨-, hone | ⟨-, rfl, vids, hnamed', hall⟩⟩ := mapFdbVlans_eq_some.1 hvid
    · obtain ⟨_, _, -, -, hvlan, -⟩ := (hone vid).2 rfl
      exact hvlan
    · obtain ⟨hempty, hcomplete⟩ := hsome.1 (Option.isSome_iff_exists.2 ⟨vids, hnamed'⟩)
      have hv : v ∈ marks w₁.log := hlater.after (by rw [hmarks]; simp)
      exact absurd ⟨⟨v, hv, husers, hcomplete, hempty⟩, fun fid' hfid' ↦
        ⟨(hall fid' hfid').2, (hvids vids hnamed' fid').1 (hall fid' hfid').1⟩⟩ htakes

/-- The stack table is walked at most once. -/
theorem markedReadStack_wp : (rd.readStack fuel).wp MacRead.aloneRules
    (fun _ w' ↦ Marks [stackColumns] w w' ∧ ListsStay w w') w := by
  refine Coro.wp_bind.2 (Coro.wp_get.2 ?_)
  split
  case isTrue => exact ⟨.refl rfl, rfl⟩
  case isFalse =>
    refine Coro.wp_bind.2 (Coro.wp_mono markedCanWalk_wp fun yes w₁ _ ⟨hpoll, hlists⟩ ↦ ?_)
    split
    case isFalse => exact ⟨.refl hpoll, hlists⟩
    case isTrue =>
      refine Coro.wp_bind.2 (Coro.wp_mono markedWalk_wp
        fun stack w₂ _ ⟨hwalk, hlists₂⟩ ↦ Coro.wp_modify.2 ⟨?_, hlists₂.trans hlists⟩)
      rw [hpoll] at hwalk
      exact .one hwalk (List.mem_singleton_self _)

/-- The rows are those of `learned_rows`, on the ports below their units or not. -/
theorem markedLearned_wp {entries : List Entry} {base : Dict Oid String} :
    (rd.learned fuel entries base).wp MacRead.aloneRules (fun rows w' ↦
      Marks [stackColumns] w w' ∧ ListsStay w w' ∧ ∃ stack, rows = MacRead.onPorts stack
        (learnedRows rd.ifaces entries base MacMeta.fresh.dropped).rows) w := by
  have hrows := learnedRows_rows rd.ifaces entries base w.st.report.dropped MacMeta.fresh.dropped
  refine Coro.wp_bind.2 (Coro.wp_get.2 (Coro.wp_bind.2 (Coro.wp_modify.2 ?_)))
  split
  case isTrue => exact ⟨.refl rfl, rfl, none, hrows⟩
  case isFalse =>
    refine Coro.wp_bind.2 (Coro.wp_mono markedReadStack_wp fun _ w₂ _ ⟨hlater, hlists⟩ ↦ ?_)
    refine Coro.wp_bind.2 (Coro.wp_get.2 ?_)
    split
    case h_1 => exact ⟨hlater, hlists, none, hrows⟩
    case h_2 stack _ =>
      exact ⟨hlater, hlists, some stack, congrArg (List.map (Row.fold stack)) hrows⟩

/-- The VLANs of the contexts are found in two tables. -/
theorem markedContextVlans_wp : (rd.contextVlans fuel).wp MacRead.aloneRules
    (fun _ w' ↦ Marks [entLogicalColumns, vtpColumns] w w' ∧ ListsStay w w') w := by
  refine Coro.wp_bind.2 (Coro.wp_mono markedWalk_wp fun entities w₁ _ ⟨hwalk, hlists⟩ ↦ ?_)
  have hentities : Marks [entLogicalColumns, vtpColumns] w w₁ := .one hwalk List.mem_cons_self
  refine Coro.wp_bind.2 (Coro.wp_get.2 ?_)
  split
  · exact ⟨hentities, hlists⟩
  refine Coro.wp_bind.2 (Coro.wp_mono markedWalk_wp fun states w₂ _ ⟨hwalk₂, hlists₂⟩ ↦ ?_)
  have hstates := hentities.trans
    (.one hwalk₂ (List.mem_cons_of_mem _ (List.mem_singleton_self _)))
  refine Coro.wp_bind.2 (Coro.wp_get.2 ?_)
  split
  · exact ⟨hstates, hlists₂.trans hlists⟩
  · exact ⟨hstates, hlists₂.trans hlists⟩

/-! ### The rows of a plan -/

/-- The rows of the default context in a plan. -/
def Plan.found : Plan → List Row
  | rows found | contexts found _ _ => found
  | raised _ => []

/-- Whether contexts of VLANs are planned. -/
def Plan.planned : Plan → Bool
  | contexts .. => true
  | rows _ | raised _ => false

/-- A row keeps its VLAN and its FDB id when it is put on a port. -/
theorem mem_onPorts {stack : Option (Dict String String)} {rows : List Row} {row : Row}
    (h : row ∈ MacRead.onPorts stack rows) :
    ∃ row₀ ∈ rows, row.vlan = row₀.vlan ∧ row.fdbId = row₀.fdbId := by
  rcases stack with - | stack
  · exact ⟨row, h, rfl, rfl⟩
  · obtain ⟨row₀, hrow₀, rfl⟩ := List.mem_map.1 h
    exact ⟨row₀, hrow₀, rfl, rfl⟩

/-- A row on its unit is a row on its port. -/
theorem exists_mem_onPorts (stack : Option (Dict String String)) {rows : List Row} {row₀ : Row}
    (h : row₀ ∈ rows) : ∃ row ∈ MacRead.onPorts stack rows, row.vlan = row₀.vlan := by
  rcases stack with - | stack
  · exact ⟨row₀, h, rfl⟩
  · exact ⟨_, List.mem_map_of_mem h, rfl⟩

/-- The plan of the contexts has rows of the default context only. -/
theorem markedPerVlan_wp {rows : List Row} : (rd.perVlan fuel rows).wp MacRead.aloneRules
    (fun plan w' ↦ Marks [entLogicalColumns, vtpColumns] w w' ∧
      (plan.planned = false → ListsStay w w') ∧ plan.found ⊆ rows) w := by
  refine Coro.wp_bind.2 (Coro.wp_mono markedContextVlans_wp
    fun ⟨vlans, advertised⟩ w₁ _ ⟨hlater, hlists⟩ ↦ ?_)
  dsimp only
  split
  · exact ⟨hlater, fun _ ↦ hlists, List.nil_subset _⟩
  refine Coro.wp_bind.2 (Coro.wp_get.2 ?_)
  split
  · exact ⟨hlater, fun _ ↦ hlists, List.Subset.refl _⟩
  refine Coro.wp_bind.2 (Coro.wp_modify.2 ?_)
  split
  · exact Coro.wp_bind.2 (Coro.wp_modify.2 ⟨hlater, nofun, List.Subset.refl _⟩)
  · exact ⟨hlater, nofun, List.Subset.refl _⟩

/-- The entries of dot1dTpFdbTable have no VLAN. -/
theorem vlan_of_parseFdbTable {qbridge : Bool} {rows : Rows String} {entry : Entry}
    (h : entry ∈ parseFdbTable qbridge rows) : entry.vlan = none := by
  obtain ⟨e, -, he⟩ := List.mem_filterMap.1 h
  obtain ⟨key, -, rfl⟩ := Option.map_eq_some_iff.1 he
  rfl

/-- The tables that are walked behind an empty dot1qTpFdbTable. -/
def laterColumns : List Columns := [dFdbColumns, stackColumns, entLogicalColumns, vtpColumns]

/-- The rows of the bridge table have no VLAN. -/
theorem markedReadBridge_wp {base : Dict Oid String} :
    (rd.readBridge fuel base).wp MacRead.aloneRules (fun plan w' ↦ Marks laterColumns w w' ∧
      (plan.planned = false → ListsStay w w') ∧ ∀ row ∈ plan.found, row.vlan = none) w := by
  refine Coro.wp_bind.2 (Coro.wp_mono markedWalk_wp fun fdb w₁ _ ⟨hwalk, hlists₁⟩ ↦ ?_)
  have hlearned : ∀ s : ReadState, s.report.vlans = w₁.st.report.vlans →
      Coro.wp MacRead.aloneRules (do
        let rows ← rd.learned fuel (parseFdbTable false fdb.rows) base
        if (← Coro.get).stopped || rd.opts.contexts = .off then return Plan.rows rows
        rd.perVlan fuel rows)
      (fun plan w' ↦ Marks laterColumns w w' ∧ (plan.planned = false → ListsStay w w') ∧
        ∀ row ∈ plan.found, row.vlan = none) ⟨s, w₁.log⟩ := by
    intro s hs
    have hfdb : Marks laterColumns w ⟨s, w₁.log⟩ := .one hwalk List.mem_cons_self
    refine Coro.wp_bind.2 (Coro.wp_mono markedLearned_wp
      fun rows w₂ _ ⟨hstack, hlists₂, stack, hrows⟩ ↦ ?_)
    have hlater : Marks laterColumns w w₂ := hfdb.trans (hstack.mono (by decide))
    have hlists : ListsStay w w₂ := hlists₂.trans (hs.trans hlists₁)
    have hnone : ∀ row ∈ rows, row.vlan = none := by
      intro row hrow
      obtain ⟨row₀, hrow₀, hvlan, -⟩ := mem_onPorts (hrows ▸ hrow)
      obtain ⟨entry, hentry, hsame⟩ := learnedRows_vlan hrow₀
      exact hvlan.trans (hsame.trans (vlan_of_parseFdbTable hentry))
    refine Coro.wp_bind.2 (Coro.wp_get.2 ?_)
    split
    · exact ⟨hlater, fun _ ↦ hlists, hnone⟩
    · refine Coro.wp_mono markedPerVlan_wp fun plan w₃ _ ⟨hcontexts, hlists₃, hsub⟩ ↦
        ⟨hlater.trans (hcontexts.mono (by decide)), fun hno ↦ (hlists₃ hno).trans hlists,
          fun row hrow ↦ hnone row (hsub hrow)⟩
  split
  · exact Coro.wp_bind.2 (Coro.wp_modify.2 (hlearned _ rfl))
  · exact hlearned _ rfl

/-- Walks of other tables do not change which FDB ids are taken for VLANs. -/
theorem takesFdbIds_iff {tables : List Columns} {w w' : World (net Outcome) ReadState}
    (h : Marks tables w w') (hnames : nameColumns ∉ tables) (husers : vlanFdbColumns ∉ tables)
    {f : Outcome} : rd.TakesFdbIds w'.log f ↔ rd.TakesFdbIds w.log f := by
  have hmarked : ∀ {columns : Columns}, columns ∉ tables → ∀ {o : Outcome}, o.columns = columns →
      (o ∈ marks w'.log ↔ o ∈ marks w.log) :=
    fun hother o ho ↦ ⟨fun hm ↦ h.before hm (ho.symm ▸ hother), h.after⟩
  have hnamed : ∀ vid, rd.NamedIn w'.log vid ↔ rd.NamedIn w.log vid := fun vid ↦
    or_congr_right (exists_congr fun n ↦ and_congr_left fun hn ↦ hmarked hnames hn.1)
  rw [MacRead.TakesFdbIds, MacRead.TakesFdbIds]
  refine and_congr (exists_congr fun v ↦ and_congr_left fun hv ↦ hmarked husers hv.1) ?_
  exact forall₂_congr fun fid _ ↦ and_congr_right fun _ ↦ hnamed fid

/-- What the rows of the default context are. -/
inductive MacRead.RowsRead (rd : MacRead) (log : Log (net Outcome)) : Plan → Prop
  /-- From dot1dTpFdbTable, which knows no VLANs; the other table was empty. -/
  | bridge {plan : Plan}
      (empty : ∀ f ∈ marks log, f.columns = qFdbColumns → f.walked.rows.items = [])
      (none : ∀ row ∈ plan.found, row.vlan = none) : RowsRead rd log plan
  /-- From dot1qTpFdbTable, with the ports that were read, each entry in the VLAN of its FDB id. -/
  | qbridge (b f : Outcome) (vlanOf : ℤ → Option ℤ) (stack : Option (Dict String String))
      (ports : b ∈ marks log) (base : ∀ o ∈ marks log, o.columns = baseColumns ↔ o = b)
      (entries : f ∈ marks log) (table : ∀ o ∈ marks log, o.columns = qFdbColumns ↔ o = f)
      (vlans : rd.FdbVlans log f vlanOf) :
      RowsRead rd log (.rows (MacRead.onPorts stack
        (rd.learnedFrom true b f fun entry ↦ entry.fdbId.bind vlanOf).rows))

/-- The tables are told apart by their columns. -/
theorem baseColumns_ne : baseColumns ≠ qFdbColumns := by decide

theorem vlanFdbColumns_ne : vlanFdbColumns ≠ qFdbColumns := by decide

/-- The rows of the Q-BRIDGE table are those of its walk, with the VLANs and the ports of the walks
before it. -/
theorem markedReadQbridge_wp {b v : Outcome} (hmarks : marks w.log = [v, b])
    (hbase : b.columns = baseColumns) (husers : v.columns = vlanFdbColumns) :
    (rd.readQbridge fuel (column b.walked.rows "if_index") v.walked).wp MacRead.aloneRules
      (fun plan w' ↦ rd.RowsRead w'.log plan ∧ (plan.planned = false → ListsStay w w')) w := by
  refine Coro.wp_bind.2 (Coro.wp_mono markedWalk_wp fun fdb w₁ _ ⟨hwalk, hlists₁⟩ ↦ ?_)
  rw [hmarks] at hwalk
  have hother : ∀ o : Outcome, o = v ∨ o = b → o.columns ≠ qFdbColumns := by
    rintro o (rfl | rfl)
    · exact husers ▸ vlanFdbColumns_ne
    · exact hbase ▸ baseColumns_ne
  -- the one walk of dot1qTpFdbTable, whatever is walked behind it
  have htable : ∀ {tables : List Columns} {w' : World (net Outcome) ReadState},
      Marks tables w₁ w' → qFdbColumns ∉ tables → ∀ o ∈ marks w'.log,
        (o.columns = qFdbColumns ↔ o = ⟨rd.access, qFdbColumns, fdb⟩) := by
    intro tables w' hlater hno o ho
    refine ⟨fun hcolumns ↦ ?_, fun heq ↦ heq ▸ rfl⟩
    have hbefore := hlater.before ho (hcolumns.symm ▸ hno)
    rw [hwalk, List.mem_cons, List.mem_cons, List.mem_singleton] at hbefore
    exact hbefore.resolve_right fun hold ↦ hother o hold hcolumns
  split
  case isTrue =>
    refine Coro.wp_bind.2 (Coro.wp_modify.2 (Coro.wp_bind.2 (Coro.wp_mono (markedQbridgeVlans_wp
      (f := ⟨rd.access, qFdbColumns, fdb⟩) hwalk hbase husers rfl)
      fun entries w₂ _ ⟨hnames, hlists₂, vlanOf, hvlans, hentries⟩ ↦ ?_)))
    refine Coro.wp_bind.2 (Coro.wp_mono markedLearned_wp
      fun rows w₃ _ ⟨hstack, hlists₃, stack, hrows⟩ ↦ ?_)
    have hlater : Marks [nameColumns, stackColumns] w₁ w₃ :=
      Marks.trans (hnames.mono (by decide)) (hstack.mono (by decide))
    have hvlans₃ : rd.FdbVlans w₃.log ⟨rd.access, qFdbColumns, fdb⟩ vlanOf := by
      have hiff : rd.TakesFdbIds w₃.log ⟨rd.access, qFdbColumns, fdb⟩ ↔
          rd.TakesFdbIds w₂.log ⟨rd.access, qFdbColumns, fdb⟩ :=
        takesFdbIds_iff hstack (by decide) (by decide)
      exact ⟨fun htakes ↦ hvlans.taken (hiff.1 htakes),
        fun htakes ↦ hvlans.used fun h ↦ htakes (hiff.2 h)⟩
    have hkept : ∀ o ∈ marks w₁.log, o ∈ marks w₃.log := fun o ho ↦ hlater.after ho
    rw [hwalk] at hkept
    subst hrows hentries
    refine ⟨.qbridge b _ vlanOf stack (hkept b (by simp)) (fun o ho ↦ ?_)
      (hkept _ List.mem_cons_self) (htable hlater (by decide)) hvlans₃,
      fun _ ↦ hlists₃.trans (hlists₂.trans hlists₁)⟩
    refine ⟨fun hcolumns ↦ ?_, fun heq ↦ heq ▸ hbase⟩
    have hbefore := hlater.before ho (hcolumns.symm ▸ by decide)
    rw [hwalk, List.mem_cons, List.mem_cons, List.mem_singleton] at hbefore
    rcases hbefore with rfl | rfl | heq
    · exact absurd hcolumns.symm baseColumns_ne
    · exact absurd (husers.symm.trans hcolumns) (by decide)
    · exact heq
  case isFalse hempty =>
    rw [Bool.not_eq_true', Bool.not_eq_false, List.isEmpty_iff] at hempty
    have hbridge : ∀ {tables : List Columns} {w' : World (net Outcome) ReadState},
        Marks tables w₁ w' → qFdbColumns ∉ tables → ∀ f ∈ marks w'.log, f.columns = qFdbColumns →
          f.walked.rows.items = [] := by
      intro tables w' hlater hno f hf hcolumns
      obtain rfl := (htable hlater hno f hf).1 hcolumns
      exact hempty
    refine Coro.wp_bind.2 (Coro.wp_get.2 ?_)
    split
    · exact ⟨.bridge (hbridge (.refl rfl : Marks [] w₁ w₁) List.not_mem_nil) nofun, fun _ ↦ hlists₁⟩
    · refine Coro.wp_mono markedReadBridge_wp fun plan w₂ _ ⟨hlater, hlists₂, hnone⟩ ↦ ?_
      exact ⟨.bridge (hbridge hlater (by decide)) hnone, fun hno ↦ (hlists₂ hno).trans hlists₁⟩

/-- So the rows of the default context are those of its walks. -/
theorem markedRead_wp (hnew : w.log = []) :
    (rd.read fuel).wp MacRead.aloneRules (fun plan w' ↦ rd.RowsRead w'.log plan ∧
      (plan.planned = false → ListsStay w w')) w := by
  refine Coro.wp_bind.2 (Coro.wp_mono markedWalk_wp fun base w₁ _ ⟨hwalk₁, hlists₁⟩ ↦ ?_)
  rw [hnew] at hwalk₁
  refine Coro.wp_bind.2 (Coro.wp_get.2 ?_)
  split
  · refine ⟨.bridge (fun f hf hcolumns ↦ ?_) nofun, fun _ ↦ hlists₁⟩
    rw [hwalk₁] at hf
    rw [List.mem_singleton.1 hf] at hcolumns
    exact absurd hcolumns baseColumns_ne
  refine Coro.wp_bind.2 (Coro.wp_modify.2 (Coro.wp_bind.2 (Coro.wp_mono markedWalk_wp
    fun vlanFdb w₂ _ ⟨hwalk₂, hlists₂⟩ ↦ ?_)))
  rw [show marks w₁.log = _ from hwalk₁] at hwalk₂
  have hlists : ListsStay w w₂ := hlists₂.trans hlists₁
  refine Coro.wp_bind.2 (Coro.wp_get.2 ?_)
  split
  · refine ⟨.bridge (fun f hf hcolumns ↦ ?_) nofun, fun _ ↦ hlists⟩
    rw [hwalk₂] at hf
    rcases List.mem_cons.1 hf with rfl | hf
    · exact absurd hcolumns vlanFdbColumns_ne
    · rw [List.mem_singleton.1 hf] at hcolumns
      exact absurd hcolumns baseColumns_ne
  · refine Coro.wp_mono (markedReadQbridge_wp (b := ⟨rd.access, baseColumns, base⟩)
      (v := ⟨rd.access, vlanFdbColumns, vlanFdb⟩) hwalk₂ rfl rfl)
      fun plan w₃ _ ⟨hrows, hlists₃⟩ ↦ ?_
    exact ⟨hrows, fun hno ↦ (hlists₃ hno).trans hlists⟩

/-- The rows of the default context are those of the walks that its log marks, and unless contexts
are planned no list has a VLAN. -/
theorem rowsRead_of_run {sur : Surroundings} {s₀ s : ReadState} {plan : Plan}
    {log : Log (net Outcome)} (hread : (rd.read fuel).run sur.env s₀ [] = some (plan, s, log)) :
    rd.RowsRead log plan ∧ (plan.planned = false → s.report.vlans = s₀.report.vlans) :=
  Coro.run_of_wp sur.obeys_alone (markedRead_wp (w := ⟨s₀, []⟩) rfl) hread

end Snmp
