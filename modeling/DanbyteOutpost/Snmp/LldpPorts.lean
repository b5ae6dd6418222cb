import DanbyteOutpost.Data.CaseFold
import DanbyteOutpost.Data.HexText
import DanbyteOutpost.Snmp.Forwarding
import Mathlib.Data.List.Dedup

/-!
# The local ports of LLDP neighbours

`resolve_lldp_local_ports`: a local port of LLDP is the interface that its lldpLocPortId names, or
that its number is the bridge port of, or that its lldpLocPortDesc names. A name is looked up in
three tables in turn, and a table where several interfaces carry it leaves it to the next one
(`Named`). `resolvePort_spec` says which of the three a port is resolved by, and that a later one is
only asked where the earlier ones say nothing.

## Contents

* `interfaceNames`, `matchInterface`: the tables of ifName, ifDescr and ifAlias, stripped and case
  folded; a text that two interfaces share in a table finds none of them there.
* `indexById`, `indexByBridge`, `indexByDesc`: the three ways, in this order.
* `Named`: what it means for a text to name an interface, without tables.
* `localPortsRight`: the ports are the keys, each with the index of an interface or blank, by the
  first of the three ways that finds one; and the order of ports and interfaces does not matter.
-/

namespace Snmp

open PyText

/-! ### Model -/

/-- `_text(value)`: an OCTET STRING meant as text, hex form decoded. -/
def text (value : String) : String :=
  let chars := match value.toList with
    | '0' :: 'x' :: c :: cs =>
      match fromHex (c :: cs) with
      | some bytes => decodeUtf8 0 0 0 0 bytes
      | none => value.toList
    | chars => chars
  strip (String.ofList (chars.filter (· ≠ '\x00')))

/-- What an interface's row is looked up by, as text (`""` where there is nothing). -/
structure NamedIface where
  /-- `if_index`. -/
  ifIndex : String
  /-- `name`. -/
  ifName : String
  /-- `descr`. -/
  ifDescr : String
  /-- `alias`. -/
  ifAlias : String
  deriving DecidableEq

/-- `text.strip().casefold()`. -/
def folded (text : String) : String := casefold (strip text)

/-- `table.setdefault(text, set()).add(index)`, when there is a text. -/
def addName (index : String) (table : Dict String (List String)) (text : String) :
    Dict String (List String) :=
  if folded text = "" then table
  else table.set (folded text) ((table.members (folded text)).insert index)

/-- `_interface_names(interfaces)`: the tables of ifName, ifDescr and ifAlias. -/
def interfaceNames (interfaces : List NamedIface) : List (Dict String (List String)) :=
  interfaces.foldl (fun tables row ↦
    let index := strip row.ifIndex
    if index = "" then tables
    else List.zipWith (addName index) tables [row.ifName, row.ifDescr, row.ifAlias])
    [Dict.empty, Dict.empty, Dict.empty]

/-- `_match_interface(tables, text)`. -/
def matchInterface (tables : List (Dict String (List String))) (text : String) : String :=
  if folded text = "" then ""
  else (tables.findSome? fun table ↦ onlyOne (table.members (folded text))).getD ""

/-- `_LLDP_NAMED_SUBTYPES` -/
def lldpNamedSubtypes : List String := ["1", "5", "7", "interfacealias", "interfacename", "local"]

/-- What the agent says of its LLDP ports, by number (`loc_subtype`, `loc_id`, `loc_desc`), and of
its bridge ports (`base_port_ifindex`). -/
structure LldpLocal where
  /-- What kind of name a port has. -/
  subtype : Dict String String
  /-- The name. -/
  id : Dict String String
  /-- The description. -/
  desc : Dict String String
  /-- The interface of each bridge port. -/
  base : Dict String String

namespace LldpLocal

variable (loc : LldpLocal) (num : String)

/-- The lldpLocPortId of a port names an interface. -/
def idNames : Bool :=
  lldpNamedSubtypes.contains (lower (strip ((loc.subtype.get? num).getD "")))

/-- `_text(loc_id.get(num))` -/
def idText : String := text ((loc.id.get? num).getD "")

/-- `_text(loc_desc.get(num))` -/
def descText : String := text ((loc.desc.get? num).getD "")

/-- `via`, when it is not 0. -/
def via : Option ℤ := ((loc.base.get? num).bind intOfText).filter (· ≠ 0)

end LldpLocal

/-- `known` -/
def knownIndexes (interfaces : List NamedIface) : List String :=
  (interfaces.map NamedIface.ifIndex).filter (· ≠ "")

/-- Step 1: lldpLocPortId. -/
def indexById (loc : LldpLocal) (interfaces : List NamedIface) (num : String) : String :=
  if loc.idNames num then matchInterface (interfaceNames interfaces) (loc.idText num) else ""

/-- Step 2: the bridge port. -/
def indexByBridge (loc : LldpLocal) (interfaces : List NamedIface) (num : String) : String :=
  match loc.via num with
  | some via =>
    if knownIndexes interfaces = [] ∨ toString via ∈ knownIndexes interfaces then toString via
    else ""
  | none => ""

/-- Step 3: lldpLocPortDesc. -/
def indexByDesc (loc : LldpLocal) (interfaces : List NamedIface) (num : String) : String :=
  matchInterface (interfaceNames interfaces) (loc.descText num)

/-- The index of a port. -/
def resolvePort (loc : LldpLocal) (interfaces : List NamedIface) (num : String) : String :=
  let index := indexById loc interfaces num
  let index := if index = "" then indexByBridge loc interfaces num else index
  if index = "" then indexByDesc loc interfaces num else index

/-- `resolve_lldp_local_ports`. -/
def resolveLldpLocalPorts (ports : List String) (loc : LldpLocal) (interfaces : List NamedIface) :
    Dict String String :=
  Dict.ofList (ports.dedup.map fun num ↦ (num, resolvePort loc interfaces num))

/-! ### Names -/

/-- The texts of a row, in the order of the tables. -/
inductive NameKey
  | ifName | ifDescr | ifAlias

/-- `("name", "descr", "alias")` -/
def nameKeys : List NameKey := [.ifName, .ifDescr, .ifAlias]

/-- `row.get(key)` -/
def NamedIface.get (row : NamedIface) : NameKey → String
  | .ifName => row.ifName
  | .ifDescr => row.ifDescr
  | .ifAlias => row.ifAlias

/-- An interface carries a case-folded text. -/
def Carries (interfaces : List NamedIface) (key : NameKey) (text index : String) : Prop :=
  index ≠ "" ∧ ∃ row ∈ interfaces, strip row.ifIndex = index ∧ folded (row.get key) = text

/-- An interface is the only one that carries a case-folded text. -/
def OnlyCarrier (interfaces : List NamedIface) (key : NameKey) (text index : String) : Prop :=
  ∀ i, Carries interfaces key text i ↔ i = index

/-- A text names an interface: it is the only one that carries it in the first table where only one
interface does. -/
def Named (interfaces : List NamedIface) (text index : String) : Prop :=
  folded text ≠ "" ∧ ∃ before key after, nameKeys = before ++ key :: after ∧
    OnlyCarrier interfaces key (folded text) index ∧
      ∀ key' ∈ before, ∀ i, ¬ OnlyCarrier interfaces key' (folded text) i

variable {interfaces interfaces' : List NamedIface} {key : NameKey} {text index : String}

/-- The entry of a row in a table. -/
def NamedIface.entry (key : NameKey) (row : NamedIface) : Option (String × String) :=
  if strip row.ifIndex = "" ∨ folded (row.get key) = "" then none
  else some (folded (row.get key), strip row.ifIndex)

/-- Each table groups the entries of the rows. -/
theorem interfaceNames_eq (interfaces : List NamedIface) : interfaceNames interfaces =
    nameKeys.map fun key ↦ Dict.group (interfaces.filterMap (NamedIface.entry key)) := by
  induction interfaces using List.reverseRecOn with
  | nil => rfl
  | append_singleton rows row ih =>
    have hgroup : ∀ key, strip row.ifIndex ≠ "" →
        Dict.group ((rows ++ [row]).filterMap (NamedIface.entry key)) =
          addName (strip row.ifIndex) (Dict.group (rows.filterMap (NamedIface.entry key)))
            (row.get key) := by
      intro key hindex
      rw [List.filterMap_append, addName]
      by_cases htext : folded (row.get key) = ""
      · have hentry : row.entry key = none := if_pos (.inr htext)
        rw [List.filterMap_cons_none hentry, List.filterMap_nil, List.append_nil, if_pos htext]
      · have hentry : row.entry key = some (folded (row.get key), strip row.ifIndex) :=
          if_neg fun h ↦ h.elim hindex htext
        rw [List.filterMap_cons_some hentry, List.filterMap_nil, if_neg htext, Dict.group,
          List.foldl_append, ← Dict.group]
        rfl
    rw [interfaceNames, List.foldl_append, ← interfaceNames, ih, List.foldl_cons, List.foldl_nil]
    dsimp only
    split
    case isTrue hindex =>
      refine List.map_congr_left fun key _ ↦ ?_
      have hentry : row.entry key = none := if_pos (.inl hindex)
      rw [List.filterMap_append, List.filterMap_cons_none hentry, List.filterMap_nil,
        List.append_nil]
    case isFalse hindex =>
      simp only [nameKeys, List.map_cons, List.map_nil, hgroup _ hindex]
      rfl

/-- The names of the interfaces under a key, those that are not empty. -/
theorem mem_entries_iff (htext : text ≠ "") :
    (text, index) ∈ interfaces.filterMap (NamedIface.entry key) ↔
      Carries interfaces key text index := by
  simp only [List.mem_filterMap, NamedIface.entry, Option.ite_none_left_eq_some, not_or,
    Option.some.injEq, Prod.mk.injEq, Carries]
  constructor
  · rintro ⟨row, hrow, ⟨hindex, -⟩, htext, rfl⟩
    exact ⟨hindex, row, hrow, rfl, htext⟩
  · rintro ⟨hindex, row, hrow, rfl, rfl⟩
    exact ⟨row, hrow, ⟨hindex, htext⟩, rfl, rfl⟩

/-- The set of a text has one element when one interface carries the text. -/
theorem onlyOne_members_iff (htext : text ≠ "") :
    onlyOne ((Dict.group (interfaces.filterMap (NamedIface.entry key))).members text) =
      some index ↔ OnlyCarrier interfaces key text index := by
  rw [onlyOne_eq_some, Dict.members_group_eq_singleton]
  exact forall_congr' fun i ↦ iff_congr (mem_entries_iff htext) Iff.rfl

/-- The interface that a text names. -/
def namedBy (interfaces : List NamedIface) (text : String) : Option String :=
  if folded text = "" then none
  else nameKeys.findSome? fun key ↦
    onlyOne ((Dict.group (interfaces.filterMap (NamedIface.entry key))).members (folded text))

/-- A name is looked up among them by `named_by`, or nothing is found. -/
theorem matchInterface_interfaceNames :
    matchInterface (interfaceNames interfaces) text = (namedBy interfaces text).getD "" := by
  rw [matchInterface, namedBy, interfaceNames_eq, List.findSome?_map]
  split
  · rfl
  · rfl

theorem namedBy_eq_some_iff : namedBy interfaces text = some index ↔
    Named interfaces text index := by
  rw [namedBy, Option.ite_none_left_eq_some, Named, List.findSome?_eq_some_iff]
  refine and_congr_right fun htext ↦ ?_
  have hnone : ∀ key, onlyOne ((Dict.group (interfaces.filterMap (NamedIface.entry key))).members
      (folded text)) = none ↔ ∀ i, ¬ OnlyCarrier interfaces key (folded text) i := by
    intro key
    rw [Option.eq_none_iff_forall_ne_some]
    exact forall_congr' fun i ↦ not_congr (onlyOne_members_iff htext)
  simp only [onlyOne_members_iff htext, hnone]

/-- What carries a name has an index. -/
theorem Named.carries (h : Named interfaces text index) :
    ∃ key, Carries interfaces key (folded text) index := by
  obtain ⟨-, -, key, -, -, honly, -⟩ := h
  exact ⟨key, (honly index).2 rfl⟩

theorem Named.ne_empty (h : Named interfaces text index) : index ≠ "" := by
  obtain ⟨key, hne, -⟩ := h.carries
  exact hne

/-! ### The ports -/

section Ports

variable (loc : LldpLocal) (interfaces : List NamedIface) (num : String)

/-- A port's lldpLocPortId names an interface. -/
def LldpLocal.ById (index : String) : Prop :=
  loc.idNames num = true ∧ Named interfaces (loc.idText num) index

/-- A port's number is the bridge port of an interface. -/
def LldpLocal.ByBridge (index : String) : Prop :=
  ∃ via, loc.via num = some via ∧ toString via = index ∧
    (knownIndexes interfaces = [] ∨ index ∈ knownIndexes interfaces)

/-- A port's lldpLocPortDesc names an interface. -/
def LldpLocal.ByDesc (index : String) : Prop := Named interfaces (loc.descText num) index

/-- The index of a port, and what it is resolved by. -/
inductive LldpLocal.Resolves : String → Prop
  /-- By its name, before all others. -/
  | byId {index : String} (h : loc.ById interfaces num index) : Resolves index
  /-- By the bridge port of its number. -/
  | byBridge {index : String} (hid : ∀ i, ¬ loc.ById interfaces num i)
      (h : loc.ByBridge interfaces num index) : Resolves index
  /-- By its description. -/
  | byDesc {index : String} (hid : ∀ i, ¬ loc.ById interfaces num i)
      (hbridge : ∀ i, ¬ loc.ByBridge interfaces num i) (h : loc.ByDesc interfaces num index) :
      Resolves index
  /-- By nothing. -/
  | unresolved (hid : ∀ i, ¬ loc.ById interfaces num i)
      (hbridge : ∀ i, ¬ loc.ByBridge interfaces num i)
      (hdesc : ∀ i, ¬ loc.ByDesc interfaces num i) :
      Resolves ""

end Ports

variable {loc : LldpLocal} {num : String}

/-- The indexes that are known are those of the interfaces. -/
theorem mem_knownIndexes {i : String} :
    i ∈ knownIndexes interfaces ↔ i ≠ "" ∧ ∃ row ∈ interfaces, row.ifIndex = i := by
  rw [knownIndexes, List.mem_filter, List.mem_map, decide_eq_true_eq, and_comm]

/-- A step finds an index that it is right of, or finds none where it is right of none. -/
def Finds (right : String → Prop) (index : String) : Prop :=
  index ≠ "" ∧ right index ∨ index = "" ∧ ∀ i, ¬ right i

theorem matchInterface_finds (interfaces : List NamedIface) (text : String) :
    Finds (Named interfaces text) (matchInterface (interfaceNames interfaces) text) := by
  rw [matchInterface_interfaceNames]
  cases hby : namedBy interfaces text with
  | none =>
    refine .inr ⟨rfl, fun i h ↦ ?_⟩
    rw [← namedBy_eq_some_iff, hby] at h
    cases h
  | some i =>
    have h : Named interfaces text i := namedBy_eq_some_iff.1 hby
    exact .inl ⟨h.ne_empty, h⟩

theorem indexById_finds (loc : LldpLocal) (interfaces : List NamedIface) (num : String) :
    Finds (loc.ById interfaces num) (indexById loc interfaces num) := by
  rw [indexById]
  split
  case isTrue hnames =>
    refine (matchInterface_finds interfaces (loc.idText num)).imp (fun h ↦ ⟨h.1, hnames, h.2⟩)
      fun h ↦ ⟨h.1, fun i hi ↦ h.2 i hi.2⟩
  case isFalse hnames => exact .inr ⟨rfl, fun i h ↦ hnames h.1⟩

theorem indexByBridge_finds (loc : LldpLocal) (interfaces : List NamedIface) (num : String) :
    Finds (loc.ByBridge interfaces num) (indexByBridge loc interfaces num) := by
  rw [indexByBridge]
  cases hvia : loc.via num with
  | none =>
    refine .inr ⟨rfl, fun i h ↦ ?_⟩
    obtain ⟨via, hsome, -⟩ := h
    rw [hvia] at hsome
    cases hsome
  | some via =>
    dsimp only
    split
    case isTrue hknown => exact .inl ⟨toString_int_ne_empty via, via, hvia, rfl, hknown⟩
    case isFalse hknown =>
      refine .inr ⟨rfl, fun i h ↦ ?_⟩
      obtain ⟨via', hsome, rfl, hthere⟩ := h
      obtain rfl := Option.some.inj (hvia.symm.trans hsome)
      exact hknown hthere

theorem indexByDesc_finds (loc : LldpLocal) (interfaces : List NamedIface) (num : String) :
    Finds (loc.ByDesc interfaces num) (indexByDesc loc interfaces num) :=
  matchInterface_finds interfaces (loc.descText num)

/-- A port is resolved by the first step that finds anything. -/
theorem resolvePort_spec (loc : LldpLocal) (interfaces : List NamedIface) (num : String) :
    loc.Resolves interfaces num (resolvePort loc interfaces num) := by
  rw [resolvePort]
  rcases indexById_finds loc interfaces num with ⟨hne, h⟩ | ⟨hempty, hid⟩
  · rw [if_neg hne, if_neg hne]
    exact .byId h
  rw [if_pos hempty]
  rcases indexByBridge_finds loc interfaces num with ⟨hne, h⟩ | ⟨hempty, hbridge⟩
  · rw [if_neg hne]
    exact .byBridge hid h
  rw [if_pos hempty]
  rcases indexByDesc_finds loc interfaces num with ⟨-, h⟩ | ⟨hempty, hdesc⟩
  · exact .byDesc hid hbridge h
  · rw [hempty]
    exact .unresolved hid hbridge hdesc

/-- Each port that is asked for has an answer of its own. -/
theorem get?_resolveLldpLocalPorts_iff {ports : List String} :
    (resolveLldpLocalPorts ports loc interfaces).get? num = some index ↔
      num ∈ ports ∧ resolvePort loc interfaces num = index := by
  have hnodup : ((ports.dedup.map fun num ↦ (num, resolvePort loc interfaces num)).map
      Prod.fst).Nodup := by
    rw [List.map_map]
    exact (List.map_id ports.dedup).symm ▸ ports.nodup_dedup
  rw [resolveLldpLocalPorts, Dict.get?_ofList_iff hnodup, List.mem_map]
  constructor
  · rintro ⟨num', hnum, heq⟩
    obtain ⟨rfl, rfl⟩ := Prod.mk.inj heq
    exact ⟨List.mem_dedup.1 hnum, rfl⟩
  · rintro ⟨hnum, rfl⟩
    exact ⟨num, List.mem_dedup.2 hnum, rfl⟩

/-! ### The rows in another order -/

/-- Whether a name is carried by one interface alone does not depend on their order. -/
theorem named_congr (h : ∀ row, row ∈ interfaces' ↔ row ∈ interfaces) :
    Named interfaces' text index ↔ Named interfaces text index := by
  simp only [Named, OnlyCarrier, Carries, h]

theorem matchInterface_congr (h : ∀ row, row ∈ interfaces' ↔ row ∈ interfaces) (text : String) :
    matchInterface (interfaceNames interfaces') text =
      matchInterface (interfaceNames interfaces) text := by
  have hby : namedBy interfaces' text = namedBy interfaces text := by
    refine Option.ext fun i ↦ ?_
    rw [namedBy_eq_some_iff, namedBy_eq_some_iff, named_congr h]
  rw [matchInterface_interfaceNames, matchInterface_interfaceNames, hby]

theorem indexByBridge_congr (h : ∀ row, row ∈ interfaces' ↔ row ∈ interfaces) :
    indexByBridge loc interfaces' num = indexByBridge loc interfaces num := by
  have hmem : ∀ i, i ∈ knownIndexes interfaces' ↔ i ∈ knownIndexes interfaces := by
    intro i
    simp only [mem_knownIndexes, h]
  have hnil : knownIndexes interfaces' = [] ↔ knownIndexes interfaces = [] := by
    simp only [List.eq_nil_iff_forall_not_mem, hmem]
  rw [indexByBridge, indexByBridge]
  cases loc.via num with
  | none => rfl
  | some via => exact if_congr (or_congr hnil (hmem (toString via))) rfl rfl

/-- Only what the rows are matters to a port, not where or how often they stand. -/
theorem resolvePort_congr (h : ∀ row, row ∈ interfaces' ↔ row ∈ interfaces) :
    resolvePort loc interfaces' num = resolvePort loc interfaces num := by
  have hid : indexById loc interfaces' num = indexById loc interfaces num := by
    rw [indexById, indexById, matchInterface_congr h]
  have hdesc : indexByDesc loc interfaces' num = indexByDesc loc interfaces num :=
    matchInterface_congr h (loc.descText num)
  rw [resolvePort, resolvePort, hid, indexByBridge_congr h, hdesc]

/-! ### Every port -/

/-- The text of a number. -/
def IsDecimal (s : String) : Prop := s ≠ "" ∧ ∀ c ∈ s.toList, c.isDigit = true

theorem isDecimal_toString (n : ℕ) : IsDecimal (toString n) := by
  refine ⟨fun h ↦ toString_toList_ne_nil n ?_, isDigit_toString n⟩
  rw [h]
  rfl

/-- What is to hold of the indexes of the ports. -/
structure LocalPortsRight (ports : List String) (loc : LldpLocal) (interfaces : List NamedIface) :
    Prop where
  /-- Each port asked for has an index, and no other. -/
  keys : ∀ num, num ∈ (resolveLldpLocalPorts ports loc interfaces).keys ↔ num ∈ ports
  /-- An index is that of an interface, or empty. -/
  known : ∀ num index, (resolveLldpLocalPorts ports loc interfaces).get? num = some index →
    index = "" ∨ ∃ row ∈ interfaces, row.ifIndex = index
  /-- It is found in the first table that decides. -/
  resolved : ∀ num index, (resolveLldpLocalPorts ports loc interfaces).get? num = some index →
    loc.Resolves interfaces num index
  /-- The order of ports and interfaces does not matter, nor does it matter whether one is named
  twice. -/
  same : ∀ (ports' : List String) (interfaces' : List NamedIface),
    (∀ num, num ∈ ports' ↔ num ∈ ports) → (∀ row, row ∈ interfaces' ↔ row ∈ interfaces) →
      ∀ num, (resolveLldpLocalPorts ports' loc interfaces').get? num =
        (resolveLldpLocalPorts ports loc interfaces).get? num

/-- An interface that is found by name is one of them. -/
theorem Named.mem (hdecimal : ∀ row ∈ interfaces, IsDecimal row.ifIndex)
    (h : Named interfaces text index) : ∃ row ∈ interfaces, row.ifIndex = index := by
  obtain ⟨key, -, row, hrow, rfl, -⟩ := h.carries
  have hstrip : strip row.ifIndex = row.ifIndex :=
    strip_of_forall fun c hc ↦ not_isSpace_of_isDigit ((hdecimal row hrow).2 c hc)
  exact ⟨row, hrow, hstrip.symm⟩

/-- However a port is found, it is one of the interfaces, or none. -/
theorem LldpLocal.Resolves.mem (hne : interfaces ≠ [])
    (hdecimal : ∀ row ∈ interfaces, IsDecimal row.ifIndex) (h : loc.Resolves interfaces num index) :
    index = "" ∨ ∃ row ∈ interfaces, row.ifIndex = index := by
  cases h with
  | byId h => exact .inr (h.2.mem hdecimal)
  | byBridge _ h =>
    obtain ⟨row, hrow⟩ := List.exists_mem_of_ne_nil _ hne
    have hknown : row.ifIndex ∈ knownIndexes interfaces :=
      mem_knownIndexes.2 ⟨(hdecimal row hrow).1, row, hrow, rfl⟩
    obtain ⟨-, -, -, hthere⟩ := h
    exact .inr (mem_knownIndexes.1 (hthere.resolve_left (List.ne_nil_of_mem hknown))).2
  | byDesc _ _ h => exact .inr (Named.mem hdecimal h)
  | unresolved => exact .inl rfl

/-- What the table of ports has for one resolves it. -/
theorem resolves_of_get? {ports : List String}
    (hget : (resolveLldpLocalPorts ports loc interfaces).get? num = some index) :
    loc.Resolves interfaces num index := by
  obtain ⟨-, heq⟩ := get?_resolveLldpLocalPorts_iff.1 hget
  exact heq ▸ resolvePort_spec loc interfaces num

/-- Every port gets an index of an interface or none, whatever order the rows and the ports are
in.

Each of the three tables is made of all interfaces before a port is looked up in it, so their order
cannot matter; and a name that two interfaces share decides nothing. -/
theorem localPortsRight (ports : List String) (loc : LldpLocal) (hne : interfaces ≠ [])
    (hdecimal : ∀ row ∈ interfaces, IsDecimal row.ifIndex) :
    LocalPortsRight ports loc interfaces := by
  refine ⟨fun num ↦ ?_, fun num index hget ↦ (resolves_of_get? hget).mem hne hdecimal,
    fun num index hget ↦ resolves_of_get? hget, fun ports' interfaces' hports hrows num ↦ ?_⟩
  · rw [Dict.mem_keys_iff]
    exact ⟨fun ⟨index, hget⟩ ↦ (get?_resolveLldpLocalPorts_iff.1 hget).1,
      fun hnum ↦ ⟨_, get?_resolveLldpLocalPorts_iff.2 ⟨hnum, rfl⟩⟩⟩
  · refine Option.ext fun index ↦ ?_
    rw [get?_resolveLldpLocalPorts_iff, get?_resolveLldpLocalPorts_iff, hports,
      resolvePort_congr hrows]

/-- Two interfaces have one ifName in different case, and one of them has it as its ifDescr as well:
that one is named. The other local port is a bridge port. -/
theorem localPortsRight_ambiguous :
    let interfaces : List NamedIface :=
      [⟨toString 1, "lan", "", ""⟩, ⟨toString 2, "LAN", "Lan", ""⟩]
    let loc : LldpLocal :=
      { subtype := Dict.ofList [("7", "5")]
        id := Dict.ofList [("7", "0x6c616e00")]
        desc := Dict.empty
        base := Dict.ofList [("8", "1")] }
    (resolveLldpLocalPorts ["7", "8"] loc interfaces).items = [("7", "2"), ("8", "1")] ∧
      LocalPortsRight ["7", "8"] loc interfaces := by
  intro interfaces loc
  refine ⟨by decide +kernel,
    localPortsRight ["7", "8"] loc (List.cons_ne_nil _ _) fun row hrow ↦ ?_⟩
  rcases List.mem_cons.1 hrow with rfl | hrow
  · exact isDecimal_toString 1
  · obtain rfl := List.mem_singleton.1 hrow
    exact isDecimal_toString 2

end Snmp
