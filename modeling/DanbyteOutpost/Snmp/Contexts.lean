import DanbyteOutpost.Data.HexText
import DanbyteOutpost.Data.Json
import DanbyteOutpost.Snmp.Forwarding
import Mathlib.Data.List.Dedup
import Mathlib.Data.List.Sort

/-!
# Which VLANs have a context of their own

The VLANs an agent advertises (`parse_entity_vlans`, `parse_vtp_vlans`), the ones a read goes for
(`plan_context_vlans`), and the options of a read (`_mac_options`).

The three patterns of `parse_entity_vlans` read a run of digits whose zeros at the front do not
count, so each is a search for the run.

## Contents

* `lenientInt`, `clamp`: the readings of an option, for which `macOptions_bounds` gives the
  bounds.
* `entityVlan`, `parseEntityVlans`, `parseVtpVlans`: the VLANs an agent names. A row of
  entLogicalTable has its VLAN in the name of its context, in its description or in its community,
  of which the first that has one counts.
* `planContextVlans`: the VLANs that can be read, in ascending order and each once, with those
  over the cap set aside (`planContextVlans_spec`).
-/

namespace Snmp

open PyText

/-! ### Numbers that are not there, or too large -/

/-- `_int` of a JSON value. The outer `none` is the `OverflowError` of an infinity. -/
def lenientInt : Json → Option (Option ℤ)
  | .null | .bool _ => some none
  | .float none text => if text = "nan" then some none else none
  | value => some value.pyInt

/-- `_clamp(value, default, low, high)`. -/
def clamp (value : Json) (default low high : ℤ) : Option ℤ :=
  (lenientInt value).map fun number ↦
    match number with
    | none => default
    | some n => min (max n low) high

/-- `sorted(set(values))`. -/
def sortedSet (values : List ℤ) : List ℤ := values.dedup.insertionSort (· ≤ ·)

theorem mem_sortedSet {values : List ℤ} {n : ℤ} : n ∈ sortedSet values ↔ n ∈ values := by
  rw [sortedSet, List.mem_insertionSort, List.mem_dedup]

theorem nodup_sortedSet (values : List ℤ) : (sortedSet values).Nodup :=
  (List.perm_insertionSort _ _).nodup_iff.2 (List.nodup_dedup values)

theorem sortedSet_eq_nil {values : List ℤ} : sortedSet values = [] ↔ values = [] := by
  simp only [List.eq_nil_iff_forall_not_mem, mem_sortedSet]

/-! ### What an agent advertises -/

/-- `_text`. -/
def octetText (value : String) : String :=
  let decoded := match value.toList with
    | '0' :: 'x' :: c :: cs =>
      match fromHex (c :: cs) with
      | some octets => decodeUtf8 0 0 0 0 octets
      | none => value.toList
    | cs => cs
  strip (String.ofList (decoded.filter (· ≠ '\x00')))

/-- The number of the digits at the front, of whatever script, and what stands behind them. -/
def leadingNumber (cs : List Char) : Option (ℕ × List Char) :=
  let run := cs.takeWhile isDecimalDigit
  if run = [] then none
  else some (Nat.ofDigitChars 10 (run.map intChar) 0, cs.dropWhile isDecimalDigit)

/-- The first of the places in a text where a pattern matches. -/
def searchFrom (pattern : List Char → Option ℕ) : List Char → Option ℕ
  | [] => pattern []
  | c :: cs => (pattern (c :: cs)).or (searchFrom pattern cs)

/-- What stands behind a word, in either case. -/
def behindWord (word cs : List Char) : Option (List Char) :=
  if (cs.take word.length).map Char.toLower = word then some (cs.drop word.length) else none

/-- What stands behind a hyphen there may be. -/
def behindHyphen : List Char → List Char
  | '-' :: cs => cs
  | cs => cs

/-- A number that ends the text. -/
def lastNumber (cs : List Char) : Option ℕ :=
  match leadingNumber cs with
  | some (n, []) => some n
  | _ => none

/-- `^vlan-?0*(\d+)$` -/
def contextPattern (text : String) : Option ℕ := do
  let cs ← behindWord "vlan".toList text.toList
  lastNumber (behindHyphen cs)

/-- `vlan\s*-?\s*0*(\d+)` -/
def descrPattern (text : String) : Option ℕ :=
  searchFrom (fun cs ↦ do
    let cs ← behindWord "vlan".toList cs
    let (n, _) ← leadingNumber
      ((behindHyphen (cs.dropWhile isSpace)).dropWhile isSpace)
    return n) text.toList

/-- `@0*(\d+)$` -/
def communityPattern (text : String) : Option ℕ :=
  searchFrom (fun cs ↦
    match cs with
    | '@' :: cs => lastNumber cs
    | _ => none) text.toList

/-- `_vlan_in(text, pattern)`. -/
def vlanIn (text : Option String) (pattern : String → Option ℕ) : Option ℤ :=
  ((pattern (octetText (text.getD ""))).map Int.ofNat).filter isVlan

/-- `_DOT1D_BRIDGE`. -/
def dot1dBridge : String := "1.3.6.1.2.1.17"

/-- `….lstrip(".")`. -/
def lstripDots (s : String) : String := String.ofList (s.toList.dropWhile (· = '.'))

/-- The VLAN of a row of entLogicalTable. -/
def entityVlan (row : Dict String String) : Option ℤ :=
  let kind := lstripDots (strip ((row.get? "type").getD ""))
  if kind ≠ dot1dBridge ∧ ¬ isInfix "dot1dbridge".toList (lower kind).toList then none
  else
    (vlanIn (row.get? "context") contextPattern).or
      ((vlanIn (row.get? "descr") descrPattern).or
        (vlanIn (row.get? "community") communityPattern))

/-- `parse_entity_vlans`. -/
def parseEntityVlans (rows : Rows String) : List ℤ :=
  sortedSet (rows.items.filterMap fun e ↦ entityVlan e.2)

/-- `parse_vtp_vlans`. -/
def parseVtpVlans (states : Dict Oid String) : List ℤ :=
  sortedSet (states.items.filterMap fun e ↦
    if lower (strip e.2) = "1" ∨ lower (strip e.2) = "operational" then
      (lastPart e.1).filter isVlan
    else none)

/-! ### The plan -/

/-- A VLAN a context is read for: not one of `_RESERVED_VLANS`. -/
def readable (vid : ℤ) : Bool := isVlan vid && !(1002 ≤ vid && vid ≤ 1005)

/-- `plan_context_vlans(vlans, max_vlans)`; `none` is the exception of a number too large. -/
def planContextVlans (vlans : List Json) (maxVlans : ℕ) : Option (List ℤ × List ℤ) :=
  (vlans.mapM lenientInt).map fun numbers ↦
    let clean := sortedSet ((numbers.filterMap id).filter readable)
    (clean.take maxVlans, clean.drop maxVlans)

/-- What a loop that may raise returns comes from its elements. -/
theorem mem_of_mapM {α β : Type} {f : α → Option β} {as : List α} {bs : List β}
    (h : as.mapM f = some bs) (b : β) : b ∈ bs ↔ ∃ a ∈ as, f a = some b := by
  induction as generalizing bs with
  | nil =>
    obtain rfl := Option.some.inj h
    exact iff_of_false List.not_mem_nil fun ⟨a, ha, _⟩ ↦ List.not_mem_nil ha
  | cons a as ih =>
    rw [List.mapM_cons] at h
    obtain ⟨b', hb', h⟩ := Option.bind_eq_some_iff.1 h
    obtain ⟨bs', hbs', h⟩ := Option.bind_eq_some_iff.1 h
    obtain rfl := Option.some.inj h
    rw [List.mem_cons, ih hbs', List.exists_mem_cons_iff, hb', Option.some.injEq, eq_comm]

/-- A plan has every VLAN that can be read once: those to read and those over the cap. -/
theorem planContextVlans_spec {vlans : List Json} {maxVlans : ℕ} {toRead overCap : List ℤ}
    (h : planContextVlans vlans maxVlans = some (toRead, overCap)) :
    (toRead ++ overCap).Nodup ∧ ∀ vid, vid ∈ toRead ++ overCap ↔
      readable vid = true ∧ ∃ value ∈ vlans, lenientInt value = some (some vid) := by
  obtain ⟨numbers, hnumbers, heq⟩ := Option.map_eq_some_iff.1 h
  obtain ⟨rfl, rfl⟩ := Prod.mk.inj heq
  rw [List.take_append_drop]
  refine ⟨nodup_sortedSet _, fun vid ↦ ?_⟩
  rw [mem_sortedSet, List.mem_filter, and_comm, List.mem_filterMap]
  simp only [id_eq, exists_eq_right]
  rw [mem_of_mapM hnumbers]

/-! ### Options -/

/-- `mac_vlan_contexts`. -/
inductive VlanContexts
  | auto | always | off
  deriving DecidableEq

/-- The `params` a MAC read looks at; `null` where there is nothing. -/
structure MacParams where
  /-- `mac_vlan_contexts`. -/
  macVlanContexts : Json
  /-- `mac_budget_s`. -/
  macBudgetS : Json
  /-- `mac_vlan_hint`. -/
  macVlanHint : Json
  /-- `mac_max_vlans`. -/
  macMaxVlans : Json

/-- `_mac_options`. -/
structure MacOptions where
  /-- When contexts are read. -/
  contexts : VlanContexts
  /-- The read is one inside a request: contexts are listed, and not read. -/
  quick : Bool
  /-- The seconds a read may take. -/
  budgetS : ℤ
  /-- The cap on the contexts. -/
  maxVlans : ℕ
  /-- VLANs to read where the agent lists none. -/
  hint : List Json

/-- `str.split()`, of what is left of a text and the word before it. -/
def words : List Char → List Char → List String
  | word, [] => if word = [] then [] else [String.ofList word]
  | word, c :: cs =>
    if isSpace c then (if word = [] then [] else [String.ofList word]) ++ words [] cs
    else words (word ++ [c]) cs

/-- `_mac_options(params, mode)`; `none` is the exception of a number too large. -/
def macOptions (params : MacParams) (mode : String) : Option MacOptions := do
  let contexts := match params.macVlanContexts with
    | .str text =>
      match lower (strip text) with
      | "always" => .always
      | "off" => .off
      | _ => .auto
    | _ => .auto
  let quick := decide (lower (strip mode) = "quick")
  let budget ← clamp params.macBudgetS 120 5 600
  let maxVlans ← clamp params.macMaxVlans 128 1 1024
  let hint := match params.macVlanHint with
    | .str text =>
      (words [] (text.toList.map fun c ↦ if c = ',' then ' ' else c)).map Json.str
    | .arr values => values
    | _ => []
  return {
    contexts := contexts
    quick := quick
    budgetS := if quick then min budget 15 else budget
    maxVlans := maxVlans.toNat
    hint := hint }

/-- Whatever the `params` say, a read has from 5 to 600 seconds, a quick one no more than 15, and
reads at least one context. -/
theorem macOptions_bounds {params : MacParams} {mode : String} {opts : MacOptions}
    (h : macOptions params mode = some opts) :
    5 ≤ opts.budgetS ∧ opts.budgetS ≤ (if opts.quick then 15 else 600) ∧
      1 ≤ opts.maxVlans ∧ opts.maxVlans ≤ 1024 := by
  have hclamp : ∀ {value default low high n}, clamp value default low high = some n →
      low ≤ default → default ≤ high → low ≤ high → low ≤ n ∧ n ≤ high := by
    intro value default low high n hn hlow hhigh hle
    obtain ⟨number, -, rfl⟩ := Option.map_eq_some_iff.1 hn
    rcases number with - | number
    · exact ⟨hlow, hhigh⟩
    · show low ≤ min (max number low) high ∧ min (max number low) high ≤ high
      omega
  obtain ⟨budget, hbudget, h⟩ := Option.bind_eq_some_iff.1 h
  obtain ⟨maxVlans, hmax, h⟩ := Option.bind_eq_some_iff.1 h
  obtain rfl := Option.some.inj h
  have hb := hclamp hbudget (by decide) (by decide) (by decide)
  have hm := hclamp hmax (by decide) (by decide) (by decide)
  dsimp only
  split <;> omega

end Snmp
