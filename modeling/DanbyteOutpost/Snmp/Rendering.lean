import DanbyteOutpost.Snmp.Addresses
import Mathlib.Data.Nat.Bitwise

/-!
# Octet strings as text

An agent's OCTET STRING comes as `prettyPrint` gives it: its characters when every octet is
printable, and `0x` with two digits an octet otherwise. `_octets` reads that back, and
`parse_lldp_caps` names the bits in it. The rendering is not one-to-one, so a text that begins with
`0x` is taken for digits wherever it can be; `octets_prettyPrint_iff` says which octet strings that
misses.

## Which texts are ambiguous

`prettyPrint` gives the characters where all octets are printable. Such a text may itself begin
with `0x` and go on with digits, and then it reads as other octets (`ReadsAsHex`); those octet
strings are the whole exception, and `prettyPrint_reads_back` says also what they are read as.

The names of `parse_lldp_caps` are the bits that are set, in the order of the bits
(`parseLldpCaps_eq`).
-/

namespace Snmp

open PyText

/-! ### Model -/

/-- An octet `prettyPrint` shows as its character. -/
def isPrintable (b : ℕ) : Bool := 32 ≤ b && b ≤ 126

/-- `prettyPrint` of an OCTET STRING. -/
def prettyPrint (bs : List ℕ) : String :=
  if bs.all isPrintable then String.ofList (bs.map Char.ofNat)
  else String.ofList ('0' :: 'x' :: digits bs)

/-- `text.encode("latin-1", "ignore")`. -/
def latin1 (cs : List Char) : List ℕ := (cs.map Char.toNat).filter fun b ↦ decide (b < 256)

/-- `_octets` of a text. -/
def octets (value : String) : List ℕ :=
  if ['0', 'x'] <+: value.toList then
    match fromHex (value.toList.drop 2) with
    | some bs => bs
    | none => latin1 value.toList
  else latin1 value.toList

/-- `_LLDP_CAPS`. -/
def lldpCaps : List String :=
  ["other", "repeater", "bridge", "wlanAccessPoint", "router", "telephone", "docsisCableDevice",
    "stationOnly", "cVlanComponent", "sVlanComponent", "twoPortMacRelay"]

/-- `parse_lldp_caps`. -/
def parseLldpCaps (value : String) : List String :=
  let bs := octets value
  (lldpCaps.zipIdx.filter fun (_, bit) ↦
    bit / 8 < bs.length && bs.getD (bit / 8) 0 &&& 0x80 >>> (bit % 8) != 0).map Prod.fst

/-! ### Reading a rendering back -/

theorem fromHex_digits : ∀ {bs : List ℕ}, (∀ b ∈ bs, b < 256) → fromHex (digits bs) = some bs
  | [], _ => rfl
  | b :: bs, h => by
    have hb : b < 256 := h b List.mem_cons_self
    have hhigh := hexDigit?_digitChar (show b / 16 < 16 by omega)
    have hlow := hexDigit?_digitChar (show b % 16 < 16 by omega)
    have hspace : asciiSpace (Nat.digitChar (b / 16)) = false :=
      (hexDigit?_plain (by rw [hhigh]; rfl)).2.1
    have ih : fromHex (digits bs) = some bs :=
      fromHex_digits fun c hc ↦ h c (List.mem_cons_of_mem b hc)
    have hcons : digits (b :: bs) = Nat.digitChar (b / 16) :: Nat.digitChar (b % 16) :: digits bs :=
      rfl
    rw [hcons, fromHex, if_neg (by rw [hspace]; exact Bool.false_ne_true), hhigh, hlow, ih]
    show some ((16 * (b / 16) + b % 16) :: bs) = some (b :: bs)
    rw [show 16 * (b / 16) + b % 16 = b by omega]

/-- `bytes.fromhex` gives at most one octet for two characters. -/
theorem length_fromHex : ∀ {cs : List Char} {bs : List ℕ}, fromHex cs = some bs →
    2 * bs.length ≤ cs.length
  | [], bs, h => by
    rw [fromHex, Option.some_inj] at h
    rw [← h]
    exact le_rfl
  | [c], bs, h => by
    rw [fromHex] at h
    split at h <;> cases h
    exact Nat.zero_le _
  | c :: d :: cs, bs, h => by
    rw [fromHex] at h
    split at h
    case isTrue =>
      have ih := length_fromHex h
      rw [List.length_cons]
      omega
    case isFalse =>
      obtain ⟨high, -, h⟩ := Option.bind_eq_some_iff.1 h
      obtain ⟨low, -, h⟩ := Option.bind_eq_some_iff.1 h
      obtain ⟨rest, hrest, h⟩ := Option.bind_eq_some_iff.1 h
      obtain rfl := Option.some.inj h
      have ih := length_fromHex hrest
      rw [List.length_cons, List.length_cons, List.length_cons]
      omega

theorem latin1_ofNat {bs : List ℕ} (h : ∀ b ∈ bs, b < 256) : latin1 (bs.map Char.ofNat) = bs := by
  have hmap : (bs.map Char.ofNat).map Char.toNat = bs := by
    rw [List.map_map, List.map_congr_left (g := id), List.map_id]
    exact fun b hb ↦ toNat_ofNat ((h b hb).trans (by decide))
  rw [latin1, hmap, List.filter_eq_self]
  exact fun b hb ↦ decide_eq_true (h b hb)

/-- An octet string whose own text reads as the digits of another: printable, with `0x` in front of
what `bytes.fromhex` reads. -/
def ReadsAsHex (bs : List ℕ) : Prop :=
  bs.all isPrintable = true ∧ ['0', 'x'] <+: bs.map Char.ofNat ∧
    (fromHex ((bs.map Char.ofNat).drop 2)).isSome = true

instance (bs : List ℕ) : Decidable (ReadsAsHex bs) := inferInstanceAs (Decidable (_ ∧ _ ∧ _))

/-- A rendering reads back as its octets exactly if it does not read as the digits of others. -/
theorem octets_prettyPrint_iff {bs : List ℕ} (h : ∀ b ∈ bs, b < 256) :
    octets (prettyPrint bs) = bs ↔ ¬ ReadsAsHex bs := by
  by_cases hprint : bs.all isPrintable = true
  · rw [prettyPrint, if_pos hprint, octets, String.toList_ofList]
    by_cases hmark : ['0', 'x'] <+: bs.map Char.ofNat
    · rw [if_pos hmark]
      rcases hhex : fromHex ((bs.map Char.ofNat).drop 2) with - | bs'
      · refine iff_of_true (latin1_ofNat h) fun hreads ↦ ?_
        rw [ReadsAsHex, hhex] at hreads
        exact Bool.false_ne_true hreads.2.2
      · refine iff_of_false (fun heq ↦ ?_) (not_not.2 ⟨hprint, hmark, by rw [hhex]; rfl⟩)
        have hlen := length_fromHex hhex
        have hpos := hmark.length_le
        rw [List.length_drop, List.length_map, show bs' = bs from heq] at hlen
        rw [List.length_map] at hpos
        simp only [List.length_cons, List.length_nil] at hpos
        omega
    · rw [if_neg hmark]
      exact iff_of_true (latin1_ofNat h) fun hreads ↦ hmark hreads.2.1
  · rw [prettyPrint, if_neg hprint, octets, String.toList_ofList,
      if_pos ⟨digits bs, rfl⟩]
    have hread : fromHex (('0' :: 'x' :: digits bs).drop 2) = some bs := fromHex_digits h
    rw [hread]
    exact iff_of_true rfl fun hreads ↦ hprint hreads.1

/-! ### Capabilities -/

/-- A bit of a BITS value, counted from the most significant bit of the first octet. -/
def bitOf (bs : List ℕ) (bit : ℕ) : Bool :=
  match bs[bit / 8]? with
  | some b => b.testBit (7 - bit % 8)
  | none => false

/-- The capabilities whose bits are set, in bit order. -/
def capsOf (bs : List ℕ) : List String :=
  (lldpCaps.zipIdx.filter fun cap ↦ bitOf bs cap.2).map Prod.fst

/-- Masking with a shifted 0x80 is testing a bit, counted from the other end. -/
theorem and_shiftRight_eq_testBit (b : ℕ) {k : ℕ} (h : k < 8) :
    (b &&& 0x80 >>> k != 0) = b.testBit (7 - k) := by
  have hmask : 0x80 >>> k = 2 ^ (7 - k) := by
    interval_cases k <;> rfl
  rw [hmask, Nat.and_two_pow]
  cases b.testBit (7 - k)
  · rw [Bool.toNat_false, zero_mul]
    rfl
  · rw [Bool.toNat_true, one_mul]
    exact bne_iff_ne.2 (Nat.two_pow_pos _).ne'

/-- The capabilities of a text are those whose bit is set in its octets. -/
theorem parseLldpCaps_eq (value : String) : parseLldpCaps value = capsOf (octets value) := by
  have hbit : ∀ bit, (decide (bit / 8 < (octets value).length) &&
      (octets value).getD (bit / 8) 0 &&& 0x80 >>> (bit % 8) != 0) = bitOf (octets value) bit := by
    intro bit
    rw [and_shiftRight_eq_testBit _ (Nat.mod_lt _ (by decide)), bitOf]
    by_cases hin : bit / 8 < (octets value).length
    · rw [List.getD_eq_getElem?_getD, List.getElem?_eq_getElem hin, decide_eq_true hin,
        Bool.true_and, Option.getD_some]
    · rw [List.getElem?_eq_none (not_lt.1 hin), decide_eq_false hin, Bool.false_and]
  rw [parseLldpCaps, capsOf]
  exact congrArg (List.map Prod.fst) (List.filter_congr fun cap _ ↦ hbit cap.2)

/-- A printable octet string with `0x` in front of digits is taken for the octets they name. -/
theorem octets_of_readsAsHex {bs named : List ℕ} (hreads : ReadsAsHex bs)
    (hnamed : fromHex ((bs.map Char.ofNat).drop 2) = some named) :
    octets (prettyPrint bs) = named := by
  obtain ⟨hprint, hmark, -⟩ := hreads
  rw [prettyPrint, if_pos hprint, octets, String.toList_ofList, if_pos hmark, hnamed]

/-- Octet strings read back from their rendering, and their capabilities with them, exactly when
they do not read as the digits of others; where they do, it is the octets that the digits name which
are read.

`_octets` cannot tell a text from the rendering of other octets that is written alike, and takes it
for the latter by design. -/
theorem prettyPrint_reads_back {bs : List ℕ} (h : ∀ b ∈ bs, b < 256) :
    (octets (prettyPrint bs) = bs ↔ ¬ ReadsAsHex bs) ∧
      (¬ ReadsAsHex bs → parseLldpCaps (prettyPrint bs) = capsOf bs) ∧
        ∀ named, ReadsAsHex bs → fromHex ((bs.map Char.ofNat).drop 2) = some named →
          octets (prettyPrint bs) = named ∧ parseLldpCaps (prettyPrint bs) = capsOf named := by
  refine ⟨octets_prettyPrint_iff h, fun hreads ↦ ?_, fun named hreads hnamed ↦ ?_⟩
  · rw [parseLldpCaps_eq, (octets_prettyPrint_iff h).2 hreads]
  · have hoctets : octets (prettyPrint bs) = named := octets_of_readsAsHex hreads hnamed
    exact ⟨hoctets, by rw [parseLldpCaps_eq, hoctets]⟩

/-- `0x2400`, bridge and telephone: so its two octets are read, and so are its six characters. -/
theorem prettyPrint_reads_back_phone :
    octets (prettyPrint [0x24, 0x00]) = [0x24, 0x00] ∧
      parseLldpCaps (prettyPrint [0x24, 0x00]) = ["bridge", "telephone"] ∧
        octets (prettyPrint [0x30, 0x78, 0x32, 0x34, 0x30, 0x30]) = [0x24, 0x00] := by
  have hoctets : ∀ b ∈ [0x24, 0x00], b < 256 := by decide
  have hchars : ∀ b ∈ [0x30, 0x78, 0x32, 0x34, 0x30, 0x30], b < 256 := by decide
  obtain ⟨hback, hcaps, -⟩ := prettyPrint_reads_back hoctets
  have hplain : ¬ ReadsAsHex [0x24, 0x00] := by decide
  have hphone : capsOf [0x24, 0x00] = ["bridge", "telephone"] := by decide
  obtain ⟨-, -, hnamed⟩ := prettyPrint_reads_back hchars
  exact ⟨hback.2 hplain, (hcaps hplain).trans hphone, (hnamed _ (by decide) rfl).1⟩

/-- The characters `0x2400` render as the two octets do, so no reader can tell them apart; this one
takes the octets. -/
theorem prettyPrint_ambiguous :
    prettyPrint [0x30, 0x78, 0x32, 0x34, 0x30, 0x30] = prettyPrint [0x24, 0x00] ∧
      octets (prettyPrint [0x30, 0x78, 0x32, 0x34, 0x30, 0x30]) ≠
        [0x30, 0x78, 0x32, 0x34, 0x30, 0x30] := by
  decide

end Snmp
