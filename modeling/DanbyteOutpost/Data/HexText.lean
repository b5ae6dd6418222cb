import DanbyteOutpost.Data.PyText
import Mathlib.Tactic.IntervalCases

/-!
# Octets as text

The text of octets: `"{b:02x}"`, `bytes.fromhex`, `int(text, 16)` and decoding UTF-8 with
replacement. An octet is a number below 256. `int()` reads more than hexadecimal digits: white
space around them, a sign, `0x`, underscores between them, and the decimal digits of other scripts.

## What is read, and what is not

`IsHexText` is the text of two digits an octet, as an agent's driver sends it, and everything a
reader has to know about it is derived once: it is no run of white space or signs, it has none of
the separators of an address, and `int(text, 16)` reads it as the number its digits are
(`isHexInt`). `IsHexDigits` is the same of the digits alone, in either case.

UTF-8 is decoded with the replacement character for whatever is malformed, as the maximal prefixes
of a sequence that could have been well formed.
-/

namespace PyText

/-- The value of a hexadecimal digit. -/
def hexDigit? (c : Char) : Option ℕ :=
  if '0' ≤ c ∧ c ≤ '9' then some (c.toNat - 48)
  else if 'a' ≤ c ∧ c ≤ 'f' then some (c.toNat - 87)
  else if 'A' ≤ c ∧ c ≤ 'F' then some (c.toNat - 55)
  else none

/-- `"{b:02x}"` of an octet. -/
def hex2 (b : ℕ) : List Char := [Nat.digitChar (b / 16), Nat.digitChar (b % 16)]

/-- Hexadecimal digits, single underscores between them. -/
def isHexRun : List Char → Bool
  | [] => false
  | [c] => (hexDigit? c).isSome
  | c :: '_' :: cs => (hexDigit? c).isSome && isHexRun cs
  | c :: cs => (hexDigit? c).isSome && isHexRun cs

/-- The digits behind a sign. -/
def dropSign : List Char → List Char
  | '-' :: cs => cs
  | '+' :: cs => cs
  | cs => cs

/-- The digits behind a `0x`, after which an underscore may stand. -/
def dropMark : List Char → List Char
  | '0' :: 'x' :: '_' :: cs => cs
  | '0' :: 'X' :: '_' :: cs => cs
  | '0' :: 'x' :: cs => cs
  | '0' :: 'X' :: cs => cs
  | cs => cs

/-- Whether `int(text, 16)` reads the text: white space may stand around it, and a sign and `0x`
before the digits. -/
def isHexInt (cs : List Char) : Bool := isHexRun (dropMark (dropSign (intBody cs)))

/-- The value of hexadecimal digits, with the underscores between them left out. -/
def hexValue (cs : List Char) : ℕ :=
  (cs.filterMap hexDigit?).foldl (fun n d ↦ 16 * n + d) 0

/-- `int(text, 16)`; `none` is the `ValueError`. -/
def hexInt? (cs : List Char) : Option ℤ :=
  let value := hexValue (dropMark (dropSign (intBody cs)))
  if isHexInt cs then
    some (if (intBody cs).head? = some '-' then Int.negOfNat value else Int.ofNat value)
  else none

/-- `bytes.fromhex`; `none` is the `ValueError`. White space may stand between the octets. -/
def fromHex : List Char → Option (List ℕ)
  | [] => some []
  | [c] => if asciiSpace c then some [] else none
  | c :: d :: cs =>
    if asciiSpace c then fromHex (d :: cs)
    else do
      let high ← hexDigit? c
      let low ← hexDigit? d
      return (16 * high + low) :: (← fromHex cs)

/-- The continuation octets a lead octet of UTF-8 asks for, with the range of the first. -/
def utf8Lead (b : ℕ) : Option (ℕ × ℕ × ℕ) :=
  if 0xc2 ≤ b ∧ b ≤ 0xdf then some (1, 0x80, 0xbf)
  else if b = 0xe0 then some (2, 0xa0, 0xbf)
  else if b = 0xed then some (2, 0x80, 0x9f)
  else if 0xe1 ≤ b ∧ b ≤ 0xef then some (2, 0x80, 0xbf)
  else if b = 0xf0 then some (3, 0x90, 0xbf)
  else if b = 0xf4 then some (3, 0x80, 0x8f)
  else if 0xf1 ≤ b ∧ b ≤ 0xf3 then some (3, 0x80, 0xbf)
  else none

/-- `bytes.decode("utf-8", "replace")`. `want` octets of a character are to come, the next of them
from `low` to `high`, and `acc` is what its octets so far amount to; a character that breaks off
leaves U+FFFD, and the octet it broke at is read again. -/
def decodeUtf8 (want acc low high : ℕ) : List ℕ → List Char
  | [] => if want = 0 then [] else ['\uFFFD']
  | b :: bs =>
    if want ≠ 0 ∧ low ≤ b ∧ b ≤ high then
      let acc := acc * 64 + b % 64
      if want = 1 then Char.ofNat acc :: decodeUtf8 0 0 0 0 bs
      else decodeUtf8 (want - 1) acc 0x80 0xbf bs
    else
      let broken := if want = 0 then [] else ['\uFFFD']
      if b < 0x80 then broken ++ Char.ofNat b :: decodeUtf8 0 0 0 0 bs
      else match utf8Lead b with
        | some (want, low, high) =>
          broken ++ decodeUtf8 want (b % 2 ^ (6 - want)) low high bs
        | none => broken ++ '\uFFFD' :: decodeUtf8 0 0 0 0 bs

example : decodeUtf8 0 0 0 0 [0x76, 0xc3, 0xa9, 0xe2, 0x82, 0x41] = "vé\uFFFDA".toList := by decide

/-- What a lead octet asks for: one continuation at least, the first of them in a range inside
`0x80` to `0xbf`. -/
theorem utf8Lead_range {b want low high : ℕ} (h : utf8Lead b = some (want, low, high)) :
    want ≠ 0 ∧ 0x80 ≤ low ∧ high ≤ 0xbf := by
  rw [utf8Lead] at h
  split_ifs at h <;> cases h <;> decide

/-- An octet that continues no character adds one to what is decoded, whether it breaks one off or
not. -/
theorem length_decodeUtf8_append_singleton {want acc low high : ℕ}
    (hrange : want ≠ 0 → 0x80 ≤ low ∧ high ≤ 0xbf) (bytes : List ℕ) {b : ℕ}
    (hb : b < 0x80 ∨ 0xbf < b) : (decodeUtf8 want acc low high (bytes ++ [b])).length =
      (decodeUtf8 want acc low high bytes).length + 1 := by
  induction bytes generalizing want acc low high with
  -- an octet that continues nothing begins a character of its own, or is replaced
  | nil =>
    have hno : ¬ (want ≠ 0 ∧ low ≤ b ∧ b ≤ high) := by
      rintro ⟨hwant, hlow, hhigh⟩
      have := hrange hwant
      omega
    rw [List.nil_append, decodeUtf8, decodeUtf8, if_neg hno]
    dsimp only
    by_cases hascii : b < 0x80
    · rw [if_pos hascii, List.length_append]
      rfl
    · rw [if_neg hascii]
      rcases hlead : utf8Lead b with - | ⟨want', low', high'⟩
      · rw [List.length_append]
        rfl
      · dsimp only
        rw [List.length_append, decodeUtf8, if_neg (utf8Lead_range hlead).1]
        rfl
  -- what the first octet does is the same with the last one or without
  | cons c bytes ih =>
    rw [List.cons_append, decodeUtf8, decodeUtf8]
    have hzero : (0 : ℕ) ≠ 0 → 0x80 ≤ 0 ∧ 0 ≤ 0xbf := fun h ↦ absurd rfl h
    by_cases hcont : want ≠ 0 ∧ low ≤ c ∧ c ≤ high
    · rw [if_pos hcont, if_pos hcont]
      dsimp only
      by_cases hlast : want = 1
      · rw [if_pos hlast, if_pos hlast, List.length_cons, List.length_cons, ih hzero]
      · rw [if_neg hlast, if_neg hlast]
        exact ih fun _ ↦ ⟨le_rfl, le_rfl⟩
    · rw [if_neg hcont, if_neg hcont]
      dsimp only
      by_cases hascii : c < 0x80
      · rw [if_pos hascii, if_pos hascii, List.length_append, List.length_append, List.length_cons,
          List.length_cons, ih hzero]
        rfl
      · rw [if_neg hascii, if_neg hascii]
        rcases hlead : utf8Lead c with - | ⟨want', low', high'⟩
        · dsimp only
          rw [List.length_append, List.length_append, List.length_cons, List.length_cons, ih hzero]
          rfl
        · dsimp only
          rw [List.length_append, List.length_append, ih fun _ ↦ (utf8Lead_range hlead).2]
          rfl

/-- Below the surrogates, the character of a number has that number. -/
theorem toNat_ofNat {n : ℕ} (h : n < 0xd800) : (Char.ofNat n).toNat = n := by
  have hvalid : n.isValidChar := .inl h
  rw [Char.ofNat, dif_pos hvalid]
  rfl

/-! ### Two digits an octet -/

/-- The digit written for a number below 16 reads back as that number. -/
theorem hexDigit?_digitChar {n : ℕ} (h : n < 16) : hexDigit? (Nat.digitChar n) = some n := by
  interval_cases n <;> rfl

/-- A lower-case hexadecimal digit is none of the characters that stand around digits. -/
theorem digitChar_plain {n : ℕ} (h : n < 16) :
    isSpace (Nat.digitChar n) = false ∧ Nat.digitChar n ∉ [':', '.', '-', '+', '_', 'x', 'X'] ∧
      (Nat.digitChar n).toLower = Nat.digitChar n := by
  interval_cases n <;> decide

/-- The code points of hexadecimal digits. -/
theorem isSome_hexDigit?_iff {c : Char} : (hexDigit? c).isSome = true ↔
    (48 ≤ c.toNat ∧ c.toNat ≤ 57) ∨ (97 ≤ c.toNat ∧ c.toNat ≤ 102) ∨
      (65 ≤ c.toNat ∧ c.toNat ≤ 70) := by
  unfold hexDigit?
  split_ifs with hdigit hlower hupper
  · exact iff_of_true rfl (.inl hdigit)
  · exact iff_of_true rfl (.inr (.inl hlower))
  · exact iff_of_true rfl (.inr (.inr hupper))
  · refine iff_of_false Bool.false_ne_true ?_
    rintro (h | h | h)
    exacts [hdigit h, hlower h, hupper h]

/-- A hexadecimal digit is none of the characters that stand around digits, and `int()` reads it
as itself. -/
theorem hexDigit?_plain {c : Char} (h : (hexDigit? c).isSome = true) :
    isSpace c = false ∧ asciiSpace c = false ∧ c ∉ [':', '.', '-', '+', '_', 'x', 'X'] ∧
      c.toNat < 127 := by
  have hcode := isSome_hexDigit?_iff.1 h
  refine ⟨?_, ?_, fun hmem ↦ ?_, ?_⟩
  · simp only [isSpace, Bool.or_eq_false_iff, Bool.and_eq_false_iff, decide_eq_false_iff_not,
      List.contains_eq_mem, List.mem_cons, List.not_mem_nil, or_false]
    omega
  · simp only [asciiSpace, Bool.or_eq_false_iff, Bool.and_eq_false_iff, decide_eq_false_iff_not]
    omega
  · simp only [List.mem_cons, List.not_mem_nil, or_false] at hmem
    rcases hmem with rfl | rfl | rfl | rfl | rfl | rfl | rfl <;> exact absurd h (by decide)
  · omega

/-- Hexadecimal digits, in either case, and nothing else. -/
def IsHexText (cs : List Char) : Prop := cs ≠ [] ∧ ∀ c ∈ cs, (hexDigit? c).isSome = true

/-- Hexadecimal digits, one at least, are a run as the pattern of `int` has it. -/
theorem IsHexText.isHexRun : ∀ {cs : List Char}, IsHexText cs → isHexRun cs = true
  | [], h => absurd rfl h.1
  | [c], h => h.2 c (by simp)
  | c :: d :: cs, h => by
    have ih : PyText.isHexRun (d :: cs) = true :=
      isHexRun ⟨List.cons_ne_nil _ _, fun x hx ↦ h.2 x (List.mem_cons_of_mem c hx)⟩
    have hne : d ≠ '_' := by
      rintro rfl
      exact absurd (h.2 '_' (by simp)) (by decide)
    rw [PyText.isHexRun, h.2 c (by simp), ih]
    · rfl
    · exact List.cons_ne_nil d cs
    · exact fun _ heq ↦ hne (List.cons.inj heq).1

namespace IsHexText

variable {cs : List Char} (h : IsHexText cs)

include h

/-- None of the marks of the formats is a digit, so a hexadecimal text is without them. -/
theorem not_mem {c : Char} (hc : c ∈ [':', '.', '-', '+', '_', 'x', 'X']) : c ∉ cs :=
  fun hmem ↦ (hexDigit?_plain (h.2 c hmem)).2.2.1 hc

theorem intBody : PyText.intBody cs = cs :=
  intBody_of_forall fun c hc ↦
    ⟨(hexDigit?_plain (h.2 c hc)).2.2.2, (hexDigit?_plain (h.2 c hc)).2.1⟩

theorem dropSign : PyText.dropSign cs = cs := by
  unfold PyText.dropSign
  split
  · exact absurd List.mem_cons_self (h.not_mem (by simp))
  · exact absurd List.mem_cons_self (h.not_mem (by simp))
  · rfl

/-- There is no `0x` to drop: its second character is no digit. -/
theorem dropMark : PyText.dropMark cs = cs := by
  have hsecond : ∀ {c d : Char} {rest : List Char}, cs = c :: d :: rest → d ∈ cs := by
    rintro c d rest rfl
    exact List.mem_cons_of_mem _ List.mem_cons_self
  unfold PyText.dropMark
  split
  · exact absurd (hsecond rfl) (h.not_mem (by simp))
  · exact absurd (hsecond rfl) (h.not_mem (by simp))
  · exact absurd (hsecond rfl) (h.not_mem (by simp))
  · exact absurd (hsecond rfl) (h.not_mem (by simp))
  · rfl

theorem isHexInt : PyText.isHexInt cs = true := by
  rw [PyText.isHexInt, h.intBody, h.dropSign, h.dropMark]
  exact h.isHexRun

theorem hexInt? : PyText.hexInt? cs = some (Int.ofNat (hexValue cs)) := by
  have hsign : cs.head? ≠ some '-' := fun hhead ↦
    h.not_mem (by simp) (List.mem_of_mem_head? hhead)
  rw [PyText.hexInt?, h.intBody, h.dropSign, h.dropMark, if_pos h.isHexInt, if_neg hsign]

end IsHexText

/-- `Char.toLower`, by the numbers of the characters. -/
theorem toNat_toLower (c : Char) :
    c.toLower.toNat = if 65 ≤ c.toNat ∧ c.toNat ≤ 90 then c.toNat + 32 else c.toNat := by
  by_cases h : 65 ≤ c.toNat ∧ c.toNat ≤ 90
  · have hupper : c.val ≥ 'A'.val ∧ c.val ≤ 'Z'.val := h
    have hval : c.toLower.val = c.val + 32 := congrArg Char.val (dif_pos hupper)
    have hcode : c.val.toNat = c.toNat := rfl
    rw [if_pos h]
    show c.toLower.val.toNat = _
    rw [hval, UInt32.toNat_add, hcode]
    show (c.toNat + 32) % 2 ^ 32 = _
    omega
  · have hother : ¬ (c.val ≥ 'A'.val ∧ c.val ≤ 'Z'.val) := h
    have hsame : c.toLower = c := dif_neg hother
    rw [if_neg h, hsame]

/-- A character is a hexadecimal digit when in lower case it is one. -/
theorem isSome_hexDigit?_iff_toLower {c : Char} :
    (hexDigit? c).isSome = true ↔ ∃ n < 16, c.toLower = Nat.digitChar n := by
  have hdigits : ∀ n < 16, (Nat.digitChar n).toNat = if n < 10 then n + 48 else n + 87 := by
    intro n hn
    interval_cases n <;> rfl
  have hlower := toNat_toLower c
  rw [isSome_hexDigit?_iff]
  constructor
  · intro hcode
    refine ⟨if c.toNat < 58 then c.toNat - 48 else c.toLower.toNat - 87, ?_, Char.toNat_inj.1 ?_⟩
    · split_ifs at hlower ⊢ <;> omega
    · rw [hdigits _ (by split_ifs at hlower ⊢ <;> omega)]
      split_ifs at hlower ⊢ <;> omega
  · rintro ⟨n, hn, heq⟩
    rw [heq, hdigits n hn] at hlower
    split_ifs at hlower <;> omega

/-- Lower-case hexadecimal digits and nothing else. -/
def IsHexDigits (cs : List Char) : Prop := cs ≠ [] ∧ ∀ c ∈ cs, ∃ n < 16, c = Nat.digitChar n

theorem IsHexDigits.isHexText {cs : List Char} (h : IsHexDigits cs) : IsHexText cs := by
  refine ⟨h.1, fun c hc ↦ ?_⟩
  obtain ⟨n, hn, rfl⟩ := h.2 c hc
  rw [hexDigit?_digitChar hn]
  rfl

theorem IsHexDigits.isHexInt {cs : List Char} (h : IsHexDigits cs) : isHexInt cs = true :=
  h.isHexText.isHexInt

end PyText
