import Mathlib.Data.List.Basic
import Mathlib.Data.List.DropRight
import Mathlib.Data.Int.Notation

/-!
# The text operations of the agent's Python

`str` methods and `int()` on text, as functions on the characters of a `String`. What `int()` reads
are decimal digits, of any script, with single underscores between them, a sign in front and white
space around; the tables of characters are those of Unicode 15.0, as Python 3.12 has them.

Two notions of white space must be kept apart. `str.strip()` takes off everything `str.isspace`
holds of (`isSpace`). `int()` first turns the text into ASCII (`intChar`) and then takes off what C
calls white space (`asciiSpace`), so that U+001C to U+001F, which `str.strip()` takes off, make the
text no number.

The one law everything rests on is `intOfText_toString`: the decimal text of a number reads back as
that number. The limit `int()` sets on the number of digits is not part of `intOfText`; it stands
where text of any length is read (`Json.pyInt`).

## Contents

* White space and stripping: `strip`, `rstripWhere`, and what stays of a text whose ends are no
  white space (`strip_of_ends`).
* Digits: `decimalDigit?` of any script, `isDecimal` for the ASCII class of a pattern, and
  `isdigit`, which also holds of digits that are no decimal ones and that `int` raises on.
* `intBody`: what `int` looks at once sign and white space are gone.
* Around a separator: `partition` and `rpartition`, with the lemmas that say where they cut.
* Words: `splitWords`, and texts found in texts (`isInfix`).

Texts are lists of characters in the proofs; a lemma about a `String` mostly says what the lists
of its characters are.
-/

namespace PyText

/-- `str.isspace` of one character: what `str.strip()` takes off. -/
def isSpace (c : Char) : Bool :=
  (9 ≤ c.toNat && c.toNat ≤ 13) || (28 ≤ c.toNat && c.toNat ≤ 32) ||
    (0x2000 ≤ c.toNat && c.toNat ≤ 0x200a) ||
    [0x85, 0xa0, 0x1680, 0x2028, 0x2029, 0x202f, 0x205f, 0x3000].contains c.toNat

/-- A character of ASCII white space, as C has it. -/
def asciiSpace (c : Char) : Bool := c.toNat = 32 || (9 ≤ c.toNat && c.toNat ≤ 13)

/-- The zeros of the scripts with decimal digits; the digits of a script stand in a row. -/
def decimalZeros : List ℕ :=
  [0x30, 0x660, 0x6f0, 0x7c0, 0x966, 0x9e6, 0xa66, 0xae6, 0xb66, 0xbe6, 0xc66, 0xce6, 0xd66,
    0xde6, 0xe50, 0xed0, 0xf20, 0x1040, 0x1090, 0x17e0, 0x1810, 0x1946, 0x19d0, 0x1a80, 0x1a90,
    0x1b50, 0x1bb0, 0x1c40, 0x1c50, 0xa620, 0xa8d0, 0xa900, 0xa9d0, 0xa9f0, 0xaa50, 0xabf0,
    0xff10, 0x104a0, 0x10d30, 0x11066, 0x110f0, 0x11136, 0x111d0, 0x112f0, 0x11450, 0x114d0,
    0x11650, 0x116c0, 0x11730, 0x118e0, 0x11950, 0x11c50, 0x11d50, 0x11da0, 0x11f50, 0x16a60,
    0x16ac0, 0x16b50, 0x1d7ce, 0x1d7d8, 0x1d7e2, 0x1d7ec, 0x1d7f6, 0x1e140, 0x1e2f0, 0x1e4f0,
    0x1e950, 0x1fbf0]

/-- The value of a decimal digit of any script. -/
def decimalDigit? (c : Char) : Option ℕ :=
  (decimalZeros.find? fun start ↦ start ≤ c.toNat && c.toNat < start + 10).map (c.toNat - ·)

/-- `str.isdecimal` of one character, and `\d` of a pattern. -/
def isDecimalDigit (c : Char) : Bool := (decimalDigit? c).isSome

/-- The digits that are not decimal, a superscript or a circled one, as first and last of a row. -/
def otherDigits : List (ℕ × ℕ) :=
  [(0xb2, 0xb3), (0xb9, 0xb9), (0x1369, 0x1371), (0x19da, 0x19da), (0x2070, 0x2070),
    (0x2074, 0x2079), (0x2080, 0x2089), (0x2460, 0x2468), (0x2474, 0x247c), (0x2488, 0x2490),
    (0x24ea, 0x24ea), (0x24f5, 0x24fd), (0x24ff, 0x24ff), (0x2776, 0x277e), (0x2780, 0x2788),
    (0x278a, 0x2792), (0x10a40, 0x10a43), (0x10e60, 0x10e68), (0x11052, 0x1105a),
    (0x1f100, 0x1f10a)]

/-- `str.isdigit` of one character. -/
def isDigitChar (c : Char) : Bool :=
  isDecimalDigit c || otherDigits.any fun row ↦ row.1 ≤ c.toNat && c.toNat ≤ row.2

/-- `str.isdigit`. -/
def isdigit (cs : List Char) : Bool := !cs.isEmpty && cs.all isDigitChar

/-- Drop a run of matching characters at the right end: `str.rstrip`. -/
def rstripWhere (p : Char → Bool) (cs : List Char) : List Char :=
  (cs.reverse.dropWhile p).reverse

/-- `str.strip()`. -/
def strip (s : String) : String :=
  String.ofList (rstripWhere isSpace (s.toList.dropWhile isSpace))

/-- `str.rstrip(".")`. -/
def rstripDots (s : String) : String :=
  String.ofList (rstripWhere (· = '.') s.toList)

/-- `str.lower()`, on ASCII letters. -/
def lower (s : String) : String := String.ofList (s.toList.map Char.toLower)

/-- `str.upper()` of one character. The letters listed are those outside ASCII whose capitals are,
or begin with, ASCII letters; the other letters outside ASCII stand for their capitals, which are
outside ASCII too. -/
def upperChar (c : Char) : List Char :=
  match c with
  | 'ß' => ['S', 'S']
  | 'ı' => ['I']
  | 'ŉ' => ['ʼ', 'N']
  | 'ſ' => ['S']
  | 'ǰ' => ['J', '\u030c']
  | 'ẖ' => ['H', '\u0331']
  | 'ẗ' => ['T', '\u0308']
  | 'ẘ' => ['W', '\u030a']
  | 'ẙ' => ['Y', '\u030a']
  | 'ẚ' => ['A', 'ʾ']
  | 'ﬀ' => ['F', 'F']
  | 'ﬁ' => ['F', 'I']
  | 'ﬂ' => ['F', 'L']
  | 'ﬃ' => ['F', 'F', 'I']
  | 'ﬄ' => ['F', 'F', 'L']
  | 'ﬅ' => ['S', 'T']
  | 'ﬆ' => ['S', 'T']
  | _ => [c.toUpper]

/-- `str.upper()`. -/
def upper (cs : List Char) : List Char := cs.flatMap upperChar

/-- `str.split(None, n)`: at most `n` words, and what is left behind the white space after them. -/
def splitWords : ℕ → List Char → List (List Char)
  | n, cs =>
    match cs.dropWhile isSpace with
    | [] => []
    | c :: rest =>
      match n with
      | 0 => [c :: rest]
      | n + 1 =>
        (c :: rest).takeWhile (!isSpace ·) ::
          splitWords n ((c :: rest).dropWhile (!isSpace ·))

/-- `sub in s`. -/
def isInfix (sub : List Char) : List Char → Bool
  | [] => sub.isEmpty
  | c :: cs => sub.isPrefixOf (c :: cs) || isInfix sub cs

/-- `str.partition(sep)`: what stands before the first separator, whether there is one, and what
stands after it. -/
def partition (sep : Char) (cs : List Char) : List Char × Bool × List Char :=
  (cs.takeWhile (· ≠ sep), cs.contains sep, (cs.dropWhile (· ≠ sep)).tail)

/-- `str.rpartition(sep)`: around the last separator; without one everything stands after it. -/
def rpartition (sep : Char) (cs : List Char) : List Char × Bool × List Char :=
  let (after, found, before) := partition sep cs.reverse
  if found then (before.reverse, true, after.reverse) else ([], false, cs)

/-- The ASCII character `int()` reads a character as: white space outside ASCII as a blank, the
decimal digits of other scripts as digits, anything else outside ASCII as what no number has. -/
def intChar (c : Char) : Char :=
  if c.toNat < 127 then c
  else if isSpace c then ' '
  else match decimalDigit? c with
    | some d => Nat.digitChar d
    | none => '?'

/-- The text `int()` reads, in ASCII and without the white space around it. -/
def intBody (cs : List Char) : List Char :=
  rstripWhere asciiSpace ((cs.map intChar).dropWhile asciiSpace)

/-- Decimal digits, single underscores between them. -/
def isDecimal : List Char → Bool
  | [] => false
  | [c] => c.isDigit
  | c :: '_' :: cs => c.isDigit && isDecimal cs
  | c :: cs => c.isDigit && isDecimal cs

/-- The value of unsigned decimal text. -/
def natOfDigits (cs : List Char) : Option ℕ :=
  if isDecimal cs then some (Nat.ofDigitChars 10 (cs.filter (· ≠ '_')) 0) else none

/-- `int(text)`; `none` is the `ValueError`. -/
def intOfText (s : String) : Option ℤ :=
  match intBody s.toList with
  | '-' :: cs => (natOfDigits cs).map Int.negOfNat
  | '+' :: cs => (natOfDigits cs).map Int.ofNat
  | cs => (natOfDigits cs).map Int.ofNat

/-! ### Decimal digits -/

/-- Digits, and one at least, are what the pattern asks for; no underscore is needed. -/
theorem isDecimal_of_digits :
    ∀ {cs : List Char}, cs ≠ [] → (∀ c ∈ cs, c.isDigit = true) → isDecimal cs = true
  | [], h, _ => absurd rfl h
  | [c], _, h => h c (by simp)
  | c :: d :: cs, _, h => by
    have hc : c.isDigit = true := h c (by simp)
    have hd : d.isDigit = true := h d (by simp)
    have hne : d ≠ '_' := by
      rintro rfl
      exact absurd hd (by decide)
    have ih : isDecimal (d :: cs) = true :=
      isDecimal_of_digits (by simp) fun x hx ↦ h x (List.mem_cons_of_mem c hx)
    rw [isDecimal, hc, ih, Bool.and_self]
    · exact List.cons_ne_nil d cs
    · exact fun _ heq ↦ hne (List.cons.inj heq).1

/-- The pattern admits digits and underscores only. -/
theorem of_mem_isDecimal {cs : List Char} (h : isDecimal cs = true) {c : Char} (hc : c ∈ cs) :
    c.isDigit = true ∨ c = '_' := by
  fun_induction isDecimal cs with
  | case1 => exact absurd hc List.not_mem_nil
  | case2 d => exact .inl (List.mem_singleton.1 hc ▸ h)
  | case3 d cs ih =>
    obtain ⟨hd, hcs⟩ := (Bool.and_eq_true _ _).mp h
    rcases List.mem_cons.1 hc with rfl | hc
    · exact .inl hd
    rcases List.mem_cons.1 hc with rfl | hc
    · exact .inr rfl
    · exact ih hcs hc
  | case4 d cs hne hnot ih =>
    obtain ⟨hd, hcs⟩ := (Bool.and_eq_true _ _).mp h
    rcases List.mem_cons.1 hc with rfl | hc
    · exact .inl hd
    · exact ih hcs hc

/-- No ASCII digit is white space, so stripping stops at one. -/
theorem not_isSpace_of_isDigit {c : Char} (h : c.isDigit = true) : isSpace c = false := by
  have h' : 48 ≤ c.toNat ∧ c.toNat ≤ 57 := Char.isDigit_iff_toNat.1 h
  simp only [isSpace, Bool.or_eq_false_iff, Bool.and_eq_false_iff, decide_eq_false_iff_not,
    List.contains_eq_mem, List.mem_cons, List.not_mem_nil, or_false]
  omega

/-! ### Stripping -/

/-- Where nothing is to be stripped, stripping changes nothing. -/
theorem rstripWhere_of_forall {p : Char → Bool} {cs : List Char} (h : ∀ c ∈ cs, p c = false) :
    rstripWhere p cs = cs := by
  rw [rstripWhere]
  have hdrop : cs.reverse.dropWhile p = cs.reverse := by
    rcases hrev : cs.reverse with - | ⟨c, rest⟩
    · rfl
    · have hmem : c ∈ cs := List.mem_reverse.1 (by rw [hrev]; exact List.mem_cons_self)
      rw [List.dropWhile_cons_of_neg (by rw [h c hmem]; exact Bool.false_ne_true)]
  rw [hdrop, List.reverse_reverse]

/-- Stripping from the right does not get past a character that stays. -/
theorem rstripWhere_append_cons {p : Char → Bool} {c : Char} (h : p c = false) (ds : List Char) :
    ∀ cs : List Char, rstripWhere p (cs ++ c :: ds) = cs ++ c :: rstripWhere p ds := by
  intro cs
  have hstop : (c :: cs.reverse).dropWhile p = c :: cs.reverse :=
    List.dropWhile_cons_of_neg (by rw [h]; exact Bool.false_ne_true)
  rw [rstripWhere, rstripWhere, List.reverse_append, List.reverse_cons, List.append_assoc,
    List.singleton_append, List.dropWhile_append]
  split
  case isTrue hnil =>
    rw [hstop, List.isEmpty_iff.1 hnil, List.reverse_cons, List.reverse_reverse]
    rfl
  case isFalse =>
    rw [List.reverse_append, List.reverse_cons, List.reverse_reverse, List.append_assoc]
    rfl

/-- The first character stays if it is none to be stripped, whatever becomes of the rest. -/
theorem rstripWhere_cons {p : Char → Bool} {c : Char} (h : p c = false) (cs : List Char) :
    rstripWhere p (c :: cs) = c :: rstripWhere p cs :=
  rstripWhere_append_cons h cs []

/-- A tail of characters to be stripped is as good as none. -/
theorem rstripWhere_append {p : Char → Bool} {ds : List Char} (h : ∀ c ∈ ds, p c = true)
    (cs : List Char) : rstripWhere p (cs ++ ds) = rstripWhere p cs := by
  rw [rstripWhere, List.reverse_append, List.dropWhile_append_of_pos, rstripWhere]
  exact fun c hc ↦ h c (List.mem_reverse.1 hc)

/-- What is stripped at the right end are matching characters. -/
theorem exists_eq_rstripWhere_append (p : Char → Bool) (cs : List Char) :
    ∃ ds, cs = rstripWhere p cs ++ ds ∧ ∀ c ∈ ds, p c = true := by
  refine ⟨(cs.reverse.takeWhile p).reverse, ?_, fun c hc ↦
    List.mem_takeWhile_imp (List.mem_reverse.1 hc)⟩
  rw [rstripWhere, ← List.reverse_append, List.takeWhile_append_dropWhile, List.reverse_reverse]

theorem rstripWhere_idem (p : Char → Bool) (cs : List Char) :
    rstripWhere p (rstripWhere p cs) = rstripWhere p cs := by
  rw [rstripWhere, rstripWhere, List.reverse_reverse, List.dropWhile_idempotent]

/-- Stripping the right end first changes nothing. -/
theorem strip_rstripWhere (cs : List Char) :
    strip (String.ofList (rstripWhere isSpace cs)) = strip (String.ofList cs) := by
  rw [strip, strip, String.toList_ofList, String.toList_ofList]
  refine congrArg String.ofList ?_
  rcases hrest : cs.dropWhile isSpace with - | ⟨c, rest⟩
  · have hall : ∀ c ∈ cs, isSpace c = true := List.dropWhile_eq_nil_iff.1 hrest
    have hnil : rstripWhere isSpace cs = [] := rstripWhere_append hall []
    rw [hnil]
    rfl
  · have hc : isSpace c = false := by
      have := List.head_dropWhile_not isSpace (l := cs) (by rw [hrest]; exact List.cons_ne_nil _ _)
      simpa only [hrest, List.head_cons] using this
    have hsplit : cs = cs.takeWhile isSpace ++ c :: rest := by
      rw [← hrest, List.takeWhile_append_dropWhile]
    rw [hsplit, rstripWhere_append_cons hc,
      List.dropWhile_append_of_pos fun d hd ↦ List.mem_takeWhile_imp hd,
      List.dropWhile_cons_of_neg (by rw [hc]; exact Bool.false_ne_true),
      ← rstripWhere_cons hc, rstripWhere_idem]

theorem length_rstripWhere_le (p : Char → Bool) (cs : List Char) :
    (rstripWhere p cs).length ≤ cs.length := by
  rw [rstripWhere, List.length_reverse]
  exact (List.length_dropWhile_le p _).trans_eq List.length_reverse

/-- White space at either end is stripped. -/
theorem length_strip_lt {cs : List Char} {c : Char} (hc : isSpace c = true)
    (h : cs.head? = some c ∨ cs.getLast? = some c) :
    (strip (String.ofList cs)).length < cs.length := by
  rw [strip, String.toList_ofList, ← String.length_toList, String.toList_ofList]
  rcases h with hhead | hlast
  · obtain ⟨rest, rfl⟩ := List.head?_eq_some_iff.1 hhead
    rw [List.dropWhile_cons_of_pos hc, List.length_cons]
    exact Nat.lt_succ_of_le ((length_rstripWhere_le _ _).trans (List.length_dropWhile_le _ _))
  · obtain ⟨init, rfl⟩ := List.getLast?_eq_some_iff.1 hlast
    rw [List.length_append, List.length_singleton, Nat.lt_succ_iff, List.dropWhile_append]
    split
    · rw [List.dropWhile_cons_of_pos hc]
      exact Nat.zero_le _
    · rw [rstripWhere_append (List.forall_mem_singleton.2 hc)]
      exact (length_rstripWhere_le _ _).trans (List.length_dropWhile_le _ _)

/-- A text with no white space at either end is its own `strip`, whatever is between. -/
theorem strip_of_ends {cs : List Char} (hhead : ∀ c, cs.head? = some c → isSpace c = false)
    (hlast : ∀ c, cs.getLast? = some c → isSpace c = false) :
    strip (String.ofList cs) = String.ofList cs := by
  rw [strip, String.toList_ofList]
  refine congrArg String.ofList ?_
  rcases List.eq_nil_or_concat cs with rfl | ⟨init, c, rfl⟩
  · rfl
  · have hc : isSpace c = false := hlast c (by rw [List.concat_eq_append, List.getLast?_concat])
    rw [List.concat_eq_append] at hhead ⊢
    have hdrop : (init ++ [c]).dropWhile isSpace = init ++ [c] := by
      rcases init with - | ⟨d, rest⟩
      · exact List.dropWhile_cons_of_neg (by rw [hc]; exact Bool.false_ne_true)
      · exact List.dropWhile_cons_of_neg (by rw [hhead d rfl]; exact Bool.false_ne_true)
    rw [hdrop, rstripWhere_append_cons hc]
    rfl

theorem strip_of_forall {s : String} (h : ∀ c ∈ s.toList, isSpace c = false) : strip s = s := by
  have hends : strip (String.ofList s.toList) = String.ofList s.toList :=
    strip_of_ends (fun c hc ↦ h c (List.mem_of_head? hc)) fun c hc ↦ h c (List.mem_of_getLast? hc)
  rwa [String.ofList_toList] at hends

/-! ### The text `int()` reads -/

/-- Plain ASCII is read as it stands. -/
theorem intBody_of_forall {cs : List Char}
    (h : ∀ c ∈ cs, c.toNat < 127 ∧ asciiSpace c = false) : intBody cs = cs := by
  have hmap : cs.map intChar = cs :=
    (List.map_congr_left fun c hc ↦ if_pos (h c hc).1).trans (List.map_id cs)
  have hdrop : cs.dropWhile asciiSpace = cs := by
    rcases cs with - | ⟨c, rest⟩
    · rfl
    · exact List.dropWhile_cons_of_neg
        (by rw [(h c List.mem_cons_self).2]; exact Bool.false_ne_true)
  rw [intBody, hmap, hdrop, rstripWhere_of_forall fun c hc ↦ (h c hc).2]

/-- A decimal digit of ASCII is plain. -/
theorem plain_of_isDigit {c : Char} (h : c.isDigit = true) :
    c.toNat < 127 ∧ asciiSpace c = false := by
  have h' : 48 ≤ c.toNat ∧ c.toNat ≤ 57 := Char.isDigit_iff_toNat.1 h
  simp only [asciiSpace, Bool.or_eq_false_iff, Bool.and_eq_false_iff, decide_eq_false_iff_not]
  omega

/-- The digits of ASCII are the first of the scripts. -/
theorem decimalDigit?_of_isDigit {c : Char} (h : c.isDigit = true) :
    decimalDigit? c = some (c.toNat - 48) := by
  obtain ⟨hlow, hhigh⟩ : 48 ≤ c.toNat ∧ c.toNat ≤ 57 := Char.isDigit_iff_toNat.1 h
  have hfirst : decimalZeros = 48 :: decimalZeros.tail := rfl
  rw [decimalDigit?, hfirst, List.find?_cons_of_pos, Option.map_some]
  rw [Bool.and_eq_true, decide_eq_true_eq, decide_eq_true_eq]
  omega

/-- An ASCII digit is a decimal digit of Unicode. -/
theorem isDecimalDigit_of_isDigit {c : Char} (h : c.isDigit = true) : isDecimalDigit c = true := by
  rw [isDecimalDigit, decimalDigit?_of_isDigit h]
  rfl

theorem isDigitChar_of_isDigit {c : Char} (h : c.isDigit = true) : isDigitChar c = true := by
  rw [isDigitChar, isDecimalDigit_of_isDigit h, Bool.true_or]

/-- `str.isdigit` holds of digits of ASCII. -/
theorem isdigit_of_digits {cs : List Char} (hne : cs ≠ []) (h : ∀ c ∈ cs, c.isDigit = true) :
    isdigit cs = true := by
  rw [isdigit, List.isEmpty_eq_false_iff.2 hne, Bool.not_false, Bool.true_and, List.all_eq_true]
  exact fun c hc ↦ isDigitChar_of_isDigit (h c hc)

/-! ### Decimal text of a number -/

/-- The characters of a number are its decimal digits. -/
theorem toString_nat_toList (n : ℕ) : (toString n).toList = Nat.toDigits 10 n := by
  rw [Nat.toString_eq_ofList_toDigits, String.toList_ofList]

/-- The text of a number has nothing but digits in it. -/
theorem isDigit_toString (n : ℕ) : ∀ c ∈ (toString n).toList, c.isDigit = true := by
  rw [toString_nat_toList]
  exact fun c hc ↦ Nat.isDigit_of_mem_toDigits (by decide) (by decide) hc

/-- The text of a number is not empty, not even that of 0. -/
theorem toString_toList_ne_nil (n : ℕ) : (toString n).toList ≠ [] := by
  rw [toString_nat_toList]
  exact Nat.toDigits_ne_nil

theorem toString_int_ne_empty (n : ℤ) : toString n ≠ "" := by
  intro h
  have hlist := congrArg String.toList h
  cases n <;> simp [toString, Int.repr] at hlist

/-- `int(str(n))` is `n`. -/
theorem intOfText_toString (n : ℕ) : intOfText (toString n) = some (n : ℤ) := by
  have hdig : ∀ c ∈ (toString n).toList, c.isDigit = true := isDigit_toString n
  have hbody : intBody (toString n).toList = (toString n).toList :=
    intBody_of_forall fun c hc ↦ plain_of_isDigit (hdig c hc)
  have hval : natOfDigits (toString n).toList = some n := by
    rw [natOfDigits, if_pos (isDecimal_of_digits (toString_toList_ne_nil n) hdig),
      toString_nat_toList, List.filter_eq_self.2, Nat.ofDigitChars_ten_toDigits]
    intro c hc
    rw [decide_eq_true_eq]
    rintro rfl
    exact Nat.underscore_not_in_toDigits hc
  rw [intOfText, hbody]
  -- The text begins with a digit, so no sign is read off.
  split
  · rename_i cs heq
    exact absurd (hdig '-' (by rw [heq]; exact List.mem_cons_self)) (by decide)
  · rename_i cs heq
    exact absurd (hdig '+' (by rw [heq]; exact List.mem_cons_self)) (by decide)
  · rw [hval]
    rfl

/-- A text with a dot in it is no number. -/
theorem intOfText_of_dot {s : String} (h : '.' ∈ intBody s.toList) : intOfText s = none := by
  have hnone : ∀ {cs}, '.' ∈ cs → natOfDigits cs = none := by
    intro cs hdot
    refine if_neg fun hdecimal ↦ ?_
    rcases of_mem_isDecimal hdecimal hdot with hdigit | heq
    · exact absurd hdigit (by decide)
    · exact absurd heq (by decide)
  have hrest : ∀ {sign cs}, intBody s.toList = sign :: cs → sign ≠ '.' → '.' ∈ cs := by
    intro sign cs heq hne
    rw [heq] at h
    exact (List.mem_cons.1 h).resolve_left hne.symm
  rw [intOfText]
  split
  case h_1 cs heq => rw [hnone (hrest heq (by decide)), Option.map_none]
  case h_2 cs heq => rw [hnone (hrest heq (by decide)), Option.map_none]
  case h_3 => rw [hnone h, Option.map_none]

/-- Two numbers with one text are equal, by reading it back. -/
theorem toString_nat_injective {m n : ℕ} (h : toString m = toString n) : m = n := by
  have hm := intOfText_toString m
  rw [h, intOfText_toString n] at hm
  exact_mod_cast (Option.some.inj hm).symm

example : intOfText " 1_000\n" = some 1000 := by decide

-- Full-width digits are read; a file separator is no white space to `int()`.
example : intOfText "\uff11\uff16\uff11" = some 161 ∧ intOfText "\x1c161" = none := by
  decide +kernel

/-! ### Around a separator -/

/-- `partition` cuts at the first separator. -/
theorem partition_append {sep : Char} {cs ds : List Char} (h : sep ∉ cs) :
    partition sep (cs ++ sep :: ds) = (cs, true, ds) := by
  have hne : ∀ c ∈ cs, decide (c ≠ sep) = true := fun c hc ↦
    decide_eq_true fun heq ↦ h (heq ▸ hc)
  rw [partition, List.takeWhile_append_of_pos hne, List.dropWhile_append_of_pos hne]
  simp

/-- Without a separator, `partition` leaves the whole text in front. -/
theorem partition_of_notMem {sep : Char} {cs : List Char} (h : sep ∉ cs) :
    partition sep cs = (cs, false, []) := by
  have hne : ∀ c ∈ cs, decide (c ≠ sep) = true := fun c hc ↦
    decide_eq_true fun heq ↦ h (heq ▸ hc)
  rw [partition, List.takeWhile_eq_self_iff.2 hne, List.dropWhile_eq_nil_iff.2 hne,
    List.contains_eq_mem, decide_eq_false h, List.tail_nil]

/-- `rpartition` cuts at the last separator. -/
theorem rpartition_append {sep : Char} {cs ds : List Char} (h : sep ∉ ds) :
    rpartition sep (cs ++ sep :: ds) = (cs, true, ds) := by
  have hreverse : (cs ++ sep :: ds).reverse = ds.reverse ++ sep :: cs.reverse := by simp
  rw [rpartition, hreverse, partition_append (by rwa [List.mem_reverse])]
  simp

/-- Without a separator, `rpartition` leaves the whole text behind. -/
theorem rpartition_of_notMem {sep : Char} {cs : List Char} (h : sep ∉ cs) :
    rpartition sep cs = ([], false, cs) := by
  rw [rpartition, partition_of_notMem (by rwa [List.mem_reverse])]
  rfl

/-- A text ends in what stands after its last separator. -/
theorem exists_last {sep : Char} {cs : List Char} (h : sep ∈ cs) :
    ∃ before after, cs = before ++ sep :: after ∧ sep ∉ after := by
  obtain ⟨as, bs, heq, hno⟩ := List.eq_append_cons_of_mem (List.mem_reverse.2 h)
  refine ⟨bs.reverse, as.reverse, ?_, by rwa [List.mem_reverse]⟩
  rw [← List.reverse_reverse cs, heq]
  simp

/-! ### Words, and texts found in texts -/

/-- White space in front of the words does not matter to them. -/
theorem splitWords_space {c : Char} (h : isSpace c = true) (n : ℕ) (cs : List Char) :
    splitWords n (c :: cs) = splitWords n cs := by
  rw [splitWords, splitWords, List.dropWhile_cons_of_pos h]

/-- A word at the front is taken off, when the text ends behind it or white space follows. -/
theorem splitWords_word {w cs : List Char} (hne : w ≠ []) (hw : ∀ c ∈ w, isSpace c = false)
    (hcs : ∀ c ∈ cs.head?, isSpace c = true) (n : ℕ) :
    splitWords (n + 1) (w ++ cs) = w :: splitWords n cs := by
  obtain ⟨c, rest, rfl⟩ := List.exists_cons_of_ne_nil hne
  have hword : ∀ d ∈ c :: rest, (!isSpace d) = true := fun d hd ↦ by rw [hw d hd]; rfl
  have hskip : (c :: rest ++ cs).dropWhile isSpace = c :: rest ++ cs :=
    List.dropWhile_cons_of_neg (by rw [hw c List.mem_cons_self]; exact Bool.false_ne_true)
  have hend : cs.takeWhile (!isSpace ·) = [] ∧ cs.dropWhile (!isSpace ·) = cs := by
    rcases cs with - | ⟨d, ds⟩
    · exact ⟨rfl, rfl⟩
    · have hd : ¬ (!isSpace d) = true := by rw [hcs d rfl]; exact Bool.false_ne_true
      exact ⟨List.takeWhile_cons_of_neg hd, List.dropWhile_cons_of_neg hd⟩
  rw [splitWords, hskip]
  show List.takeWhile _ (c :: rest ++ cs) :: splitWords n (List.dropWhile _ (c :: rest ++ cs)) = _
  rw [List.takeWhile_append_of_pos hword, List.dropWhile_append_of_pos hword, hend.1, hend.2,
    List.append_nil]

/-- The search finds a text exactly where it is an infix. -/
theorem isInfix_iff {sub : List Char} : ∀ {cs : List Char}, isInfix sub cs = true ↔ sub <:+: cs
  | [] => by rw [isInfix, List.isEmpty_iff, List.infix_nil]
  | c :: cs => by
    rw [isInfix, Bool.or_eq_true, List.isPrefixOf_iff_prefix, isInfix_iff, List.infix_cons_iff]

/-- White space behind a text that ends in none adds nothing to be found. -/
theorem infix_append_iff_of_getLast {s : List Char} :
    ∀ {ds : List Char}, (∀ c ∈ ds, s.getLast? ≠ some c) → ∀ cs : List Char,
      s <:+: cs ++ ds ↔ s <:+: cs
  | [], _, cs => by rw [List.append_nil]
  | d :: ds, h, cs => by
    have htail : s <:+: (cs ++ [d]) ++ ds ↔ s <:+: cs ++ [d] :=
      infix_append_iff_of_getLast (fun c hc ↦ h c (List.mem_cons_of_mem d hc)) _
    have hlast : s <:+: cs ++ [d] ↔ s <:+: cs := by
      rw [List.infix_concat_iff, or_iff_right_iff_imp, List.suffix_concat_iff]
      rintro (rfl | ⟨t, rfl, -⟩)
      · exact List.nil_infix
      · exact absurd List.getLast?_concat (h d List.mem_cons_self)
    rw [← hlast, ← htail, List.append_assoc, List.singleton_append]

/-- White space has no upper case of its own. -/
theorem upperChar_of_isSpace {c : Char} (h : isSpace c = true) : upperChar c = [c] := by
  unfold upperChar
  split
  case h_18 =>
    have hlower : ¬ (c.val ≥ 'a'.val ∧ c.val ≤ 'z'.val) := by
      rintro ⟨hge, hle⟩
      have hge' : 97 ≤ c.toNat := hge
      have hle' : c.toNat ≤ 122 := hle
      simp only [isSpace, Bool.or_eq_true, Bool.and_eq_true, decide_eq_true_eq,
        List.contains_eq_mem, List.mem_cons, List.not_mem_nil, or_false] at h
      omega
    exact congrArg (fun d ↦ [d]) (dif_neg hlower)
  all_goals exact absurd h (by decide)

end PyText
