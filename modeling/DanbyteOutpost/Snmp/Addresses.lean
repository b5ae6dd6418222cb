import DanbyteOutpost.Data.HexText
import DanbyteOutpost.Snmp.Protocol

/-!
# MAC addresses

`_fmt_mac` and `_norm_mac` read the notations of an address there are, `_mac_from_index` the six
decimal parts of a forwarding table's index. An address a table gave is a `Mac`, so its text is
canonical: `normMac_text` says that `_norm_mac` leaves it as it is.

## The proof of the canonical text

A `Mac` is six octets, and its text their digits in pairs. `fmtMac_text` follows what `_fmt_mac`
does with it: there is no prefix to drop, filtering the separators leaves the twelve digits, and
grouping them by two puts the separators back. `text_injective` is why rows may be compared by
their texts.

The reasons for which an entry is dropped are constructors (`DropReason`); `dropReason` looks at
the address alone, the other ones being matters of ports and statuses.
-/

namespace Snmp

open PyText

/-! ### Notations -/

/-- `":".join(hexs[i:i + 2] …)` of an even number of digits. -/
def pairs : List Char → List Char
  | a :: b :: c :: rest => a :: b :: ':' :: pairs (c :: rest)
  | cs => cs

/-- `":".join(f"{b:02x}" for b in octets)`. -/
def macText (octets : List ℕ) : String := String.ofList (pairs (octets.flatMap hex2))

/-- `":".join(…).lower()` of twelve digits. -/
def grouped (hexs : List Char) : String := String.ofList ((pairs hexs).map Char.toLower)

/-- `raw[2:]` of a `0x…` text. -/
def dropPrefix0x : List Char → List Char
  | '0' :: 'x' :: cs => cs
  | cs => cs

/-- `hexs[2:]` of a `0x…` or `0X…` text. -/
def dropPrefix0X : List Char → List Char
  | '0' :: 'x' :: cs => cs
  | '0' :: 'X' :: cs => cs
  | cs => cs

/-- `_fmt_mac`. -/
def fmtMac (raw : String) : String :=
  let octets := (raw.toList.map Char.toNat).filter fun b ↦ decide (b < 256)
  if raw.length = 6 ∧ ¬ ['0', 'x'] <+: raw.toList ∧ octets.length = 6 then macText octets
  else
    let hexs := (dropPrefix0x raw.toList).filter fun c ↦ c ≠ ':' && c ≠ ' '
    if hexs.length = 12 ∧ isHexInt hexs then grouped hexs else raw

/-- A character of `_MAC_SEPARATORS`. -/
def isMacSeparator (c : Char) : Bool := isSpace c || c = ':' || c = '.' || c = '-'

/-- `_norm_mac` of a text. -/
def normMac (value : String) : String :=
  let hexs := dropPrefix0X ((fmtMac (strip value)).toList.filter fun c ↦ !isMacSeparator c)
  if hexs.length = 12 ∧ isHexInt hexs then grouped hexs else ""

/-- The address of six zero octets. -/
def zeroMac : String := "00:00:00:00:00:00"

/-! ### Addresses of a table -/

/-- A MAC address. -/
structure Mac where
  /-- Its octets. -/
  octets : List ℕ
  /-- There are six of them. -/
  six : octets.length = 6
  /-- They are octets. -/
  small : ∀ b ∈ octets, b < 256

instance : DecidableEq Mac := fun m m' ↦
  decidable_of_iff (m.octets = m'.octets) (by cases m; cases m'; simp)

namespace Mac

/-- Its canonical text. -/
def text (mac : Mac) : String := macText mac.octets

/-- `_mac_from_index`; `none` is its `""`. -/
def fromIndex (parts : Oid) : Option Mac :=
  if h : parts.length = 6 ∧ ∀ b ∈ parts, b < 256 then some ⟨parts, h.1, h.2⟩ else none

/-- Six parts of an index are the octets of an address, and no other number of parts is. -/
theorem fromIndex_eq_some {parts : Oid} {mac : Mac} :
    fromIndex parts = some mac ↔ parts = mac.octets := by
  rw [fromIndex]
  split
  case isTrue h =>
    refine ⟨fun heq ↦ (congrArg octets (Option.some.inj heq)), ?_⟩
    rintro rfl
    rfl
  case isFalse h =>
    refine ⟨nofun, ?_⟩
    rintro rfl
    exact absurd ⟨mac.six, mac.small⟩ h

/-- A reason of `mac_drop_reason`. -/
inductive DropReason
  /-- An address of a group, or all zeros. -/
  | group
  /-- An address of the device itself. -/
  | own
  deriving DecidableEq

/-- `int(norm[:2], 16)` of a normalised address. -/
def firstOctet (norm : String) : ℕ :=
  match norm.toList with
  | c :: d :: _ => 16 * (hexDigit? c).getD 0 + (hexDigit? d).getD 0
  | _ => 0

/-- `mac_drop_reason` of an address a table gave; `none` is a host. -/
def dropReason (own : List String) (mac : Mac) : Option DropReason :=
  let norm := normMac mac.text
  if norm = "" ∨ firstOctet norm % 2 = 1 ∨ norm = zeroMac then some .group
  else if norm ∈ own then some .own
  else none

end Mac

/-! ### Canonical text -/

/-- The colon comes behind two characters, if more follow. -/
theorem pairs_cons_cons {a b : Char} {cs : List Char} (h : cs ≠ []) :
    pairs (a :: b :: cs) = a :: b :: ':' :: pairs cs := by
  obtain ⟨c, rest, rfl⟩ := List.exists_cons_of_ne_nil h
  rfl

/-- The digits of octets. -/
def digits (octets : List ℕ) : List Char := octets.flatMap hex2

/-- Every character of the digits is a hexadecimal digit in lower case. -/
theorem mem_digits {octets : List ℕ} (h : ∀ b ∈ octets, b < 256) {c : Char}
    (hc : c ∈ digits octets) : ∃ n < 16, c = Nat.digitChar n := by
  obtain ⟨b, hb, hc⟩ := List.mem_flatMap.1 hc
  have hlt := h b hb
  rcases List.mem_cons.1 hc with rfl | hc
  · exact ⟨b / 16, by omega, rfl⟩
  · rcases List.mem_cons.1 hc with rfl | hc
    · exact ⟨b % 16, by omega, rfl⟩
    · cases hc

theorem length_digits (octets : List ℕ) : (digits octets).length = 2 * octets.length := by
  induction octets with
  | nil => rfl
  | cons b octets ih =>
    show (hex2 b ++ digits octets).length = _
    rw [List.length_append, ih, List.length_cons]
    show 2 + _ = _
    omega

theorem digits_injective {octets octets' : List ℕ} (h : ∀ b ∈ octets, b < 256)
    (h' : ∀ b ∈ octets', b < 256) (heq : digits octets = digits octets') : octets = octets' := by
  induction octets generalizing octets' with
  | nil =>
    cases octets' with
    | nil => rfl
    | cons => cases heq
  | cons b octets ih =>
    cases octets' with
    | nil => cases heq
    | cons b' octets' =>
      have hlt := h b List.mem_cons_self
      have hlt' := h' b' List.mem_cons_self
      have hinj : ∀ {n n'}, n < 16 → n' < 16 → Nat.digitChar n = Nat.digitChar n' → n = n' := by
        intro n n' hn hn' hc
        have := hexDigit?_digitChar hn
        rw [hc, hexDigit?_digitChar hn'] at this
        exact (Option.some.inj this).symm
      obtain ⟨hhigh, hlow, hrest⟩ : Nat.digitChar (b / 16) = Nat.digitChar (b' / 16) ∧
          Nat.digitChar (b % 16) = Nat.digitChar (b' % 16) ∧ digits octets = digits octets' := by
        simpa only [digits, List.flatMap_cons, hex2, List.cons_append, List.nil_append,
          List.cons.injEq] using heq
      have := hinj (by omega) (by omega) hhigh
      have := hinj (by omega) (by omega) hlow
      rw [ih (fun c hc ↦ h c (List.mem_cons_of_mem _ hc))
        (fun c hc ↦ h' c (List.mem_cons_of_mem _ hc)) hrest, show b = b' by omega]

/-- Taking the colons out gives the digits back. -/
theorem filter_pairs {p : Char → Bool} (hcolon : p ':' = false) :
    ∀ {cs : List Char}, (∀ c ∈ cs, p c = true) → (pairs cs).filter p = cs
  | [], _ => rfl
  | [a], h => List.filter_eq_self.2 h
  | [a, b], h => List.filter_eq_self.2 h
  | a :: b :: c :: rest, h => by
    have hrest : (pairs (c :: rest)).filter p = c :: rest :=
      filter_pairs hcolon fun c' hc' ↦ h c' (List.mem_cons_of_mem _ (List.mem_cons_of_mem _ hc'))
    rw [pairs, List.filter_cons_of_pos (h a (by simp)), List.filter_cons_of_pos (h b (by simp)),
      List.filter_cons_of_neg (by rw [hcolon]; exact Bool.false_ne_true), hrest]

/-- The colons do not mind what is done to the digits. -/
theorem map_pairs {f : Char → Char} (hcolon : f ':' = ':') :
    ∀ cs : List Char, (pairs cs).map f = pairs (cs.map f)
  | [] | [_] | [_, _] => rfl
  | a :: b :: c :: rest => by
    rw [pairs, List.map_cons, List.map_cons, List.map_cons, map_pairs hcolon (c :: rest), hcolon]
    rfl

theorem dropPrefix0x_digits {cs : List Char} (h : ∀ c ∈ cs, c ≠ 'x') : dropPrefix0x cs = cs := by
  unfold dropPrefix0x
  split
  · exact absurd rfl (h 'x' (by simp))
  · rfl

theorem dropPrefix0X_digits {cs : List Char} (h : ∀ c ∈ cs, c ≠ 'x' ∧ c ≠ 'X') :
    dropPrefix0X cs = cs := by
  unfold dropPrefix0X
  split
  · exact absurd rfl (h 'x' (by simp)).1
  · exact absurd rfl (h 'X' (by simp)).2
  · rfl

/-- The digits of octets are digits, and some. -/
theorem isHexDigits_digits {octets : List ℕ} (hne : octets ≠ []) (h : ∀ b ∈ octets, b < 256) :
    IsHexDigits (digits octets) := by
  refine ⟨fun hnil ↦ hne ?_, fun c hc ↦ mem_digits h hc⟩
  have hlen := length_digits octets
  rw [hnil, List.length_nil] at hlen
  exact List.length_eq_zero_iff.1 (by omega)

theorem mem_pairs {cs : List Char} {c : Char} (h : c ∈ pairs cs) : c = ':' ∨ c ∈ cs := by
  fun_induction pairs cs with
  | case1 a b c' rest ih =>
    simp only [List.mem_cons] at h ih ⊢
    tauto
  | case2 => exact .inr h

theorem length_pairs : ∀ {cs : List Char} (n : ℕ), cs.length = 2 * n + 2 →
    (pairs cs).length = 3 * n + 2
  | [_, _], 0, _ => rfl
  | a :: b :: c :: rest, n + 1, h => by
    have ih : (pairs (c :: rest)).length = 3 * n + 2 := length_pairs n (by simp at h ⊢; omega)
    rw [pairs, List.length_cons, List.length_cons, List.length_cons, ih]
    omega

namespace Mac

variable (mac : Mac)

/-- The text of an address is its digits in pairs. -/
theorem toList_text : mac.text.toList = pairs (digits mac.octets) := String.toList_ofList

theorem length_digits_octets : (digits mac.octets).length = 12 := by
  rw [length_digits, mac.six]

theorem isHexDigits_octets : IsHexDigits (digits mac.octets) := by
  refine isHexDigits_digits (fun hnil ↦ ?_) mac.small
  have := mac.six
  rw [hnil] at this
  cases this

/-- A character of the text is a digit or a colon. -/
theorem mem_text {c : Char} (h : c ∈ mac.text.toList) :
    c = ':' ∨ ∃ n < 16, c = Nat.digitChar n := by
  rw [toList_text] at h
  exact (mem_pairs h).imp_right (mem_digits mac.small)

/-- `_group` puts the colons where the text has them. -/
theorem grouped_digits : grouped (digits mac.octets) = mac.text := by
  rw [grouped, map_pairs rfl, List.map_congr_left (g := id), List.map_id]
  · rfl
  · intro c hc
    obtain ⟨n, hn, rfl⟩ := mem_digits mac.small hc
    exact (digitChar_plain hn).2.2

/-- The canonical text, its colons and what else is not a digit taken out. -/
theorem filter_text {p : Char → Bool} (hcolon : p ':' = false)
    (hdigit : ∀ n < 16, p (Nat.digitChar n) = true) :
    mac.text.toList.filter p = digits mac.octets := by
  rw [toList_text]
  refine filter_pairs hcolon fun c hc ↦ ?_
  obtain ⟨n, hn, rfl⟩ := mem_digits mac.small hc
  exact hdigit n hn

/-- The canonical text is its own formatting. -/
theorem fmtMac_text : fmtMac mac.text = mac.text := by
  have hlen : mac.text.length = 17 := by
    rw [← String.length_toList, toList_text]
    exact length_pairs 5 mac.length_digits_octets
  have hx : ∀ c ∈ mac.text.toList, c ≠ 'x' := by
    rintro c hc rfl
    rcases mac.mem_text hc with h | ⟨n, hn, h⟩
    · exact absurd h (by decide)
    · exact (digitChar_plain hn).2.1 (h ▸ by simp)
  have hhexs : mac.text.toList.filter (fun c ↦ c ≠ ':' && c ≠ ' ') = digits mac.octets :=
    mac.filter_text (by decide) fun n hn ↦ by interval_cases n <;> rfl
  rw [fmtMac]
  rw [if_neg fun h ↦ absurd (hlen.symm.trans h.1) (by decide), dropPrefix0x_digits hx, hhexs]
  exact (if_pos ⟨mac.length_digits_octets, mac.isHexDigits_octets.isHexInt⟩).trans
    mac.grouped_digits

/-- What `_fmt_mac` turns into canonical text stays so. -/
theorem normMac_of_fmtMac {value : String} (h : fmtMac (strip value) = mac.text) :
    normMac value = mac.text := by
  have hhexs : mac.text.toList.filter (fun c ↦ !isMacSeparator c) = digits mac.octets :=
    mac.filter_text (by decide) fun n hn ↦ by interval_cases n <;> rfl
  have hx : ∀ c ∈ digits mac.octets, c ≠ 'x' ∧ c ≠ 'X' := by
    intro c hc
    obtain ⟨n, hn, rfl⟩ := mem_digits mac.small hc
    have := (digitChar_plain hn).2.1
    simp only [List.mem_cons, not_or] at this
    exact ⟨this.2.2.2.2.2.1, this.2.2.2.2.2.2.1⟩
  rw [normMac]
  rw [h, hhexs, dropPrefix0X_digits hx]
  exact (if_pos ⟨mac.length_digits_octets, mac.isHexDigits_octets.isHexInt⟩).trans
    mac.grouped_digits

/-- `_norm_mac` leaves a canonical address as it is. -/
theorem normMac_text : normMac mac.text = mac.text := by
  have hstrip : strip mac.text = mac.text := by
    refine strip_of_forall fun c hc ↦ ?_
    rcases mac.mem_text hc with rfl | ⟨n, hn, rfl⟩
    · rfl
    · exact (digitChar_plain hn).1
  exact mac.normMac_of_fmtMac (by rw [hstrip, fmtMac_text])

theorem text_injective {mac mac' : Mac} (h : mac.text = mac'.text) : mac = mac' := by
  have hdigits : digits mac.octets = digits mac'.octets := by
    have hfilter : ∀ m : Mac, m.text.toList.filter (fun c ↦ c ≠ ':') = digits m.octets :=
      fun m ↦ m.filter_text (by decide) fun n hn ↦ by interval_cases n <;> rfl
    rw [← hfilter mac, ← hfilter mac', h]
  have hoctets : mac.octets = mac'.octets := digits_injective mac.small mac'.small hdigits
  cases mac
  cases mac'
  subst hoctets
  rfl

/-- The first octet of a text is read back, as the filter for group addresses does. -/
theorem firstOctet_text : firstOctet mac.text = mac.octets.headD 0 := by
  obtain ⟨octets, hsix, hsmall⟩ := mac
  obtain ⟨b, rest, rfl⟩ := List.exists_cons_of_length_eq_add_one hsix
  have hlt : b < 256 := hsmall b List.mem_cons_self
  have hne : digits rest ≠ [] := by
    intro hnil
    have := length_digits rest
    rw [hnil, List.length_nil] at this
    rw [List.length_cons] at hsix
    omega
  have hhead : (Mac.mk (b :: rest) hsix hsmall).text.toList =
      Nat.digitChar (b / 16) :: Nat.digitChar (b % 16) :: ':' :: pairs (digits rest) := by
    rw [toList_text]
    exact pairs_cons_cons hne
  rw [firstOctet, hhead]
  show 16 * (hexDigit? _).getD 0 + (hexDigit? _).getD 0 = b
  rw [hexDigit?_digitChar (by omega), hexDigit?_digitChar (by omega), Option.getD_some,
    Option.getD_some]
  omega

/-- An address is a host's when its first octet is even, it is not all zero, and the device has no
such address of its own. -/
theorem dropReason_eq_none {own : List String} :
    mac.dropReason own = none ↔
      mac.octets.headD 0 % 2 = 0 ∧ mac.octets ≠ List.replicate 6 0 ∧ mac.text ∉ own := by
  have hempty : mac.text ≠ "" := by
    intro h
    have hlen : mac.text.toList.length = 17 := by
      rw [toList_text]
      exact length_pairs 5 mac.length_digits_octets
    rw [h] at hlen
    cases hlen
  have hzero : mac.text = zeroMac ↔ mac.octets = List.replicate 6 0 := by
    let zero : Mac := ⟨List.replicate 6 0, rfl, by decide⟩
    have htext : zero.text = zeroMac := by decide
    rw [← htext]
    refine ⟨fun h ↦ congrArg octets (text_injective h), fun h ↦ ?_⟩
    exact congrArg macText h
  unfold dropReason
  dsimp only
  rw [normMac_text, firstOctet_text]
  split
  case isTrue hgroup =>
    refine ⟨nofun, fun ⟨heven, hnonzero, _⟩ ↦ ?_⟩
    rcases hgroup with h | h | h
    · exact absurd h hempty
    · omega
    · exact absurd (hzero.1 h) hnonzero
  case isFalse hgroup =>
    rw [not_or, not_or, hzero] at hgroup
    split
    case isTrue hown => exact ⟨nofun, fun h ↦ absurd hown h.2.2⟩
    case isFalse hown => exact ⟨fun _ ↦ ⟨by omega, hgroup.2.2, hown⟩, fun _ ↦ rfl⟩

end Mac

end Snmp
