import DanbyteOutpost.Snmp.Rendering

/-!
# Notations of a MAC address

`_norm_mac` strips a text, has `_fmt_mac` look at it, takes the separators out and leaves it to
`int(…, 16)` whether twelve characters are digits. Every notation of an address comes to its
canonical text (`IsNotation.normMac_eq`); what else comes out depends on how much more than digits
`int()` reads, and on what stripping does to an address that is its own text.

## The statements

* `normMac_sound_iff`: the four properties that are to hold of the result hold of a text exactly
  if the twelve characters `int()` is given, where it takes them, are hexadecimal digits.
* `prettyPrint_mac_iff`: of six octets as the SNMP library renders them, both formatters make the
  address, but for the texts of printable characters that look like a prefix or lose a blank at an
  end.

`int()` is asked because it raises for what is no number; it also takes underscores, signs and
digits of other scripts, which is the whole difference.
-/

namespace Snmp

open PyText

/-! ### Model -/

/-- `mac_drop_reason` of a text; the outer `none` is the `ValueError` of `int()`, the inner one a
host. -/
def macDropReason (own : List String) (value : String) : Option (Option Mac.DropReason) :=
  let norm := normMac value
  if norm = "" then some (some .group)
  else do
    let first ← hexInt? (norm.toList.take 2)
    if first % 2 = 1 ∨ norm = zeroMac then some (some .group)
    else if norm ∈ own then some (some .own)
    else some none

/-- The characters `_norm_mac` has `int(…, 16)` judge. -/
def macDigits (value : String) : List Char :=
  dropPrefix0X ((fmtMac (strip value)).toList.filter fun c ↦ !isMacSeparator c)

/-- A notation of an address: its digits in either case, separators anywhere, and `0x` or `0X` in
front of the digits or nothing. -/
def IsNotation (mac : Mac) (value : String) : Prop :=
  ∃ mark ds, mark ∈ [[], ['0', 'x'], ['0', 'X']] ∧ ds.map Char.toLower = digits mac.octets ∧
    value.toList.filter (fun c ↦ !isMacSeparator c) = mark ++ ds

/-! ### Digits in either case -/

/-- Digits in any case are twelve, and hexadecimal. -/
theorem isHexText_of_map_toLower {mac : Mac} {ds : List Char}
    (h : ds.map Char.toLower = digits mac.octets) : ds.length = 12 ∧ IsHexText ds := by
  have hlen : ds.length = 12 := by
    rw [← List.length_map Char.toLower, h, mac.length_digits_octets]
  refine ⟨hlen, fun hnil ↦ ?_, fun c hc ↦ ?_⟩
  · rw [hnil] at hlen
    cases hlen
  · exact isSome_hexDigit?_iff_toLower.2 (mem_digits mac.small (h ▸ List.mem_map_of_mem hc))

/-- The digits themselves are in lower case. -/
theorem map_toLower_digits (mac : Mac) :
    (digits mac.octets).map Char.toLower = digits mac.octets := by
  rw [List.map_congr_left (g := id), List.map_id]
  intro c hc
  obtain ⟨n, hn, rfl⟩ := mem_digits mac.small hc
  exact (digitChar_plain hn).2.2

/-- Grouped, digits in any case are the canonical text. -/
theorem grouped_of_map_toLower {mac : Mac} {ds : List Char}
    (h : ds.map Char.toLower = digits mac.octets) : grouped ds = mac.text := by
  rw [grouped, map_pairs rfl, h]
  rfl

/-- An even number of digits are those of octets. -/
theorem exists_digits : ∀ (k : ℕ) {cs : List Char}, cs.length = 2 * k →
    (∀ c ∈ cs, (hexDigit? c).isSome = true) →
    ∃ bs : List ℕ, bs.length = k ∧ (∀ b ∈ bs, b < 256) ∧ cs.map Char.toLower = digits bs
  | 0, cs, hlen, _ => by
    rw [List.length_eq_zero_iff.1 hlen]
    exact ⟨[], rfl, fun b hb ↦ absurd hb List.not_mem_nil, rfl⟩
  | k + 1, [], hlen, _ => by
    rw [List.length_nil] at hlen
    omega
  | k + 1, [c], hlen, _ => by
    rw [List.length_singleton] at hlen
    omega
  | k + 1, c :: d :: cs, hlen, h => by
    obtain ⟨high, hhigh, hc⟩ := isSome_hexDigit?_iff_toLower.1 (h c (by simp))
    obtain ⟨low, hlow, hd⟩ := isSome_hexDigit?_iff_toLower.1 (h d (by simp))
    have hrest : cs.length = 2 * k := by
      rw [List.length_cons, List.length_cons] at hlen
      omega
    obtain ⟨bs, hbs, hsmall, hcs⟩ := exists_digits k hrest
      fun x hx ↦ h x (List.mem_cons_of_mem c (List.mem_cons_of_mem d hx))
    refine ⟨(16 * high + low) :: bs, by rw [List.length_cons, hbs],
      List.forall_mem_cons.2 ⟨by omega, hsmall⟩, ?_⟩
    rw [List.map_cons, List.map_cons, hc, hd, hcs]
    show _ = Nat.digitChar ((16 * high + low) / 16) :: Nat.digitChar ((16 * high + low) % 16) ::
      digits bs
    rw [show (16 * high + low) / 16 = high by omega, show (16 * high + low) % 16 = low by omega]

/-- Twelve hexadecimal digits are those of an address. -/
theorem exists_mac {cs : List Char} (hlen : cs.length = 12) (h : IsHexText cs) :
    ∃ mac : Mac, cs.map Char.toLower = digits mac.octets := by
  obtain ⟨bs, hbs, hsmall, hcs⟩ := exists_digits 6 hlen h.2
  exact ⟨⟨bs, hbs, hsmall⟩, hcs⟩

theorem pairs_injective : ∀ {cs ds : List Char}, cs.length = ds.length → pairs cs = pairs ds →
    cs = ds
  | [], ds, hlen, _ => (List.length_eq_zero_iff.1 hlen.symm).symm
  | [a], [_], _, heq => heq
  | [a, b], [_, _], _, heq => heq
  | a :: b :: c :: cs, a' :: b' :: c' :: ds, hlen, heq => by
    rw [pairs, pairs, List.cons.injEq, List.cons.injEq, List.cons.injEq] at heq
    obtain ⟨ha, hb, -, hrest⟩ := heq
    have ih : c :: cs = c' :: ds := pairs_injective (by simpa using hlen) hrest
    rw [ha, hb, ih]

/-! ### Separators -/

/-- White space at the ends goes with the separators or before them, with the same left. -/
theorem filter_strip (value : String) :
    (strip value).toList.filter (fun c ↦ !isMacSeparator c) =
      value.toList.filter fun c ↦ !isMacSeparator c := by
  have hnone : ∀ cs : List Char, (∀ c ∈ cs, isSpace c = true) →
      cs.filter (fun c ↦ !isMacSeparator c) = [] := by
    intro cs hcs
    refine List.filter_eq_nil_iff.2 fun c hc ↦ ?_
    rw [isMacSeparator, hcs c hc]
    exact Bool.false_ne_true
  obtain ⟨ds, hsplit, hspace⟩ :=
    exists_eq_rstripWhere_append isSpace (value.toList.dropWhile isSpace)
  have hleft : value.toList.filter (fun c ↦ !isMacSeparator c) =
      (value.toList.dropWhile isSpace).filter fun c ↦ !isMacSeparator c := by
    conv_lhs => rw [← List.takeWhile_append_dropWhile (p := isSpace) (l := value.toList)]
    rw [List.filter_append, hnone _ fun c hc ↦ List.mem_takeWhile_imp hc, List.nil_append]
  rw [strip, String.toList_ofList, hleft]
  conv_rhs => rw [hsplit]
  rw [List.filter_append, hnone ds hspace, List.append_nil]

/-- What `norm_mac` does: the digits without separators, if there are twelve and `int` reads
them. -/
theorem normMac_eq (value : String) :
    normMac value =
      if (macDigits value).length = 12 ∧ isHexInt (macDigits value) then grouped (macDigits value)
      else "" := by
  unfold normMac macDigits
  rfl

theorem normMac_of_macDigits {mac : Mac} {value : String}
    (h : (macDigits value).map Char.toLower = digits mac.octets) : normMac value = mac.text := by
  obtain ⟨hlen, htext⟩ := isHexText_of_map_toLower h
  rw [normMac_eq, if_pos ⟨hlen, htext.isHexInt⟩, grouped_of_map_toLower h]

/-! ### Notations -/

/-- Behind a mark there are digits only, and without a mark no `0x` is seen in them. -/
theorem dropPrefix0X_mark {mark ds : List Char} (hmark : mark ∈ [[], ['0', 'x'], ['0', 'X']])
    (hds : IsHexText ds) : dropPrefix0X (mark ++ ds) = ds := by
  simp only [List.mem_cons, List.not_mem_nil, or_false] at hmark
  rcases hmark with rfl | rfl | rfl
  · exact dropPrefix0X_digits fun c hc ↦
      ⟨fun heq ↦ hds.not_mem (by simp) (heq ▸ hc), fun heq ↦ hds.not_mem (by simp) (heq ▸ hc)⟩
  · rfl
  · rfl

/-- Twelve characters of a notation, without its `0x`, are its digits. -/
theorem eq_digits_of_twelve {mark ds raw hexs : List Char}
    (hmark : mark ∈ [[], ['0', 'x'], ['0', 'X']]) (hlen : ds.length = 12) (hds : IsHexText ds)
    (hraw : raw.filter (fun c ↦ !isMacSeparator c) = mark ++ ds)
    (hhexs : hexs.filter (fun c ↦ !isMacSeparator c) =
      (dropPrefix0x raw).filter fun c ↦ !isMacSeparator c) (htwelve : hexs.length = 12) :
    hexs = ds := by
  have hsuffix : hexs.filter (fun c ↦ !isMacSeparator c) = ds ∨
      hexs.filter (fun c ↦ !isMacSeparator c) = mark ++ ds := by
    rw [hhexs]
    unfold dropPrefix0x
    split
    case h_1 cs =>
      have hcons : '0' :: 'x' :: cs.filter (fun c ↦ !isMacSeparator c) = mark ++ ds := hraw
      have hdrop := dropPrefix0X_mark hmark hds
      rw [← hcons] at hdrop
      exact .inl hdrop
    case h_2 => exact .inr hraw
  have hle := List.length_filter_le (fun c ↦ !isMacSeparator c) hexs
  have hfilter : hexs.filter (fun c ↦ !isMacSeparator c) = ds := by
    refine hsuffix.elim id fun heq ↦ ?_
    rw [heq, List.length_append] at hle
    have hnil : mark = [] := List.length_eq_zero_iff.1 (by omega)
    rw [heq, hnil, List.nil_append]
  rw [← hfilter]
  refine (List.filter_eq_self.2 (List.length_filter_eq_length_iff.1 ?_)).symm
  rw [hfilter, hlen, htwelve]

/-- Every notation of an address comes to its canonical text. -/
theorem IsNotation.normMac_eq {mac : Mac} {value : String} (h : IsNotation mac value) :
    normMac value = mac.text := by
  obtain ⟨mark, ds, hmark, hlower, hfilter⟩ := h
  obtain ⟨hlen, hds⟩ := isHexText_of_map_toLower hlower
  have hraw : (strip value).toList.filter (fun c ↦ !isMacSeparator c) = mark ++ ds :=
    (filter_strip value).trans hfilter
  have hlong : (strip value).length ≠ 6 := by
    have hle := List.length_filter_le (fun c ↦ !isMacSeparator c) (strip value).toList
    rw [hraw, List.length_append, String.length_toList] at hle
    omega
  have hhexs : ((dropPrefix0x (strip value).toList).filter fun c ↦ c ≠ ':' && c ≠ ' ').filter
      (fun c ↦ !isMacSeparator c) =
      (dropPrefix0x (strip value).toList).filter fun c ↦ !isMacSeparator c := by
    rw [List.filter_filter]
    refine List.filter_congr fun c _ ↦ ?_
    rcases hsep : isMacSeparator c with - | -
    · have hcolon : c ≠ ':' := fun heq ↦ absurd (heq ▸ hsep) (by decide)
      have hblank : c ≠ ' ' := fun heq ↦ absurd (heq ▸ hsep) (by decide)
      simp [hcolon, hblank]
    · rfl
  by_cases hacc : ((dropPrefix0x (strip value).toList).filter fun c ↦ c ≠ ':' && c ≠ ' ').length =
      12 ∧ isHexInt ((dropPrefix0x (strip value).toList).filter fun c ↦ c ≠ ':' && c ≠ ' ')
  · refine mac.normMac_of_fmtMac ?_
    rw [fmtMac]
    rw [if_neg fun hsix ↦ hlong hsix.1]
    refine (if_pos hacc).trans ?_
    rw [eq_digits_of_twelve hmark hlen hds hraw hhexs hacc.1, grouped_of_map_toLower hlower]
  · have hfmt : fmtMac (strip value) = strip value := by
      rw [fmtMac]
      rw [if_neg fun hsix ↦ hlong hsix.1]
      exact if_neg hacc
    refine normMac_of_macDigits ?_
    rw [macDigits, hfmt, hraw, dropPrefix0X_mark hmark hds, hlower]

example : normMac "0xAABB.ccdd:EE-ff" = "aa:bb:cc:dd:ee:ff" := by decide +kernel

/-! ### What comes out -/

/-- The first octet of an address is read back from its canonical text. -/
theorem hexInt?_text (mac : Mac) :
    hexInt? (mac.text.toList.take 2) = some (Int.ofNat (mac.octets.headD 0)) := by
  obtain ⟨octets, hsix, hsmall⟩ := mac
  obtain ⟨b, rest, rfl⟩ := List.exists_cons_of_length_eq_add_one hsix
  obtain ⟨c, rest, rfl⟩ := List.exists_cons_of_length_eq_add_one (Nat.succ.inj hsix)
  have hlt : b < 256 := hsmall b List.mem_cons_self
  have hhigh := hexDigit?_digitChar (show b / 16 < 16 by omega)
  have hlow := hexDigit?_digitChar (show b % 16 < 16 by omega)
  have htake : (Mac.mk (b :: c :: rest) hsix hsmall).text.toList.take 2 =
      [Nat.digitChar (b / 16), Nat.digitChar (b % 16)] := by
    rw [Mac.toList_text]
    rfl
  have htext : IsHexText [Nat.digitChar (b / 16), Nat.digitChar (b % 16)] := by
    refine ⟨List.cons_ne_nil _ _, List.forall_mem_cons.2 ⟨?_, List.forall_mem_singleton.2 ?_⟩⟩
    · rw [hhigh]
      rfl
    · rw [hlow]
      rfl
  rw [htake, htext.hexInt?, hexValue, List.filterMap_cons_some hhigh,
    List.filterMap_cons_some hlow]
  show some (Int.ofNat (16 * (16 * 0 + b / 16) + b % 16)) = some (Int.ofNat b)
  rw [show 16 * (16 * 0 + b / 16) + b % 16 = b by omega]

/-- Of an address a table gave, the reason is the one the filter takes. -/
theorem macDropReason_text (own : List String) (mac : Mac) :
    macDropReason own mac.text = some (mac.dropReason own) := by
  unfold macDropReason Mac.dropReason
  dsimp only
  rw [mac.normMac_text, hexInt?_text, mac.firstOctet_text]
  by_cases hempty : mac.text = ""
  · rw [if_pos hempty, if_pos (.inl hempty)]
  · have hodd : Int.ofNat (mac.octets.headD 0) % 2 = 1 ↔ mac.octets.headD 0 % 2 = 1 := by
      show ((mac.octets.headD 0 : ℕ) : ℤ) % 2 = 1 ↔ _
      omega
    rw [if_neg hempty, Option.bind_eq_bind, Option.bind_some]
    by_cases hgroup : mac.octets.headD 0 % 2 = 1 ∨ mac.text = zeroMac
    · rw [if_pos (hgroup.imp_left hodd.2), if_pos (.inr hgroup)]
    · rw [if_neg fun h ↦ hgroup (h.imp_left hodd.1), if_neg (not_or.2 ⟨hempty, hgroup⟩)]
      split <;> rfl

/-- A text is normal when it is blank or an address in canonical text. -/
def IsNormal (text : String) : Prop := text = "" ∨ ∃ mac : Mac, text = mac.text

theorem normMac_of_isNormal {text : String} (h : IsNormal text) : normMac text = text := by
  rcases h with rfl | ⟨mac, rfl⟩
  · decide
  · exact mac.normMac_text

/-- Nothing is raised where the address is normal. -/
theorem macDropReason_of_isNormal {value : String} (h : IsNormal (normMac value))
    (own : List String) : macDropReason own value ≠ none := by
  have hsame : macDropReason own value = macDropReason own (normMac value) := by
    rw [macDropReason, macDropReason, normMac_of_isNormal h]
  rw [hsame]
  rcases h with hempty | ⟨mac, hmac⟩
  · rw [hempty]
    exact Option.some_ne_none _
  · rw [hmac, macDropReason_text]
    exact Option.some_ne_none _

/-- What comes out is normal, unless `int` reads twelve characters that are not all digits. -/
theorem isNormal_normMac_iff (value : String) :
    IsNormal (normMac value) ↔
      ((macDigits value).length = 12 → isHexInt (macDigits value) = true →
        IsHexText (macDigits value)) := by
  rw [normMac_eq]
  split
  case isTrue hacc =>
    constructor
    · rintro (hempty | ⟨mac, hmac⟩) - -
      · have hlen : (grouped (macDigits value)).toList.length = 17 := by
          rw [grouped, String.toList_ofList, List.length_map]
          exact length_pairs 5 hacc.1
        rw [hempty] at hlen
        cases hlen
      · have hlower : (macDigits value).map Char.toLower = digits mac.octets := by
          refine pairs_injective ?_ ?_
          · rw [List.length_map, hacc.1, mac.length_digits_octets]
          · rw [← map_pairs rfl, ← mac.toList_text, ← hmac, grouped, String.toList_ofList]
        exact (isHexText_of_map_toLower hlower).2
    · intro htext
      obtain ⟨mac, hmac⟩ := exists_mac hacc.1 (htext hacc.1 hacc.2)
      exact .inr ⟨mac, grouped_of_map_toLower hmac⟩
  case isFalse hrej =>
    exact iff_of_true (.inl rfl) fun hlen hint ↦ absurd ⟨hlen, hint⟩ hrej

/-- `_norm_mac` gives nothing or a canonical address, leaves its own results alone, gives one result
for all notations of an address, and never has `mac_drop_reason` raise, exactly when the twelve
characters that are left and that `int()` reads as a number are hexadecimal digits.

`int(text, 16)` reads more than digits: a sign, an underscore between digits, another `0x`, and the
decimal digits of any script. -/
theorem normMac_sound_iff (value : String) :
    (IsNormal (normMac value) ∧ normMac (normMac value) = normMac value ∧
        (∀ mac value', IsNotation mac value → IsNotation mac value' →
          normMac value = normMac value') ∧
        ∀ own, macDropReason own value ≠ none) ↔
      ((macDigits value).length = 12 → isHexInt (macDigits value) = true →
        IsHexText (macDigits value)) := by
  refine ⟨fun hsound ↦ (isNormal_normMac_iff value).1 hsound.1, fun htext ↦ ?_⟩
  have hnormal := (isNormal_normMac_iff value).2 htext
  refine ⟨hnormal, normMac_of_isNormal hnormal, fun mac value' h h' ↦ ?_,
    macDropReason_of_isNormal hnormal⟩
  rw [h.normMac_eq, h'.normMac_eq]

/-- Two marks in front of ten digits: `int()` takes the second with them, the result is no address,
is not its own normal form, and has `mac_drop_reason` raise. -/
theorem normMac_second_mark :
    ¬ IsNormal (normMac "0X0x0123456789") ∧
      normMac (normMac "0X0x0123456789") ≠ normMac "0X0x0123456789" ∧
      macDropReason [] "0X0x0123456789" = none := by
  have hne : normMac (normMac "0X0x0123456789") ≠ normMac "0X0x0123456789" := by decide +kernel
  exact ⟨fun h ↦ hne (normMac_of_isNormal h), hne, by decide +kernel⟩

/-! ### Renderings -/

theorem length_dropPrefix0x_le (cs : List Char) : (dropPrefix0x cs).length ≤ cs.length := by
  unfold dropPrefix0x
  split
  · rw [List.length_cons, List.length_cons]
    omega
  · exact le_rfl

theorem length_dropPrefix0X_le (cs : List Char) : (dropPrefix0X cs).length ≤ cs.length := by
  unfold dropPrefix0X
  split
  · rw [List.length_cons, List.length_cons]
    omega
  · rw [List.length_cons, List.length_cons]
    omega
  · exact le_rfl

/-- At most six characters that are not taken for octets are left as they are. -/
theorem fmtMac_of_short {raw : String} (hlen : raw.length ≤ 6)
    (hoctets : raw.length ≠ 6 ∨ ['0', 'x'] <+: raw.toList) : fmtMac raw = raw := by
  have hshort : ((dropPrefix0x raw.toList).filter fun c ↦ c ≠ ':' && c ≠ ' ').length ≤ 6 := by
    refine (List.length_filter_le _ _).trans ((length_dropPrefix0x_le _).trans ?_)
    rwa [String.length_toList]
  rw [fmtMac]
  rw [if_neg fun hsix ↦ hoctets.elim (fun h ↦ h hsix.1) hsix.2.1]
  exact if_neg fun hacc ↦ absurd hacc.1 (by omega)

/-- A text of six characters or less is no notation, unless they are taken for octets. -/
theorem normMac_of_short {value : String} (hlen : (strip value).length ≤ 6)
    (hoctets : (strip value).length ≠ 6 ∨ ['0', 'x'] <+: (strip value).toList) :
    normMac value = "" := by
  have hshort : (macDigits value).length ≤ 6 := by
    rw [macDigits, fmtMac_of_short hlen hoctets]
    refine (length_dropPrefix0X_le _).trans ((List.length_filter_le _ _).trans ?_)
    rwa [String.length_toList]
  rw [normMac_eq, if_neg fun hacc ↦ absurd hacc.1 (by omega)]

section Rendered

variable (mac : Mac)

/-- The octets whose characters begin with `0x`. -/
theorem mark_prefix_iff : ['0', 'x'] <+: mac.octets.map Char.ofNat ↔
    [0x30, 0x78] <+: mac.octets := by
  have hchar : ∀ b < 256, ∀ {d : Char}, d = Char.ofNat b ↔ d.toNat = b := by
    intro b hb d
    rw [← Char.toNat_inj, toNat_ofNat (hb.trans (by decide))]
  obtain ⟨octets, hsix, hsmall⟩ := mac
  obtain ⟨b, rest, rfl⟩ := List.exists_cons_of_length_eq_add_one hsix
  obtain ⟨c, rest, rfl⟩ := List.exists_cons_of_length_eq_add_one (Nat.succ.inj hsix)
  rw [List.map_cons, List.map_cons, List.cons_prefix_cons, List.cons_prefix_cons,
    List.cons_prefix_cons, List.cons_prefix_cons, hchar b (hsmall b (by simp)),
    hchar c (hsmall c (by simp))]
  exact and_congr_right fun _ ↦ and_congr_right fun _ ↦ iff_of_true List.nil_prefix List.nil_prefix

/-- The rendering of an address that is its own text. -/
def ownText (mac : Mac) : String := String.ofList (mac.octets.map Char.ofNat)

theorem length_ownText : (ownText mac).length = 6 := by
  rw [← String.length_toList, ownText, String.toList_ofList, List.length_map, mac.six]

theorem text_ne_of_length {value : String} (h : value.length ≤ 6) : value ≠ mac.text := by
  rintro rfl
  have hlen : mac.text.length = 17 := by
    rw [← String.length_toList, Mac.toList_text]
    exact length_pairs 5 mac.length_digits_octets
  omega

/-- Six printable octets come out as their text, unless the first two read `0x`. -/
theorem fmtMac_ownText_iff : fmtMac (ownText mac) = mac.text ↔ ¬ [0x30, 0x78] <+: mac.octets := by
  rw [← mark_prefix_iff]
  by_cases hmark : ['0', 'x'] <+: mac.octets.map Char.ofNat
  · rw [fmtMac_of_short (length_ownText mac).le
      (.inr (by rwa [ownText, String.toList_ofList]))]
    exact iff_of_false (text_ne_of_length mac (length_ownText mac).le) (not_not.2 hmark)
  · have hlatin : (((ownText mac).toList.map Char.toNat).filter fun b ↦ decide (b < 256)) =
        mac.octets := by
      rw [ownText, String.toList_ofList]
      exact latin1_ofNat mac.small
    refine iff_of_true ?_ hmark
    rw [fmtMac]
    rw [hlatin, if_pos ⟨length_ownText mac, by rwa [ownText, String.toList_ofList], mac.six⟩]
    rfl

/-- The octets have a blank at an end. -/
def HasBlankEnd (mac : Mac) : Prop :=
  mac.octets.head? = some 0x20 ∨ mac.octets.getLast? = some 0x20

/-- Of the printable characters, the blank alone is white space. -/
theorem isSpace_ofNat {b : ℕ} (h : isPrintable b = true) (hne : b ≠ 0x20) :
    isSpace (Char.ofNat b) = false := by
  rw [isPrintable, Bool.and_eq_true, decide_eq_true_eq, decide_eq_true_eq] at h
  simp only [isSpace, toNat_ofNat (show b < 0xd800 by omega), Bool.or_eq_false_iff,
    Bool.and_eq_false_iff, decide_eq_false_iff_not, List.contains_eq_mem, List.mem_cons,
    List.not_mem_nil, or_false]
  omega

/-- Through `norm_mac` they come out so, too, unless it strips one of them. -/
theorem normMac_ownText_iff (hprint : mac.octets.all isPrintable = true) :
    normMac (ownText mac) = mac.text ↔ ¬ [0x30, 0x78] <+: mac.octets ∧ ¬ HasBlankEnd mac := by
  have hprint' : ∀ b ∈ mac.octets, isPrintable b = true := List.all_eq_true.1 hprint
  by_cases hblank : HasBlankEnd mac
  · have hlt : (strip (ownText mac)).length < 6 := by
      rw [← mac.six, ← List.length_map Char.ofNat]
      refine length_strip_lt (show isSpace ' ' = true from rfl) ?_
      rw [List.head?_map, List.getLast?_map]
      exact hblank.imp (congrArg (Option.map Char.ofNat)) (congrArg (Option.map Char.ofNat))
    rw [normMac_of_short hlt.le (.inl hlt.ne)]
    exact iff_of_false (text_ne_of_length mac (Nat.zero_le 6)) fun h ↦ h.2 hblank
  · obtain ⟨hhead, hlast⟩ := not_or.1 hblank
    have hstrip : strip (ownText mac) = ownText mac := by
      refine strip_of_ends (fun c hc ↦ ?_) fun c hc ↦ ?_
      · rw [List.head?_map] at hc
        obtain ⟨b, hb, rfl⟩ := Option.map_eq_some_iff.1 hc
        exact isSpace_ofNat (hprint' b (List.mem_of_mem_head? hb)) fun heq ↦ hhead (heq ▸ hb)
      · rw [List.getLast?_map] at hc
        obtain ⟨b, hb, rfl⟩ := Option.map_eq_some_iff.1 hc
        exact isSpace_ofNat (hprint' b (List.mem_of_getLast? hb)) fun heq ↦ hlast (heq ▸ hb)
    by_cases hmark : [0x30, 0x78] <+: mac.octets
    · have hmark' : ['0', 'x'] <+: (strip (ownText mac)).toList := by
        rw [hstrip, ownText, String.toList_ofList]
        exact (mark_prefix_iff mac).2 hmark
      rw [normMac_of_short (by rw [hstrip, length_ownText]) (.inr hmark')]
      exact iff_of_false (text_ne_of_length mac (Nat.zero_le 6)) fun h ↦ h.1 hmark
    · refine iff_of_true (mac.normMac_of_fmtMac ?_) ⟨hmark, hblank⟩
      rw [hstrip, fmtMac_ownText_iff]
      exact hmark

/-- Digits behind `0x` are a notation of the address. -/
theorem hexText_spec (h : mac.octets.all isPrintable ≠ true) :
    fmtMac (prettyPrint mac.octets) = mac.text ∧ normMac (prettyPrint mac.octets) = mac.text := by
  have hprint : prettyPrint mac.octets = String.ofList ('0' :: 'x' :: digits mac.octets) :=
    if_neg h
  have hkeep : ∀ {p : Char → Bool}, (∀ n < 16, p (Nat.digitChar n) = true) →
      (digits mac.octets).filter p = digits mac.octets := by
    intro p hp
    refine List.filter_eq_self.2 fun c hc ↦ ?_
    obtain ⟨n, hn, rfl⟩ := mem_digits mac.small hc
    exact hp n hn
  rw [hprint]
  constructor
  · have hlong : (String.ofList ('0' :: 'x' :: digits mac.octets)).length ≠ 6 := by
      rw [← String.length_toList, String.toList_ofList, List.length_cons, List.length_cons,
        mac.length_digits_octets]
      decide
    have hhexs : (dropPrefix0x ('0' :: 'x' :: digits mac.octets)).filter
        (fun c ↦ c ≠ ':' && c ≠ ' ') = digits mac.octets :=
      hkeep fun n hn ↦ by interval_cases n <;> rfl
    rw [fmtMac]
    rw [if_neg fun hsix ↦ hlong hsix.1, String.toList_ofList, hhexs]
    exact (if_pos ⟨mac.length_digits_octets, mac.isHexDigits_octets.isHexInt⟩).trans
      mac.grouped_digits
  · refine IsNotation.normMac_eq
      ⟨['0', 'x'], digits mac.octets, by simp, map_toLower_digits mac, ?_⟩
    rw [String.toList_ofList, List.filter_cons_of_pos (by decide),
      List.filter_cons_of_pos (by decide), hkeep fun n hn ↦ by interval_cases n <;> rfl]
    rfl

/-- Both formatters give the address of every rendering, exactly when it does not render as a text
that begins with `0x` or has a blank at an end.

A rendering is a text and can be stripped, and `0x` may be the first two characters of an address as
well as a sign that hexadecimal digits follow. -/
theorem prettyPrint_mac_iff :
    (fmtMac (prettyPrint mac.octets) = mac.text ∧ normMac (prettyPrint mac.octets) = mac.text) ↔
      ¬ (mac.octets.all isPrintable = true ∧ ([0x30, 0x78] <+: mac.octets ∨ HasBlankEnd mac)) := by
  by_cases hprint : mac.octets.all isPrintable = true
  · have htext : prettyPrint mac.octets = ownText mac := if_pos hprint
    rw [htext, fmtMac_ownText_iff, normMac_ownText_iff mac hprint]
    tauto
  · exact iff_of_true (hexText_spec mac hprint) fun h ↦ hprint h.1

end Rendered

/-- The address 20:42:43:44:45:46 renders as a blank and five letters, and stripping the blank
leaves no address. -/
theorem normMac_blank_end :
    let mac : Mac := ⟨[0x20, 0x42, 0x43, 0x44, 0x45, 0x46], rfl, by decide⟩
    mac.text = "20:42:43:44:45:46" ∧ normMac (prettyPrint mac.octets) = "" := by
  decide +kernel

end Snmp
