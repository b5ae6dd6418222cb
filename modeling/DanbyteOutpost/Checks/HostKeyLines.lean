import DanbyteOutpost.Checks.SshHostKey

/-!
# What a pasted host key line comes to

The name in a key blob is compared only where there is one to compare: `accepted_names_type_iff`
says which blobs get through without beginning with their key type.

## The name in the blob

A blob names its type in its first field. Where that field is missing, empty or cut off, what the
slices give may be the empty text, which the code does not compare (`PassesUnnamed`).

## A line written out

`keyLine` writes a line as OpenSSH does, and `keyLine_round_trip_iff` reads it back: with white
space around it, for every known key type, blob and comment, exactly if the screens for private
keys and certificates take no offence at it. They look at the whole line, comment included, so
that `comment_refused` is a comment they refuse a good key for.
-/

namespace Checks

open PyText SshWire

/-! ### The name in the blob -/

/-- `text.encode("ascii")`. -/
def codes (cs : List Char) : List ℕ := cs.map Char.toNat

/-- Octets decode to a text of ASCII characters exactly if they are their codes; an octet that is
replaced gives a character that is none of them. -/
theorem asciiReplace_eq_iff {bs : List ℕ} {cs : List Char} (h : ∀ c ∈ cs, c.toNat < 128) :
    asciiReplace bs = cs ↔ bs = codes cs := by
  induction bs generalizing cs with
  | nil =>
    rw [asciiReplace, codes, List.map_nil, eq_comm, eq_comm (a := []), List.map_eq_nil_iff]
  | cons b bs ih =>
    cases cs with
    | nil =>
      exact ⟨fun heq ↦ absurd heq (List.cons_ne_nil _ _),
        fun heq ↦ absurd heq (List.cons_ne_nil _ _)⟩
    | cons c cs =>
      have hhead : (if b < 128 then Char.ofNat b else '\uFFFD') = c ↔ b = c.toNat := by
        have hc := h c List.mem_cons_self
        split
        case isTrue hb =>
          rw [← Char.toNat_inj, toNat_ofNat (by omega)]
        case isFalse hb =>
          constructor
          · rintro rfl
            exact absurd hc (by decide)
          · omega
      have htail : asciiReplace bs = cs ↔ bs = codes cs :=
        ih fun d hd ↦ h d (List.mem_cons_of_mem c hd)
      rw [asciiReplace, List.map_cons, codes, List.map_cons, List.cons.injEq, List.cons.injEq,
        hhead]
      exact and_congr_right fun _ ↦ htail

/-- A blob names no type if it is too short to, or says that the name has no octets. -/
theorem namedType_eq_nil {raw : List ℕ} :
    namedType raw = [] ↔ raw.length ≤ 4 ∨ natOfBytes (raw.take 4) = 0 := by
  rw [namedType, asciiReplace, List.map_eq_nil_iff, List.take_eq_nil_iff, List.drop_eq_nil_iff,
    or_comm]

/-- What the comparison relies on: a known type is ASCII, has no white space in it, and is short. -/
theorem knownKeyTypes_plain {keyType : String} (h : keyType ∈ knownKeyTypes) :
    keyType.toList ≠ [] ∧ keyType.toList.length < 2 ^ 32 ∧
      ∀ c ∈ keyType.toList, c.toNat < 128 ∧ isSpace c = false := by
  have hall : (knownKeyTypes.all fun t ↦ t.toList ≠ [] && t.toList.length < 2 ^ 32 &&
      t.toList.all fun c ↦ c.toNat < 128 && !isSpace c) = true := by decide
  simpa only [Bool.and_eq_true, decide_eq_true_eq, List.all_eq_true, Bool.not_eq_true',
    and_assoc] using List.all_eq_true.1 hall keyType h

section Blob

variable {keyType : List Char} {raw : List ℕ}

/-- A name has as many octets as characters. -/
theorem length_codes : (codes keyType).length = keyType.length := List.length_map _

/-- The blob names the type in its first field. -/
def NamesType (keyType : List Char) (raw : List ℕ) : Prop :=
  ∃ rest, takeField? raw = some (codes keyType, rest)

/-- The blobs that pass without naming the type: those of a `sk-` type, whose name is not looked
at; those with no octet behind the length, or a length of zero; and those that break off right
behind the type, with a length of more octets than are there. -/
def PassesUnnamed (keyType : List Char) (raw : List ℕ) : Prop :=
  if "sk-".toList <+: keyType then ¬ string (codes keyType) <+: raw
  else
    raw.length ≤ 4 ∨ natOfBytes (raw.take 4) = 0 ∨
      (raw.drop 4 = codes keyType ∧ keyType.length < natOfBytes (raw.take 4))

/-- For a name that fits the length field, to be named is to stand at the front, in the wire
format. -/
theorem namesType_iff_begins (hlen : keyType.length < 2 ^ 32) (hraw : ∀ b ∈ raw, b < 256) :
    NamesType keyType raw ↔ string (codes keyType) <+: raw := by
  constructor
  · rintro ⟨rest, htake⟩
    exact ⟨rest, ((takeField?_eq_some hraw).1 htake).2.symm⟩
  · rintro ⟨rest, rfl⟩
    exact ⟨rest, takeField?_string (by rwa [length_codes]) rest⟩

/-- A blob passes the comparison without naming the type, or it names it. -/
theorem passes_iff (hkey : keyType ≠ []) (hlen : keyType.length < 2 ^ 32)
    (hascii : ∀ c ∈ keyType, c.toNat < 128) (hraw : ∀ b ∈ raw, b < 256) :
    (namedType raw = [] ∨ namedType raw = keyType ∨ "sk-".toList <+: keyType) ↔
      NamesType keyType raw ∨ PassesUnnamed keyType raw := by
  have hnamed : namedType raw = keyType ↔
      (raw.drop 4).take (natOfBytes (raw.take 4)) = codes keyType := asciiReplace_eq_iff hascii
  by_cases hsk : "sk-".toList <+: keyType
  · rw [PassesUnnamed, if_pos hsk, namesType_iff_begins hlen hraw]
    tauto
  · have hpos : 0 < keyType.length := List.length_pos_iff.2 hkey
    rw [PassesUnnamed, if_neg hsk, namedType_eq_nil, hnamed]
    constructor
    · rintro (hshort | hslice | hsk')
      · exact .inr (hshort.imp_right .inl)
      -- the slice is the type
      · -- the octets present spell the type: as many as the length says, or fewer
        by_cases hfits : natOfBytes (raw.take 4) ≤ (raw.drop 4).length
        · refine .inl ⟨(raw.drop 4).drop (natOfBytes (raw.take 4)), ?_⟩
          have hsum : (raw.drop 4).length + 4 = raw.length := by
            have : ((raw.drop 4).take (natOfBytes (raw.take 4))).length = keyType.length := by
              rw [hslice, length_codes]
            rw [List.length_take, List.length_drop] at this
            rw [List.length_drop]
            omega
          rw [takeField?_eq, if_pos ⟨by omega, hfits⟩, hslice]
        · rw [List.take_of_length_le (by omega)] at hslice
          refine .inr (.inr (.inr ⟨hslice, ?_⟩))
          rw [← length_codes, ← hslice]
          omega
      · exact absurd hsk' hsk
    · rintro (⟨rest, htake⟩ | hshort | hzero | ⟨hslice, hlong⟩)
      · rw [takeField?_eq] at htake
        split at htake
        · exact .inr (.inl (congrArg Prod.fst (Option.some.inj htake)))
        · cases htake
      · exact .inl (.inl hshort)
      · exact .inl (.inr hzero)
      · refine .inr (.inl ?_)
        rw [hslice, List.take_of_length_le (by rw [length_codes]; omega)]

/-- The two ways of passing exclude each other. -/
theorem not_passesUnnamed_of_namesType (hkey : keyType ≠ []) (hlen : keyType.length < 2 ^ 32)
    (hraw : ∀ b ∈ raw, b < 256) (h : NamesType keyType raw) : ¬ PassesUnnamed keyType raw := by
  by_cases hsk : "sk-".toList <+: keyType
  · rw [PassesUnnamed, if_pos hsk, not_not]
    exact (namesType_iff_begins hlen hraw).1 h
  · obtain ⟨rest, htake⟩ := h
    rw [takeField?_eq] at htake
    split at htake
    case isFalse => cases htake
    case isTrue hfits =>
      have hslice : (raw.drop 4).take (natOfBytes (raw.take 4)) = codes keyType :=
        congrArg Prod.fst (Option.some.inj htake)
      have hpos : 0 < keyType.length := List.length_pos_iff.2 hkey
      have hcount : natOfBytes (raw.take 4) = keyType.length := by
        rw [← length_codes, ← hslice, List.length_take_of_le hfits.2]
      rw [PassesUnnamed, if_neg hsk, hcount]
      rintro (hshort | hzero | ⟨-, hlong⟩)
      · rw [List.length_drop] at hfits
        omega
      · omega
      · omega

end Blob

/-- An accepted blob begins with a complete field that names its type, and everything else is
refused with the parser's own error, exactly when the text submits no blob that passes unnamed.

`namedType` is read with slices that do not fail, and a name that comes out empty is not compared.
For the keys of security tokens nothing is compared at all. -/
theorem accepted_names_type_iff (text : String) :
    ((∀ key, parsePublicKeyLine text = .ok key →
        ∃ raw, Base64.decode key.publicKey.toList = some raw ∧
          NamesType key.keyType.toList raw) ∧
      ∀ e, parsePublicKeyLine text = .error e → ∃ message, e = .sshKeyParseError message) ↔
    ∀ keyType blob rest raw, TakenUp text keyType blob rest →
      String.ofList keyType ∈ knownKeyTypes → Base64.decode blob = some raw →
      ¬ PassesUnnamed keyType raw := by
  constructor
  · rintro ⟨hnames, -⟩ keyType blob rest raw htaken hknown hraw hunnamed
    obtain ⟨hne, hlen, hplain⟩ := String.toList_ofList ▸ knownKeyTypes_plain hknown
    have hpasses := (passes_iff hne hlen (fun c hc ↦ (hplain c hc).1) (Base64.decode_lt hraw)).2
      (.inr hunnamed)
    obtain ⟨raw', hraw', hnamed⟩ := hnames _
      (parsePublicKeyLine_eq_ok.2 ⟨keyType, blob, rest, raw, htaken, hknown, hraw, hpasses, rfl⟩)
    rw [String.toList_ofList, hraw, Option.some_inj] at hraw'
    rw [String.toList_ofList, ← hraw'] at hnamed
    exact not_passesUnnamed_of_namesType hne hlen (Base64.decode_lt hraw) hnamed hunnamed
  · refine fun hno ↦ ⟨fun key hok ↦ ?_, fun e ↦ parsePublicKeyLine_error⟩
    obtain ⟨keyType, blob, rest, raw, htaken, hknown, hraw, hpasses, rfl⟩ :=
      parsePublicKeyLine_eq_ok.1 hok
    obtain ⟨hne, hlen, hplain⟩ := String.toList_ofList ▸ knownKeyTypes_plain hknown
    refine ⟨raw, by rwa [String.toList_ofList], ?_⟩
    rw [String.toList_ofList]
    exact ((passes_iff hne hlen (fun c hc ↦ (hplain c hc).1) (Base64.decode_lt hraw)).1
      hpasses).resolve_right (hno keyType blob rest raw htaken hknown hraw)

/-- A blob of three zero octets is accepted for an Ed25519 key: it has no field to name one. -/
theorem empty_blob_accepted :
    ¬ ∀ key, parsePublicKeyLine "ssh-ed25519 AAAA" = .ok key →
      ∃ raw, Base64.decode key.publicKey.toList = some raw ∧ NamesType key.keyType.toList raw := by
  intro hnames
  have htaken : TakenUp "ssh-ed25519 AAAA" "ssh-ed25519".toList "AAAA".toList [] :=
    ⟨by decide +kernel, by decide +kernel, by decide +kernel⟩
  have hraw : Base64.decode "AAAA".toList = some [0, 0, 0] := by decide
  obtain ⟨raw, hraw', rest, htake⟩ := hnames _
    (parsePublicKeyLine_eq_ok.2 ⟨_, _, _, _, htaken, by decide, hraw, .inl rfl, rfl⟩)
  rw [String.toList_ofList, hraw, Option.some_inj] at hraw'
  rw [← hraw'] at htake
  cases htake

/-! ### A line written out -/

/-- A line of a key type, a blob and a comment. -/
def keyLine (keyType : List Char) (raw : List ℕ) (comment : List Char) : List Char :=
  keyType ++ ' ' :: (Base64.encode raw ++ ' ' :: comment)

/-- The screens take a line for a private key or a certificate. -/
def Screened (line : List Char) : Prop :=
  "PRIVATE KEY".toList <:+: upper line ∨ "BEGIN CERTIFICATE".toList <:+: upper line

instance (line : List Char) : Decidable (Screened line) :=
  decidable_of_iff (isInfix "PRIVATE KEY".toList (upper line) ∨
    isInfix "BEGIN CERTIFICATE".toList (upper line)) (or_congr isInfix_iff isInfix_iff)

/-- White space behind a line is nothing to the screens. -/
theorem screened_append {post : List Char} (h : ∀ c ∈ post, isSpace c = true) (line : List Char) :
    Screened (line ++ post) ↔ Screened line := by
  have hpost : upper post = post := by
    rw [upper, List.flatMap_congr (fun c hc ↦ upperChar_of_isSpace (h c hc)),
      List.flatMap_singleton']
  have hends : ∀ {needle : List Char} {d : Char}, needle.getLast? = some d → isSpace d = false →
      (needle <:+: upper (line ++ post) ↔ needle <:+: upper line) := by
    intro needle d hlast hd
    rw [upper, List.flatMap_append]
    refine infix_append_iff_of_getLast (fun c hc heq ↦ ?_) _
    rw [← upper, hpost] at hc
    obtain rfl : d = c := Option.some.inj (hlast.symm.trans heq)
    exact Bool.false_ne_true (hd.symm.trans (h d hc))
  exact or_congr (hends (d := 'Y') (by decide) rfl) (hends (d := 'E') (by decide) rfl)

section Line

variable {keyType comment pre post : List Char} {raw : List ℕ}

/-- An octet takes two characters at least. -/
theorem encode_ne_nil (h : raw ≠ []) : Base64.encode raw ≠ [] := by
  rcases raw with - | ⟨a, - | ⟨b, - | ⟨c, rest⟩⟩⟩
  · exact absurd rfl h
  all_goals exact List.cons_ne_nil _ _

/-- Stripping a line takes the white space off its comment, or the comment off the line. -/
theorem rstripWhere_keyLine (hne : raw ≠ []) (hraw : ∀ b ∈ raw, b < 256) :
    rstripWhere isSpace (keyLine keyType raw comment) =
      keyType ++ ' ' :: (Base64.encode raw ++ rstripWhere isSpace (' ' :: comment)) := by
  obtain ⟨init, c, hlast⟩ : ∃ init c, Base64.encode raw = init ++ [c] :=
    ⟨_, _, (List.dropLast_append_getLast (encode_ne_nil hne)).symm⟩
  have hc : isSpace c = false := (Base64.encode_plain hraw c (by rw [hlast]; simp)).1
  have hline : keyLine keyType raw comment =
      (keyType ++ ' ' :: init) ++ c :: ' ' :: comment := by
    rw [keyLine, hlast]
    simp only [List.append_assoc, List.cons_append, List.nil_append]
  rw [hline, rstripWhere_append_cons hc, hlast]
  simp only [List.append_assoc, List.cons_append, List.nil_append]

/-- White space around a line goes, and white space at the end of the comment with it. -/
theorem strip_keyLine (hkey : ∀ c ∈ keyType.head?, isSpace c = false) (hne : keyType ≠ [])
    (hpre : ∀ c ∈ pre, isSpace c = true) (hpost : ∀ c ∈ post, isSpace c = true) :
    (strip (String.ofList (pre ++ keyLine keyType raw comment ++ post))).toList =
      rstripWhere isSpace (keyLine keyType raw comment) := by
  obtain ⟨c, rest, rfl⟩ := List.exists_cons_of_ne_nil hne
  have hc : isSpace c = false := hkey c rfl
  rw [strip, String.toList_ofList, String.toList_ofList, List.append_assoc,
    List.dropWhile_append_of_pos hpre, keyLine, List.cons_append, List.cons_append,
    List.dropWhile_cons_of_neg (by rw [hc]; exact Bool.false_ne_true), ← List.cons_append,
    rstripWhere_append hpost]

/-- Without words in front, the comment is the whole line, stripped. -/
theorem commentOf_splitWords (cs : List Char) :
    commentOf (splitWords 0 cs) = strip (String.ofList cs) := by
  have hdrop : strip (String.ofList cs) = strip (String.ofList (cs.dropWhile isSpace)) := by
    rw [strip, strip, String.toList_ofList, String.toList_ofList, List.dropWhile_idempotent]
  rw [hdrop, splitWords]
  split
  case h_1 hnil =>
    rw [hnil]
    decide
  case h_2 c rest hcons =>
    rw [hcons]
    rfl

/-- The words of a stripped line. -/
theorem splitWords_keyLine (hne : keyType ≠ []) (hkey : ∀ c ∈ keyType, isSpace c = false)
    (hrawne : raw ≠ []) (hraw : ∀ b ∈ raw, b < 256) :
    splitWords 2 (rstripWhere isSpace (keyLine keyType raw comment)) =
      keyType :: Base64.encode raw :: splitWords 0 (rstripWhere isSpace (' ' :: comment)) := by
  have hend : ∀ c ∈ (rstripWhere isSpace (' ' :: comment)).head?, isSpace c = true := by
    intro c hc
    obtain ⟨ds, hsplit, -⟩ := exists_eq_rstripWhere_append isSpace (' ' :: comment)
    rcases hstrip : rstripWhere isSpace (' ' :: comment) with - | ⟨d, rest⟩
    · rw [hstrip] at hc
      cases hc
    · rw [hstrip] at hsplit hc
      obtain rfl : d = c := Option.some.inj hc
      rw [← (List.cons.inj hsplit).1]
      rfl
  rw [rstripWhere_keyLine hrawne hraw, splitWords_word hne hkey (fun c hc ↦ by cases hc; rfl),
    splitWords_space rfl,
    splitWords_word (encode_ne_nil hrawne) (fun c hc ↦ (Base64.encode_plain hraw c hc).1) hend]

/-- The comment of a line is the stripped one, since the words are cut at the space in front of
it. -/
theorem commentOf_keyLine :
    commentOf (splitWords 0 (rstripWhere isSpace (' ' :: comment))) =
      strip (String.ofList comment) := by
  rw [commentOf_splitWords, strip_rstripWhere, strip, strip, String.toList_ofList,
    String.toList_ofList, List.dropWhile_cons_of_pos rfl]

/-- A line of a known type, a blob that names it and any comment comes back as it was written, and
with the fingerprint of the blob alone, exactly when the screens find nothing in it.

The screens look at the whole line in upper case, the comment with the rest. -/
theorem keyLine_round_trip_iff (hknown : String.ofList keyType ∈ knownKeyTypes)
    (hraw : ∀ b ∈ raw, b < 256) (hnames : NamesType keyType raw)
    (hpre : ∀ c ∈ pre, isSpace c = true) (hpost : ∀ c ∈ post, isSpace c = true) :
    parsePublicKeyLine (String.ofList (pre ++ keyLine keyType raw comment ++ post)) =
        .ok { keyType := String.ofList keyType
              publicKey := String.ofList (Base64.encode raw)
              comment := strip (String.ofList comment)
              fingerprint := "SHA256:" ++ String.ofList (Base64.encodeUnpadded (Sha256.digest raw))
              bits := keyBits (String.ofList keyType) (String.ofList (Base64.encode raw)) } ↔
      ¬ Screened (keyLine keyType raw comment) := by
  obtain ⟨hne, hlen, hplain⟩ := String.toList_ofList ▸ knownKeyTypes_plain hknown
  have hrawne : raw ≠ [] := by
    rintro rfl
    obtain ⟨rest, htake⟩ := hnames
    cases htake
  -- what is parsed is the line without the white space around it
  have hbody : (strip (String.ofList (pre ++ keyLine keyType raw comment ++ post))).toList =
      rstripWhere isSpace (keyLine keyType raw comment) :=
    strip_keyLine (fun c hc ↦ (hplain c (List.mem_of_mem_head? hc)).2) hne hpre hpost
  -- the screens see a little less of the line, but nothing they look for
  have hscreened : Screened (rstripWhere isSpace (keyLine keyType raw comment)) ↔
      Screened (keyLine keyType raw comment) := by
    obtain ⟨ds, hsplit, hspace⟩ :=
      exists_eq_rstripWhere_append isSpace (keyLine keyType raw comment)
    rw [← screened_append hspace, ← hsplit]
  rw [← hscreened]
  constructor
  · intro hok
    obtain ⟨_, _, _, _, htaken, -⟩ := parsePublicKeyLine_eq_ok.1 hok
    have hprivate := htaken.not_private
    have hcertificate := htaken.not_certificate
    rw [hbody] at hprivate hcertificate
    exact not_or.2 ⟨hprivate, hcertificate⟩
  · intro hno
    have hwords : splitWords 2 (rstripWhere isSpace (keyLine keyType raw comment)) = _ :=
      splitWords_keyLine hne (fun c hc ↦ (hplain c hc).2) hrawne hraw
    have htaken : TakenUp (String.ofList (pre ++ keyLine keyType raw comment ++ post)) keyType
        (Base64.encode raw) (splitWords 0 (rstripWhere isSpace (' ' :: comment))) := by
      refine ⟨?_, ?_, ?_⟩
      all_goals rw [hbody]
      · exact (not_or.1 hno).1
      · exact (not_or.1 hno).2
      · exact hwords
    have hpasses := (passes_iff hne hlen (fun c hc ↦ (hplain c hc).1) hraw).2 (.inl hnames)
    rw [htaken.parse, parseWords_of_decode hknown (Base64.decode_encode hraw) hpasses,
      commentOf_keyLine, fingerprintOf, Base64.rstripWhere_encode (Sha256.digest_lt raw)]

end Line

/-- The line of an Ed25519 key, with a comment. -/
theorem keyLine_round_trip_ed25519 :
    let raw := string (codes "ssh-ed25519".toList)
    parsePublicKeyLine (String.ofList
        ([' '] ++ keyLine "ssh-ed25519".toList raw "rack 4 ".toList ++ ['\n'])) =
      .ok { keyType := "ssh-ed25519"
            publicKey := String.ofList (Base64.encode raw)
            comment := strip (String.ofList "rack 4 ".toList)
            fingerprint := "SHA256:" ++ String.ofList (Base64.encodeUnpadded (Sha256.digest raw))
            bits := keyBits "ssh-ed25519" (String.ofList (Base64.encode raw)) } :=
  (keyLine_round_trip_iff (by decide) (by decide) ⟨[], by decide⟩
    (List.forall_mem_singleton.2 rfl) (List.forall_mem_singleton.2 rfl)).2 (by decide +kernel)

/-- A comment that speaks of a private key has its key refused. -/
theorem comment_refused :
    NamesType "ssh-ed25519".toList (string (codes "ssh-ed25519".toList)) ∧
      ¬ ∃ key, parsePublicKeyLine (String.ofList (keyLine "ssh-ed25519".toList
        (string (codes "ssh-ed25519".toList)) "see safe for private key".toList)) = .ok key := by
  refine ⟨⟨[], by decide⟩, fun ⟨key, hok⟩ ↦ ?_⟩
  obtain ⟨_, _, _, _, htaken, -⟩ := parsePublicKeyLine_eq_ok.1 hok
  exact absurd htaken.not_private (by decide +kernel)

end Checks
