import DanbyteOutpost.Data.Base64
import DanbyteOutpost.Data.HexText
import DanbyteOutpost.Data.Sha256
import DanbyteOutpost.Data.SshWire

/-!
# Uploaded SSH host keys

`ssh_hostkey`: `parse_public_key_line` reads a pasted OpenSSH line. It screens the text for private
keys and certificates, takes the first two words for the key type and the base64 of the key blob,
and holds the type against the name the blob itself begins with. That name is read by slicing,
which never fails, so what a short blob gives is compared all the same.

`parsePublicKeyLine_eq_ok` says what an accepted line is.

## What is accepted

* `parseWords_cases`: the two words and their neighbours, in the order the code tests them.
* `parsePublicKeyLine_eq_ok`: a line is accepted as a key exactly if it is taken up so
  (`TakenUp`): it passes the screens, its type is known, its blob decodes, and the name in the
  blob, if it has one, is the type or is not compared.
* `parsePublicKeyLine_error`: everything else is refused with the parser's own error, and no other
  exception gets out.
-/

namespace Checks

open PyText

/-! ### Model -/

/-- `KNOWN_KEY_TYPES`. -/
def knownKeyTypes : List String :=
  ["ssh-ed25519", "ssh-rsa", "ssh-dss", "ecdsa-sha2-nistp256", "ecdsa-sha2-nistp384",
    "ecdsa-sha2-nistp521", "sk-ssh-ed25519@openssh.com", "sk-ecdsa-sha2-nistp256@openssh.com"]

/-- `_FIXED_BITS`. -/
def fixedBits : List (String × ℕ) :=
  [("ssh-ed25519", 256), ("sk-ssh-ed25519@openssh.com", 256), ("ecdsa-sha2-nistp256", 256),
    ("sk-ecdsa-sha2-nistp256@openssh.com", 256), ("ecdsa-sha2-nistp384", 384),
    ("ecdsa-sha2-nistp521", 521)]

/-- What `parse_public_key_line` can raise: its own error with a message, or the error of the
base64 decoder. -/
inductive KeyError
  /-- `SSHKeyParseError`. -/
  | sshKeyParseError (message : String)
  /-- `binascii.Error`, which is a `ValueError`. -/
  | base64Error
  deriving DecidableEq, Repr

/-- What `parse_public_key_line` returns. -/
structure HostKey where
  /-- The first word of the line. -/
  keyType : String
  /-- The second, the key in base64. -/
  publicKey : String
  /-- The rest of the line. -/
  comment : String
  /-- `SHA256:` and the digest in base64, without padding. -/
  fingerprint : String
  /-- The size of the key, where it is known. -/
  bits : Option ℕ
  deriving DecidableEq, Repr

/-- The fingerprint of the octets of a key. -/
def fingerprintOf (raw : List ℕ) : String :=
  "SHA256:" ++ String.ofList (rstripWhere (· = '=') (Base64.encode (Sha256.digest raw)))

/-- `fingerprint_from_blob`. -/
def fingerprintFromBlob (blobB64 : String) : Except KeyError String :=
  match Base64.decode blobB64.toList with
  | none => .error .base64Error
  | some raw => .ok (fingerprintOf raw)

/-- `_field` of `_rsa_bits`: the field at an offset, and the offset behind it. -/
def rsaField (raw : List ℕ) (off : ℕ) : List ℕ × ℕ :=
  let n := SshWire.natOfBytes ((raw.drop off).take 4)
  ((raw.drop (off + 4)).take n, off + 4 + n)

/-- `_rsa_bits`. -/
def rsaBits (blobB64 : String) : Option ℕ :=
  match Base64.decode blobB64.toList with
  | none => none
  | some raw =>
    let (_, off) := rsaField raw 0
    let (_, off) := rsaField raw off
    let (n, _) := rsaField raw off
    let n := n.dropWhile (· = 0)
    if n.length * 8 = 0 then none else some (n.length * 8)

/-- `bytes.decode("ascii", "replace")`. -/
def asciiReplace (bs : List ℕ) : List Char :=
  bs.map fun b ↦ if b < 128 then Char.ofNat b else '\uFFFD'

/-- `raw[4:4 + named_len].decode("ascii", "replace")`. -/
def namedType (raw : List ℕ) : List Char :=
  asciiReplace ((raw.drop 4).take (SshWire.natOfBytes (raw.take 4)))

/-- `parts[2].strip() if len(parts) == 3 else ""`. -/
def commentOf : List (List Char) → String
  | [part] => strip (String.ofList part)
  | _ => ""

/-- The size of a key in bits, where it is known. -/
def keyBits (keyType blob : String) : Option ℕ :=
  match fixedBits.lookup keyType with
  | some bits => some bits
  | none => if keyType = "ssh-rsa" then rsaBits blob else none

/-- The first forty characters, `text[:40]`. -/
def clipped (cs : List Char) : String := String.ofList (cs.take 40)

/-- `parse_public_key_line` of the words of a line. -/
def parseWords (keyType blob : List Char) (rest : List (List Char)) : Except KeyError HostKey :=
  if String.ofList keyType ∉ knownKeyTypes then
    .error (.sshKeyParseError ("Unknown SSH key type '" ++ clipped keyType ++
      "'. Expected one of: ssh-ed25519, ssh-rsa, ecdsa-sha2-nistp256/384/521, …"))
  else
    match Base64.decode blob with
    | none => .error (.sshKeyParseError "The key data isn't valid base64.")
    | some raw =>
      let named := namedType raw
      if named ≠ [] ∧ named ≠ keyType ∧ ¬ "sk-".toList <+: keyType then
        .error (.sshKeyParseError ("Key type '" ++ String.ofList keyType ++
          "' doesn't match the key data ('" ++ clipped named ++ "')."))
      else
        (fingerprintFromBlob (String.ofList blob)).map fun fingerprint ↦
          { keyType := String.ofList keyType
            publicKey := String.ofList blob
            comment := commentOf rest
            fingerprint
            bits := keyBits (String.ofList keyType) (String.ofList blob) }

/-- `parse_public_key_line`. -/
def parsePublicKeyLine (text : String) : Except KeyError HostKey :=
  if text = "" ∨ strip text = "" then .error (.sshKeyParseError "Paste an SSH public key.")
  else
    let body := (strip text).toList
    if isInfix "PRIVATE KEY".toList (upper body) then
      .error (.sshKeyParseError "Remove the private key; only the public key is stored.")
    else if isInfix "BEGIN CERTIFICATE".toList (upper body) then
      .error (.sshKeyParseError
        "That's a TLS certificate - add it under Certificates, not SSH host keys.")
    else
      match splitWords 2 body with
      | keyType :: blob :: rest => parseWords keyType blob rest
      | _ =>
        .error (.sshKeyParseError
          "Not an SSH public key. Expected a line like 'ssh-ed25519 AAAA… comment'.")

/-! ### What is accepted -/

/-- A text whose words are taken up: not blank, and no private key or certificate to the screens. -/
structure TakenUp (text : String) (keyType blob : List Char) (rest : List (List Char)) : Prop where
  /-- The first screen lets it through. -/
  not_private : ¬ "PRIVATE KEY".toList <:+: upper (strip text).toList
  /-- And so does the second. -/
  not_certificate : ¬ "BEGIN CERTIFICATE".toList <:+: upper (strip text).toList
  /-- It has two words at least. -/
  words : splitWords 2 (strip text).toList = keyType :: blob :: rest

/-- A line that is taken up is parsed by its words. -/
theorem TakenUp.parse {text : String} {keyType blob : List Char} {rest : List (List Char)}
    (h : TakenUp text keyType blob rest) :
    parsePublicKeyLine text = parseWords keyType blob rest := by
  have hblank : ¬ (text = "" ∨ strip text = "") := by
    have hstrip : strip text ≠ "" := by
      intro hempty
      have := h.words
      rw [hempty] at this
      cases this
    rintro (rfl | hempty)
    · exact hstrip (by decide)
    · exact hstrip hempty
  unfold parsePublicKeyLine
  rw [if_neg hblank]
  dsimp only
  rw [if_neg (isInfix_iff.not.2 h.not_private), if_neg (isInfix_iff.not.2 h.not_certificate),
    h.words]

/-- The line's words are taken up, or the text is refused with the parser's own error. -/
theorem takenUp_or_refused (text : String) :
    (∃ keyType blob rest, TakenUp text keyType blob rest) ∨
      ∃ message, parsePublicKeyLine text = .error (.sshKeyParseError message) := by
  unfold parsePublicKeyLine
  split
  case isTrue => exact .inr ⟨_, rfl⟩
  case isFalse =>
    dsimp only
    split
    case isTrue => exact .inr ⟨_, rfl⟩
    case isFalse hprivate =>
      split
      case isTrue => exact .inr ⟨_, rfl⟩
      case isFalse hcertificate =>
        split
        case h_1 keyType blob rest hwords =>
          exact .inl ⟨keyType, blob, rest, isInfix_iff.not.1 hprivate,
            isInfix_iff.not.1 hcertificate, hwords⟩
        case h_2 => exact .inr ⟨_, rfl⟩

/-- The fingerprint is that of the decoded octets. -/
theorem fingerprintFromBlob_of_decode {blob : List Char} {raw : List ℕ}
    (h : Base64.decode blob = some raw) :
    fingerprintFromBlob (String.ofList blob) = .ok (fingerprintOf raw) := by
  rw [fingerprintFromBlob, String.toList_ofList, h]

section Words

variable {keyType blob : List Char} {rest : List (List Char)}

/-- The words of a known type and valid base64 whose name is blank, right or not looked at. -/
theorem parseWords_of_decode {raw : List ℕ} (hknown : String.ofList keyType ∈ knownKeyTypes)
    (hraw : Base64.decode blob = some raw)
    (hnamed : namedType raw = [] ∨ namedType raw = keyType ∨ "sk-".toList <+: keyType) :
    parseWords keyType blob rest =
      .ok { keyType := String.ofList keyType
            publicKey := String.ofList blob
            comment := commentOf rest
            fingerprint := fingerprintOf raw
            bits := keyBits (String.ofList keyType) (String.ofList blob) } := by
  unfold parseWords
  rw [if_neg (not_not.2 hknown), hraw]
  dsimp only
  rw [if_neg (by tauto), fingerprintFromBlob_of_decode hraw]
  rfl

/-- What a parse ends in: one of the known types and a blob that names it, or no type, or one under
a security key's name; or an error of the module's own class. -/
theorem parseWords_cases (keyType blob : List Char) (rest : List (List Char)) :
    (∃ raw, String.ofList keyType ∈ knownKeyTypes ∧ Base64.decode blob = some raw ∧
      (namedType raw = [] ∨ namedType raw = keyType ∨ "sk-".toList <+: keyType)) ∨
      ∃ message, parseWords keyType blob rest = .error (.sshKeyParseError message) := by
  unfold parseWords
  split
  case isTrue => exact .inr ⟨_, rfl⟩
  case isFalse hknown =>
    split
    case h_1 => exact .inr ⟨_, rfl⟩
    case h_2 raw hraw =>
      dsimp only
      split
      case isTrue => exact .inr ⟨_, rfl⟩
      case isFalse hnamed => exact .inl ⟨raw, not_not.1 hknown, hraw, by tauto⟩

end Words

/-- An accepted line: what its words decode to, and that the name in the blob passed. -/
theorem parsePublicKeyLine_eq_ok {text : String} {key : HostKey} :
    parsePublicKeyLine text = .ok key ↔
      ∃ keyType blob rest raw, TakenUp text keyType blob rest ∧
        String.ofList keyType ∈ knownKeyTypes ∧ Base64.decode blob = some raw ∧
        (namedType raw = [] ∨ namedType raw = keyType ∨ "sk-".toList <+: keyType) ∧
        key = { keyType := String.ofList keyType
                publicKey := String.ofList blob
                comment := commentOf rest
                fingerprint := fingerprintOf raw
                bits := keyBits (String.ofList keyType) (String.ofList blob) } := by
  constructor
  · intro hok
    rcases takenUp_or_refused text with ⟨keyType, blob, rest, htaken⟩ | ⟨message, herr⟩
    · rw [htaken.parse] at hok
      rcases parseWords_cases keyType blob rest with ⟨raw, hknown, hraw, hnamed⟩ | ⟨message, herr⟩
      · rw [parseWords_of_decode hknown hraw hnamed] at hok
        exact ⟨keyType, blob, rest, raw, htaken, hknown, hraw, hnamed, (Except.ok.inj hok).symm⟩
      · rw [herr] at hok
        cases hok
    · rw [herr] at hok
      cases hok
  · rintro ⟨keyType, blob, rest, raw, htaken, hknown, hraw, hnamed, rfl⟩
    rw [htaken.parse, parseWords_of_decode hknown hraw hnamed]

/-- Whatever is not accepted is refused with the parser's own error. -/
theorem parsePublicKeyLine_error {text : String} {e : KeyError}
    (h : parsePublicKeyLine text = .error e) : ∃ message, e = .sshKeyParseError message := by
  have hrefused : ∀ {message}, parsePublicKeyLine text = .error (.sshKeyParseError message) →
      ∃ message, e = .sshKeyParseError message :=
    fun herr ↦ ⟨_, Except.error.inj (h.symm.trans herr)⟩
  rcases takenUp_or_refused text with ⟨keyType, blob, rest, htaken⟩ | ⟨message, herr⟩
  · rcases parseWords_cases keyType blob rest with ⟨raw, hknown, hraw, hnamed⟩ | ⟨message, herr⟩
    · rw [htaken.parse, parseWords_of_decode hknown hraw hnamed] at h
      cases h
    · exact hrefused (htaken.parse.trans herr)
  · exact hrefused herr

end Checks
