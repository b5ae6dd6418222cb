import DanbyteOutpost.Checks.HostKeyLines

/-!
# The size of an RSA key

`_rsa_bits` slices three fields off the blob and counts the octets of the third. A slice never
fails, so a field that is cut off counts with what there is of it, and whole octets are counted, not
bits. `rsaBits_right_iff` says for which blobs neither shows.

## Which blobs come out right

For a blob that is the encoding of an RSA key (`IsRsaBlob`) the function gives the length of the
modulus in whole octets, so it is right where that is the length in bits, a multiple of 8. For a
blob whose modulus is cut off (`CutModulus`), which is no encoding of anything, it gives the size
of what is left. `rsaBits_counts_cut_modulus` and `rsaBits_rounds_up` are one blob for each.
-/

namespace Checks

open SshWire

/-- What `_field` slices off the front of octets, and what it leaves. -/
def slice (bs : List ℕ) : List ℕ × List ℕ :=
  ((bs.drop 4).take (natOfBytes (bs.take 4)), (bs.drop 4).drop (natOfBytes (bs.take 4)))

/-- Moving the offset on is dropping what stands before it. -/
theorem rsaField_eq_slice (raw : List ℕ) (off : ℕ) :
    (rsaField raw off).1 = (slice (raw.drop off)).1 ∧
      raw.drop (rsaField raw off).2 = (slice (raw.drop off)).2 := by
  simp only [rsaField, slice, List.drop_drop, and_self]

/-- The bits counted for the modulus field. -/
def modulusBits (field : List ℕ) : Option ℕ :=
  let n := field.dropWhile (· = 0)
  if n.length * 8 = 0 then none else some (n.length * 8)

/-- On a blob that can be decoded, the function is three slices and the length of the last in
bits. -/
theorem rsaBits_of_decode {blob : String} {raw : List ℕ}
    (h : Base64.decode blob.toList = some raw) :
    rsaBits blob = modulusBits (slice (slice (slice raw).2).2).1 := by
  have hfirst := rsaField_eq_slice raw 0
  rw [List.drop_zero] at hfirst
  have hsecond := rsaField_eq_slice raw (rsaField raw 0).2
  rw [hfirst.2] at hsecond
  have hthird := rsaField_eq_slice raw (rsaField raw (rsaField raw 0).2).2
  rw [hsecond.2] at hthird
  rw [rsaBits, h]
  show modulusBits (rsaField raw (rsaField raw (rsaField raw 0).2).2).1 = _
  rw [hthird.1]

/-- Where a field can be taken off the front, a slice is that field. -/
theorem slice_of_takeField? {bs s rest : List ℕ} (h : takeField? bs = some (s, rest)) :
    slice bs = (s, rest) := by
  rw [takeField?_eq] at h
  split at h
  · exact Option.some.inj h
  · cases h

/-- Nothing is left behind a field that runs past the end. -/
theorem slice_of_takeField?_none {bs : List ℕ} (h : takeField? bs = none) : (slice bs).2 = [] := by
  rw [takeField?_eq] at h
  split at h
  case isTrue => cases h
  case isFalse hfits =>
    rw [slice, List.drop_eq_nil_iff]
    by_contra hlong
    refine hfits ⟨?_, by omega⟩
    rw [List.length_drop] at hlong
    omega

/-- A modulus field with nothing but zeros in it has no size. -/
theorem modulusBits_eq_none {field : List ℕ} : modulusBits field = none ↔ ∀ b ∈ field, b = 0 := by
  have hzeros : (field.dropWhile (· = 0)).length * 8 = 0 ↔ ∀ b ∈ field, b = 0 := by
    rw [Nat.mul_eq_zero, or_iff_left (by decide), List.length_eq_zero_iff,
      List.dropWhile_eq_nil_iff]
    exact forall₂_congr fun b _ ↦ decide_eq_true_iff
  rw [modulusBits, ← hzeros]
  split
  case isTrue hnone => exact iff_of_true rfl hnone
  case isFalse hsome => exact iff_of_false (Option.some_ne_none _) hsome

/-- The octets of a number in the wire format: the length in bits is 8 times their number, less the
sign octet, so it is right for lengths that are multiples of 8, and 0 has none. -/
theorem modulusBits_mpintOctets {n : ℕ} :
    modulusBits (mpintOctets n) = some n.size ↔ n ≠ 0 ∧ 8 ∣ n.size := by
  have hpos : n ≠ 0 ↔ n.size ≠ 0 := by rw [ne_eq, ne_eq, Nat.size_eq_zero]
  rw [modulusBits, dropWhile_mpintOctets, length_bytesOfNat, hpos]
  split
  case isTrue hnone =>
    refine ⟨fun h ↦ absurd h (Option.some_ne_none _).symm, fun ⟨hne, hdvd⟩ ↦ ?_⟩
    omega
  case isFalse hsome =>
    rw [Option.some_inj]
    omega

/-! ### Blobs -/

/-- The wire encoding of an RSA key. -/
def rsaBlob (e n : ℕ) : List ℕ := string (codes "ssh-rsa".toList) ++ (mpint e ++ mpint n)

/-- A blob is the encoding of an RSA key whose numbers are within what a length can say. -/
def IsRsaBlob (raw : List ℕ) (e n : ℕ) : Prop :=
  raw = rsaBlob e n ∧ (mpintOctets e).length < 2 ^ 32 ∧ (mpintOctets n).length < 2 ^ 32

/-- The modulus is cut off: two complete fields stand before it, and behind its length the octets
`part`, fewer than the length says. -/
def CutModulus (raw part : List ℕ) : Prop :=
  ∃ name e n, raw = string name ++ (string e ++ (be32 n ++ part)) ∧ name.length < 2 ^ 32 ∧
    e.length < 2 ^ 32 ∧ n < 2 ^ 32 ∧ part.length < n

section Blob

variable {blob : String} {raw : List ℕ} (h : Base64.decode blob.toList = some raw)

include h

/-- The bits of a well-formed RSA blob are those of its modulus as it is written. -/
theorem rsaBits_of_isRsaBlob {e n : ℕ} (hrsa : IsRsaBlob raw e n) :
    rsaBits blob = modulusBits (mpintOctets n) := by
  obtain ⟨rfl, he, hn⟩ := hrsa
  have hlast : slice (mpint n) = (mpintOctets n, []) := by
    have htake := takeField?_string hn []
    rw [List.append_nil] at htake
    exact slice_of_takeField? htake
  rw [rsaBlob] at h
  rw [rsaBits_of_decode h, slice_of_takeField? (takeField?_string (by decide) _), mpint,
    slice_of_takeField? (takeField?_string he _), hlast]

/-- A blob that ends inside its modulus has the bits of what is there, though no parser would take
it for a key. -/
theorem rsaBits_of_cutModulus {part : List ℕ} (hcut : CutModulus raw part) :
    rsaBits blob = modulusBits part ∧ takeFields? 3 raw = none := by
  obtain ⟨name, e, n, rfl, hname, he, hn, hpart⟩ := hcut
  have hlen : natOfBytes (be32 n) = n := natOfBytes_be32 hn
  have hslice : (slice (be32 n ++ part)).1 = part := by
    show part.take (natOfBytes (be32 n)) = part
    rw [hlen, List.take_of_length_le (by omega)]
  have htake : takeField? (be32 n ++ part) = none := by
    rw [takeField?_eq]
    refine if_neg fun hfits ↦ ?_
    have hle : natOfBytes (be32 n) ≤ part.length := hfits.2
    omega
  constructor
  · rw [rsaBits_of_decode h, slice_of_takeField? (takeField?_string hname _),
      slice_of_takeField? (takeField?_string he _), hslice]
  · simp [takeFields?, takeField?_string hname, takeField?_string he, htake]

/-- A field that runs past the end leaves no size, or it is the modulus that is cut off. -/
theorem rsaBits_of_truncated (htrunc : takeFields? 3 raw = none) :
    rsaBits blob = none ∨ ∃ part, CutModulus raw part := by
  have hoctets : ∀ b ∈ raw, b < 256 := Base64.decode_lt h
  have hnone : ∀ bs, (slice bs).1 = [] → modulusBits (slice bs).1 = none :=
    fun bs hbs ↦ by rw [hbs]; rfl
  rw [rsaBits_of_decode h]
  rcases hfirst : takeField? raw with - | ⟨name, rest₁⟩
  · rw [slice_of_takeField?_none hfirst]
    exact .inl rfl
  · rw [slice_of_takeField? hfirst]
    obtain ⟨hname, rfl⟩ := (takeField?_eq_some hoctets).1 hfirst
    have hoctets₁ : ∀ b ∈ rest₁, b < 256 := fun b hb ↦ hoctets b (List.mem_append_right _ hb)
    rcases hsecond : takeField? rest₁ with - | ⟨e, rest₂⟩
    · rw [slice_of_takeField?_none hsecond]
      exact .inl rfl
    · rw [slice_of_takeField? hsecond]
      obtain ⟨he, rfl⟩ := (takeField?_eq_some hoctets₁).1 hsecond
      have hthird : takeField? rest₂ = none := by
        rcases hthird : takeField? rest₂ with - | ⟨n, rest₃⟩
        · rfl
        · simp [takeFields?, hfirst, hsecond, hthird] at htrunc
      by_cases hfour : 4 ≤ rest₂.length
      · obtain ⟨a, b, c, d, part, rfl⟩ := exists_cons_four hfour
        have hhead : ∀ x ∈ [a, b, c, d], x < 256 := fun x hx ↦
          hoctets₁ x (List.mem_append_right _ (List.mem_append_left part hx))
        refine .inr ⟨part, name, e, natOfBytes [a, b, c, d], ?_, hname, he,
          natOfBytes_four_lt hhead, ?_⟩
        · rw [be32_natOfBytes hhead]
          rfl
        · by_contra hlong
          rw [takeField?_eq, if_pos ⟨hfour, not_lt.1 hlong⟩] at hthird
          cases hthird
      · refine .inl (hnone rest₂ ?_)
        rw [slice, List.drop_eq_nil_of_le (by omega), List.take_nil]

/-- `_rsa_bits` gives the bit length of every complete key and no size to a blob cut off anywhere,
exactly when the modulus is not zero and fills its octets to the last bit, and when of a modulus
that is cut off only zeros are there.

Octets are counted, not bits, and what is cut off is taken as it is, because a slice past the end
does not fail. -/
theorem rsaBits_right_iff :
    ((∀ e n, IsRsaBlob raw e n → rsaBits blob = some n.size) ∧
        (takeFields? 3 raw = none → rsaBits blob = none)) ↔
      (∀ e n, IsRsaBlob raw e n → n ≠ 0 ∧ 8 ∣ n.size) ∧
        ∀ part, CutModulus raw part → ∀ b ∈ part, b = 0 := by
  refine and_congr (forall₂_congr fun e n ↦ forall_congr' fun hrsa ↦ ?_) ⟨?_, ?_⟩
  · rw [rsaBits_of_isRsaBlob h hrsa, modulusBits_mpintOctets]
  · intro hnone part hcut
    obtain ⟨hbits, htrunc⟩ := rsaBits_of_cutModulus h hcut
    rw [← modulusBits_eq_none, ← hbits, hnone htrunc]
  · intro hzeros htrunc
    rcases rsaBits_of_truncated h htrunc with hnone | ⟨part, hcut⟩
    · exact hnone
    · rw [(rsaBits_of_cutModulus h hcut).1, modulusBits_eq_none]
      exact hzeros part hcut

end Blob

/-- Of a modulus of 257 octets one is there, and the code counts it. -/
theorem rsaBits_counts_cut_modulus :
    let raw := string (codes "ssh-rsa".toList) ++ (string [1, 0, 1] ++ (be32 257 ++ [0xbe]))
    let blob := String.ofList (Base64.encode raw)
    ¬ ((∀ e n, IsRsaBlob raw e n → rsaBits blob = some n.size) ∧
      (takeFields? 3 raw = none → rsaBits blob = none)) := by
  intro raw blob hright
  have hraw : Base64.decode blob.toList = some raw := by decide +kernel
  have hcut : CutModulus raw [0xbe] :=
    ⟨codes "ssh-rsa".toList, [1, 0, 1], 257, rfl, by decide, by decide, by decide, by decide⟩
  exact absurd (((rsaBits_right_iff hraw).1 hright).2 _ hcut 0xbe (by simp)) (by decide)

/-- The modulus 1021 has ten bits, and the code counts sixteen. -/
theorem rsaBits_rounds_up :
    ¬ ((∀ e n, IsRsaBlob (rsaBlob 65537 1021) e n →
          rsaBits (String.ofList (Base64.encode (rsaBlob 65537 1021))) = some n.size) ∧
        (takeFields? 3 (rsaBlob 65537 1021) = none →
          rsaBits (String.ofList (Base64.encode (rsaBlob 65537 1021))) = none)) := by
  rintro ⟨hbits, -⟩
  have hsize := hbits 65537 1021 ⟨rfl, by decide +kernel, by decide +kernel⟩
  exact absurd hsize (by decide +kernel)

end Checks
