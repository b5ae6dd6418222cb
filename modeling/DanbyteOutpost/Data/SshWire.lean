import Mathlib.Data.Nat.Digits.Lemmas
import Mathlib.Data.Nat.Size
import Mathlib.Tactic.Linarith

/-!
# The SSH wire encoding

A `string` is four octets of length, most significant first, and that many octets behind them; an
`mpint` is a string of the octets of a number. `takeField?` takes a complete field off the front
of a blob, and `takeField?_eq_some` says that what it takes is exactly an encoded string.

## Both directions

* `takeField?_string`: a string that was encoded is taken off as it was.
* `takeField?_eq_some`: whatever is taken off was encoded, and its length fits into four octets.
* `natOfBytes_be32`, `be32_natOfBytes`: four octets and the number they are.

`mpintOctets` puts a zero in front of a number whose first bit is set, since the format is signed;
`dropWhile_mpintOctets` takes it off again.
-/

namespace SshWire

/-- `int.from_bytes(octets, "big")`. -/
def natOfBytes (bs : List ℕ) : ℕ := bs.foldl (fun n b ↦ 256 * n + b) 0

/-- The octets of a number, most significant first and none of them a leading zero. -/
def bytesOfNat (n : ℕ) : List ℕ := (Nat.digits 256 n).reverse

/-- Four octets of length. -/
def be32 (n : ℕ) : List ℕ := [n / 2 ^ 24 % 256, n / 2 ^ 16 % 256, n / 2 ^ 8 % 256, n % 256]

/-- A `string`. -/
def string (s : List ℕ) : List ℕ := be32 s.length ++ s

/-- What an `mpint` of a number holds: a zero octet stands before a leading one bit. -/
def mpintOctets (n : ℕ) : List ℕ :=
  if 128 ≤ (bytesOfNat n).headD 0 then 0 :: bytesOfNat n else bytesOfNat n

/-- An `mpint` of a number. -/
def mpint (n : ℕ) : List ℕ := string (mpintOctets n)

/-- The complete field at the front of a blob and what stands behind it. -/
def takeField? : List ℕ → Option (List ℕ × List ℕ)
  | a :: b :: c :: d :: rest =>
    let n := natOfBytes [a, b, c, d]
    if n ≤ rest.length then some (rest.take n, rest.drop n) else none
  | _ => none

/-- The first `k` fields of a blob, when all of them are complete. -/
def takeFields? : ℕ → List ℕ → Option (List (List ℕ))
  | 0, _ => some []
  | k + 1, bs => do
    let (field, rest) ← takeField? bs
    return field :: (← takeFields? k rest)

/-! ### Lengths -/

/-- A length below 2^32 reads back from its four octets. -/
theorem natOfBytes_be32 {n : ℕ} (h : n < 2 ^ 32) : natOfBytes (be32 n) = n := by
  simp only [natOfBytes, be32, List.foldl_cons, List.foldl_nil]
  omega

theorem be32_natOfBytes {a b c d : ℕ} (h : ∀ x ∈ [a, b, c, d], x < 256) :
    be32 (natOfBytes [a, b, c, d]) = [a, b, c, d] := by
  simp only [List.forall_mem_cons] at h
  obtain ⟨ha, hb, hc, hd, -⟩ := h
  simp only [natOfBytes, be32, List.foldl_cons, List.foldl_nil, List.cons.injEq, and_true]
  omega

theorem natOfBytes_four_lt {a b c d : ℕ} (h : ∀ x ∈ [a, b, c, d], x < 256) :
    natOfBytes [a, b, c, d] < 2 ^ 32 := by
  simp only [List.forall_mem_cons] at h
  obtain ⟨ha, hb, hc, hd, -⟩ := h
  simp only [natOfBytes, List.foldl_cons, List.foldl_nil]
  omega

/-! ### Fields -/

/-- A string reads back from the front of whatever follows it. -/
theorem takeField?_string {s : List ℕ} (h : s.length < 2 ^ 32) (rest : List ℕ) :
    takeField? (string s ++ rest) = some (s, rest) := by
  have hlen : natOfBytes (be32 s.length) = s.length := natOfBytes_be32 h
  show (if natOfBytes (be32 s.length) ≤ (s ++ rest).length then
    some ((s ++ rest).take (natOfBytes (be32 s.length)),
      (s ++ rest).drop (natOfBytes (be32 s.length))) else none) = _
  rw [hlen, if_pos (by rw [List.length_append]; omega), List.take_left, List.drop_left]

/-- A complete field is an encoded string. -/
theorem takeField?_eq_some {bs s rest : List ℕ} (h : ∀ b ∈ bs, b < 256) :
    takeField? bs = some (s, rest) ↔ s.length < 2 ^ 32 ∧ bs = string s ++ rest := by
  refine ⟨fun htake ↦ ?_, fun ⟨hlen, heq⟩ ↦ heq ▸ takeField?_string hlen rest⟩
  unfold takeField? at htake
  split at htake
  case h_1 a b c d tail =>
    have hhead : ∀ x ∈ [a, b, c, d], x < 256 := fun x hx ↦
      h x (List.mem_append_left tail hx)
    dsimp only at htake
    split_ifs at htake with hfits
    obtain ⟨rfl, rfl⟩ : tail.take (natOfBytes [a, b, c, d]) = s ∧
        tail.drop (natOfBytes [a, b, c, d]) = rest := by simpa using htake
    have hlen : (tail.take (natOfBytes [a, b, c, d])).length = natOfBytes [a, b, c, d] :=
      List.length_take_of_le hfits
    refine ⟨hlen.trans_lt (natOfBytes_four_lt hhead), ?_⟩
    rw [string, hlen, be32_natOfBytes hhead, List.append_assoc, List.take_append_drop]
    rfl
  case h_2 => cases htake

/-- A list of four elements or more begins with four. -/
theorem exists_cons_four {bs : List ℕ} (h : 4 ≤ bs.length) :
    ∃ a b c d rest, bs = a :: b :: c :: d :: rest := by
  obtain ⟨a, bs, rfl⟩ := List.exists_cons_of_length_pos (show 0 < bs.length by omega)
  rw [List.length_cons] at h
  obtain ⟨b, bs, rfl⟩ := List.exists_cons_of_length_pos (show 0 < bs.length by omega)
  rw [List.length_cons] at h
  obtain ⟨c, bs, rfl⟩ := List.exists_cons_of_length_pos (show 0 < bs.length by omega)
  rw [List.length_cons] at h
  obtain ⟨d, bs, rfl⟩ := List.exists_cons_of_length_pos (show 0 < bs.length by omega)
  exact ⟨a, b, c, d, bs, rfl⟩

/-- What slicing reads is the field where the field is complete. -/
theorem takeField?_eq (bs : List ℕ) :
    takeField? bs =
      if 4 ≤ bs.length ∧ natOfBytes (bs.take 4) ≤ (bs.drop 4).length then
        some ((bs.drop 4).take (natOfBytes (bs.take 4)), (bs.drop 4).drop (natOfBytes (bs.take 4)))
      else none := by
  unfold takeField?
  split
  case h_1 a b c d rest =>
    have hfour : 4 ≤ (a :: b :: c :: d :: rest).length := by simp
    simp only [List.take_succ_cons, List.take_zero, List.drop_succ_cons, List.drop_zero, hfour,
      true_and]
  case h_2 hshort =>
    rw [if_neg]
    rintro ⟨hfour, -⟩
    obtain ⟨a, b, c, d, rest, rfl⟩ := exists_cons_four hfour
    exact hshort a b c d rest rfl

/-! ### The octets of a number -/

/-- The first octet of a number is not 0, which is what makes its length shortest. -/
theorem headD_bytesOfNat_ne_zero {n : ℕ} (h : n ≠ 0) : (bytesOfNat n).headD 0 ≠ 0 := by
  have hne : Nat.digits 256 n ≠ [] := Nat.digits_ne_nil_iff_ne_zero.2 h
  have hlast := Nat.getLast_digit_ne_zero 256 h
  rw [bytesOfNat, List.headD_eq_head?_getD, List.head?_reverse, List.getLast?_eq_some_getLast hne]
  exact hlast

/-- Without its leading zeros an `mpint` holds the octets of its number. -/
theorem dropWhile_mpintOctets (n : ℕ) : (mpintOctets n).dropWhile (· = 0) = bytesOfNat n := by
  have hbytes : (bytesOfNat n).dropWhile (· = 0) = bytesOfNat n := by
    rcases Nat.eq_zero_or_pos n with rfl | hpos
    · rfl
    · have hhead := headD_bytesOfNat_ne_zero hpos.ne'
      rcases hb : bytesOfNat n with - | ⟨b, bs⟩
      · rfl
      · rw [hb, List.headD_cons] at hhead
        rw [List.dropWhile_cons_of_neg (by simpa using hhead)]
  rw [mpintOctets]
  split
  · rw [List.dropWhile_cons_of_pos (by rfl), hbytes]
  · exact hbytes

/-- A number has one octet for every eight bits begun. -/
theorem length_bytesOfNat (n : ℕ) : (bytesOfNat n).length = (n.size + 7) / 8 := by
  have hle : ∀ k, (bytesOfNat n).length ≤ k ↔ (n.size + 7) / 8 ≤ k := by
    intro k
    rw [bytesOfNat, List.length_reverse, Nat.digits_length_le_iff (by decide),
      show 256 ^ k = 2 ^ (8 * k) by rw [pow_mul]; rfl, ← Nat.size_le]
    omega
  exact le_antisymm ((hle _).2 le_rfl) ((hle _).1 le_rfl)

end SshWire
