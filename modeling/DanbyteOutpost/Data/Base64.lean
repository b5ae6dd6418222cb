import DanbyteOutpost.Data.PyText
import Mathlib.Tactic.IntervalCases

/-!
# Base64

`base64.b64encode` and `base64.b64decode(text, validate=True)`. The strict decoder is an automaton
over the characters: it knows how far into a group of four it stands, the bits not handed out yet,
and the padding seen. It leaves the bits a padded group has over unchecked, and lets any padding
follow a complete group.

`decode_encode` is the round trip. An octet is a number below 256.

## The proof

The four states of the automaton have a lemma each (`decodeFrom_first` to `decodeFrom_fourth`):
what it makes of the next character of the alphabet. `encode` takes three octets at a time, so the
round trip is an induction that follows `encode`, with one case for a full group, one for each of
the two padded ones, and four, three or two uses of those lemmas in them (`decodeFrom_encode`).

`encodeUnpadded` is what is left once the padding is taken off at the end, as a fingerprint is
written; `rstripWhere_encode` says so.
-/

namespace Base64

/-- The character of six bits. -/
def digit (n : ℕ) : Char :=
  if n < 26 then Char.ofNat (n + 65)
  else if n < 52 then Char.ofNat (n + 71)
  else if n < 62 then Char.ofNat (n - 4)
  else if n = 62 then '+'
  else '/'

/-- The six bits of a character of the alphabet. -/
def digit? (c : Char) : Option ℕ :=
  if 65 ≤ c.toNat ∧ c.toNat ≤ 90 then some (c.toNat - 65)
  else if 97 ≤ c.toNat ∧ c.toNat ≤ 122 then some (c.toNat - 71)
  else if 48 ≤ c.toNat ∧ c.toNat ≤ 57 then some (c.toNat + 4)
  else if c = '+' then some 62
  else if c = '/' then some 63
  else none

/-- `base64.b64encode`. -/
def encode : List ℕ → List Char
  | [] => []
  | [a] => [digit (a / 4), digit (a % 4 * 16), '=', '=']
  | [a, b] => [digit (a / 4), digit (a % 4 * 16 + b / 16), digit (b % 16 * 4), '=']
  | a :: b :: c :: rest =>
    digit (a / 4) :: digit (a % 4 * 16 + b / 16) :: digit (b % 16 * 4 + c / 64) ::
      digit (c % 64) :: encode rest

/-- Base64 without the padding. -/
def encodeUnpadded : List ℕ → List Char
  | [] => []
  | [a] => [digit (a / 4), digit (a % 4 * 16)]
  | [a, b] => [digit (a / 4), digit (a % 4 * 16 + b / 16), digit (b % 16 * 4)]
  | a :: b :: c :: rest =>
    digit (a / 4) :: digit (a % 4 * 16 + b / 16) :: digit (b % 16 * 4 + c / 64) ::
      digit (c % 64) :: encodeUnpadded rest

/-- The strict decoder, `quad` characters into a group of four with the bits `left` not handed out;
`pads` padding characters count towards this group, and `padded` says that padding has begun. -/
def decodeFrom (quad left pads : ℕ) (padded : Bool) : List Char → Option (List ℕ)
  | [] => if quad = 0 then some [] else none
  | c :: cs =>
    if c = '=' then
      if 2 ≤ quad ∧ 4 ≤ quad + (pads + 1) then
        -- the group is complete: nothing may follow
        if cs.isEmpty then some [] else none
      else decodeFrom quad left (if 2 ≤ quad then pads + 1 else pads) true cs
    else
      match digit? c with
      | none => none
      | some bits =>
        if padded then none
        else match quad with
          | 0 => decodeFrom 1 bits 0 false cs
          | 1 => (decodeFrom 2 (bits % 16) 0 false cs).map ((left * 4 + bits / 16) :: ·)
          | 2 => (decodeFrom 3 (bits % 4) 0 false cs).map ((left * 16 + bits / 4) :: ·)
          | _ => (decodeFrom 0 0 0 false cs).map ((left * 64 + bits) :: ·)

/-- `base64.b64decode(text, validate=True)`; `none` is the error it raises. -/
def decode (cs : List Char) : Option (List ℕ) :=
  if cs.head? = some '=' then none else decodeFrom 0 0 0 false cs

/-! ### The alphabet -/

/-- Each of the 64 digits reads back as its number. -/
theorem digit?_digit {n : ℕ} (h : n < 64) : digit? (digit n) = some n := by
  interval_cases n <;> rfl

/-- A digit is neither padding nor white space, and it is ASCII: nothing that surrounds base64 in a
line can be taken for a part of it. -/
theorem digit_plain {n : ℕ} (h : n < 64) :
    digit n ≠ '=' ∧ PyText.isSpace (digit n) = false ∧ (digit n).toNat < 128 := by
  interval_cases n <;> decide

theorem digit?_lt {c : Char} {n : ℕ} (h : digit? c = some n) : n < 64 := by
  unfold digit? at h
  split_ifs at h <;> cases h <;> omega

/-! ### The round trip -/

section Group

variable {n : ℕ} (h : n < 64) (left pads : ℕ) (cs : List Char)

include h

/-! A character of the alphabet at each of the four places of a group. -/

/-- The first digit of four yields no octet yet; its six bits are carried on. -/
theorem decodeFrom_first :
    decodeFrom 0 left pads false (digit n :: cs) = decodeFrom 1 n 0 false cs := by
  rw [decodeFrom, if_neg (digit_plain h).1, digit?_digit h]
  rfl

/-- The second digit completes an octet and leaves four bits. -/
theorem decodeFrom_second :
    decodeFrom 1 left pads false (digit n :: cs) =
      (decodeFrom 2 (n % 16) 0 false cs).map ((left * 4 + n / 16) :: ·) := by
  rw [decodeFrom, if_neg (digit_plain h).1, digit?_digit h]
  rfl

/-- The third digit completes an octet and leaves two bits. -/
theorem decodeFrom_third :
    decodeFrom 2 left pads false (digit n :: cs) =
      (decodeFrom 3 (n % 4) 0 false cs).map ((left * 16 + n / 4) :: ·) := by
  rw [decodeFrom, if_neg (digit_plain h).1, digit?_digit h]
  rfl

/-- The fourth digit completes the last octet of the three and leaves nothing. -/
theorem decodeFrom_fourth :
    decodeFrom 3 left pads false (digit n :: cs) =
      (decodeFrom 0 0 0 false cs).map ((left * 64 + n) :: ·) := by
  rw [decodeFrom, if_neg (digit_plain h).1, digit?_digit h]
  rfl

end Group

/-- Three octets at a time read back, and so do the one or two at the end with their padding. -/
theorem decodeFrom_encode :
    ∀ {bs : List ℕ}, (∀ b ∈ bs, b < 256) → decodeFrom 0 0 0 false (encode bs) = some bs
  | [], _ => rfl
  | [a], h => by
    have ha : a < 256 := h a (by simp)
    have hbyte : a / 4 * 4 + a % 4 * 16 / 16 = a := by omega
    have hpad : ∀ left, decodeFrom 2 left 0 false ['=', '='] = some [] := fun _ ↦ rfl
    rw [encode, decodeFrom_first (by omega), decodeFrom_second (by omega), hpad, Option.map_some,
      hbyte]
  | [a, b], h => by
    have ha : a < 256 := h a (by simp)
    have hb : b < 256 := h b (by simp)
    have hfirst : a / 4 * 4 + (a % 4 * 16 + b / 16) / 16 = a := by omega
    have hsecond : (a % 4 * 16 + b / 16) % 16 * 16 + b % 16 * 4 / 4 = b := by omega
    have hpad : ∀ left, decodeFrom 3 left 0 false ['='] = some [] := fun _ ↦ rfl
    rw [encode, decodeFrom_first (by omega), decodeFrom_second (by omega),
      decodeFrom_third (by omega), hpad, Option.map_some, Option.map_some, hfirst, hsecond]
  | a :: b :: c :: rest, h => by
    have ha : a < 256 := h a (by simp)
    have hb : b < 256 := h b (by simp)
    have hc : c < 256 := h c (by simp)
    have hfirst : a / 4 * 4 + (a % 4 * 16 + b / 16) / 16 = a := by omega
    have hsecond : (a % 4 * 16 + b / 16) % 16 * 16 + (b % 16 * 4 + c / 64) / 4 = b := by omega
    have hthird : (b % 16 * 4 + c / 64) % 4 * 64 + c % 64 = c := by omega
    have ih : decodeFrom 0 0 0 false (encode rest) = some rest :=
      decodeFrom_encode fun x hx ↦ h x (by simp [hx])
    rw [encode, decodeFrom_first (by omega), decodeFrom_second (by omega),
      decodeFrom_third (by omega), decodeFrom_fourth (by omega), ih, Option.map_some,
      Option.map_some, Option.map_some, hfirst, hsecond, hthird]

/-- What base64 is made of: its alphabet and the padding, which are ASCII and no white space. -/
theorem encode_plain :
    ∀ {bs : List ℕ}, (∀ b ∈ bs, b < 256) →
      ∀ c ∈ encode bs, PyText.isSpace c = false ∧ c.toNat < 128
  | [], _, c, hc => absurd hc List.not_mem_nil
  | [a], h, c, hc => by
    have ha : a < 256 := h a (by simp)
    simp only [encode, List.mem_cons, List.not_mem_nil, or_false] at hc
    rcases hc with rfl | rfl | rfl | rfl
    · exact (digit_plain (by omega)).2
    · exact (digit_plain (by omega)).2
    · decide
    · decide
  | [a, b], h, c, hc => by
    have ha : a < 256 := h a (by simp)
    have hb : b < 256 := h b (by simp)
    simp only [encode, List.mem_cons, List.not_mem_nil, or_false] at hc
    rcases hc with rfl | rfl | rfl | rfl
    · exact (digit_plain (by omega)).2
    · exact (digit_plain (by omega)).2
    · exact (digit_plain (by omega)).2
    · decide
  | a :: b :: d :: rest, h, c, hc => by
    have ha : a < 256 := h a (by simp)
    have hb : b < 256 := h b (by simp)
    have hd : d < 256 := h d (by simp)
    simp only [encode, List.mem_cons] at hc
    rcases hc with rfl | rfl | rfl | rfl | hc
    · exact (digit_plain (by omega)).2
    · exact (digit_plain (by omega)).2
    · exact (digit_plain (by omega)).2
    · exact (digit_plain (by omega)).2
    · exact encode_plain (fun x hx ↦ h x (by simp [hx])) c hc

theorem decode_encode {bs : List ℕ} (h : ∀ b ∈ bs, b < 256) : decode (encode bs) = some bs := by
  have hhead : (encode bs).head? ≠ some '=' := by
    rcases bs with - | ⟨a, - | ⟨b, - | ⟨c, rest⟩⟩⟩
    · exact Option.some_ne_none _ ∘ Eq.symm
    all_goals
      have ha : a < 256 := h a (by simp)
      rw [encode, List.head?_cons, ne_eq, Option.some_inj]
      exact (digit_plain (by omega)).1
  rw [decode, if_neg hhead, decodeFrom_encode h]

/-- Taking the padding off at the right end leaves base64 without padding. -/
theorem rstripWhere_encode :
    ∀ {bs : List ℕ}, (∀ b ∈ bs, b < 256) →
      PyText.rstripWhere (· = '=') (encode bs) = encodeUnpadded bs
  | [], _ => rfl
  | [a], h => by
    have ha : a < 256 := h a (by simp)
    have hplain : ∀ n < 64, decide (digit n = '=') = false :=
      fun n hn ↦ decide_eq_false (digit_plain hn).1
    rw [encode, PyText.rstripWhere_cons (hplain _ (by omega)),
      PyText.rstripWhere_cons (hplain _ (by omega))]
    rfl
  | [a, b], h => by
    have ha : a < 256 := h a (by simp)
    have hb : b < 256 := h b (by simp)
    have hplain : ∀ n < 64, decide (digit n = '=') = false :=
      fun n hn ↦ decide_eq_false (digit_plain hn).1
    rw [encode, PyText.rstripWhere_cons (hplain _ (by omega)),
      PyText.rstripWhere_cons (hplain _ (by omega)), PyText.rstripWhere_cons (hplain _ (by omega))]
    rfl
  | a :: b :: c :: rest, h => by
    have ha : a < 256 := h a (by simp)
    have hb : b < 256 := h b (by simp)
    have hc : c < 256 := h c (by simp)
    have hplain : ∀ n < 64, decide (digit n = '=') = false :=
      fun n hn ↦ decide_eq_false (digit_plain hn).1
    have ih : PyText.rstripWhere (· = '=') (encode rest) = encodeUnpadded rest :=
      rstripWhere_encode fun x hx ↦ h x (by simp [hx])
    rw [encode, encodeUnpadded, PyText.rstripWhere_cons (hplain _ (by omega)),
      PyText.rstripWhere_cons (hplain _ (by omega)), PyText.rstripWhere_cons (hplain _ (by omega)),
      PyText.rstripWhere_cons (hplain _ (by omega)), ih]

/-! ### What strict decoding yields -/

/-- An octet put in front of decoded ones is one of theirs. -/
theorem forall_lt_of_map_cons {o : Option (List ℕ)} {b : ℕ} {bs : List ℕ} (hb : b < 256)
    (ih : ∀ {bs}, o = some bs → ∀ b ∈ bs, b < 256) (h : o.map (b :: ·) = some bs) :
    ∀ b ∈ bs, b < 256 := by
  obtain ⟨rest, hrest, rfl⟩ := Option.map_eq_some_iff.1 h
  exact List.forall_mem_cons.2 ⟨hb, ih hrest⟩

/-- Octets come out, as long as no more bits are held back than the place in the group allows. -/
theorem decodeFrom_lt :
    ∀ {cs : List Char} {quad left pads : ℕ} {padded : Bool} {bs : List ℕ},
      (quad = 1 → left < 64) → (quad = 2 → left < 16) → (3 ≤ quad → left < 4) →
      decodeFrom quad left pads padded cs = some bs → ∀ b ∈ bs, b < 256
  | [], quad, _, _, _, bs, _, _, _, h => by
    rw [decodeFrom] at h
    split at h <;> cases h
    exact fun b hb ↦ absurd hb List.not_mem_nil
  | c :: cs, quad, left, pads, padded, bs, h₁, h₂, h₃, h => by
    rw [decodeFrom] at h
    by_cases hpad : c = '='
    · rw [if_pos hpad] at h
      by_cases hdone : 2 ≤ quad ∧ 4 ≤ quad + (pads + 1)
      · rw [if_pos hdone] at h
        split at h <;> cases h
        exact fun b hb ↦ absurd hb List.not_mem_nil
      · rw [if_neg hdone] at h
        exact decodeFrom_lt h₁ h₂ h₃ h
    · rw [if_neg hpad] at h
      rcases hbits : digit? c with - | bits
      · rw [hbits] at h
        cases h
      · rw [hbits] at h
        have hlt : bits < 64 := digit?_lt hbits
        rcases padded with - | -
        · rcases quad with - | - | - | quad
          · exact decodeFrom_lt (fun _ ↦ hlt) (by omega) (by omega) h
          · have hleft : left < 64 := h₁ rfl
            exact forall_lt_of_map_cons (by omega)
              (decodeFrom_lt (by omega) (fun _ ↦ by omega) (by omega)) h
          · have hleft : left < 16 := h₂ rfl
            exact forall_lt_of_map_cons (by omega)
              (decodeFrom_lt (by omega) (by omega) (fun _ ↦ by omega)) h
          · have hleft : left < 4 := h₃ (by omega)
            exact forall_lt_of_map_cons (by omega)
              (decodeFrom_lt (by omega) (by omega) (by omega)) h
        · cases h

theorem decode_lt {cs : List Char} {bs : List ℕ} (h : decode cs = some bs) :
    ∀ b ∈ bs, b < 256 := by
  rw [decode] at h
  split at h
  · cases h
  · exact decodeFrom_lt (by omega) (by omega) (by omega) h

end Base64
