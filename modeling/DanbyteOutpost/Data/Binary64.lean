import Mathlib.Algebra.Order.Round
import Mathlib.Data.Int.Log
import Mathlib.Data.Rat.Floor
import Mathlib.Tactic.FieldSimp
import Mathlib.Tactic.Linarith
import Mathlib.Tactic.Positivity
import Mathlib.Tactic.Ring

/-!
# Binary floating point

The finite numbers of the double format: 53 significant bits, the last of them worth `2 ^ -1074` at
least. Arithmetic is exact arithmetic on rational numbers followed by `round`, to the nearest number
of the format and, half way between two, to the one whose significand is even.

The one law the rest is derived from is `abs_round_sub_le`: no number of the format is nearer than
the one `round` gives. That `round` is monotone, and that it does not pass a number of the format,
follow from it without another look at how it computes.

There is no largest exponent here. What a program converts is checked against the range of the
format before it becomes a float (`ofRat?`), and a sum of a float in range and one of ordinary size
stays in range (`add_val_lt`), so that a program that only adds to clock readings what it has
converted meets no infinity.

## Contents

* `nearestEven`: the nearest integer, the even one of two. `abs_nearestEven_sub_eq_min` is its
  specification.
* `Representable`, `lastBit`, `round`: the numbers of the format, the worth of the last bit of one
  of a given size, and rounding to them.
* `le_round`, `round_le`, `round_lt`: a number of the format stays on its side of what is rounded.
* `Binary64`: a number of the format, as a type; `ofRat` rounds into it, `ofRat?` fails beyond its
  range, and addition rounds.
* `ofRat_mono`, `add_le_add_left`, `le_add_of_nonneg`: order survives rounding, though strict
  order and cancellation do not.

Signed zeros, infinities and values that are no number have no place here: a comparison or a sum
of what is in the type never comes to one.
-/

/-! ### Rounding to an integer -/

/-- The nearest integer; half way between two, the even one. -/
def nearestEven (q : ℚ) : ℤ :=
  if Int.fract q < 1 / 2 ∨ Int.fract q = 1 / 2 ∧ ⌊q⌋ % 2 = 0 then ⌊q⌋ else ⌊q⌋ + 1

/-- The distance to the integer taken is the smaller of the two to those around. -/
theorem abs_nearestEven_sub_eq_min (q : ℚ) :
    |q - nearestEven q| = min (Int.fract q) (1 - Int.fract q) := by
  have hfract : q - ⌊q⌋ = Int.fract q := Int.self_sub_floor q
  have hpos := Int.fract_nonneg q
  have hlt := Int.fract_lt_one q
  rw [nearestEven]
  split
  case isTrue h =>
    have hle : Int.fract q ≤ 1 / 2 := h.elim le_of_lt fun h ↦ h.1.le
    rw [hfract, abs_of_nonneg hpos, min_eq_left (by linarith)]
  case isFalse h =>
    have hge : 1 / 2 ≤ Int.fract q := not_lt.1 fun hlt ↦ h (.inl hlt)
    have hsub : q - ((⌊q⌋ + 1 : ℤ) : ℚ) = Int.fract q - 1 := by
      push_cast
      linarith
    rw [hsub, abs_of_nonpos (by linarith), min_eq_right (by linarith)]
    ring

/-- No integer is nearer. -/
theorem abs_nearestEven_sub_le (q : ℚ) (n : ℤ) : |nearestEven q - q| ≤ |n - q| := by
  rw [abs_sub_comm, abs_nearestEven_sub_eq_min, ← abs_sub_round_eq_min, abs_sub_comm (n : ℚ)]
  exact round_le q n

/-! ### The numbers of the format -/

namespace Binary64

/-- A rational number with 53 significant bits. -/
def Representable (q : ℚ) : Prop :=
  ∃ m e : ℤ, |m| < 2 ^ 53 ∧ -1074 ≤ e ∧ q = m * 2 ^ e

/-- What the last bit of a number of this size is worth, as an exponent of two. -/
def lastBit (q : ℚ) : ℤ := max (Int.log 2 |q| - 52) (-1074)

/-- The nearest number of the format. -/
def round (q : ℚ) : ℚ := nearestEven (q / 2 ^ lastBit q) * 2 ^ lastBit q

theorem two_zpow_pos (e : ℤ) : (0 : ℚ) < 2 ^ e := zpow_pos two_pos e

/-- In a number's own unit its significand has 53 bits. -/
theorem abs_lt_lastBit (q : ℚ) : |q| < 2 ^ 53 * 2 ^ lastBit q := by
  have hlog : |q| < 2 ^ (Int.log 2 |q| + 1) := Int.lt_zpow_succ_log_self one_lt_two |q|
  refine hlog.trans_le ?_
  rw [← zpow_natCast, ← zpow_add₀ two_ne_zero]
  refine zpow_le_zpow_right₀ one_le_two ?_
  have := le_max_left (Int.log 2 |q| - 52) (-1074)
  rw [lastBit]
  push_cast
  omega

/-- Above the smallest unit its first bit is set. -/
theorem le_abs_of_lastBit {q : ℚ} (hq : q ≠ 0) (h : -1074 < lastBit q) :
    2 ^ 52 * 2 ^ lastBit q ≤ |q| := by
  have hunit : lastBit q = Int.log 2 |q| - 52 :=
    (max_choice _ _).resolve_right fun heq ↦ h.ne' heq
  have hlog : (2 : ℚ) ^ Int.log 2 |q| ≤ |q| :=
    Int.zpow_log_le_self one_lt_two (abs_pos.2 hq)
  rwa [← zpow_natCast, ← zpow_add₀ two_ne_zero, hunit, Nat.cast_ofNat, add_sub_cancel]

/-- A number whose unit is no larger than that of `q` is a whole number of units of `q`, or lies on
the near side of all numbers of the size of `q`. -/
theorem exists_mul_or_abs_lt {r : ℚ} (hr : Representable r) (q : ℚ) :
    (∃ n : ℤ, r = n * 2 ^ lastBit q) ∨ -1074 < lastBit q ∧ |r| < 2 ^ 52 * 2 ^ lastBit q := by
  obtain ⟨m, e, hm, he, rfl⟩ := hr
  rcases le_or_gt (lastBit q) e with hle | hlt
  · refine .inl ⟨m * 2 ^ (e - lastBit q).toNat, ?_⟩
    have hsplit : (2 : ℚ) ^ e = 2 ^ (e - lastBit q).toNat * 2 ^ lastBit q := by
      rw [← zpow_natCast, ← zpow_add₀ two_ne_zero, Int.toNat_of_nonneg (by omega), sub_add_cancel]
    push_cast
    rw [hsplit, mul_assoc]
  · refine .inr ⟨he.trans_lt hlt, ?_⟩
    have hm' : |(m : ℚ)| < 2 ^ 53 := by exact_mod_cast hm
    calc |(m : ℚ) * 2 ^ e| = |(m : ℚ)| * 2 ^ e := by rw [abs_mul, abs_of_pos (two_zpow_pos e)]
      _ < 2 ^ 53 * 2 ^ e := mul_lt_mul_of_pos_right hm' (two_zpow_pos e)
      _ = 2 ^ 52 * 2 ^ (e + 1) := by rw [zpow_add_one₀ two_ne_zero]; ring
      _ ≤ 2 ^ 52 * 2 ^ lastBit q := by
        gcongr
        · exact one_le_two
        · omega

/-! ### Rounding -/

theorem round_zero : round 0 = 0 := by
  rw [round, zero_div, nearestEven, Int.fract_zero, Int.floor_zero, if_pos (.inl one_half_pos),
    Int.cast_zero, zero_mul]

/-- No whole number of units is nearer. -/
theorem abs_round_sub_le_of_mul (q : ℚ) (n : ℤ) : |round q - q| ≤ |n * 2 ^ lastBit q - q| := by
  have hpos := two_zpow_pos (lastBit q)
  have hscale : ∀ k : ℤ, |(k : ℚ) * 2 ^ lastBit q - q| =
      |(k : ℚ) - q / 2 ^ lastBit q| * 2 ^ lastBit q := by
    intro k
    rw [← abs_of_pos hpos, ← abs_mul, abs_of_pos hpos, sub_mul, div_mul_cancel₀ _ hpos.ne']
  rw [round, hscale, hscale]
  exact mul_le_mul_of_nonneg_right (abs_nearestEven_sub_le _ n) hpos.le

/-- **Rounding is to the nearest**: no number of the format is nearer. -/
theorem abs_round_sub_le {r : ℚ} (hr : Representable r) (q : ℚ) : |round q - q| ≤ |r - q| := by
  rcases eq_or_ne q 0 with rfl | hq
  · rw [round_zero, sub_zero, abs_zero]
    exact abs_nonneg _
  rcases exists_mul_or_abs_lt hr q with ⟨n, rfl⟩ | ⟨hunit, hlt⟩
  · exact abs_round_sub_le_of_mul q n
  · -- the first number of the size of `q`, on its side of zero, lies between the two
    have hge := le_abs_of_lastBit hq hunit
    rcases abs_cases q with ⟨habs, -⟩ | ⟨habs, -⟩ <;> rw [habs] at hge
    · have hnear := abs_round_sub_le_of_mul q (2 ^ 52)
      push_cast at hnear
      refine hnear.trans ?_
      have hr' := (abs_lt.1 hlt).2
      rw [abs_of_nonpos (by linarith), abs_of_nonpos (by linarith)]
      linarith
    · have hnear := abs_round_sub_le_of_mul q (-2 ^ 52)
      push_cast at hnear
      refine hnear.trans ?_
      have hr' := (abs_lt.1 hlt).1
      rw [abs_of_nonneg (by linarith), abs_of_nonneg (by linarith)]
      linarith

/-- The result of a rounding is in the format, also where it is carried to the next power of two. -/
theorem representable_round (q : ℚ) : Representable (round q) := by
  have hpos := two_zpow_pos (lastBit q)
  -- the scaled number is below 2^53, so its nearest integer is so, or is 2^53 itself
  have hbound : |q / 2 ^ lastBit q| < 2 ^ 53 := by
    rw [abs_div, abs_of_pos hpos, div_lt_iff₀ hpos]
    exact abs_lt_lastBit q
  have hle : |nearestEven (q / 2 ^ lastBit q)| ≤ 2 ^ 53 := by
    have hnear : ∀ n : ℤ, |(nearestEven (q / 2 ^ lastBit q) : ℚ) - q / 2 ^ lastBit q| ≤
        |(n : ℚ) - q / 2 ^ lastBit q| := abs_nearestEven_sub_le _
    generalize q / 2 ^ lastBit q = x at hbound hnear
    obtain ⟨hlo, hhi⟩ := abs_lt.1 hbound
    rw [abs_le]
    constructor
    · by_contra hlt
      have hlt' : ((nearestEven x : ℤ) : ℚ) < -2 ^ 53 := by
        exact_mod_cast not_le.1 hlt
      have hnear' := hnear (-2 ^ 53)
      push_cast at hnear'
      rw [abs_of_neg (by linarith), abs_of_neg (by linarith)] at hnear'
      linarith
    · by_contra hlt
      have hlt' : (2 : ℚ) ^ 53 < (nearestEven x : ℤ) := by
        exact_mod_cast not_le.1 hlt
      have hnear' := hnear (2 ^ 53)
      push_cast at hnear'
      rw [abs_of_pos (by linarith), abs_of_pos (by linarith)] at hnear'
      linarith
  rcases hle.lt_or_eq with hlt | heq
  · exact ⟨_, _, hlt, le_max_right _ _, rfl⟩
  -- in that case the significand is halved and the exponent raised
  · have hcarry : ∀ s : ℤ, nearestEven (q / 2 ^ lastBit q) = s * 2 ^ 53 → |s| = 1 →
        Representable (round q) := by
      intro s hs hone
      refine ⟨s * 2 ^ 52, lastBit q + 1, ?_, (le_max_right _ _).trans (lt_add_one _).le, ?_⟩
      · rw [abs_mul, hone]
        norm_num
      · rw [round, hs, zpow_add_one₀ two_ne_zero]
        push_cast
        ring
    rcases abs_choice (nearestEven (q / 2 ^ lastBit q)) with h | h <;> rw [h] at heq
    · exact hcarry 1 (by rw [heq, one_mul]) abs_one
    · exact hcarry (-1) (by omega) (by norm_num)

/-- Rounding does not pass a number of the format, upwards. -/
theorem le_round {r q : ℚ} (hr : Representable r) (h : r ≤ q) : r ≤ round q := by
  by_contra hlt
  have hnear := abs_round_sub_le hr q
  rw [abs_of_neg (by linarith), abs_of_nonpos (by linarith)] at hnear
  linarith

/-- Rounding does not pass a number of the format, downwards. -/
theorem round_le {r q : ℚ} (hr : Representable r) (h : q ≤ r) : round q ≤ r := by
  by_contra hlt
  have hnear := abs_round_sub_le hr q
  rw [abs_of_pos (by linarith), abs_of_nonneg (by linarith)] at hnear
  linarith

/-- The range of the format and its last unit, in half units. -/
theorem range_eq : (2 : ℚ) ^ 1024 = 2 ^ 54 * 2 ^ 970 ∧ (2 : ℚ) ^ 971 = 2 * 2 ^ 970 :=
  ⟨by rw [← pow_add], pow_succ' 2 970⟩

/-- A number that is not too large for the format rounds to one in its range. -/
theorem round_lt {q : ℚ} (h : q < 2 ^ 1024 - 2 ^ 970) : round q < 2 ^ 1024 := by
  obtain ⟨hrange, hunit⟩ := range_eq
  have hpos : (0 : ℚ) < 2 ^ 970 := by positivity
  have hlast : Representable ((2 ^ 53 - 1) * 2 ^ 971) :=
    ⟨2 ^ 53 - 1, 971, by norm_num, by norm_num, by norm_num⟩
  rcases le_or_gt q ((2 ^ 53 - 1) * 2 ^ 971) with hle | hlt
  · refine (round_le hlast hle).trans_lt ?_
    rw [hrange, hunit]
    generalize (2 : ℚ) ^ 970 = u at hpos
    linarith
  · have hnear := abs_round_sub_le hlast q
    rw [abs_of_neg (sub_neg.2 hlt)] at hnear
    have hself := le_abs_self (round q - q)
    rw [hrange] at h ⊢
    rw [hunit] at hnear hlt
    generalize (2 : ℚ) ^ 970 = u at *
    linarith

/-- The largest number in range. -/
theorem le_of_lt_range {r : ℚ} (hr : Representable r) (h : r < 2 ^ 1024) :
    r ≤ (2 ^ 53 - 1) * 2 ^ 971 := by
  obtain ⟨m, e, hm, -, rfl⟩ := hr
  rcases le_or_gt e 971 with hle | hlt
  · have hm' : (m : ℚ) ≤ 2 ^ 53 - 1 := by
      have := (abs_lt.1 hm).2
      exact_mod_cast Int.le_sub_one_of_lt this
    calc (m : ℚ) * 2 ^ e ≤ (2 ^ 53 - 1) * 2 ^ e :=
          mul_le_mul_of_nonneg_right hm' (two_zpow_pos e).le
      _ ≤ (2 ^ 53 - 1) * 2 ^ (971 : ℤ) :=
          mul_le_mul_of_nonneg_left (zpow_le_zpow_right₀ one_le_two hle) (by norm_num)
  · -- a whole number of units of the last binade
    have hsplit : (m : ℚ) * 2 ^ e = ((m * 2 ^ (e - 971).toNat : ℤ) : ℚ) * 2 ^ 971 := by
      push_cast
      rw [mul_assoc, ← zpow_natCast, ← zpow_natCast, ← zpow_add₀ two_ne_zero,
        Int.toNat_of_nonneg (by omega), Nat.cast_ofNat, sub_add_cancel]
    rw [hsplit] at h ⊢
    generalize m * 2 ^ (e - 971).toNat = n at h ⊢
    have hn : (n : ℚ) < 2 ^ 53 := by
      have hscaled : (n : ℚ) * 2 ^ 971 < 2 ^ 53 * 2 ^ 971 := by rwa [← pow_add]
      exact lt_of_mul_lt_mul_right hscaled (by positivity)
    have hn' : (n : ℚ) ≤ 2 ^ 53 - 1 := by
      have : n < 2 ^ 53 := by exact_mod_cast hn
      exact_mod_cast Int.le_sub_one_of_lt this
    exact mul_le_mul_of_nonneg_right hn' (by positivity)

/-- A number of ordinary size is moved by one part in `2 ^ 53` at most. -/
theorem abs_round_sub_le_mul {q : ℚ} (h : 2 ^ (-1022 : ℤ) ≤ |q|) :
    |round q - q| ≤ |q| * 2 ^ (-53 : ℤ) := by
  have hpos := two_zpow_pos (lastBit q)
  have hq : q ≠ 0 := abs_pos.1 ((two_zpow_pos _).trans_le h)
  have hhalf : |round q - q| ≤ 1 / 2 * 2 ^ lastBit q := by
    have hround := abs_nearestEven_sub_eq_min (q / 2 ^ lastBit q)
    have hfract :
        min (Int.fract (q / 2 ^ lastBit q)) (1 - Int.fract (q / 2 ^ lastBit q)) ≤ 1 / 2 := by
      rcases le_total (Int.fract (q / 2 ^ lastBit q)) (1 / 2) with hle | hle
      · exact (min_le_left _ _).trans hle
      · exact (min_le_right _ _).trans (by linarith)
    have hscale : round q - q =
        (nearestEven (q / 2 ^ lastBit q) - q / 2 ^ lastBit q) * 2 ^ lastBit q := by
      rw [round, sub_mul, div_mul_cancel₀ _ hpos.ne']
    rw [hscale, abs_mul, abs_of_pos hpos, abs_sub_comm, hround]
    exact mul_le_mul_of_nonneg_right hfract hpos.le
  have hunit : 2 ^ 52 * 2 ^ lastBit q ≤ |q| := by
    rcases (le_max_right _ _ : -1074 ≤ lastBit q).lt_or_eq with hlt | heq
    · exact le_abs_of_lastBit hq hlt
    · rw [lastBit, ← heq, ← zpow_natCast, ← zpow_add₀ two_ne_zero]
      exact h
  have hsplit : (2 : ℚ) ^ (-53 : ℤ) * 2 ^ 52 = 1 / 2 := by norm_num
  calc |round q - q| ≤ 2 ^ (-53 : ℤ) * (2 ^ 52 * 2 ^ lastBit q) := by
        rw [← mul_assoc, hsplit]
        exact hhalf
    _ ≤ 2 ^ (-53 : ℤ) * |q| := mul_le_mul_of_nonneg_left hunit (two_zpow_pos _).le
    _ = |q| * 2 ^ (-53 : ℤ) := mul_comm _ _

end Binary64

/-! ### The type -/

/-- A finite float. -/
structure Binary64 where
  /-- Its value. -/
  val : ℚ
  /-- Which is a number of the format. -/
  isRepresentable : Binary64.Representable val

namespace Binary64

/-- A float is its value: the model has one zero, and neither infinities nor NaN. -/
theorem val_injective : Function.Injective val := by
  rintro ⟨p, hp⟩ ⟨q, hq⟩ rfl
  rfl

instance : LinearOrder Binary64 := LinearOrder.lift' val val_injective

/-- The float nearest to a number that is in the range of floats. -/
def ofRat (q : ℚ) : Binary64 := ⟨round q, representable_round q⟩

/-- The conversion of a number, `none` when it is out of range: when it would round to `2 ^ 1024` or
beyond. -/
def ofRat? (q : ℚ) : Option Binary64 :=
  if |q| < 2 ^ 1024 - 2 ^ 970 then some (ofRat q) else none

/-- The numbers that convert are those that do not round to an infinity, and they convert to the
rounded ones. -/
theorem ofRat?_eq_some_iff {q : ℚ} {a : Binary64} :
    ofRat? q = some a ↔ |q| < 2 ^ 1024 - 2 ^ 970 ∧ a = ofRat q := by
  rw [ofRat?]
  split
  case isTrue h => rw [Option.some.injEq, eq_comm, and_iff_right h]
  case isFalse h => exact iff_of_false (Option.some_ne_none a).symm fun hlt ↦ h hlt.1

/-- What is converted is in range. -/
theorem val_lt_of_ofRat? {q : ℚ} {a : Binary64} (h : ofRat? q = some a) : a.val < 2 ^ 1024 := by
  obtain ⟨hlt, rfl⟩ := ofRat?_eq_some_iff.1 h
  exact round_lt ((le_abs_self q).trans_lt hlt)

instance (n : ℕ) : OfNat Binary64 n := ⟨ofRat n⟩

/-- The sum of two floats. -/
instance : Add Binary64 := ⟨fun a b ↦ ofRat (a.val + b.val)⟩

/-- The sum of two floats is the rounded sum of their values. -/
theorem add_val (a b : Binary64) : (a + b).val = round (a.val + b.val) := rfl

/-- A float at or below a number is at or below what that number rounds to. -/
theorem le_ofRat {a : Binary64} {q : ℚ} (h : a.val ≤ q) : a ≤ ofRat q :=
  le_round a.isRepresentable h

theorem ofRat_mono {p q : ℚ} (h : p ≤ q) : ofRat p ≤ ofRat q := by
  by_contra hlt
  have hlt' : round q < round p := not_le.1 hlt
  have hp := abs_round_sub_le (representable_round q) p
  have hq := abs_round_sub_le (representable_round p) q
  -- `p` is no nearer to `round q` and `q` no nearer to `round p`, so neither is past the middle
  have hmid : round p + round q ≤ 2 * p := by
    by_contra h
    rw [abs_of_pos (by linarith), le_abs] at hp
    rcases hp with h | h <;> linarith
  have hmid' : 2 * q ≤ round p + round q := by
    by_contra h
    rw [abs_of_neg (by linarith), le_abs] at hq
    rcases hq with h | h <;> linarith
  obtain rfl : p = q := le_antisymm h (by linarith)
  exact lt_irrefl _ hlt'

/-- A sum with something that is not negative is no smaller, although it is rounded. -/
theorem le_add_of_nonneg {a b : Binary64} (h : 0 ≤ b.val) : a ≤ a + b :=
  le_ofRat (by linarith)

theorem add_le_add_left {a b : Binary64} (h : a ≤ b) (c : Binary64) : c + a ≤ c + b :=
  ofRat_mono (by linarith [show a.val ≤ b.val from h])

/-- A sum stays in range when one of the two is in range and the other small beside it. -/
theorem add_val_lt {a b : Binary64} (ha : a.val < 2 ^ 970) (hb : b.val < 2 ^ 1024) :
    (a + b).val < 2 ^ 1024 := by
  refine round_lt ?_
  have hmax := le_of_lt_range b.isRepresentable hb
  obtain ⟨hrange, hunit⟩ := range_eq
  rw [hrange]
  rw [hunit] at hmax
  generalize (2 : ℚ) ^ 970 = u at *
  linarith

end Binary64
