import Mathlib.Data.Int.Log
import Mathlib.Data.Rat.Floor
import Mathlib.Tactic.FieldSimp
import Mathlib.Tactic.Linarith
import Mathlib.Tactic.Positivity

/-!
# Rounding to a binary significand

`roundHalfEven` is the nearest integer, of two the even one, and `roundBinary p`
the nearest number with a significand of `p` binary digits.  Exponents are not
bounded, so the results are those of an IEEE format of precision `p` between its
least normal and its greatest finite number.

Both are monotone, and `roundBinary p` changes a number by a factor of at most
`1 + 2 ^ (-p)` in either direction.
-/

namespace BinaryRounding

variable {K : Type*} [Field K] [LinearOrder K] [IsStrictOrderedRing K] [FloorRing K]

/-- The nearest integer, and of two the even one. -/
def roundHalfEven (x : K) : ℤ :=
  if x - ⌊x⌋ < ⌊x⌋ + 1 - x then ⌊x⌋
  else if ⌊x⌋ + 1 - x < x - ⌊x⌋ then ⌊x⌋ + 1
  else if ⌊x⌋ % 2 = 0 then ⌊x⌋
  else ⌊x⌋ + 1

theorem roundHalfEven_near (x : K) :
    x - 1 / 2 ≤ roundHalfEven x ∧ (roundHalfEven x : K) ≤ x + 1 / 2 := by
  have hfloor := Int.floor_le x
  have hlt := Int.lt_floor_add_one x
  unfold roundHalfEven
  split_ifs <;> push_cast <;> constructor <;> linarith

@[simp] theorem roundHalfEven_intCast (n : ℤ) : roundHalfEven (n : K) = n := by
  simp [roundHalfEven]

theorem roundHalfEven_mono {x y : K} (hxy : x ≤ y) :
    roundHalfEven x ≤ roundHalfEven y := by
  rcases (Int.floor_mono hxy).lt_or_eq with hfloor | hfloor
  · have hx : roundHalfEven x ≤ ⌊x⌋ + 1 := by
      unfold roundHalfEven
      split_ifs <;> omega
    have hy : ⌊y⌋ ≤ roundHalfEven y := by
      unfold roundHalfEven
      split_ifs <;> omega
    omega
  · unfold roundHalfEven
    rw [hfloor]
    have hfract : x - ⌊y⌋ ≤ y - ⌊y⌋ := by linarith
    split_ifs <;> first | omega | linarith

theorem roundHalfEven_neg (x : K) : roundHalfEven (-x) = -roundHalfEven x := by
  by_cases hint : (⌊x⌋ : K) = x
  · rw [← hint, ← Int.cast_neg, roundHalfEven_intCast, roundHalfEven_intCast]
  · have hlt : (⌊x⌋ : K) < x := lt_of_le_of_ne (Int.floor_le x) hint
    have hfloor : ⌊-x⌋ = -⌊x⌋ - 1 := by
      rw [Int.floor_eq_iff]
      push_cast
      constructor <;> linarith [Int.lt_floor_add_one x]
    unfold roundHalfEven
    rw [hfloor]
    push_cast
    split_ifs <;> first | omega | linarith

/-! ## A significand of `p` digits -/

/-- The distance of two neighbouring results at the magnitude of `x`. -/
def spacing (p : ℕ) (x : K) : K := ((2 : ℕ) : K) ^ (Int.log 2 |x| + 1 - p)

def roundBinary (p : ℕ) (x : K) : K := roundHalfEven (x / spacing p x) * spacing p x

omit [IsStrictOrderedRing K] in
theorem spacing_eq (p : ℕ) (x : K) : spacing p x = 2 ^ (Int.log 2 |x| + 1 - p) := by
  rw [spacing, Nat.cast_ofNat]

theorem spacing_pos (p : ℕ) (x : K) : 0 < spacing p x :=
  spacing_eq p x ▸ zpow_pos two_pos _

@[simp] theorem roundHalfEven_zero : roundHalfEven (0 : K) = 0 := by
  have hzero := roundHalfEven_intCast (K := K) 0
  rwa [Int.cast_zero] at hzero

@[simp] theorem roundBinary_zero (p : ℕ) : roundBinary p (0 : K) = 0 := by
  simp [roundBinary]

theorem roundBinary_neg (p : ℕ) (x : K) : roundBinary p (-x) = -roundBinary p x := by
  have hspacing : spacing p (-x) = spacing p x := by
    rw [spacing, spacing, abs_neg]
  rw [roundBinary, roundBinary, hspacing, neg_div, roundHalfEven_neg]
  push_cast
  ring

section Positive

variable {p : ℕ} {x y : K}

theorem roundBinary_near (p : ℕ) (x : K) :
    x - spacing p x / 2 ≤ roundBinary p x ∧ roundBinary p x ≤ x + spacing p x / 2 := by
  have hpos := spacing_pos p x
  obtain ⟨hlow, hhigh⟩ := roundHalfEven_near (x / spacing p x)
  have hx : x / spacing p x * spacing p x = x := div_mul_cancel₀ x hpos.ne'
  have hlow' := mul_le_mul_of_nonneg_right hlow hpos.le
  have hhigh' := mul_le_mul_of_nonneg_right hhigh hpos.le
  rw [sub_mul, hx] at hlow'
  rw [add_mul, hx] at hhigh'
  unfold roundBinary
  constructor <;> linarith

/-- The greatest power of two up to `x`, in units of the spacing. -/
theorem zpow_log_eq (hp : 0 < p) (x : K) :
    (2 : K) ^ Int.log 2 |x| = ((2 ^ (p - 1) : ℤ) : K) * spacing p x := by
  have htwo : (2 : K) ≠ 0 := two_pos.ne'
  obtain ⟨q, rfl⟩ : ∃ q, p = q + 1 := ⟨p - 1, by omega⟩
  rw [spacing_eq, Nat.add_sub_cancel]
  push_cast
  rw [← zpow_natCast, ← zpow_add₀ htwo]
  congr 1
  ring

theorem zpow_log_succ_eq (hp : 0 < p) (x : K) :
    (2 : K) ^ (Int.log 2 |x| + 1) = ((2 ^ p : ℤ) : K) * spacing p x := by
  rw [zpow_add_one₀ two_ne_zero, zpow_log_eq hp]
  obtain ⟨q, rfl⟩ : ∃ q, p = q + 1 := ⟨p - 1, by omega⟩
  rw [Nat.add_sub_cancel]
  push_cast
  ring

theorem zpow_log_le_roundBinary (hp : 0 < p) (hx : 0 < x) :
    (2 : K) ^ Int.log 2 |x| ≤ roundBinary p x := by
  have hpos := spacing_pos p x
  have hle : (2 : K) ^ Int.log 2 |x| ≤ x := by
    have := Int.zpow_log_le_self (b := 2) one_lt_two hx
    rw [abs_of_pos hx]
    exact_mod_cast this
  rw [zpow_log_eq hp] at hle ⊢
  refine mul_le_mul_of_nonneg_right ?_ hpos.le
  have hmono := roundHalfEven_mono ((le_div_iff₀ hpos).mpr hle)
  rw [roundHalfEven_intCast] at hmono
  exact_mod_cast hmono

theorem roundBinary_le_zpow_log (hp : 0 < p) (hx : 0 < x) :
    roundBinary p x ≤ (2 : K) ^ (Int.log 2 |x| + 1) := by
  have hpos := spacing_pos p x
  have hle : x ≤ (2 : K) ^ (Int.log 2 |x| + 1) := by
    have := Int.lt_zpow_succ_log_self (b := 2) one_lt_two x
    rw [abs_of_pos hx]
    exact_mod_cast this.le
  rw [zpow_log_succ_eq hp] at hle ⊢
  refine mul_le_mul_of_nonneg_right ?_ hpos.le
  have hmono := roundHalfEven_mono ((div_le_iff₀ hpos).mpr hle)
  rw [roundHalfEven_intCast] at hmono
  exact_mod_cast hmono

theorem roundBinary_nonneg (hx : 0 ≤ x) : 0 ≤ roundBinary p x := by
  have hpos := spacing_pos p x
  have hmono := roundHalfEven_mono (div_nonneg hx hpos.le)
  rw [roundHalfEven_zero] at hmono
  exact mul_nonneg (by exact_mod_cast hmono) hpos.le

theorem roundBinary_mono_of_pos (hp : 0 < p) (hx : 0 < x) (hxy : x ≤ y) :
    roundBinary p x ≤ roundBinary p y := by
  have hy := hx.trans_le hxy
  have hlog : Int.log 2 |x| ≤ Int.log 2 |y| := by
    rw [abs_of_pos hx, abs_of_pos hy]
    exact Int.log_mono_right hx hxy
  rcases hlog.lt_or_eq with hlt | heq
  · -- a power of two separates the two numbers
    calc
      roundBinary p x ≤ (2 : K) ^ (Int.log 2 |x| + 1) := roundBinary_le_zpow_log hp hx
      _ ≤ (2 : K) ^ Int.log 2 |y| := zpow_le_zpow_right₀ one_le_two hlt
      _ ≤ roundBinary p y := zpow_log_le_roundBinary hp hy
  · have hspacing : spacing p x = spacing p y := by rw [spacing, spacing, heq]
    have hpos := spacing_pos p y
    rw [roundBinary, roundBinary, hspacing]
    refine mul_le_mul_of_nonneg_right ?_ hpos.le
    exact_mod_cast roundHalfEven_mono (div_le_div_of_nonneg_right hxy hpos.le)

/-- Half a unit in the last place is at most the share `2 ^ (-p)`. -/
theorem half_spacing_le {z : K} (hz : (2 : K) ^ Int.log 2 |x| ≤ z) :
    spacing p x / 2 ≤ z / 2 ^ p := by
  have hspacing : spacing p x / 2 = (2 : K) ^ Int.log 2 |x| / 2 ^ p := by
    rw [spacing_eq, zpow_sub₀ two_ne_zero, zpow_add_one₀ two_ne_zero, zpow_natCast]
    field_simp
  rw [hspacing]
  exact div_le_div_of_nonneg_right hz (by positivity)

theorem roundBinary_le (p : ℕ) (hx : 0 ≤ x) :
    roundBinary p x ≤ (1 + 1 / 2 ^ p) * x := by
  rcases hx.eq_or_lt with rfl | hpos
  · simp
  · have hlog : (2 : K) ^ Int.log 2 |x| ≤ x := by
      have := Int.zpow_log_le_self (b := 2) one_lt_two hpos
      rw [abs_of_pos hpos]
      exact_mod_cast this
    have hhalf := half_spacing_le (p := p) hlog
    have hnear := (roundBinary_near p x).2
    have hshare : (1 + 1 / 2 ^ p) * x = x + x / 2 ^ p := by ring
    rw [hshare]
    linarith

theorem le_roundBinary (hp : 0 < p) (hx : 0 ≤ x) :
    x ≤ (1 + 1 / 2 ^ p) * roundBinary p x := by
  rcases hx.eq_or_lt with rfl | hpos
  · simp
  · have hhalf := half_spacing_le (p := p) (zpow_log_le_roundBinary hp hpos)
    have hnear := (roundBinary_near p x).1
    have hshare : (1 + 1 / 2 ^ p) * roundBinary p x =
        roundBinary p x + roundBinary p x / 2 ^ p := by ring
    rw [hshare]
    linarith

end Positive

theorem roundBinary_mono {p : ℕ} (hp : 0 < p) : Monotone (roundBinary (K := K) p) := by
  intro x y hxy
  rcases lt_trichotomy 0 x with hx | rfl | hx
  · exact roundBinary_mono_of_pos hp hx hxy
  · rw [roundBinary_zero]
    exact roundBinary_nonneg hxy
  · rcases le_or_gt 0 y with hy | hy
    · have hneg := roundBinary_nonneg (p := p) (neg_nonneg.mpr hx.le)
      rw [roundBinary_neg] at hneg
      linarith [roundBinary_nonneg (p := p) hy]
    · have hneg := roundBinary_mono_of_pos hp (neg_pos.mpr hy) (neg_le_neg hxy)
      rw [roundBinary_neg, roundBinary_neg] at hneg
      exact neg_le_neg_iff.mp hneg

end BinaryRounding
