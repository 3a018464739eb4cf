import Mathlib.Tactic

/-!
# Linear sampling

The value of a sampled signal between its samples, with the edge samples
repeated beyond both ends of the signal.
-/

namespace LinearSampling

variable {K : Type} [Field K] [LinearOrder K] [FloorRing K]

/-- The sample of a signal of `n` samples that stands at integer position `k`. -/
def clampIndex (n : ℕ) (k : ℤ) : ℕ := (max 0 (min k (n - 1))).toNat

def linearSample (n : ℕ) (signal : ℕ → K) (s : K) : K :=
  (1 - Int.fract s) * signal (clampIndex n ⌊s⌋) +
    Int.fract s * signal (clampIndex n (⌊s⌋ + 1))

theorem clampIndex_inside {n : ℕ} {k : ℤ} (hlower : 0 ≤ k) (hupper : k < n) :
    clampIndex n k = k.toNat := by
  unfold clampIndex
  rw [min_eq_left (by omega), max_eq_right hlower]

theorem clampIndex_below {n : ℕ} {k : ℤ} (h : k ≤ 0) : clampIndex n k = 0 := by
  unfold clampIndex
  omega

theorem clampIndex_above {n : ℕ} {k : ℤ} (h : (n : ℤ) - 1 ≤ k) :
    clampIndex n k = n - 1 := by
  unfold clampIndex
  omega

omit [LinearOrder K] [FloorRing K] in
theorem blend_self (w x : K) : (1 - w) * x + w * x = x := by
  ring

theorem linearSample_below (n : ℕ) (signal : ℕ → K) {s : K} (h : ⌊s⌋ < 0) :
    linearSample n signal s = signal 0 := by
  unfold linearSample
  rw [clampIndex_below (by omega), clampIndex_below (by omega), blend_self]

theorem linearSample_above {n : ℕ} (signal : ℕ → K) {s : K}
    (h : (n : ℤ) - 1 ≤ ⌊s⌋) : linearSample n signal s = signal (n - 1) := by
  unfold linearSample
  rw [clampIndex_above h, clampIndex_above (by omega), blend_self]

theorem linearSample_inside {n : ℕ} (signal : ℕ → K) {s : K} (hlower : 0 ≤ ⌊s⌋)
    (hupper : ⌊s⌋ + 1 < n) :
    linearSample n signal s =
      signal ⌊s⌋.toNat +
        (s - ⌊s⌋) * (signal (⌊s⌋.toNat + 1) - signal ⌊s⌋.toNat) := by
  unfold linearSample
  rw [clampIndex_inside hlower (by omega),
    clampIndex_inside (by omega) hupper, Int.self_sub_floor,
    Int.toNat_add hlower (by decide)]
  change (1 - Int.fract s) * signal ⌊s⌋.toNat +
    Int.fract s * signal (⌊s⌋.toNat + 1) = _
  ring

/-- A sampled value lies between any bounds of the signal. -/
theorem linearSample_mem [IsStrictOrderedRing K] (n : ℕ) {signal : ℕ → K} {lo hi : K}
    (hlo : ∀ k, lo ≤ signal k) (hhi : ∀ k, signal k ≤ hi) (s : K) :
    lo ≤ linearSample n signal s ∧ linearSample n signal s ≤ hi := by
  have hnonneg := Int.fract_nonneg s
  have hone : 0 ≤ 1 - Int.fract s := by
    rw [sub_nonneg]
    exact (Int.fract_lt_one s).le
  unfold linearSample
  constructor
  · calc
      lo = (1 - Int.fract s) * lo + Int.fract s * lo :=
        (blend_self (Int.fract s) lo).symm
      _ ≤ _ := add_le_add (mul_le_mul_of_nonneg_left (hlo _) hone)
        (mul_le_mul_of_nonneg_left (hlo _) hnonneg)
  · calc
      _ ≤ (1 - Int.fract s) * hi + Int.fract s * hi :=
        add_le_add (mul_le_mul_of_nonneg_left (hhi _) hone)
          (mul_le_mul_of_nonneg_left (hhi _) hnonneg)
      _ = hi := blend_self (Int.fract s) hi

end LinearSampling
