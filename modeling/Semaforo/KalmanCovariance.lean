import Mathlib.LinearAlgebra.Matrix.PosDef

/-!
# Covariances of a Kalman filter

For a state with covariance `P`, an observation `H` with noise `R` and a
transition `F` with noise `Q`, both in any dimension: the innovation covariance
`H P Hᴴ + R`, the gain, and what one prediction and one correction make of `P`.
The corrected covariance `(1 - K H) P` is the inverse of `P⁻¹ + Hᴴ R⁻¹ H`, so
it stays positive definite.

The second half is about matrices whose rows and columns carry block labels and
that vanish where the labels differ.
-/

open Matrix

namespace KalmanCovariance

variable {m n K : Type*} [Fintype m] [Fintype n] [DecidableEq m] [DecidableEq n]
  [Field K] [PartialOrder K] [StarRing K] [StarOrderedRing K]

def innovation (H : Matrix m n K) (P : Matrix n n K) (R : Matrix m m K) :
    Matrix m m K := H * P * Hᴴ + R

noncomputable def gain (H : Matrix m n K) (P : Matrix n n K)
    (R : Matrix m m K) : Matrix n m K :=
  P * Hᴴ * (innovation H P R)⁻¹

omit [DecidableEq m] [DecidableEq n] in
theorem innovation_posDef {P : Matrix n n K} {R : Matrix m m K}
    (hP : P.PosDef) (hR : R.PosDef) (H : Matrix m n K) :
    (innovation H P R).PosDef :=
  PosDef.posSemidef_add (hP.posSemidef.mul_mul_conjTranspose_same H) hR

omit [DecidableEq n] in
theorem predicted_posDef {P Q : Matrix n n K} (hP : P.PosDef) (hQ : Q.PosDef)
    (F : Matrix n n K) : (F * P * Fᴴ + Q).PosDef :=
  PosDef.posSemidef_add (hP.posSemidef.mul_mul_conjTranspose_same F) hQ

omit [DecidableEq n] in
theorem gain_mul_innovation {P : Matrix n n K} {R : Matrix m m K}
    (hP : P.PosDef) (hR : R.PosDef) (H : Matrix m n K) :
    gain H P R * innovation H P R = P * Hᴴ := by
  have hdet : IsUnit (innovation H P R).det :=
    (isUnit_iff_isUnit_det _).mp (innovation_posDef hP hR H).isUnit
  rw [gain, Matrix.mul_assoc, nonsing_inv_mul _ hdet, Matrix.mul_one]

/-- The corrected covariance is the inverse of the sum of informations. -/
theorem corrected_mul_information {P : Matrix n n K} {R : Matrix m m K}
    (hP : P.PosDef) (hR : R.PosDef) (H : Matrix m n K) :
    (1 - gain H P R * H) * P * (P⁻¹ + Hᴴ * R⁻¹ * H) = 1 := by
  have hPdet : IsUnit P.det := (isUnit_iff_isUnit_det P).mp hP.isUnit
  have hRdet : IsUnit R.det := (isUnit_iff_isUnit_det R).mp hR.isUnit
  have hgain := gain_mul_innovation hP hR H
  have hresidual : (1 - gain H P R * H) * P * Hᴴ = gain H P R * R := by
    calc
      (1 - gain H P R * H) * P * Hᴴ =
          P * Hᴴ - gain H P R * (H * P * Hᴴ) := by
        simp only [Matrix.sub_mul, Matrix.one_mul, Matrix.mul_assoc]
      _ = gain H P R * innovation H P R - gain H P R * (H * P * Hᴴ) := by
        rw [hgain]
      _ = gain H P R * R := by
        rw [innovation, Matrix.mul_add, add_sub_cancel_left]
  calc
    (1 - gain H P R * H) * P * (P⁻¹ + Hᴴ * R⁻¹ * H) =
        (1 - gain H P R * H) * (P * P⁻¹) +
          (1 - gain H P R * H) * P * Hᴴ * (R⁻¹ * H) := by
      simp only [Matrix.mul_add, Matrix.mul_assoc]
    _ = (1 - gain H P R * H) + gain H P R * (R * R⁻¹) * H := by
      rw [mul_nonsing_inv P hPdet, Matrix.mul_one, hresidual]
      simp only [Matrix.mul_assoc]
    _ = 1 := by
      rw [mul_nonsing_inv R hRdet, Matrix.mul_one, sub_add_cancel]

theorem corrected_posDef {P : Matrix n n K} {R : Matrix m m K}
    (hP : P.PosDef) (hR : R.PosDef) (H : Matrix m n K) :
    ((1 - gain H P R * H) * P).PosDef := by
  have hinformation : (P⁻¹ + Hᴴ * R⁻¹ * H).PosDef :=
    PosDef.add_posSemidef hP.inv
      (hR.inv.posSemidef.conjTranspose_mul_mul_same H)
  rw [← inv_eq_left_inv (corrected_mul_information hP hR H)]
  exact hinformation.inv

end KalmanCovariance

/-! ## Block labels -/

namespace BlockLabels

variable {l m n β α : Type*} {a : l → β} {b : m → β} {c : n → β}

/-- The entries at which the labels of row and column differ are zero. -/
def Respects [Zero α] (b : m → β) (c : n → β) (M : Matrix m n α) : Prop :=
  ∀ i j, b i ≠ c j → M i j = 0

theorem Respects.add [AddZeroClass α] {M N : Matrix m n α}
    (hM : Respects b c M) (hN : Respects b c N) : Respects b c (M + N) := by
  intro i j hij
  rw [Matrix.add_apply, hM i j hij, hN i j hij, add_zero]

theorem Respects.transpose [Zero α] {M : Matrix m n α} (hM : Respects b c M) :
    Respects c b Mᵀ :=
  fun i j hij => hM j i hij.symm

theorem Respects.mul [Fintype m] [NonUnitalNonAssocSemiring α]
    {M : Matrix l m α} {N : Matrix m n α} (hM : Respects a b M)
    (hN : Respects b c N) : Respects a c (M * N) := by
  intro i k hik
  rw [Matrix.mul_apply]
  apply Finset.sum_eq_zero
  intro j _
  by_cases hij : a i = b j
  · rw [hN j k (fun h => hik (hij.trans h)), mul_zero]
  · rw [hM i j hij, zero_mul]

theorem respects_diagonal [DecidableEq m] [Zero α] (d : m → α) :
    Respects b b (diagonal d) := by
  intro i j hij
  rw [diagonal_apply_ne]
  rintro rfl
  exact hij rfl

end BlockLabels
