import Semaforo.KalmanCovariance
import Semaforo.Tracker
import Mathlib.Algebra.Order.Star.Real
import Mathlib.Tactic

/-!
# The Kalman filter of a box

`KalmanBoxFilter` of `edge/src/tracker.cpp` over any ordered field.  The inverse
of OpenCV is a parameter.  Rows and columns carry the label of the component that they are about, a velocity that of
its component, and no matrix of the filter mixes two labels.  So every
observation corrects its own component by a fraction of the innovation, and area
and aspect stay positive.
-/

namespace Semaforo

open Matrix KalmanCovariance BlockLabels

structure KalmanBoxFilter (K : Type) where
  x : Fin 7 → K
  P : Matrix (Fin 7) (Fin 7) K

namespace KalmanBoxFilter

section

variable {K : Type} [Field K] [LinearOrder K]

/-- `Mat7::eye()` with `dt` where a velocity acts on its component. -/
def transition (dt : K) : Matrix (Fin 7) (Fin 7) K :=
  Matrix.of fun i j =>
    if (i, j) = (0, 4) ∨ (i, j) = (1, 5) ∨ (i, j) = (2, 6) then dt
    else if i = j then 1
    else 0

def kF : Matrix (Fin 7) (Fin 7) K := transition 1

def kH : Matrix (Fin 4) (Fin 7) K :=
  Matrix.of fun i j =>
    if (i, j) = (0, 0) ∨ (i, j) = (1, 1) ∨ (i, j) = (2, 2) ∨ (i, j) = (3, 3)
    then 1
    else 0

def kQ : Matrix (Fin 7) (Fin 7) K :=
  diagonal ![1, 1, 1, 1, 1 / ((100 : ℕ) : K), 1 / ((100 : ℕ) : K),
    1 / ((10000 : ℕ) : K)]

def kR : Matrix (Fin 4) (Fin 4) K :=
  diagonal ![1, 1, ((10 : ℕ) : K), ((10 : ℕ) : K)]

def bboxToZ (b : BBox K) : Fin 4 → K :=
  ![b.x + b.width / ((2 : ℕ) : K), b.y + b.height / ((2 : ℕ) : K),
    b.width * b.height, if 0 < b.height then b.width / b.height else 1]

/-- `cv::Matx::inv` inverts a matrix that has an inverse. -/
def Inverts (inv : Matrix (Fin 4) (Fin 4) K → Matrix (Fin 4) (Fin 4) K) : Prop :=
  ∀ s, s.det ≠ 0 → inv s * s = 1

/-- Cramer's rule, with zero for a matrix that has no inverse. -/
def matxInv (s : Matrix (Fin 4) (Fin 4) K) : Matrix (Fin 4) (Fin 4) K :=
  s.det⁻¹ • s.adjugate

def init (box : BBox K) : KalmanBoxFilter K :=
  let z := bboxToZ box
  { x := ![z 0, z 1, z 2, z 3, 0, 0, 0]
    P := diagonal ![((10 : ℕ) : K), ((10 : ℕ) : K), ((10 : ℕ) : K),
      ((10 : ℕ) : K), ((10000 : ℕ) : K), ((10000 : ℕ) : K),
      ((10000 : ℕ) : K)] }

def predict (kf : KalmanBoxFilter K) (dt : K) : KalmanBoxFilter K :=
  let x := if kf.x 2 + kf.x 6 * dt ≤ 0 then Function.update kf.x 6 0 else kf.x
  if dt = 1 then { x := kF *ᵥ x, P := kF * kf.P * kFᵀ + kQ }
  else
    let f := transition dt
    { x := f *ᵥ x, P := f * kf.P * fᵀ + kQ }

/-- The innovation covariance. -/
def innovationCovariance (kf : KalmanBoxFilter K) : Matrix (Fin 4) (Fin 4) K :=
  (kH : Matrix (Fin 4) (Fin 7) K) * kf.P * (kH : Matrix (Fin 4) (Fin 7) K)ᵀ + kR

def update (inv : Matrix (Fin 4) (Fin 4) K → Matrix (Fin 4) (Fin 4) K)
    (kf : KalmanBoxFilter K) (box : BBox K) : KalmanBoxFilter K :=
  let y := bboxToZ box - kH *ᵥ kf.x
  let s := innovationCovariance kf
  let k := kf.P * (kH : Matrix (Fin 4) (Fin 7) K)ᵀ * inv s
  { x := kf.x + k *ᵥ y
    P := (1 - k * (kH : Matrix (Fin 4) (Fin 7) K)) * kf.P }

def bbox (sqrt : K → K) (kf : KalmanBoxFilter K) : BBox K :=
  let s := max (kf.x 2) (1 / ((1000 : ℕ) : K))
  let r := max (kf.x 3) (1 / ((1000 : ℕ) : K))
  let w := sqrt (s * r)
  let h := s / w
  { x := kf.x 0 - w / ((2 : ℕ) : K)
    y := kf.x 1 - h / ((2 : ℕ) : K)
    width := w
    height := h }

/-- The filter as the tracker uses it. -/
def filter (inv : Matrix (Fin 4) (Fin 4) K → Matrix (Fin 4) (Fin 4) K)
    (sqrt : K → K) : BoxFilter K (KalmanBoxFilter K) where
  init := init
  predict := predict
  update := update inv
  bbox := bbox sqrt
  vx kf := kf.x 4
  vy kf := kf.x 5

end

inductive Step (K : Type) where
  | predict (dt : K)
  | update (box : BBox K)

section

variable {K : Type} [Field K] [LinearOrder K]

def step (inv : Matrix (Fin 4) (Fin 4) K → Matrix (Fin 4) (Fin 4) K)
    (kf : KalmanBoxFilter K) : Step K → KalmanBoxFilter K
  | .predict dt => kf.predict dt
  | .update box => kf.update inv box

def run (inv : Matrix (Fin 4) (Fin 4) K → Matrix (Fin 4) (Fin 4) K)
    (kf : KalmanBoxFilter K) (steps : List (Step K)) : KalmanBoxFilter K :=
  steps.foldl (step inv) kf

/-- Time passes, and boxes have an area. -/
def Step.Proper : Step K → Prop
  | .predict dt => 0 < dt
  | .update box => 0 < box.width ∧ 0 < box.height

end

/-- The pairs of a component and its velocity. -/
def coupled : List (Fin 7 × Fin 7) :=
  [(0, 4), (4, 0), (1, 5), (5, 1), (2, 6), (6, 2)]

structure WellFormed (inv : Matrix (Fin 4) (Fin 4) ℝ → Matrix (Fin 4) (Fin 4) ℝ)
    (kf : KalmanBoxFilter ℝ) : Prop where
  symmetric : kf.P.IsSymm
  covariance : kf.P.PosDef
  sparse : ∀ i j, i ≠ j → (i, j) ∉ coupled → kf.P i j = 0
  innovation : (innovationCovariance kf).PosDef
  scale_pos : 0 < kf.x 2
  aspect_pos : 0 < kf.x 3
  unclamped : 1 / 1000 ≤ kf.x 2 → 1 / 1000 ≤ kf.x 3 → ∀ sqrt : ℝ → ℝ,
    ((filter inv sqrt).bbox kf).width = sqrt (kf.x 2 * kf.x 3) ∧
      ((filter inv sqrt).bbox kf).height = kf.x 2 / sqrt (kf.x 2 * kf.x 3)

/-! ## Labels -/

/-- The component that a row is about. -/
def label : Fin 7 → Fin 4 := ![0, 1, 2, 3, 0, 1, 2]

section

variable {K : Type} [Field K]

theorem respects_transition (dt : K) :
    Respects label label (transition dt) := by
  intro i j hij
  have hcoupled : ¬ ((i, j) = (0, 4) ∨ (i, j) = (1, 5) ∨ (i, j) = (2, 6)) := by
    rintro (h | h | h) <;>
      · obtain ⟨rfl, rfl⟩ := Prod.mk.inj h
        exact hij rfl
  have hne : i ≠ j := fun h => hij (congrArg label h)
  rw [transition, Matrix.of_apply, if_neg hcoupled, if_neg hne]

theorem kH_apply (i : Fin 4) (j : Fin 7) :
    (kH : Matrix (Fin 4) (Fin 7) K) i j =
      if j = Fin.castLE (by omega) i then 1 else 0 := by
  have hiff : ((i, j) = (0, 0) ∨ (i, j) = (1, 1) ∨ (i, j) = (2, 2) ∨
      (i, j) = (3, 3)) ↔ j = Fin.castLE (by omega) i := by
    revert i j
    decide
  rw [kH, Matrix.of_apply]
  simp only [hiff]

end

/-! ## Observations -/

/-- The state row of an observed component. -/
def row (i : Fin 4) : Fin 7 := Fin.castLE (by omega) i

@[simp] theorem label_row (i : Fin 4) : label (row i) = i := by
  revert i
  decide

section

variable {K : Type} [Field K]

theorem kH_mulVec (x : Fin 7 → K) (i : Fin 4) : (kH *ᵥ x) i = x (row i) := by
  simp [mulVec, dotProduct, kH_apply, row]

theorem mul_kH_transpose (P : Matrix (Fin 7) (Fin 7) K) (i : Fin 7)
    (j : Fin 4) : (P * (kH : Matrix (Fin 4) (Fin 7) K)ᵀ) i j = P i (row j) := by
  simp [Matrix.mul_apply, kH_apply, row]

theorem kH_mul {n : Type*} (P : Matrix (Fin 7) n K) (i : Fin 4) (j : n) :
    ((kH : Matrix (Fin 4) (Fin 7) K) * P) i j = P (row i) j := by
  simp [Matrix.mul_apply, kH_apply, row]

variable {inv : Matrix (Fin 4) (Fin 4) K → Matrix (Fin 4) (Fin 4) K}

theorem Inverts.eq_inv (h : Inverts inv) {s : Matrix (Fin 4) (Fin 4) K}
    (hs : s.det ≠ 0) : inv s = s⁻¹ :=
  (Matrix.inv_eq_left_inv (h s hs)).symm

theorem inverts_matxInv : Inverts (matxInv (K := K)) := by
  intro s hs
  rw [matxInv, ← Ring.inverse_eq_inv', ← Matrix.inv_def]
  exact Matrix.nonsing_inv_mul s (isUnit_iff_ne_zero.mpr hs)

variable {kf : KalmanBoxFilter K}

/-- How much of the innovation of its component a row takes up. -/
def ownGain (kf : KalmanBoxFilter K) (i : Fin 7) : K :=
  kf.P i (row (label i)) /
    (kf.P (row (label i)) (row (label i)) + kR (label i) (label i))

theorem innovationCovariance_apply (i j : Fin 4) :
    innovationCovariance kf i j = kf.P (row i) (row j) + kR i j := by
  rw [innovationCovariance, Matrix.add_apply, Matrix.mul_assoc, kH_mul,
    mul_kH_transpose]

/-- Without a correlation between components an observation is about its own
component only. -/
theorem gain_of_blocks (hinv : Inverts inv) (hblocks : Respects label label kf.P)
    (hobservable : ∀ j, kf.P (row j) (row j) + kR j j ≠ 0) (i : Fin 7)
    (j : Fin 4) :
    (kf.P * (kH : Matrix (Fin 4) (Fin 7) K)ᵀ *
        inv (innovationCovariance kf)) i j =
      if j = label i then ownGain kf i else 0 := by
  have hdiagonal : innovationCovariance kf =
      diagonal fun j => kf.P (row j) (row j) + kR j j := by
    ext j j'
    rw [innovationCovariance_apply]
    by_cases hj : j = j'
    · rw [hj, diagonal_apply_eq]
    · rw [diagonal_apply_ne _ hj, hblocks _ _ (by rwa [label_row, label_row]), kR,
        diagonal_apply_ne _ hj, add_zero]
  have hinverse : inv (innovationCovariance kf) =
      diagonal fun j => (kf.P (row j) (row j) + kR j j)⁻¹ := by
    have hdet : (innovationCovariance kf).det ≠ 0 := by
      rw [hdiagonal, Matrix.det_diagonal]
      exact Finset.prod_ne_zero_iff.mpr fun j _ => hobservable j
    rw [hinv.eq_inv hdet, hdiagonal]
    apply Matrix.inv_eq_right_inv
    rw [diagonal_mul_diagonal, ← diagonal_one]
    exact congrArg diagonal (funext fun j => mul_inv_cancel₀ (hobservable j))
  rw [hinverse, mul_diagonal, mul_kH_transpose, ← div_eq_mul_inv]
  split_ifs with hj
  · rw [hj, ownGain]
  · rw [hblocks i (row j) (by rw [label_row]; exact fun h => hj h.symm), zero_div]

variable [LinearOrder K]

/-- Every row is corrected by the innovation of its component. -/
theorem update_of_blocks (hinv : Inverts inv) (hblocks : Respects label label kf.P)
    (hobservable : ∀ j, kf.P (row j) (row j) + kR j j ≠ 0) (box : BBox K) :
    kf.update inv box =
      { x := fun i => kf.x i +
          ownGain kf i * (bboxToZ box (label i) - kf.x (row (label i)))
        P := Matrix.of fun i l =>
          kf.P i l - ownGain kf i * kf.P (row (label i)) l } := by
  have hgain := gain_of_blocks hinv hblocks hobservable
  refine congrArg₂ KalmanBoxFilter.mk (funext fun i => ?_)
    (Matrix.ext fun i l => ?_)
  · rw [Pi.add_apply, mulVec, dotProduct, Finset.sum_eq_single (label i), hgain,
      if_pos rfl, Pi.sub_apply, kH_mulVec]
    · intro j _ hj
      rw [hgain, if_neg hj, zero_mul]
    · exact fun h => absurd (Finset.mem_univ _) h
  · rw [Matrix.sub_mul, Matrix.one_mul, Matrix.mul_assoc, Matrix.sub_apply,
      Matrix.of_apply, Matrix.mul_apply, Finset.sum_eq_single (label i), hgain,
      if_pos rfl, kH_mul]
    · intro j _ hj
      rw [hgain, if_neg hj, zero_mul]
    · exact fun h => absurd (Finset.mem_univ _) h

/-- The two paths of `predict` are one. -/
theorem predict_eq (kf : KalmanBoxFilter K) (dt : K) :
    kf.predict dt =
      { x := transition dt *ᵥ
          (if kf.x 2 + kf.x 6 * dt ≤ 0 then Function.update kf.x 6 0 else kf.x)
        P := transition dt * kf.P * (transition dt)ᵀ + kQ } := by
  unfold predict
  dsimp only
  by_cases hdt : dt = 1
  · rw [if_pos hdt, hdt, kF]
  · rw [if_neg hdt]

end

theorem posDef_kQ : (kQ : Matrix (Fin 7) (Fin 7) ℝ).PosDef := by
  refine PosDef.diagonal fun i => ?_
  fin_cases i <;> norm_num

theorem posDef_kR : (kR : Matrix (Fin 4) (Fin 4) ℝ).PosDef := by
  refine PosDef.diagonal fun i => ?_
  fin_cases i <;> norm_num

theorem innovationCovariance_eq (kf : KalmanBoxFilter ℝ) :
    innovationCovariance kf = KalmanCovariance.innovation kH kf.P kR := by
  rw [innovationCovariance, KalmanCovariance.innovation,
    conjTranspose_eq_transpose_of_trivial]

theorem posDef_innovationCovariance {kf : KalmanBoxFilter ℝ} (hP : kf.P.PosDef) :
    (innovationCovariance kf).PosDef := by
  rw [innovationCovariance_eq]
  exact innovation_posDef hP posDef_kR kH

variable {inv : Matrix (Fin 4) (Fin 4) ℝ → Matrix (Fin 4) (Fin 4) ℝ}

/-- The gain that `update` computes. -/
theorem gain_eq (hinv : Inverts inv) {kf : KalmanBoxFilter ℝ} (hP : kf.P.PosDef) :
    kf.P * (kH : Matrix (Fin 4) (Fin 7) ℝ)ᵀ * inv (innovationCovariance kf) =
      KalmanCovariance.gain kH kf.P kR := by
  have hdet : IsUnit (innovationCovariance kf).det :=
    (isUnit_iff_isUnit_det _).mp (posDef_innovationCovariance hP).isUnit
  rw [hinv.eq_inv hdet.ne_zero, innovationCovariance_eq, KalmanCovariance.gain,
    conjTranspose_eq_transpose_of_trivial]

/-! ## The invariant -/

structure Sound (kf : KalmanBoxFilter ℝ) : Prop where
  covariance : kf.P.PosDef
  blocks : Respects label label kf.P
  scale_pos : 0 < kf.x 2
  aspect_pos : 0 < kf.x 3

theorem Sound.observable {kf : KalmanBoxFilter ℝ} (h : Sound kf) (j : Fin 4) :
    kf.P (row j) (row j) + kR j j ≠ 0 :=
  (add_pos h.covariance.diag_pos posDef_kR.diag_pos).ne'

theorem update_row (hinv : Inverts inv) {kf : KalmanBoxFilter ℝ} (h : Sound kf)
    (box : BBox ℝ) (i : Fin 4) :
    (kf.update inv box).x (row i) =
      kf.x (row i) + kf.P (row i) (row i) /
        (kf.P (row i) (row i) + kR i i) * (bboxToZ box i - kf.x (row i)) := by
  rw [update_of_blocks hinv h.blocks h.observable]
  change kf.x (row i) + ownGain kf (row i) *
    (bboxToZ box (label (row i)) - kf.x (row (label (row i)))) = _
  rw [ownGain, label_row]

/-- Between two positive values there are only positive values. -/
theorem corrected_pos {x z p r : ℝ} (hx : 0 < x) (hz : 0 < z) (hp : 0 < p)
    (hr : 0 < r) : 0 < x + p / (p + r) * (z - x) := by
  have hmean : x + p / (p + r) * (z - x) = (r * x + p * z) / (p + r) := by
    have hne : p + r ≠ 0 := (add_pos hp hr).ne'
    field_simp
    ring
  rw [hmean]
  exact div_pos (add_pos (mul_pos hr hx) (mul_pos hp hz)) (add_pos hp hr)

theorem Sound.update (hinv : Inverts inv) {kf : KalmanBoxFilter ℝ} (h : Sound kf)
    {box : BBox ℝ} (hwidth : 0 < box.width) (hheight : 0 < box.height) :
    Sound (kf.update inv box) := by
  have hP : (kf.update inv box).P =
      (1 - KalmanCovariance.gain kH kf.P kR * kH) * kf.P := by
    rw [← gain_eq hinv h.covariance]
    rfl
  have hscale : 0 < bboxToZ box 2 := mul_pos hwidth hheight
  have haspect : 0 < bboxToZ box 3 := by
    show 0 < if 0 < box.height then box.width / box.height else 1
    rw [if_pos hheight]
    exact div_pos hwidth hheight
  constructor
  · rw [hP]
    exact corrected_posDef h.covariance posDef_kR kH
  · rw [update_of_blocks hinv h.blocks h.observable]
    intro i l hil
    have hown : kf.P (row (label i)) l = 0 :=
      h.blocks _ _ (by rwa [label_row])
    change kf.P i l - ownGain kf i * kf.P (row (label i)) l = 0
    rw [hown, h.blocks i l hil, mul_zero, sub_zero]
  · have hrow := update_row hinv h box 2
    change (kf.update inv box).x 2 = kf.x 2 + _ * (_ - kf.x 2) at hrow
    rw [hrow]
    exact corrected_pos h.scale_pos hscale h.covariance.diag_pos
      posDef_kR.diag_pos
  · have hrow := update_row hinv h box 3
    change (kf.update inv box).x 3 = kf.x 3 + _ * (_ - kf.x 3) at hrow
    rw [hrow]
    exact corrected_pos h.aspect_pos haspect h.covariance.diag_pos
      posDef_kR.diag_pos

theorem transition_mulVec_scale (dt : ℝ) (x : Fin 7 → ℝ) :
    (transition dt *ᵥ x) 2 = x 2 + dt * x 6 ∧ (transition dt *ᵥ x) 3 = x 3 := by
  simp [mulVec, dotProduct, transition, Fin.sum_univ_succ]

theorem Sound.predict {kf : KalmanBoxFilter ℝ} (h : Sound kf) (dt : ℝ) :
    Sound (kf.predict dt) := by
  rw [predict_eq]
  constructor
  · have hpredicted := predicted_posDef h.covariance posDef_kQ (transition dt)
    rw [conjTranspose_eq_transpose_of_trivial] at hpredicted
    exact hpredicted
  · exact (((respects_transition dt).mul h.blocks).mul
      (respects_transition dt).transpose).add (respects_diagonal _)
  · show 0 < (transition dt *ᵥ _) 2
    rw [(transition_mulVec_scale dt _).1]
    split_ifs with hguard
    · simpa using h.scale_pos
    · rw [mul_comm]
      exact not_le.mp hguard
  · show 0 < (transition dt *ᵥ _) 3
    rw [(transition_mulVec_scale dt _).2]
    split_ifs
    · simpa using h.aspect_pos
    · exact h.aspect_pos

theorem sound_init {box : BBox ℝ} (hwidth : 0 < box.width)
    (hheight : 0 < box.height) : Sound (init box) := by
  constructor
  · refine PosDef.diagonal fun i => ?_
    fin_cases i <;> norm_num
  · exact respects_diagonal _
  · exact mul_pos hwidth hheight
  · show 0 < if 0 < box.height then box.width / box.height else 1
    rw [if_pos hheight]
    exact div_pos hwidth hheight

theorem Sound.run (hinv : Inverts inv) {kf : KalmanBoxFilter ℝ} (h : Sound kf)
    {steps : List (Step ℝ)} (hsteps : ∀ s ∈ steps, s.Proper) :
    Sound (kf.run inv steps) := by
  induction steps generalizing kf with
  | nil => exact h
  | cons s steps ih =>
      rw [List.forall_mem_cons] at hsteps
      refine ih ?_ hsteps.2
      cases s with
      | predict dt => exact h.predict dt
      | update box => exact h.update hinv hsteps.1.1 hsteps.1.2

theorem Sound.wellFormed {kf : KalmanBoxFilter ℝ} (h : Sound kf) :
    WellFormed inv kf where
  symmetric := by
    have hsymm := h.covariance.isHermitian
    rw [IsHermitian, conjTranspose_eq_transpose_of_trivial] at hsymm
    exact hsymm
  covariance := h.covariance
  sparse i j hij hpair := by
    apply h.blocks i j
    revert i j
    decide
  innovation := posDef_innovationCovariance h.covariance
  scale_pos := h.scale_pos
  aspect_pos := h.aspect_pos
  unclamped hscale haspect sqrt := by
    have hs : max (kf.x 2) (1 / ((1000 : ℕ) : ℝ)) = kf.x 2 :=
      max_eq_left (by exact_mod_cast hscale)
    have hr : max (kf.x 3) (1 / ((1000 : ℕ) : ℝ)) = kf.x 3 :=
      max_eq_left (by exact_mod_cast haspect)
    simp only [filter, bbox, hs, hr, and_self]

theorem kalman_well_formed (hinv : Inverts inv) (box : BBox ℝ)
    (steps : List (Step ℝ)) (hwidth : 0 < box.width) (hheight : 0 < box.height)
    (hsteps : ∀ s ∈ steps, s.Proper) :
    WellFormed inv ((init box).run inv steps) :=
  ((sound_init hwidth hheight).run hinv hsteps).wellFormed

theorem kalman_well_formed_car :
    WellFormed matxInv ((init (⟨100, 80, 40, 20⟩ : BBox ℝ)).run matxInv
      [.predict 1, .update ⟨104, 80, 42, 20⟩, .predict 3]) := by
  apply kalman_well_formed inverts_matxInv _ _ (by norm_num) (by norm_num)
  intro s hs
  simp only [List.mem_cons, List.not_mem_nil, or_false] at hs
  rcases hs with rfl | rfl | rfl <;> norm_num [Step.Proper]

end KalmanBoxFilter

end Semaforo
