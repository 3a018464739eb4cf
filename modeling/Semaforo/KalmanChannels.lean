import Semaforo.KalmanBoxFilter
import Mathlib.Tactic

/-!
# The filter component by component

As long as no two components are correlated, the filter of a box is four scalar
filters: one for each coordinate of the centre and one for the area, each with
its velocity, and one for the aspect.
-/

namespace Semaforo

open Matrix BlockLabels

namespace KalmanBoxFilter

/-- A component and its velocity, with their covariances. -/
structure Channel (K : Type) where
  value : K
  velocity : K
  variance : K
  covariance : K
  velocityVariance : K
  deriving DecidableEq, Repr

structure Channels (K : Type) where
  x : Channel K
  y : Channel K
  s : Channel K
  r : K
  rVariance : K
  deriving DecidableEq, Repr

section

variable {K : Type} [Field K]

def Channel.predict (c : Channel K) (dt noise : K) : Channel K where
  value := c.value + dt * c.velocity
  velocity := c.velocity
  variance := c.variance + dt * c.covariance +
    dt * (c.covariance + dt * c.velocityVariance) + 1
  covariance := c.covariance + dt * c.velocityVariance
  velocityVariance := c.velocityVariance + noise

def Channel.correct (c : Channel K) (noise z : K) : Channel K where
  value := c.value + c.variance / (c.variance + noise) * (z - c.value)
  velocity := c.velocity + c.covariance / (c.variance + noise) * (z - c.value)
  variance := c.variance - c.variance / (c.variance + noise) * c.variance
  covariance := c.covariance - c.variance / (c.variance + noise) * c.covariance
  velocityVariance :=
    c.velocityVariance - c.covariance / (c.variance + noise) * c.covariance

namespace Channels

def centreX (box : BBox K) : K :=
  box.x + box.width / ((2 : ℕ) : K)

def centreY (box : BBox K) : K :=
  box.y + box.height / ((2 : ℕ) : K)

def area (box : BBox K) : K :=
  box.width * box.height

def aspect (box : BBox K) [LinearOrder K] : K :=
  if 0 < box.height then box.width / box.height else 1

def init (box : BBox K) [LinearOrder K] : Channels K where
  x := ⟨centreX box, 0, ((10 : ℕ) : K), 0, ((10000 : ℕ) : K)⟩
  y := ⟨centreY box, 0, ((10 : ℕ) : K), 0, ((10000 : ℕ) : K)⟩
  s := ⟨area box, 0, ((10 : ℕ) : K), 0, ((10000 : ℕ) : K)⟩
  r := aspect box
  rVariance := ((10 : ℕ) : K)

/-- The matrices of uncorrelated components. -/
def toFilter (c : Channels K) : KalmanBoxFilter K where
  x := ![c.x.value, c.y.value, c.s.value, c.r, c.x.velocity, c.y.velocity,
    c.s.velocity]
  P := !![c.x.variance, 0, 0, 0, c.x.covariance, 0, 0;
    0, c.y.variance, 0, 0, 0, c.y.covariance, 0;
    0, 0, c.s.variance, 0, 0, 0, c.s.covariance;
    0, 0, 0, c.rVariance, 0, 0, 0;
    c.x.covariance, 0, 0, 0, c.x.velocityVariance, 0, 0;
    0, c.y.covariance, 0, 0, 0, c.y.velocityVariance, 0;
    0, 0, c.s.covariance, 0, 0, 0, c.s.velocityVariance]

/-- The scale guard. -/
def guarded (c : Channels K) [LinearOrder K] (dt : K) : Channels K :=
  { c with
    s := { c.s with
      velocity := if c.s.value + c.s.velocity * dt ≤ 0 then 0 else c.s.velocity } }

def coast (c : Channels K) (dt : K) : Channels K where
  x := c.x.predict dt (1 / ((100 : ℕ) : K))
  y := c.y.predict dt (1 / ((100 : ℕ) : K))
  s := c.s.predict dt (1 / ((10000 : ℕ) : K))
  r := c.r
  rVariance := c.rVariance + 1

def predict (c : Channels K) [LinearOrder K] (dt : K) : Channels K :=
  (c.guarded dt).coast dt

def correct (c : Channels K) [LinearOrder K] (box : BBox K) : Channels K where
  x := c.x.correct 1 (centreX box)
  y := c.y.correct 1 (centreY box)
  s := c.s.correct ((10 : ℕ) : K) (area box)
  r := c.r + c.rVariance / (c.rVariance + ((10 : ℕ) : K)) * (aspect box - c.r)
  rVariance := c.rVariance -
    c.rVariance / (c.rVariance + ((10 : ℕ) : K)) * c.rVariance

/-- Every observation says something. -/
structure Observable (c : Channels K) : Prop where
  x : c.x.variance + 1 ≠ 0
  y : c.y.variance + 1 ≠ 0
  s : c.s.variance + ((10 : ℕ) : K) ≠ 0
  r : c.rVariance + ((10 : ℕ) : K) ≠ 0

instance [DecidableEq K] (c : Channels K) : Decidable c.Observable :=
  decidable_of_iff (c.x.variance + 1 ≠ 0 ∧ c.y.variance + 1 ≠ 0 ∧
      c.s.variance + ((10 : ℕ) : K) ≠ 0 ∧ c.rVariance + ((10 : ℕ) : K) ≠ 0)
    ⟨fun ⟨hx, hy, hs, hr⟩ => ⟨hx, hy, hs, hr⟩, fun h => ⟨h.x, h.y, h.s, h.r⟩⟩

end Channels

end

/-! ## The channels are the filter -/

section

variable {K : Type} [Field K]

/-- A transition adds to every row the row of its velocity. -/
theorem transition_mul {n : Type*} (dt : K) (A : Matrix (Fin 7) n K) (i : Fin 7)
    (j : n) : (transition dt * A) i j =
      A i j + ![dt * A 4 j, dt * A 5 j, dt * A 6 j, 0, 0, 0, 0] i := by
  rw [Matrix.mul_apply]
  fin_cases i <;> simp [transition, Fin.sum_univ_succ]

theorem Channel.correct_covariance (c : Channel K) (noise z : K) :
    (c.correct noise z).covariance =
      c.covariance - c.covariance / (c.variance + noise) * c.variance :=
  congrArg (c.covariance - ·) (div_mul_comm _ _ _)

theorem mul_transition_transpose {n : Type*} (dt : K) (A : Matrix n (Fin 7) K)
    (i : n) (j : Fin 7) : (A * (transition dt)ᵀ) i j =
      A i j + ![dt * A i 4, dt * A i 5, dt * A i 6, 0, 0, 0, 0] j := by
  have htranspose := transition_mul dt Aᵀ j i
  rw [← Matrix.transpose_transpose (transition dt * Aᵀ), Matrix.transpose_mul,
    Matrix.transpose_transpose] at htranspose
  exact htranspose

end

namespace Channels

section

variable {K : Type} [Field K] (c : Channels K)

theorem respects_toFilter : Respects label label c.toFilter.P := by
  intro i j hij
  fin_cases i <;> fin_cases j <;> first | rfl | exact absurd rfl hij

theorem observable_toFilter {c : Channels K} (h : c.Observable) (j : Fin 4) :
    c.toFilter.P (row j) (row j) + kR j j ≠ 0 := by
  fin_cases j
  exacts [h.x, h.y, h.s, h.r]

variable [LinearOrder K]

theorem init_toFilter (box : BBox K) :
    (init box).toFilter = KalmanBoxFilter.init box := by
  refine congrArg₂ KalmanBoxFilter.mk rfl (Matrix.ext fun i j => ?_)
  fin_cases i <;> fin_cases j <;> rfl

theorem guarded_toFilter (dt : K) :
    (c.guarded dt).toFilter.x =
      if c.toFilter.x 2 + c.toFilter.x 6 * dt ≤ 0 then
        Function.update c.toFilter.x 6 0
      else c.toFilter.x := by
  have hscale : c.toFilter.x 2 + c.toFilter.x 6 * dt =
      c.s.value + c.s.velocity * dt := rfl
  rw [hscale]
  ext i
  split_ifs with hguard
  · fin_cases i <;> simp [toFilter, guarded, hguard]
  · fin_cases i <;> simp [toFilter, guarded, hguard]

omit [LinearOrder K] in
theorem coast_toFilter_x (dt : K) :
    (c.coast dt).toFilter.x = transition dt *ᵥ c.toFilter.x := by
  ext i
  fin_cases i <;>
    simp [toFilter, coast, Channel.predict, transition, mulVec, dotProduct,
      Fin.sum_univ_succ]

omit [LinearOrder K] in
theorem coast_toFilter_P (dt : K) :
    (c.coast dt).toFilter.P =
      transition dt * c.toFilter.P * (transition dt)ᵀ + kQ := by
  have hblocks : Respects label label
      (transition dt * c.toFilter.P * (transition dt)ᵀ + kQ) :=
    (((respects_transition dt).mul c.respects_toFilter).mul
      (respects_transition dt).transpose).add (respects_diagonal _)
  ext i j
  by_cases hij : label i = label j
  · rw [Matrix.add_apply, mul_transition_transpose]
    simp only [transition_mul]
    fin_cases i <;> fin_cases j <;>
      first
      | exact absurd hij (by decide)
      | simp [toFilter, coast, Channel.predict, kQ]
  · rw [hblocks i j hij, (c.coast dt).respects_toFilter i j hij]

theorem predict_toFilter (dt : K) :
    (c.predict dt).toFilter = c.toFilter.predict dt := by
  rw [predict_eq, ← guarded_toFilter, ← coast_toFilter_x]
  exact congrArg _ ((c.guarded dt).coast_toFilter_P dt)

theorem correct_toFilter
    {inv : Matrix (Fin 4) (Fin 4) K → Matrix (Fin 4) (Fin 4) K}
    (hinv : Inverts inv) {c : Channels K} (h : c.Observable) (box : BBox K) :
    (c.correct box).toFilter = c.toFilter.update inv box := by
  rw [update_of_blocks hinv c.respects_toFilter (observable_toFilter h)]
  refine congrArg₂ KalmanBoxFilter.mk (funext fun i => ?_)
    (Matrix.ext fun i l => ?_)
  · fin_cases i <;> rfl
  · change (c.correct box).toFilter.P i l =
      c.toFilter.P i l - ownGain c.toFilter i * c.toFilter.P (row (label i)) l
    by_cases hil : label i = label l
    · fin_cases i <;> fin_cases l <;>
        first
        | exact absurd hil (by decide)
        | rfl
        | exact c.x.correct_covariance 1 (centreX box)
        | exact c.y.correct_covariance 1 (centreY box)
        | exact c.s.correct_covariance ((10 : ℕ) : K) (area box)
    · rw [(c.correct box).respects_toFilter i l hil, c.respects_toFilter i l hil,
        c.respects_toFilter (row (label i)) l (by rwa [label_row]), mul_zero,
        sub_zero]

end

end Channels

end KalmanBoxFilter

end Semaforo
