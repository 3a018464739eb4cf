import Mathlib.Tactic

/-!
# Potential-based reward shaping

Along a trajectory with potentials `φ₀, φ₁, …` a step from `φ` to `ψ` is paid
`γ ψ - φ`.  The discounted sum of these payments telescopes, so it depends on
the two ends of the trajectory only.
-/

namespace PotentialShaping

variable {α : Type*} [CommRing α]

/-- The sum of the payments, the `t`-th weighted with `gamma ^ t`. -/
def discountedSum (gamma : α) (rewards : List α) : α :=
  (rewards.mapIdx fun t reward => gamma ^ t * reward).sum

/-- The payments along the potentials `previous :: potentials`. -/
def payments (gamma : α) : α → List α → List α
  | _, [] => []
  | previous, potential :: potentials =>
      (gamma * potential - previous) :: payments gamma potential potentials

@[simp] theorem discountedSum_nil (gamma : α) : discountedSum gamma [] = 0 := by
  simp [discountedSum]

theorem discountedSum_cons (gamma reward : α) (rewards : List α) :
    discountedSum gamma (reward :: rewards) =
      reward + gamma * discountedSum gamma rewards := by
  have hshift : ∀ l : List α,
      (l.mapIdx fun t x => gamma ^ (t + 1) * x).sum =
        gamma * (l.mapIdx fun t x => gamma ^ t * x).sum := by
    intro l
    induction l using List.reverseRecOn with
    | nil => simp
    | append_singleton l x ih =>
        rw [List.mapIdx_concat, List.mapIdx_concat, List.sum_append,
          List.sum_append, ih, List.sum_singleton, List.sum_singleton, pow_succ]
        ring
  rw [discountedSum, List.mapIdx_cons, List.sum_cons, pow_zero, one_mul,
    hshift]
  rfl

theorem discountedSum_payments (gamma previous : α) (potentials : List α) :
    discountedSum gamma (payments gamma previous potentials) =
      gamma ^ potentials.length * potentials.getLastD previous - previous := by
  induction potentials generalizing previous with
  | nil => simp [payments]
  | cons potential potentials ih =>
      rw [payments, discountedSum_cons, ih, List.getLastD_cons,
        List.length_cons, pow_succ]
      ring

/-- Paying the first potential itself before the first step changes the part of
the first end only. -/
theorem discountedSum_cons_payments (gamma first : α) (potentials : List α) :
    discountedSum gamma (first :: payments gamma first potentials) =
      (1 - gamma) * first +
        gamma ^ (potentials.length + 1) * potentials.getLastD first := by
  rw [discountedSum_cons, discountedSum_payments, pow_succ]
  ring

end PotentialShaping
