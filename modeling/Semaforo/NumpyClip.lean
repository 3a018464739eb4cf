import Mathlib.Algebra.Order.Field.Basic
import Mathlib.Tactic.Linarith

/-!
# Clipping to an interval

`np.clip` on a linear order without exceptional values.
-/

namespace Numpy

variable {α : Type*} [LinearOrder α]

def clip (x low high : α) : α := min (max x low) high

theorem low_le_clip (x : α) {low high : α} (h : low ≤ high) :
    low ≤ clip x low high :=
  le_min (le_max_right x low) h

theorem clip_le_high (x low high : α) : clip x low high ≤ high :=
  min_le_right _ _

theorem clip_eq_self {x low high : α} (hlow : low ≤ x) (hhigh : x ≤ high) :
    clip x low high = x := by
  rw [clip, max_eq_left hlow, min_eq_left hhigh]

theorem clip_mono {x y : α} (h : x ≤ y) (low high : α) :
    clip x low high ≤ clip y low high :=
  min_le_min_right high (max_le_max_right low h)

/-- Two values of which the larger is inside the interval are told apart. -/
theorem clip_eq_clip_iff {x y low high : α} (hlow : low ≤ x) (hle : x ≤ y) :
    clip x low high = clip y low high ↔ x = y ∨ high ≤ x := by
  rw [clip, clip, max_eq_left hlow, max_eq_left (hlow.trans hle)]
  constructor
  · intro heq
    by_contra hdiffer
    rw [not_or, not_le] at hdiffer
    obtain ⟨hne, hhigh⟩ := hdiffer
    rw [min_eq_left hhigh.le] at heq
    rcases le_total y high with hy | hy
    · rw [min_eq_left hy] at heq
      exact hne heq
    · rw [min_eq_right hy] at heq
      exact hhigh.ne heq
  · rintro (rfl | hhigh)
    · rfl
    · rw [min_eq_right hhigh, min_eq_right (hhigh.trans hle)]

end Numpy
