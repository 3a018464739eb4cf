import Mathlib.Algebra.Order.Ring.Defs
import Mathlib.Order.Lattice
import Mathlib.Tactic.Push

/-!
# Floating-point values with their exceptional members

A value is finite, one of the two infinities, or NaN.  Comparisons follow
IEEE 754: NaN compares false with everything, itself included, so the order
relations below are relations and not orders.  Finite values are exact members
of an ordered carrier; an operation that rounds is the exact one followed by
`FloatValue.map` of the rounding.
-/

inductive FloatValue (α : Type*) where
  | nan
  | negInf
  | posInf
  | fin (x : α)
  deriving DecidableEq, Repr

namespace FloatValue

variable {α : Type*}

protected def le [LE α] : FloatValue α → FloatValue α → Prop
  | nan, _ => False
  | _, nan => False
  | negInf, _ => True
  | _, posInf => True
  | fin x, fin y => x ≤ y
  | _, _ => False

protected def lt [LT α] : FloatValue α → FloatValue α → Prop
  | nan, _ => False
  | _, nan => False
  | negInf, negInf => False
  | negInf, _ => True
  | posInf, _ => False
  | _, posInf => True
  | fin x, fin y => x < y
  | _, _ => False

instance [LE α] : LE (FloatValue α) := ⟨FloatValue.le⟩

instance [LT α] : LT (FloatValue α) := ⟨FloatValue.lt⟩

instance [LE α] [DecidableLE α] : DecidableLE (FloatValue α) := fun x y =>
  match x, y with
  | nan, nan => isFalse id
  | nan, negInf => isFalse id
  | nan, posInf => isFalse id
  | nan, fin _ => isFalse id
  | negInf, nan => isFalse id
  | negInf, negInf => isTrue trivial
  | negInf, posInf => isTrue trivial
  | negInf, fin _ => isTrue trivial
  | posInf, nan => isFalse id
  | posInf, negInf => isFalse id
  | posInf, posInf => isTrue trivial
  | posInf, fin _ => isFalse id
  | fin _, nan => isFalse id
  | fin _, negInf => isFalse id
  | fin _, posInf => isTrue trivial
  | fin a, fin b => inferInstanceAs (Decidable (a ≤ b))

instance [LT α] [DecidableLT α] : DecidableLT (FloatValue α) := fun x y =>
  match x, y with
  | nan, nan => isFalse id
  | nan, negInf => isFalse id
  | nan, posInf => isFalse id
  | nan, fin _ => isFalse id
  | negInf, nan => isFalse id
  | negInf, negInf => isFalse id
  | negInf, posInf => isTrue trivial
  | negInf, fin _ => isTrue trivial
  | posInf, nan => isFalse id
  | posInf, negInf => isFalse id
  | posInf, posInf => isFalse id
  | posInf, fin _ => isFalse id
  | fin _, nan => isFalse id
  | fin _, negInf => isFalse id
  | fin _, posInf => isTrue trivial
  | fin a, fin b => inferInstanceAs (Decidable (a < b))

/-- `isfinite` of the C library. -/
def IsFinite : FloatValue α → Prop
  | fin _ => True
  | _ => False

instance : DecidablePred (IsFinite (α := α)) := fun x =>
  match x with
  | nan => isFalse id
  | negInf => isFalse id
  | posInf => isFalse id
  | fin _ => isTrue trivial

protected def add [Add α] : FloatValue α → FloatValue α → FloatValue α
  | nan, _ => nan
  | _, nan => nan
  | negInf, posInf => nan
  | posInf, negInf => nan
  | negInf, _ => negInf
  | _, negInf => negInf
  | posInf, _ => posInf
  | _, posInf => posInf
  | fin x, fin y => fin (x + y)

protected def sub [Sub α] : FloatValue α → FloatValue α → FloatValue α
  | nan, _ => nan
  | _, nan => nan
  | negInf, negInf => nan
  | posInf, posInf => nan
  | negInf, _ => negInf
  | _, negInf => posInf
  | posInf, _ => posInf
  | _, posInf => negInf
  | fin x, fin y => fin (x - y)

instance [Add α] : Add (FloatValue α) := ⟨FloatValue.add⟩

instance [Sub α] : Sub (FloatValue α) := ⟨FloatValue.sub⟩

/-- A function on the finite members, such as a rounding. -/
protected def map {β : Type*} (f : α → β) : FloatValue α → FloatValue β
  | nan => nan
  | negInf => negInf
  | posInf => posInf
  | fin x => fin (f x)

/-- `std::max`: the first argument unless it compares below the second. -/
def stdMax [LT α] [DecidableLT α] (x y : FloatValue α) : FloatValue α :=
  if x < y then y else x

section Comparison

@[simp] theorem fin_le_fin [LE α] {x y : α} :
    (fin x : FloatValue α) ≤ fin y ↔ x ≤ y := Iff.rfl

@[simp] theorem fin_lt_fin [LT α] {x y : α} :
    (fin x : FloatValue α) < fin y ↔ x < y := Iff.rfl

@[simp] theorem not_nan_le [LE α] (x : FloatValue α) : ¬ nan ≤ x := by
  cases x <;> exact id

@[simp] theorem not_le_nan [LE α] (x : FloatValue α) : ¬ x ≤ nan := by
  cases x <;> exact id

@[simp] theorem negInf_le_fin [LE α] (x : α) :
    (negInf : FloatValue α) ≤ fin x := trivial

@[simp] theorem not_posInf_le_fin [LE α] (x : α) :
    ¬ (posInf : FloatValue α) ≤ fin x := id

@[simp] theorem not_fin_le_negInf [LE α] (x : α) :
    ¬ (fin x : FloatValue α) ≤ negInf := id

@[simp] theorem fin_add_fin [Add α] (x y : α) :
    (fin x : FloatValue α) + fin y = fin (x + y) := rfl

@[simp] theorem isFinite_fin (x : α) : IsFinite (fin x) := trivial

@[simp] theorem not_isFinite_nan : ¬ IsFinite (nan : FloatValue α) := id

@[simp] theorem not_isFinite_negInf : ¬ IsFinite (negInf : FloatValue α) := id

@[simp] theorem not_isFinite_posInf : ¬ IsFinite (posInf : FloatValue α) := id

protected theorem le_trans [Preorder α] {x y z : FloatValue α}
    (hxy : x ≤ y) (hyz : y ≤ z) : x ≤ z := by
  cases x with
  | nan => exact absurd hxy (not_nan_le y)
  | negInf =>
      cases z with
      | nan => exact absurd hyz (not_le_nan y)
      | _ => trivial
  | posInf =>
      cases y with
      | posInf => exact hyz
      | nan => exact absurd hxy (not_le_nan _)
      | negInf => exact absurd hxy id
      | fin y => exact absurd hxy (not_posInf_le_fin y)
  | fin x =>
      cases y with
      | nan => exact absurd hxy (not_le_nan _)
      | negInf => exact absurd hxy (not_fin_le_negInf x)
      | posInf =>
          cases z with
          | posInf => trivial
          | nan => exact absurd hyz (not_le_nan _)
          | negInf => exact absurd hyz id
          | fin z => exact absurd hyz (not_posInf_le_fin z)
      | fin y =>
          cases z with
          | posInf => trivial
          | nan => exact absurd hyz (not_le_nan _)
          | negInf => exact absurd hyz (not_fin_le_negInf y)
          | fin z =>
              exact (fin_le_fin.mp hxy).trans (fin_le_fin.mp hyz)

protected theorem lt_irrefl [Preorder α] (x : FloatValue α) : ¬ x < x := by
  cases x with
  | nan => exact id
  | negInf => exact id
  | posInf => exact id
  | fin x => exact lt_irrefl x

protected theorem lt_asymm [Preorder α] {x y : FloatValue α} (h : x < y) :
    ¬ y < x := by
  cases x <;> cases y
  case fin.fin x y => exact lt_asymm (fin_lt_fin.mp h)
  all_goals first | exact id | exact absurd h id

/-- Not to be less is transitive over a finite value. -/
theorem not_lt_trans [LinearOrder α] {x z : FloatValue α} {y : α}
    (hxy : ¬ x < fin y) (hyz : ¬ fin y < z) : ¬ x < z := by
  cases x <;> cases z
  case fin.fin x z =>
    rw [fin_lt_fin, not_lt] at hxy hyz ⊢
    exact hyz.trans hxy
  all_goals first | exact id | exact absurd trivial hxy | exact absurd trivial hyz

theorem le_fin_of_le [Preorder α] {x : FloatValue α} {a b : α}
    (hx : x ≤ fin a) (hab : a ≤ b) : x ≤ fin b := by
  cases x with
  | nan => exact absurd hx (not_nan_le _)
  | negInf => exact negInf_le_fin b
  | posInf => exact absurd hx (not_posInf_le_fin a)
  | fin x => exact le_trans (fin_le_fin.mp hx) hab

end Comparison

section Range

variable [LinearOrder α]

/-- Finite and inside the closed interval: the usual sanity check on a
configured quantity. -/
def WithinRange (lo hi : α) (x : FloatValue α) : Prop :=
  IsFinite x ∧ fin lo ≤ x ∧ x ≤ fin hi

instance (lo hi : α) : DecidablePred (WithinRange lo hi) := fun x =>
  inferInstanceAs (Decidable (IsFinite x ∧ fin lo ≤ x ∧ x ≤ fin hi))

theorem withinRange_iff {lo hi : α} {x : FloatValue α} :
    WithinRange lo hi x ↔ ∃ a, x = fin a ∧ lo ≤ a ∧ a ≤ hi := by
  constructor
  · rintro ⟨hfinite, hlo, hhi⟩
    cases x with
    | fin a => exact ⟨a, rfl, hlo, hhi⟩
    | nan => exact absurd hfinite not_isFinite_nan
    | negInf => exact absurd hfinite not_isFinite_negInf
    | posInf => exact absurd hfinite not_isFinite_posInf
  · rintro ⟨a, rfl, hlo, hhi⟩
    exact ⟨isFinite_fin a, hlo, hhi⟩

end Range

end FloatValue
