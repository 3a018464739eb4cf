import Mathlib.Data.List.Chain
import Mathlib.Data.List.Destutter
import Mathlib.Data.Nat.ModEq

/-!
# Walks on a ring

A walk that at every step stays or goes on to the next place of a ring of `n`
places.  Once the repetitions are left out it visits the places in the order of
the ring and skips none.
-/

namespace RingWalk

section Destutter

variable {α : Type*} [DecidableEq α] {moves : α → α → Prop} {x : α} {l : List α}

theorem exists_destutter'_eq_cons (x : α) (l : List α) :
    ∃ rest, l.destutter' (· ≠ ·) x = x :: rest := by
  induction l with
  | nil => exact ⟨[], rfl⟩
  | cons y l ih =>
      by_cases hxy : x ≠ y
      · exact ⟨_, List.destutter'_cons_pos l hxy⟩
      · rw [List.destutter'_cons_neg l hxy]
        exact ih

/-- What is left of a walk without its repetitions is a chain of real moves. -/
theorem isChain_destutter
    (hwalk : (x :: l).IsChain fun x y => y = x ∨ moves x y) :
    ((x :: l).destutter (· ≠ ·)).IsChain moves := by
  rw [List.destutter_cons']
  induction l generalizing x with
  | nil => exact .singleton x
  | cons y l ih =>
      obtain ⟨hstep, hrest⟩ := List.isChain_cons_cons.mp hwalk
      have htail := ih hrest
      by_cases hxy : x ≠ y
      · rw [List.destutter'_cons_pos l hxy]
        obtain ⟨rest, heq⟩ := exists_destutter'_eq_cons y l
        rw [heq] at htail ⊢
        exact htail.cons_cons (hstep.resolve_left hxy.symm)
      · obtain rfl : x = y := not_not.mp hxy
        rw [List.destutter'_cons_neg l hxy]
        exact htail

end Destutter

/-- One step of the walk. -/
def Follows (n x y : ℕ) : Prop :=
  y = x ∨ y = (x + 1) % n

instance (n x y : ℕ) : Decidable (Follows n x y) :=
  inferInstanceAs (Decidable (_ ∨ _))

variable {n x : ℕ} {l : List ℕ}

theorem getElem?_of_isChain (hx : x < n)
    (hchain : (x :: l).IsChain fun x y => y = (x + 1) % n) (i y : ℕ)
    (hy : (x :: l)[i]? = some y) : y = (x + i) % n := by
  induction i generalizing y with
  | zero =>
      obtain rfl : x = y := by simpa using hy
      exact (Nat.mod_eq_of_lt hx).symm
  | succ i ih =>
      obtain ⟨hlt, rfl⟩ := List.getElem?_eq_some_iff.mp hy
      have hprev := ih _ (List.getElem?_eq_getElem (by omega))
      rw [(List.isChain_iff_getElem.mp hchain) i hlt, hprev, Nat.mod_add_mod,
        Nat.add_assoc]

/-- The `i`-th place that a walk visits is `i` places from the first. -/
theorem visited (hx : x < n) (hwalk : (x :: l).IsChain (Follows n)) (i y : ℕ)
    (hy : ((x :: l).destutter (· ≠ ·))[i]? = some y) : y = (x + i) % n := by
  have hchain := isChain_destutter hwalk
  rw [List.destutter_cons'] at hchain hy
  obtain ⟨rest, heq⟩ := exists_destutter'_eq_cons x l
  rw [heq] at hchain hy
  exact getElem?_of_isChain hx hchain i y hy

end RingWalk
