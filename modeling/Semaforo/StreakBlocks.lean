import Mathlib.Tactic

/-!
# Blocks in a stream of hits and misses

A counter of consecutive hits that starts again at every miss and whenever it
has reached `size` counts off the blocks of `size` hits in each unbroken
streak.
-/

namespace StreakBlocks

variable {α : Type*} (hit : α → Bool) (size : ℕ)

/-- The unbroken streaks, cut at the misses. -/
def streaks (xs : List α) : List (List α) := xs.splitOnP fun x => !hit x

/-- The full blocks of `size` hits in all streaks. -/
def blocks (xs : List α) : ℕ :=
  ((streaks hit xs).map fun streak => streak.length / size).sum

/-- The hits since the last miss. -/
def trailing (xs : List α) : ℕ := ((streaks hit xs).getLast?.getD []).length

theorem splitOnP_append_singleton (p : α → Bool) (xs : List α) :
    ∃ before last, xs.splitOnP p = before ++ [last] ∧
      ∀ a, (xs ++ [a]).splitOnP p =
        before ++ if p a then [last, []] else [last ++ [a]] := by
  induction xs with
  | nil =>
      refine ⟨[], [], rfl, fun a => ?_⟩
      rw [List.nil_append, List.splitOnP_cons_eq_if_modifyHead]
      split_ifs <;> rfl
  | cons x xs ih =>
      obtain ⟨before, last, hsplit, hsnoc⟩ := ih
      by_cases hx : p x = true
      · refine ⟨[] :: before, last, ?_, fun a => ?_⟩
        · rw [List.splitOnP_cons_eq_if_modifyHead, if_pos hx, hsplit, List.cons_append]
        · rw [List.cons_append, List.splitOnP_cons_eq_if_modifyHead, if_pos hx, hsnoc,
            List.cons_append]
      · cases before with
        | nil =>
            refine ⟨[], x :: last, ?_, fun a => ?_⟩
            · rw [List.splitOnP_cons_eq_if_modifyHead, if_neg hx, hsplit]
              rfl
            · rw [List.cons_append, List.splitOnP_cons_eq_if_modifyHead, if_neg hx, hsnoc]
              split_ifs <;> rfl
        | cons first before =>
            refine ⟨(x :: first) :: before, last, ?_, fun a => ?_⟩
            · rw [List.splitOnP_cons_eq_if_modifyHead, if_neg hx, hsplit]
              rfl
            · rw [List.cons_append, List.splitOnP_cons_eq_if_modifyHead, if_neg hx, hsnoc]
              rfl

variable {hit size}

theorem blocks_nil : blocks hit size [] = 0 := by
  simp [blocks, streaks]

theorem trailing_nil : trailing hit ([] : List α) = 0 := by
  simp [trailing, streaks]

theorem append_miss {xs : List α} {a : α} (ha : hit a = false) :
    blocks hit size (xs ++ [a]) = blocks hit size xs ∧
      trailing hit (xs ++ [a]) = 0 := by
  obtain ⟨before, last, hsplit, hsnoc⟩ :=
    splitOnP_append_singleton (fun x => !hit x) xs
  simp [blocks, trailing, streaks, hsplit, hsnoc, ha]

theorem append_hit {xs : List α} {a : α} (ha : hit a = true) :
    blocks hit size (xs ++ [a]) = blocks hit size xs +
        (if size ∣ trailing hit xs + 1 then 1 else 0) ∧
      trailing hit (xs ++ [a]) = trailing hit xs + 1 := by
  obtain ⟨before, last, hsplit, hsnoc⟩ :=
    splitOnP_append_singleton (fun x => !hit x) xs
  simp [blocks, trailing, streaks, hsplit, hsnoc, ha, Nat.succ_div, add_assoc]

/-- A counter that stands at the remainder reaches `size` with the hit that
fills a block. -/
theorem size_le_counter_iff (hsize : 1 ≤ size) (t : ℕ) :
    size ≤ t % size + 1 ↔ size ∣ t + 1 := by
  have hlt := Nat.mod_lt t hsize
  rw [Nat.dvd_iff_mod_eq_zero, ← Nat.mod_add_mod]
  constructor
  · intro hle
    rw [show t % size + 1 = size by omega, Nat.mod_self]
  · intro hzero
    by_contra hlow
    rw [Nat.mod_eq_of_lt (by omega)] at hzero
    omega

theorem counter_succ_mod (hsize : 1 ≤ size) {t : ℕ} (ht : ¬ size ∣ t + 1) :
    (t + 1) % size = t % size + 1 := by
  rw [← size_le_counter_iff hsize, not_le] at ht
  rw [← Nat.mod_add_mod, Nat.mod_eq_of_lt ht]

end StreakBlocks
