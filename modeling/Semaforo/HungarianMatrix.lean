import Semaforo.HungarianSolver
import Mathlib.Tactic

/-!
# The solver on a square matrix

`solve_assignment` reads its matrix only, so bounds on the entries of the matrix
are enough for it to end with an assignment of minimal cost.
-/

namespace Semaforo

namespace Hungarian

variable {K : Type} [Field K] [LinearOrder K]

/-- The same square matrix. -/
def SameMatrix (n : ℕ) (cost cost' : ℕ → ℕ → K) : Prop :=
  ∀ r < n, ∀ j < n, cost r j = cost' r j

section

variable {n : ℕ} {cost cost' : ℕ → ℕ → K} {p : ℕ → ℕ}

omit [Field K] [LinearOrder K] in
theorem SameMatrix.cell_eq (h : SameMatrix n cost cost') {r j : ℕ} (hr : r ≤ n)
    (hj : j ∈ List.range' 1 n) : cell cost r j = cell cost' r j := by
  rw [List.mem_range'_1] at hj
  exact h (r - 1) (by omega) (j - 1) (by omega)

theorem scan_congr (used : ℕ → Bool) {cur cur' : ℕ → K} (j0 : ℕ)
    (minv : ℕ → K) (way : ℕ → ℕ)
    (hcur : ∀ j ∈ List.range' 1 n, cur j = cur' j) :
    scan n used cur j0 minv way = scan n used cur' j0 minv way := by
  refine List.foldl_ext _ _ _ fun w j hj => ?_
  rw [relax, relax, lower, lower, hcur j hj]

theorem searchStep_congr (h : SameMatrix n cost cost') (hp : ∀ j, p j ≤ n)
    (s : Search K) : searchStep cost n p s = searchStep cost' n p s := by
  have hscan := scan_congr (Function.update s.used s.j0 true) s.j0 s.minv s.way
    fun j hj => congrArg (· - s.u (p s.j0) - s.v j) (h.cell_eq (hp s.j0) hj)
  simp only [searchStep, hscan]

theorem search_congr (h : SameMatrix n cost cost') (hp : ∀ j, p j ≤ n)
    (fuel : ℕ) (s : Search K) :
    search cost n p fuel s = search cost' n p fuel s := by
  induction fuel generalizing s with
  | zero => rfl
  | succ fuel ih => simp only [search, searchStep_congr h hp, ih]

/-- Moving rows along the trail brings in no new row. -/
theorem augment_le {way : ℕ → ℕ} (fuel : ℕ) {p p' : ℕ → ℕ} {j0 : ℕ}
    (hp : ∀ j, p j ≤ n) (haugment : augment way fuel p j0 = some p') (j : ℕ) :
    p' j ≤ n := by
  induction fuel generalizing p j0 with
  | zero => exact absurd haugment (by simp [augment])
  | succ fuel ih =>
      have hmoved : ∀ k, Function.update p j0 (p (way j0)) k ≤ n := by
        intro k
        rw [Function.update_apply]
        split_ifs
        · exact hp _
        · exact hp k
      rw [augment] at haugment
      split_ifs at haugment
      · exact ih hmoved haugment
      · exact Option.some.inj haugment ▸ hmoved j

theorem update_zero_le {i : ℕ} (hi : i ≤ n) (hp : ∀ j, p j ≤ n) (j : ℕ) :
    Function.update p 0 i j ≤ n := by
  rw [Function.update_apply]
  split_ifs
  · exact hi
  · exact hp j

theorem insertRow_congr (h : SameMatrix n cost cost') {s : State K} {i : ℕ}
    (hi : i ≤ n) (hs : ∀ j, s.p j ≤ n) :
    insertRow cost n s i = insertRow cost' n s i := by
  simp only [insertRow, search_congr h (update_zero_le hi hs)]

theorem insertRow_le {s s' : State K} {i : ℕ} (hi : i ≤ n)
    (hs : ∀ j, s.p j ≤ n) (hinsert : insertRow cost n s i = some s') (j : ℕ) :
    s'.p j ≤ n := by
  obtain ⟨found, -, hrest⟩ := Option.bind_eq_some_iff.mp hinsert
  obtain ⟨p', haugment, hstate⟩ := Option.bind_eq_some_iff.mp hrest
  rw [← Option.some.inj hstate]
  exact augment_le (n + 1) (update_zero_le hi hs) haugment j

theorem insertRows_congr (h : SameMatrix n cost cost') {rows : List ℕ}
    (hrows : ∀ i ∈ rows, i ≤ n) {s : State K} (hs : ∀ j, s.p j ≤ n) :
    rows.foldlM (insertRow cost n) s = rows.foldlM (insertRow cost' n) s := by
  induction rows generalizing s with
  | nil => rfl
  | cons i rows ih =>
      have hi := hrows i List.mem_cons_self
      rw [List.foldlM_cons, List.foldlM_cons, ← insertRow_congr h hi hs]
      refine Option.bind_congr fun s' hs' => ?_
      exact ih (fun k hk => hrows k (List.mem_cons_of_mem _ hk))
        (insertRow_le hi hs hs')

end

end Hungarian

theorem solveAssignment_congr {K : Type} [Field K] [LinearOrder K] {n : ℕ}
    {cost cost' : ℕ → ℕ → K} (h : Hungarian.SameMatrix n cost cost') :
    solveAssignment cost n = solveAssignment cost' n := by
  have hrows : ∀ i ∈ List.range' 1 n, i ≤ n := by
    intro i hi
    rw [List.mem_range'_1] at hi
    omega
  rw [solveAssignment, solveAssignment,
    Hungarian.insertRows_congr h hrows fun _ => Nat.zero_le n]

/-- The entries of the matrix alone, whatever stands outside. -/
def Hungarian.inside (n : ℕ) (cost : ℕ → ℕ → ℚ) (r j : ℕ) : ℚ :=
  if r < n ∧ j < n then cost r j else 0

theorem Hungarian.inside_moderate {n : ℕ} {cost : ℕ → ℕ → ℚ}
    (hcost : ∀ r < n, ∀ j < n, 0 ≤ cost r j ∧ cost r j ≤ 10 ^ 6) :
    Hungarian.Moderate (Hungarian.inside n cost) 0 (10 ^ 6) := by
  have hinside : ∀ r j, 0 ≤ Hungarian.inside n cost r j ∧
      Hungarian.inside n cost r j ≤ 10 ^ 6 := by
    intro r j
    unfold Hungarian.inside
    split_ifs with hin
    · exact hcost r hin.1 j hin.2
    · norm_num
  refine ⟨fun r j => (hinside r j).1, fun r j => (hinside r j).2, le_rfl,
    by norm_num, ?_⟩
  rw [Hungarian.kInf]
  calc 2 * (10 : ℚ) ^ 6 - 0 < (2 ^ 53 - 1) * 1 := by norm_num
    _ ≤ (2 ^ 53 - 1) * 2 ^ 969 :=
        mul_le_mul_of_nonneg_left (one_le_pow₀ one_le_two) (by norm_num)

/-- Every square matrix of costs up to the infeasible one is solved. -/
theorem solveAssignment_optimal (n : ℕ) (cost : ℕ → ℕ → ℚ)
    (hcost : ∀ r < n, ∀ j < n, 0 ≤ cost r j ∧ cost r j ≤ 10 ^ 6) :
    ∃ σ : Equiv.Perm (Fin n),
      solveAssignment cost n = some (List.ofFn fun j => ((σ j : ℕ) : ℤ)) ∧
        ∀ τ : Equiv.Perm (Fin n), ∑ j, cost (σ j) j ≤ ∑ j, cost (τ j) j := by
  have hsame : Hungarian.SameMatrix n cost (Hungarian.inside n cost) :=
    fun r hr j hj => (if_pos ⟨hr, hj⟩).symm
  have htotal : ∀ σ : Equiv.Perm (Fin n),
      Assignment.totalCost (fun r j : Fin n => Hungarian.inside n cost r j) σ =
        ∑ j, cost (σ j) j := fun σ =>
    Finset.sum_congr rfl fun j _ => (hsame (σ j) (σ j).isLt j j.isLt).symm
  obtain ⟨σ, hsolve, hoptimal⟩ :=
    solveAssignment_spec (Hungarian.inside_moderate hcost) n
  refine ⟨σ, (solveAssignment_congr hsame).trans hsolve, fun τ => ?_⟩
  rw [← htotal, ← htotal]
  exact hoptimal τ

/-- Three columns, of which two are infeasible for every row. -/
theorem solveAssignment_optimal_ties :
    ∃ σ : Equiv.Perm (Fin 3),
      solveAssignment (fun r j => if j = 1 then (r : ℚ) / 4 else 10 ^ 6) 3 =
          some (List.ofFn fun j => ((σ j : ℕ) : ℤ)) ∧
        ∀ τ : Equiv.Perm (Fin 3),
          ∑ j : Fin 3, (if (j : ℕ) = 1 then ((σ j : ℕ) : ℚ) / 4 else 10 ^ 6) ≤
            ∑ j : Fin 3, if (j : ℕ) = 1 then ((τ j : ℕ) : ℚ) / 4 else 10 ^ 6 :=
  solveAssignment_optimal 3 _ (by decide +kernel)

end Semaforo
