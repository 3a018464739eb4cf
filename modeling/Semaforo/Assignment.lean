import Mathlib.Algebra.BigOperators.Group.Finset.Basic
import Mathlib.Algebra.Order.BigOperators.Group.Finset
import Mathlib.Data.Fintype.Perm
import Mathlib.Logic.Equiv.Fintype
import Mathlib.Tactic

/-!
# Assignments of minimal cost

Permutations of a finite index type as perfect matchings of rows and columns.
Potentials that are feasible, and tight on a permutation, prove it optimal.
Partial matchings extend to permutations, so an optimal permutation of a matrix
in which forbidden pairs are expensive is a maximum matching of the allowed
pairs, and among those one of minimal weight.
-/

namespace Assignment

variable {ι : Type*} [Fintype ι] [DecidableEq ι]
variable {K : Type*} [Field K] [LinearOrder K] [IsStrictOrderedRing K]

/-- The cost of giving to each column `j` the row `σ j`. -/
def totalCost (cost : ι → ι → K) (σ : Equiv.Perm ι) : K := ∑ j, cost (σ j) j

def IsOptimal (cost : ι → ι → K) (σ : Equiv.Perm ι) : Prop :=
  ∀ τ, totalCost cost σ ≤ totalCost cost τ

omit [DecidableEq ι] in
/-- Weak duality. -/
theorem sum_potentials_le {cost : ι → ι → K} {u v : ι → K}
    (hfeasible : ∀ i j, u i + v j ≤ cost i j) (τ : Equiv.Perm ι) :
    ∑ i, u i + ∑ j, v j ≤ totalCost cost τ := by
  rw [← Equiv.sum_comp τ u, ← Finset.sum_add_distrib]
  exact Finset.sum_le_sum fun j _ => hfeasible (τ j) j

omit [DecidableEq ι] in
theorem isOptimal_of_potentials {cost : ι → ι → K} {u v : ι → K}
    {σ : Equiv.Perm ι} (hfeasible : ∀ i j, u i + v j ≤ cost i j)
    (htight : ∀ j, u (σ j) + v j = cost (σ j) j) : IsOptimal cost σ := by
  intro τ
  have hσ : totalCost cost σ = ∑ i, u i + ∑ j, v j := by
    rw [← Equiv.sum_comp σ u, ← Finset.sum_add_distrib]
    exact Finset.sum_congr rfl fun j _ => (htight j).symm
  rw [hσ]
  exact sum_potentials_le hfeasible τ

/-! ## Partial matchings -/

/-- No two pairs share a row or a column. -/
structure IsMatching {α β : Type*} (M : Finset (α × β)) : Prop where
  row_unique : ∀ a ∈ M, ∀ b ∈ M, a.1 = b.1 → a = b
  column_unique : ∀ a ∈ M, ∀ b ∈ M, a.2 = b.2 → a = b

/-- The allowed pairs of a permutation. -/
def pairs (allowed : Finset (ι × ι)) (σ : Equiv.Perm ι) : Finset (ι × ι) :=
  allowed.filter fun a => σ a.2 = a.1

omit [Fintype ι] in
theorem isMatching_pairs (allowed : Finset (ι × ι)) (σ : Equiv.Perm ι) :
    IsMatching (pairs allowed σ) := by
  constructor
  · intro a ha b hb hrow
    have ha' := (Finset.mem_filter.mp ha).2
    have hb' := (Finset.mem_filter.mp hb).2
    exact Prod.ext hrow (σ.injective (by rw [ha', hb', hrow]))
  · intro a ha b hb hcolumn
    have ha' := (Finset.mem_filter.mp ha).2
    have hb' := (Finset.mem_filter.mp hb).2
    exact Prod.ext (by rw [← ha', ← hb', hcolumn]) hcolumn

theorem exists_perm_of_isMatching {M : Finset (ι × ι)} (h : IsMatching M) :
    ∃ τ : Equiv.Perm ι, ∀ a ∈ M, τ a.2 = a.1 := by
  classical
  let row : ι → ι := fun j => if hj : ∃ i, (i, j) ∈ M then hj.choose else j
  have hrow : ∀ a ∈ M, row a.2 = a.1 := by
    intro a ha
    have hj : ∃ i, (i, a.2) ∈ M := ⟨a.1, ha⟩
    have hchoose := h.column_unique _ hj.choose_spec a ha rfl
    simp only [row, dif_pos hj]
    exact congrArg Prod.fst hchoose
  have hinjective : Set.InjOn row (M.image Prod.snd) := by
    intro j hj k hk heq
    obtain ⟨a, ha, rfl⟩ := Finset.mem_image.mp (Finset.mem_coe.mp hj)
    obtain ⟨b, hb, rfl⟩ := Finset.mem_image.mp (Finset.mem_coe.mp hk)
    rw [hrow a ha, hrow b hb] at heq
    exact congrArg Prod.snd (h.row_unique a ha b hb heq)
  obtain ⟨g, hg⟩ := Finset.exists_equiv_extend_of_card_eq
    (t := Finset.univ) Finset.card_univ.symm (Finset.subset_univ _) hinjective
  let τ : Equiv.Perm ι := g.trans (Equiv.subtypeUnivEquiv Finset.mem_univ)
  refine ⟨τ, fun a ha => ?_⟩
  rw [← hrow a ha]
  exact hg a.2 (Finset.mem_image_of_mem _ ha)

/-! ## Expensive forbidden pairs -/

/-- Allowed pairs cost their weight, all others the same. -/
def gated (allowed : Finset (ι × ι)) (weight : ι → ι → K) (forbidden : K)
    (i j : ι) : K :=
  if (i, j) ∈ allowed then weight i j else forbidden

variable {allowed : Finset (ι × ι)} {weight : ι → ι → K} {forbidden : K}

omit [Fintype ι] in
theorem mem_pairs {σ : Equiv.Perm ι} {a : ι × ι} :
    a ∈ pairs allowed σ ↔ a ∈ allowed ∧ σ a.2 = a.1 :=
  Finset.mem_filter

omit [LinearOrder K] [IsStrictOrderedRing K] in
/-- The cost of a permutation, its pairs in `M` apart. -/
theorem totalCost_gated {M : Finset (ι × ι)} {τ : Equiv.Perm ι}
    (hM : M ⊆ pairs allowed τ) :
    totalCost (gated allowed weight forbidden) τ =
      ∑ a ∈ M, weight a.1 a.2 +
        ∑ j ∈ (M.image Prod.snd)ᶜ, gated allowed weight forbidden (τ j) j := by
  have hcolumns : ∑ j ∈ M.image Prod.snd,
      gated allowed weight forbidden (τ j) j = ∑ a ∈ M, weight a.1 a.2 := by
    rw [Finset.sum_image]
    · refine Finset.sum_congr rfl fun a ha => ?_
      obtain ⟨hallowed, hrow⟩ := mem_pairs.mp (hM ha)
      rw [hrow, gated, if_pos hallowed]
    · intro a ha b hb
      exact (isMatching_pairs allowed τ).column_unique a (hM ha) b (hM hb)
  rw [← hcolumns, Finset.sum_add_sum_compl]
  rfl

omit [LinearOrder K] [IsStrictOrderedRing K] in
theorem card_columns_compl {M : Finset (ι × ι)} (h : IsMatching M) :
    ((M.image Prod.snd)ᶜ.card : K) = Fintype.card ι - M.card := by
  have hcard : (M.image Prod.snd).card = M.card :=
    Finset.card_image_of_injOn fun a ha b hb => h.column_unique a ha b hb
  have hle : M.card ≤ Fintype.card ι := hcard ▸ Finset.card_le_univ _
  rw [Finset.card_compl, hcard, Nat.cast_sub hle]

omit [LinearOrder K] [IsStrictOrderedRing K] in
theorem totalCost_pairs (σ : Equiv.Perm ι) :
    totalCost (gated allowed weight forbidden) σ =
      ∑ a ∈ pairs allowed σ, weight a.1 a.2 +
        (Fintype.card ι - (pairs allowed σ).card) * forbidden := by
  rw [totalCost_gated (Finset.Subset.refl _),
    ← card_columns_compl (isMatching_pairs allowed σ), ← nsmul_eq_mul,
    ← Finset.sum_const]
  congr 1
  refine Finset.sum_congr rfl fun j hj => if_neg fun hallowed => ?_
  rw [Finset.mem_compl] at hj
  exact hj (Finset.mem_image.mpr ⟨(σ j, j), mem_pairs.mpr ⟨hallowed, rfl⟩, rfl⟩)

theorem totalCost_le_of_matching {M : Finset (ι × ι)} (h : IsMatching M)
    {τ : Equiv.Perm ι} (hM : M ⊆ pairs allowed τ)
    (hweight : ∀ a ∈ allowed, weight a.1 a.2 ≤ forbidden) :
    totalCost (gated allowed weight forbidden) τ ≤
      ∑ a ∈ M, weight a.1 a.2 + (Fintype.card ι - M.card) * forbidden := by
  rw [totalCost_gated hM, ← card_columns_compl h, ← nsmul_eq_mul,
    ← Finset.sum_const]
  gcongr with j
  unfold gated
  split_ifs with hallowed
  · exact hweight _ hallowed
  · exact le_rfl

/-- If allowed pairs weigh between 0 and 1 and forbidden ones cost more than
there are columns, an optimal permutation has as many allowed pairs as
possible, and they weigh as little as possible. -/
theorem pairs_lexicographic {σ : Equiv.Perm ι}
    (hσ : IsOptimal (gated allowed weight forbidden) σ)
    (hnonneg : ∀ a ∈ allowed, 0 ≤ weight a.1 a.2)
    (hle : ∀ a ∈ allowed, weight a.1 a.2 ≤ 1)
    (hforbidden : (Fintype.card ι : K) < forbidden)
    {M : Finset (ι × ι)} (h : IsMatching M) (hM : M ⊆ allowed) :
    M.card ≤ (pairs allowed σ).card ∧
      (M.card = (pairs allowed σ).card →
        ∑ a ∈ pairs allowed σ, weight a.1 a.2 ≤ ∑ a ∈ M, weight a.1 a.2) := by
  obtain ⟨τ, hτ⟩ := exists_perm_of_isMatching h
  have hpairs : M ⊆ pairs allowed τ := fun a ha =>
    mem_pairs.mpr ⟨hM ha, hτ a ha⟩
  have hweight : ∀ a ∈ allowed, weight a.1 a.2 ≤ forbidden := by
    intro a ha
    have hcard : (1 : K) ≤ Fintype.card ι := by
      exact_mod_cast Fintype.card_pos_iff.mpr ⟨a.1⟩
    linarith [hle a ha]
  have hcosts := (hσ τ).trans (totalCost_le_of_matching h hpairs hweight)
  rw [totalCost_pairs] at hcosts
  refine ⟨?_, fun hcard => ?_⟩
  · by_contra hmore
    have hcard : ((pairs allowed σ).card : K) + 1 ≤ M.card := by
      exact_mod_cast not_le.mp hmore
    have hsum : 0 ≤ ∑ a ∈ pairs allowed σ, weight a.1 a.2 :=
      Finset.sum_nonneg fun a ha => hnonneg a (mem_pairs.mp ha).1
    have hsum' : ∑ a ∈ M, weight a.1 a.2 ≤ M.card := by
      calc ∑ a ∈ M, weight a.1 a.2 ≤ ∑ _a ∈ M, (1 : K) :=
            Finset.sum_le_sum fun a ha => hle a (hM ha)
        _ = M.card := by rw [Finset.sum_const, nsmul_one]
    have hcolumns : (M.card : K) ≤ Fintype.card ι := by
      have hcompl := card_columns_compl (K := K) h
      have hnat : (0 : K) ≤ ((M.image Prod.snd)ᶜ.card : K) := Nat.cast_nonneg _
      linarith
    have hpositive : 0 < forbidden :=
      lt_of_le_of_lt (Nat.cast_nonneg _) hforbidden
    nlinarith
  · rw [hcard] at hcosts
    linarith

end Assignment
