import Mathlib.Tactic
import Semaforo.Assignment

/-!
# `VehicleTracker::solve_assignment`

The Kuhn-Munkres loops over the square cost matrix, with the arrays of the
source as functions of their index.  Columns and rows count from one, column
zero is the virtual source.  The two `do` loops run on fuel; for costs far from
the largest double they end, and the rows of the columns are an assignment of
minimal total cost.
-/

namespace Semaforo

namespace Hungarian

variable {K : Type} [Field K] [LinearOrder K]

/-- `std::numeric_limits<double>::max() / 4.0`. -/
def kInf : K := (2 ^ 53 - 1) * 2 ^ 969

/-- What the loop over the columns carries. -/
structure Scan (K : Type) where
  minv : ℕ → K
  way : ℕ → ℕ
  delta : K
  j1 : ℕ

/-- What the search of one row carries; `p` does not change in it. -/
structure Search (K : Type) where
  u : ℕ → K
  v : ℕ → K
  minv : ℕ → K
  used : ℕ → Bool
  way : ℕ → ℕ
  j0 : ℕ

structure State (K : Type) where
  u : ℕ → K
  v : ℕ → K
  p : ℕ → ℕ
  way : ℕ → ℕ

def cell (cost : ℕ → ℕ → K) (r j : ℕ) : K := cost (r - 1) (j - 1)

def lower (cur : ℕ → K) (j0 : ℕ) (w : Scan K) (j : ℕ) : Scan K :=
  if cur j < w.minv j then
    { w with
      minv := Function.update w.minv j (cur j)
      way := Function.update w.way j j0 }
  else w

def pick (w : Scan K) (j : ℕ) : Scan K :=
  if w.minv j < w.delta then { w with delta := w.minv j, j1 := j } else w

def relax (used : ℕ → Bool) (cur : ℕ → K) (j0 : ℕ) (w : Scan K) (j : ℕ) :
    Scan K :=
  if used j then w else pick (lower cur j0 w j) j

def scan (n : ℕ) (used : ℕ → Bool) (cur : ℕ → K) (j0 : ℕ) (minv : ℕ → K)
    (way : ℕ → ℕ) : Scan K :=
  (List.range' 1 n).foldl (relax used cur j0) ⟨minv, way, kInf, 0⟩

def shiftColumn (p : ℕ → ℕ) (delta : K) (s : Search K) (j : ℕ) : Search K :=
  if s.used j then
    { s with
      u := Function.update s.u (p j) (s.u (p j) + delta)
      v := Function.update s.v j (s.v j - delta) }
  else { s with minv := Function.update s.minv j (s.minv j - delta) }

def shift (n : ℕ) (p : ℕ → ℕ) (delta : K) (s : Search K) : Search K :=
  (List.range (n + 1)).foldl (shiftColumn p delta) s

/-- One round of the first `do` loop. -/
def searchStep (cost : ℕ → ℕ → K) (n : ℕ) (p : ℕ → ℕ) (s : Search K) :
    Search K :=
  let used := Function.update s.used s.j0 true
  let i0 := p s.j0
  let w := scan n used (fun j => cell cost i0 j - s.u i0 - s.v j) s.j0 s.minv
    s.way
  shift n p w.delta { s with minv := w.minv, used := used, way := w.way, j0 := w.j1 }

def search (cost : ℕ → ℕ → K) (n : ℕ) (p : ℕ → ℕ) :
    ℕ → Search K → Option (Search K)
  | 0, _ => none
  | fuel + 1, s =>
      let s' := searchStep cost n p s
      if p s'.j0 ≠ 0 then search cost n p fuel s' else some s'

/-- The second `do` loop. -/
def augment (way : ℕ → ℕ) : ℕ → (ℕ → ℕ) → ℕ → Option (ℕ → ℕ)
  | 0, _, _ => none
  | fuel + 1, p, j0 =>
      let j1 := way j0
      let p' := Function.update p j0 (p j1)
      if j1 ≠ 0 then augment way fuel p' j1 else some p'

def insertRow (cost : ℕ → ℕ → K) (n : ℕ) (s : State K) (i : ℕ) :
    Option (State K) := do
  let p := Function.update s.p 0 i
  let found ← search cost n p (n + 1)
    ⟨s.u, s.v, fun _ => kInf, fun _ => false, s.way, 0⟩
  let p' ← augment found.way (n + 1) p found.j0
  some ⟨found.u, found.v, p', found.way⟩

end Hungarian

/-- `row_of_col_` once the loops are through. -/
def solveAssignment {K : Type} [Field K] [LinearOrder K] (cost : ℕ → ℕ → K)
    (n : ℕ) : Option (List ℤ) := do
  let s ← (List.range' 1 n).foldlM (Hungarian.insertRow cost n)
    ⟨fun _ => 0, fun _ => 0, fun _ => 0, fun _ => 0⟩
  some ((List.range n).map fun j => (s.p (j + 1) : ℤ) - 1)

namespace Hungarian

variable {K : Type} [Field K] [LinearOrder K] [IsStrictOrderedRing K]

/-! ## The inner loops -/

section Scan

omit [Field K] [IsStrictOrderedRing K] in
theorem lower_minv (cur : ℕ → K) (j0 : ℕ) (w : Scan K) (j k : ℕ) :
    (lower cur j0 w j).minv k =
      if k = j then min (w.minv j) (cur j) else w.minv k := by
  unfold lower
  by_cases hcur : cur j < w.minv j
  · simp only [if_pos hcur, min_eq_right hcur.le, Function.update_apply]
  · rw [if_neg hcur, min_eq_left (not_lt.mp hcur)]
    split_ifs with hk
    · rw [hk]
    · rfl

omit [Field K] [IsStrictOrderedRing K] in
theorem lower_way (cur : ℕ → K) (j0 : ℕ) (w : Scan K) (j k : ℕ) :
    (lower cur j0 w j).way k =
      if k = j ∧ cur j < w.minv j then j0 else w.way k := by
  unfold lower
  by_cases hcur : cur j < w.minv j
  · simp only [hcur, if_true, and_true, Function.update_apply]
  · simp only [hcur, and_false, if_false]

omit [Field K] [IsStrictOrderedRing K] in
theorem lower_best (cur : ℕ → K) (j0 : ℕ) (w : Scan K) (j : ℕ) :
    (lower cur j0 w j).delta = w.delta ∧ (lower cur j0 w j).j1 = w.j1 := by
  unfold lower
  split_ifs <;> exact ⟨rfl, rfl⟩

omit [Field K] [IsStrictOrderedRing K] in
theorem pick_arrays (w : Scan K) (j : ℕ) :
    (pick w j).minv = w.minv ∧ (pick w j).way = w.way := by
  unfold pick
  split_ifs <;> exact ⟨rfl, rfl⟩

omit [Field K] [IsStrictOrderedRing K] in
theorem pick_delta (w : Scan K) (j : ℕ) :
    (pick w j).delta = min w.delta (w.minv j) := by
  unfold pick
  split_ifs with hless
  · exact (min_eq_right hless.le).symm
  · exact (min_eq_left (not_lt.mp hless)).symm

omit [Field K] [IsStrictOrderedRing K] in
theorem pick_j1 (w : Scan K) (j : ℕ) :
    ((pick w j).j1 = w.j1 ∧ (pick w j).delta = w.delta) ∨
      ((pick w j).j1 = j ∧ (pick w j).delta = w.minv j) := by
  unfold pick
  split_ifs
  · exact .inr ⟨rfl, rfl⟩
  · exact .inl ⟨rfl, rfl⟩

variable (used : ℕ → Bool) (cur : ℕ → K) (j0 : ℕ)

/-- What is known once the columns `js` are scanned. -/
structure Scanned (minv : ℕ → K) (way : ℕ → ℕ) (js : List ℕ) (w : Scan K) :
    Prop where
  minv_eq : ∀ j, w.minv j =
    if used j = false ∧ j ∈ js then min (minv j) (cur j) else minv j
  way_eq : ∀ j, w.way j =
    if used j = false ∧ j ∈ js ∧ cur j < minv j then j0 else way j
  delta_le : ∀ j ∈ js, used j = false → w.delta ≤ w.minv j
  delta_eq : (w.delta = kInf ∧ w.j1 = 0) ∨
    (w.j1 ∈ js ∧ used w.j1 = false ∧ w.delta = w.minv w.j1)

omit [IsStrictOrderedRing K] in
theorem relax_scanned {minv : ℕ → K} {way : ℕ → ℕ} {js : List ℕ} {w : Scan K}
    (h : Scanned used cur j0 minv way js w) {j : ℕ} (hj : j ∉ js) :
    Scanned used cur j0 minv way (js ++ [j]) (relax used cur j0 w j) := by
  unfold relax
  cases hused : used j with
  | true =>
      have hmem : ∀ k, used k = false → (k ∈ js ++ [j] ↔ k ∈ js) := by
        intro k hk
        have hne : k ≠ j := by
          rintro rfl
          rw [hused] at hk
          exact Bool.noConfusion hk
        simp [hne]
      refine ⟨fun k => ?_, fun k => ?_, fun k hk hfree => ?_, ?_⟩
      · rw [if_pos rfl, h.minv_eq k]
        exact if_congr (and_congr_right fun hk => (hmem k hk).symm) rfl rfl
      · rw [if_pos rfl, h.way_eq k]
        refine if_congr (and_congr_right fun hk => ?_) rfl rfl
        rw [hmem k hk]
      · exact h.delta_le k ((hmem k hfree).mp hk) hfree
      · rcases h.delta_eq with hnone | ⟨hmem1, hrest⟩
        · exact .inl hnone
        · exact .inr ⟨List.mem_append_left _ hmem1, hrest⟩
  | false =>
      obtain ⟨hminv, hway⟩ := pick_arrays (lower cur j0 w j) j
      obtain ⟨hdelta, hj1⟩ := lower_best cur j0 w j
      have hwj : w.minv j = minv j := by
        rw [h.minv_eq j, if_neg (fun hmem => hj hmem.2)]
      have hold : ∀ k ∈ js, (lower cur j0 w j).minv k = w.minv k := by
        intro k hk
        rw [lower_minv, if_neg]
        rintro rfl
        exact hj hk
      rw [if_neg Bool.false_ne_true]
      refine ⟨fun k => ?_, fun k => ?_, fun k hk hfree => ?_, ?_⟩
      · rw [hminv, lower_minv]
        by_cases hk : k = j
        · subst hk
          simp [hused, hwj]
        · rw [if_neg hk, h.minv_eq k]
          simp [hk]
      · rw [hway, lower_way, hwj]
        by_cases hk : k = j
        · subst hk
          by_cases hcur : cur k < minv k
          · simp [hused, hcur]
          · simp [hcur, h.way_eq k]
        · rw [if_neg (fun hand => hk hand.1), h.way_eq k]
          simp [hk]
      · rw [pick_delta, hminv, hdelta]
        rcases List.mem_append.mp hk with hk | hk
        · rw [hold k hk]
          exact (min_le_left _ _).trans (h.delta_le k hk hfree)
        · rw [List.mem_singleton.mp hk]
          exact min_le_right _ _
      · rw [hminv]
        rcases pick_j1 (lower cur j0 w j) j with ⟨hkept, hsame⟩ | ⟨hnew, hbest⟩
        · rw [hkept, hsame, hdelta, hj1]
          rcases h.delta_eq with hnone | ⟨hmem, hfree, heq⟩
          · exact .inl hnone
          · rw [hold _ hmem]
            exact .inr ⟨List.mem_append_left _ hmem, hfree, heq⟩
        · rw [hnew, hbest]
          exact .inr ⟨List.mem_append_right _ (List.mem_singleton_self j), hused,
            rfl⟩

omit [IsStrictOrderedRing K] in
theorem foldl_relax_scanned {minv : ℕ → K} {way : ℕ → ℕ} (js : List ℕ) :
    ∀ {ks : List ℕ} {w : Scan K}, (ks ++ js).Nodup →
      Scanned used cur j0 minv way ks w →
      Scanned used cur j0 minv way (ks ++ js)
        (js.foldl (relax used cur j0) w) := by
  induction js with
  | nil =>
      intro ks w _ h
      rwa [List.append_nil]
  | cons j js ih =>
      intro ks w hnodup h
      have hj : j ∉ ks := fun hmem =>
        List.disjoint_of_nodup_append hnodup hmem List.mem_cons_self
      rw [List.append_cons] at hnodup ⊢
      exact ih hnodup (relax_scanned used cur j0 h hj)

omit [IsStrictOrderedRing K] in
theorem scan_scanned (n : ℕ) (minv : ℕ → K) (way : ℕ → ℕ) :
    Scanned used cur j0 minv way (List.range' 1 n)
      (scan n used cur j0 minv way) := by
  have hstart : Scanned used cur j0 minv way [] ⟨minv, way, kInf, 0⟩ := by
    constructor <;> simp
  have hnodup : ([] ++ List.range' 1 n).Nodup := List.nodup_range' ..
  exact foldl_relax_scanned used cur j0 _ hnodup hstart

end Scan

section Shift

variable (p : ℕ → ℕ) (delta : K)

/-- `t` is `s` once the columns `js` are shifted. -/
structure Shifted (s : Search K) (js : List ℕ) (t : Search K) : Prop where
  used_eq : t.used = s.used
  way_eq : t.way = s.way
  j0_eq : t.j0 = s.j0
  u_add : ∀ j ∈ js, s.used j = true → t.u (p j) = s.u (p j) + delta
  u_eq : ∀ r, (∀ j ∈ js, s.used j = true → p j ≠ r) → t.u r = s.u r
  v_eq : ∀ j, t.v j = if s.used j = true ∧ j ∈ js then s.v j - delta else s.v j
  minv_eq : ∀ j, t.minv j =
    if s.used j = false ∧ j ∈ js then s.minv j - delta else s.minv j

omit [LinearOrder K] [IsStrictOrderedRing K] in
theorem shiftColumn_shifted {s t : Search K} {js : List ℕ}
    (h : Shifted p delta s js t) {j : ℕ} (hj : j ∉ js)
    (hinjective : ∀ k ∈ js, s.used k = true → s.used j = true → p k ≠ p j) :
    Shifted p delta s (js ++ [j]) (shiftColumn p delta t j) := by
  unfold shiftColumn
  have hsame : t.used j = s.used j := congrFun h.used_eq j
  cases hused : s.used j with
  | true =>
      rw [if_pos (hsame.trans hused)]
      have hkept : t.u (p j) = s.u (p j) :=
        h.u_eq _ fun k hk hk' => hinjective k hk hk' hused
      refine ⟨h.used_eq, h.way_eq, h.j0_eq, fun k hk hk' => ?_, fun r hr => ?_,
        fun k => ?_, fun k => ?_⟩
      · rcases List.mem_append.mp hk with hk | hk
        · exact (Function.update_of_ne (hinjective k hk hk' hused) _ _).trans
            (h.u_add k hk hk')
        · simp [List.mem_singleton.mp hk, hkept]
      · exact (Function.update_of_ne (hr j (by simp) hused).symm _ _).trans
          (h.u_eq r fun k hk => hr k (List.mem_append_left _ hk))
      · have hvj : t.v j = s.v j := by
          rw [h.v_eq j, if_neg fun hmem => hj hmem.2]
        by_cases hk : k = j
        · subst hk
          simp [hused, hvj]
        · simp [hk, h.v_eq k]
      · rw [h.minv_eq k]
        by_cases hk : k = j
        · subst hk
          simp [hused]
        · simp [hk]
  | false =>
      rw [if_neg (by rw [hsame, hused]; exact Bool.false_ne_true)]
      refine ⟨h.used_eq, h.way_eq, h.j0_eq, fun k hk hk' => ?_, fun r hr => ?_,
        fun k => ?_, fun k => ?_⟩
      · rcases List.mem_append.mp hk with hk | hk
        · exact h.u_add k hk hk'
        · rw [List.mem_singleton.mp hk, hused] at hk'
          exact Bool.noConfusion hk'
      · exact h.u_eq r fun k hk => hr k (List.mem_append_left _ hk)
      · rw [h.v_eq k]
        by_cases hk : k = j
        · subst hk
          simp [hused]
        · simp [hk]
      · have hmj : t.minv j = s.minv j := by
          rw [h.minv_eq j, if_neg fun hmem => hj hmem.2]
        by_cases hk : k = j
        · subst hk
          simp [hused, hmj]
        · simp [hk, h.minv_eq k]

omit [LinearOrder K] [IsStrictOrderedRing K] in
theorem foldl_shiftColumn_shifted {s : Search K} (js : List ℕ) :
    ∀ {ks : List ℕ} {t : Search K}, (ks ++ js).Nodup →
      (∀ j ∈ ks ++ js, ∀ k ∈ ks ++ js, s.used j = true → s.used k = true →
        p j = p k → j = k) →
      Shifted p delta s ks t →
      Shifted p delta s (ks ++ js) (js.foldl (shiftColumn p delta) t) := by
  induction js with
  | nil =>
      intro ks t _ _ h
      rwa [List.append_nil]
  | cons j js ih =>
      intro ks t hnodup hinjective h
      have hj : j ∉ ks := fun hmem =>
        List.disjoint_of_nodup_append hnodup hmem List.mem_cons_self
      have hdistinct : ∀ k ∈ ks, s.used k = true → s.used j = true →
          p k ≠ p j := by
        intro k hk hk' hj' heq
        have hsame := hinjective k (List.mem_append_left _ hk) j
          (by simp) hk' hj' heq
        exact hj (hsame ▸ hk)
      rw [List.append_cons] at hnodup hinjective ⊢
      exact ih hnodup hinjective (shiftColumn_shifted p delta h hj hdistinct)

omit [LinearOrder K] [IsStrictOrderedRing K] in
theorem shift_shifted (n : ℕ) {s : Search K}
    (hinjective : ∀ j ≤ n, ∀ k ≤ n, s.used j = true → s.used k = true →
      p j = p k → j = k) :
    Shifted p delta s (List.range (n + 1)) (shift n p delta s) := by
  have hstart : Shifted p delta s [] s := by
    constructor <;> simp
  have hnodup : ([] ++ List.range (n + 1)).Nodup := List.nodup_range
  refine foldl_shiftColumn_shifted p delta _ hnodup ?_ hstart
  intro j hj k hk
  exact hinjective j (Nat.lt_succ_iff.mp (List.mem_range.mp hj)) k
    (Nat.lt_succ_iff.mp (List.mem_range.mp hk))

end Shift

/-! ## The search -/

def slack (cost : ℕ → ℕ → K) (u v : ℕ → K) (r j : ℕ) : K :=
  cell cost r j - u r - v j

/-- Rows `1..i` sit on columns of their own. -/
structure Placed (n i : ℕ) (p : ℕ → ℕ) : Prop where
  row_le : ∀ j ∈ Finset.Icc 1 n, p j ≤ i
  injective : ∀ j ∈ Finset.Icc 1 n, ∀ k ∈ Finset.Icc 1 n,
    p j = p k → p j ≠ 0 → j = k
  rows : ∀ r ∈ Finset.Icc 1 i, ∃ j ∈ Finset.Icc 1 n, p j = r

theorem Placed.exists_free {n i : ℕ} {p : ℕ → ℕ} (h : Placed n i p)
    (hi : i < n) : ∃ j ∈ Finset.Icc 1 n, p j = 0 := by
  by_contra hnone
  push Not at hnone
  have hmaps : ∀ j ∈ Finset.Icc 1 n, p j ∈ Finset.Icc 1 i := fun j hj =>
    Finset.mem_Icc.mpr ⟨Nat.one_le_iff_ne_zero.mpr (hnone j hj), h.row_le j hj⟩
  have hcard : (Finset.Icc 1 i).card < (Finset.Icc 1 n).card := by simpa using hi
  obtain ⟨j, hj, k, hk, hne, heq⟩ :=
    Finset.exists_ne_map_eq_of_card_lt_of_maps_to hcard hmaps
  exact hne (h.injective j hj k hk heq (hnone j hj))

/-- The potentials are feasible for the rows below the bound and tight on the
matched columns; free columns keep potential zero. -/
structure Balanced (cost : ℕ → ℕ → K) (n i : ℕ) (p : ℕ → ℕ) (u v : ℕ → K) :
    Prop where
  feasible : ∀ r ∈ Finset.Icc 1 i, ∀ j ∈ Finset.Icc 1 n, 0 ≤ slack cost u v r j
  tight : ∀ j ∈ Finset.Icc 1 n, p j ≠ 0 → slack cost u v (p j) j = 0
  v_nonpos : ∀ j ∈ Finset.Icc 1 n, v j ≤ 0
  v_free : ∀ j ∈ Finset.Icc 1 n, p j = 0 → v j = 0

/-- Columns in the order they were reached, latest first, each reached from a
column further back. -/
inductive Trail (way : ℕ → ℕ) : List ℕ → Prop
  | source : Trail way [0]
  | cons {k : ℕ} {t : List ℕ} : way k ∈ t → Trail way t → Trail way (k :: t)

theorem Trail.zero_mem {way : ℕ → ℕ} {l : List ℕ} (h : Trail way l) : 0 ∈ l := by
  induction h with
  | source => exact List.mem_singleton_self 0
  | cons _ _ ih => exact List.mem_cons_of_mem _ ih

theorem Trail.congr {way way' : ℕ → ℕ} {l : List ℕ} (h : Trail way l)
    (hsame : ∀ k ∈ l, way' k = way k) : Trail way' l := by
  induction h with
  | source => exact .source
  | cons hway _ ih =>
      refine .cons ?_ (ih fun k hk => hsame k (List.mem_cons_of_mem _ hk))
      rwa [hsame _ List.mem_cons_self]

theorem Trail.exists_suffix {way : ℕ → ℕ} {l : List ℕ} (h : Trail way l) {k : ℕ}
    (hk : k ∈ l) : ∃ t, (k :: t) <:+ l ∧ Trail way (k :: t) := by
  induction h with
  | source =>
      rw [List.mem_singleton.mp hk]
      exact ⟨[], List.suffix_rfl, .source⟩
  | cons hway htrail ih =>
      rcases List.mem_cons.mp hk with rfl | hk
      · exact ⟨_, List.suffix_rfl, .cons hway htrail⟩
      · obtain ⟨t, hsuffix, ht⟩ := ih hk
        exact ⟨t, hsuffix.trans (List.suffix_cons _ _), ht⟩

theorem Trail.way_mem {way : ℕ → ℕ} {l : List ℕ} (h : Trail way l) {k : ℕ}
    (hk : k ∈ l) (hne : k ≠ 0) : way k ∈ l := by
  induction h with
  | source => exact absurd (List.mem_singleton.mp hk) hne
  | cons hway _ ih =>
      rcases List.mem_cons.mp hk with rfl | hk
      · exact List.mem_cons_of_mem _ hway
      · exact List.mem_cons_of_mem _ (ih hk)

/-- The search for row `i + 1` has processed the columns `trail`. -/
structure Searching (cost : ℕ → ℕ → K) (n i : ℕ) (p : ℕ → ℕ) (trail : List ℕ)
    (s : Search K) : Prop where
  balanced : Balanced cost n i p s.u s.v
  feasible_new : trail ≠ [] →
    ∀ j ∈ Finset.Icc 1 n, 0 ≤ slack cost s.u s.v (i + 1) j
  u_later : ∀ r, i + 1 < r → s.u r = 0
  used_iff : ∀ j, s.used j = true ↔ j ∈ trail
  nodup : (s.j0 :: trail).Nodup
  le : ∀ k ∈ s.j0 :: trail, k ≤ n
  reached : Trail s.way (s.j0 :: trail)
  busy : ∀ k ∈ trail, p k ≠ 0
  edge : ∀ k ∈ s.j0 :: trail, k ≠ 0 → slack cost s.u s.v (p (s.way k)) k = 0
  minv_le : ∀ j ∈ Finset.Icc 1 n, j ∉ trail → ∀ k ∈ trail,
    s.minv j ≤ slack cost s.u s.v (p k) j
  minv_eq : trail ≠ [] → ∀ j ∈ Finset.Icc 1 n, j ∉ trail →
    s.way j ∈ trail ∧ s.minv j = slack cost s.u s.v (p (s.way j)) j
  fresh : trail = [] → (∀ j, s.minv j = kInf) ∧ s.u (i + 1) = 0

section Step

variable {cost : ℕ → ℕ → K} {n i : ℕ} {p : ℕ → ℕ} {trail : List ℕ} {s : Search K}
variable {lo hi : K}

/-- All costs lie so close together that no reduced cost reaches `kInf`. -/
structure Moderate (cost : ℕ → ℕ → K) (lo hi : K) : Prop where
  lo_le : ∀ r j, lo ≤ cost r j
  le_hi : ∀ r j, cost r j ≤ hi
  lo_nonpos : lo ≤ 0
  hi_nonneg : 0 ≤ hi
  lt_kInf : 2 * hi - lo < kInf

theorem Balanced.neg_v_le (hb : Balanced cost n i p s.u s.v)
    (hp : Placed n i p) (hin : i < n) (hcost : Moderate cost lo hi) {j : ℕ}
    (hj : j ∈ Finset.Icc 1 n) : -s.v j ≤ hi - lo := by
  by_cases hfree : p j = 0
  · rw [hb.v_free j hj hfree]
    linarith [hcost.lo_nonpos, hcost.hi_nonneg]
  · obtain ⟨f, hf, hpf⟩ := hp.exists_free hin
    have hrow : p j ∈ Finset.Icc 1 i := Finset.mem_Icc.mpr
      ⟨Nat.one_le_iff_ne_zero.mpr hfree, hp.row_le j hj⟩
    have htight := hb.tight j hj hfree
    have hfeasible := hb.feasible _ hrow f hf
    rw [slack] at htight hfeasible
    rw [hb.v_free f hf hpf] at hfeasible
    have hlow := hcost.lo_le (p j - 1) (j - 1)
    have hhigh := hcost.le_hi (p j - 1) (f - 1)
    rw [cell] at htight hfeasible
    linarith

omit [IsStrictOrderedRing K] in
theorem Searching.mem_used (h : Searching cost n i p trail s) (j : ℕ) :
    Function.update s.used s.j0 true j = true ↔ j ∈ s.j0 :: trail := by
  rw [Function.update_apply, List.mem_cons]
  by_cases hj : j = s.j0
  · simp [hj]
  · simp [hj, h.used_iff]

omit [IsStrictOrderedRing K] in
theorem Searching.row_mem (h : Searching cost n i p trail s)
    (hp : Placed n i p) (hsource : p 0 = i + 1) (hbusy : p s.j0 ≠ 0) {k : ℕ}
    (hk : k ∈ s.j0 :: trail) : p k ∈ Finset.Icc 1 (i + 1) := by
  have hne : p k ≠ 0 := by
    rcases List.mem_cons.mp hk with rfl | hk
    · exact hbusy
    · exact h.busy k hk
  have hle : p k ≤ i + 1 := by
    rcases Nat.eq_zero_or_pos k with rfl | hpos
    · exact hsource.le
    · exact (hp.row_le k (Finset.mem_Icc.mpr ⟨hpos, h.le k hk⟩)).trans
        (Nat.le_succ i)
  exact Finset.mem_Icc.mpr ⟨Nat.one_le_iff_ne_zero.mpr hne, hle⟩

/-- The column just reached has a slack below `kInf` to every free column. -/
theorem Searching.cur_lt_of_free (h : Searching cost n i p trail s)
    (hsource : p 0 = i + 1) (hbusy : p s.j0 ≠ 0)
    (hcost : Moderate cost lo hi) {f : ℕ} (hf : f ∈ Finset.Icc 1 n)
    (hfree : p f = 0) : slack cost s.u s.v (p s.j0) f < kInf := by
  have hhigh := hcost.le_hi (p s.j0 - 1) (f - 1)
  have hbound := hcost.lt_kInf
  have hhi := hcost.hi_nonneg
  rw [slack, cell, h.balanced.v_free f hf hfree]
  by_cases hzero : s.j0 = 0
  · have hnew : s.u (i + 1) = 0 := by
      refine (h.fresh ?_).2
      by_contra hne
      have hreached := h.reached
      rw [hzero] at hreached
      have hnodup := h.nodup
      rw [hzero] at hnodup
      cases hreached with
      | source => exact hne rfl
      | cons _ ht => exact (List.nodup_cons.mp hnodup).1 ht.zero_mem
    rw [hzero, hsource, hnew]
    rw [hzero, hsource] at hhigh
    linarith [hcost.lo_nonpos]
  · have hmem : s.j0 ∈ Finset.Icc 1 n := Finset.mem_Icc.mpr
      ⟨Nat.one_le_iff_ne_zero.mpr hzero, h.le _ List.mem_cons_self⟩
    have htight := h.balanced.tight _ hmem hbusy
    rw [slack, cell] at htight
    have hlow := hcost.lo_le (p s.j0 - 1) (s.j0 - 1)
    have hv := h.balanced.v_nonpos _ hmem
    linarith

theorem Searching.cur_lt_of_fresh (h : Searching cost n i p [] s)
    (hp : Placed n i p) (hin : i < n) (hsource : p s.j0 = i + 1)
    (hcost : Moderate cost lo hi) {j : ℕ} (hj : j ∈ Finset.Icc 1 n) :
    slack cost s.u s.v (p s.j0) j < kInf := by
  have hv := h.balanced.neg_v_le hp hin hcost hj
  have hhigh := hcost.le_hi (i + 1 - 1) (j - 1)
  have hbound := hcost.lt_kInf
  rw [slack, cell, hsource, (h.fresh rfl).2]
  linarith

/-- What the loop over the columns found. -/
structure Chosen (cost : ℕ → ℕ → K) (n : ℕ) (p : ℕ → ℕ) (done : List ℕ)
    (s : Search K) (w : Scan K) : Prop where
  j1_mem : w.j1 ∈ Finset.Icc 1 n
  j1_new : w.j1 ∉ done
  delta_eq : w.delta = w.minv w.j1
  delta_le : ∀ j ∈ Finset.Icc 1 n, j ∉ done → w.delta ≤ w.minv j
  minv_le : ∀ j ∈ Finset.Icc 1 n, j ∉ done → ∀ k ∈ done,
    w.minv j ≤ slack cost s.u s.v (p k) j
  minv_eq : ∀ j ∈ Finset.Icc 1 n, j ∉ done →
    w.way j ∈ done ∧ w.minv j = slack cost s.u s.v (p (w.way j)) j
  way_eq : ∀ k ∈ done, w.way k = s.way k

theorem Searching.chosen (h : Searching cost n i p trail s)
    (hp : Placed n i p) (hin : i < n) (hsource : p 0 = i + 1)
    (hbusy : p s.j0 ≠ 0) (hcost : Moderate cost lo hi) :
    Chosen cost n p (s.j0 :: trail) s
      (scan n (Function.update s.used s.j0 true)
        (fun j => cell cost (p s.j0) j - s.u (p s.j0) - s.v j) s.j0 s.minv
        s.way) := by
  have hscan := scan_scanned (Function.update s.used s.j0 true)
    (slack cost s.u s.v (p s.j0)) s.j0 n s.minv s.way
  change Chosen cost n p (s.j0 :: trail) s
    (scan n (Function.update s.used s.j0 true)
      (slack cost s.u s.v (p s.j0)) s.j0 s.minv s.way)
  generalize scan n (Function.update s.used s.j0 true)
    (slack cost s.u s.v (p s.j0)) s.j0 s.minv s.way = w at hscan ⊢
  have hrange : ∀ j, j ∈ List.range' 1 n ↔ j ∈ Finset.Icc 1 n := by
    intro j
    rw [List.mem_range'_1, Finset.mem_Icc]
    omega
  have hunused : ∀ j, j ∉ s.j0 :: trail →
      Function.update s.used s.j0 true j = false := by
    intro j hj
    rw [← Bool.not_eq_true, h.mem_used]
    exact hj
  have hminv : ∀ j ∈ Finset.Icc 1 n, j ∉ s.j0 :: trail →
      w.minv j = min (s.minv j) (slack cost s.u s.v (p s.j0) j) := by
    intro j hj hnew
    rw [hscan.minv_eq j, if_pos ⟨hunused j hnew, (hrange j).mpr hj⟩]
  obtain ⟨f, hf, hfree⟩ := hp.exists_free hin
  have hfnew : f ∉ s.j0 :: trail := by
    intro hmem
    rcases List.mem_cons.mp hmem with rfl | hmem
    · exact hbusy hfree
    · exact h.busy f hmem hfree
  have hdelta : w.delta < kInf := by
    calc w.delta ≤ w.minv f :=
          hscan.delta_le f ((hrange f).mpr hf) (hunused f hfnew)
      _ ≤ slack cost s.u s.v (p s.j0) f := by
          rw [hminv f hf hfnew]
          exact min_le_right _ _
      _ < kInf := h.cur_lt_of_free hsource hbusy hcost hf hfree
  obtain ⟨hnone, -⟩ | ⟨hmem, hnot, heq⟩ := hscan.delta_eq
  · exact absurd hnone hdelta.ne
  refine ⟨(hrange _).mp hmem, ?_, heq, fun j hj hnew => ?_,
    fun j hj hnew k hk => ?_, fun j hj hnew => ?_, fun k hk => ?_⟩
  · rw [← h.mem_used, hnot]
    exact Bool.false_ne_true
  · exact hscan.delta_le j ((hrange j).mpr hj) (hunused j hnew)
  · rw [hminv j hj hnew]
    rcases List.mem_cons.mp hk with rfl | hk
    · exact min_le_right _ _
    · exact (min_le_left _ _).trans
        (h.minv_le j hj (fun hmem => hnew (List.mem_cons_of_mem _ hmem)) k hk)
  · rw [hscan.way_eq j, hminv j hj hnew]
    by_cases hcur : slack cost s.u s.v (p s.j0) j < s.minv j
    · rw [if_pos ⟨hunused j hnew, (hrange j).mpr hj, hcur⟩]
      exact ⟨List.mem_cons_self, min_eq_right hcur.le⟩
    · rw [if_neg (fun hand => hcur hand.2.2), min_eq_left (not_lt.mp hcur)]
      have htrail : trail ≠ [] := by
        rintro rfl
        rw [(h.fresh rfl).1 j] at hcur
        have hzero : s.j0 = 0 :=
          (List.mem_singleton.mp h.reached.zero_mem).symm
        exact hcur (h.cur_lt_of_fresh hp hin (by rw [hzero, hsource]) hcost hj)
      obtain ⟨hway, hattained⟩ := h.minv_eq htrail j hj
        (fun hmem => hnew (List.mem_cons_of_mem _ hmem))
      exact ⟨List.mem_cons_of_mem _ hway, hattained⟩
  · rw [hscan.way_eq k, if_neg]
    intro hand
    rw [← h.mem_used, hand.1] at hk
    exact Bool.noConfusion hk

omit [IsStrictOrderedRing K] in
theorem Searching.row_injective (h : Searching cost n i p trail s)
    (hp : Placed n i p) (hsource : p 0 = i + 1) (hbusy : p s.j0 ≠ 0) {j k : ℕ}
    (hj : j ∈ s.j0 :: trail) (hk : k ∈ s.j0 :: trail) (heq : p j = p k) :
    j = k := by
  have hnew : ∀ l ∈ s.j0 :: trail, l ≠ 0 → p l ≠ p 0 := by
    intro l hl hne hzero
    have hle := hp.row_le l (Finset.mem_Icc.mpr
      ⟨Nat.one_le_iff_ne_zero.mpr hne, h.le l hl⟩)
    omega
  by_cases hj0 : j = 0
  · subst hj0
    by_contra hne
    exact hnew k hk (Ne.symm hne) heq.symm
  by_cases hk0 : k = 0
  · subst hk0
    exact absurd heq (hnew j hj hj0)
  have hrow := (Finset.mem_Icc.mp (h.row_mem hp hsource hbusy hj)).1
  exact hp.injective j
    (Finset.mem_Icc.mpr ⟨Nat.one_le_iff_ne_zero.mpr hj0, h.le j hj⟩) k
    (Finset.mem_Icc.mpr ⟨Nat.one_le_iff_ne_zero.mpr hk0, h.le k hk⟩) heq
    (Nat.one_le_iff_ne_zero.mp hrow)

/-- What the shift does to the slack of a row and a column. -/
structure Moved (cost : ℕ → ℕ → K) (p : ℕ → ℕ) (done : List ℕ) (delta : K)
    (s t : Search K) : Prop where
  both : ∀ k ∈ done, ∀ j ∈ done,
    slack cost t.u t.v (p k) j = slack cost s.u s.v (p k) j
  row : ∀ k ∈ done, ∀ j ∉ done,
    slack cost t.u t.v (p k) j = slack cost s.u s.v (p k) j - delta
  column : ∀ r, (∀ k ∈ done, p k ≠ r) → ∀ j ∈ done,
    slack cost t.u t.v r j = slack cost s.u s.v r j + delta
  neither : ∀ r, (∀ k ∈ done, p k ≠ r) → ∀ j ∉ done,
    slack cost t.u t.v r j = slack cost s.u s.v r j

omit [LinearOrder K] [IsStrictOrderedRing K] in
theorem Shifted.moved {delta : K} {done : List ℕ} {t : Search K}
    (h : Shifted p delta s (List.range (n + 1)) t)
    (hused : ∀ j, s.used j = true ↔ j ∈ done) (hle : ∀ k ∈ done, k ≤ n) :
    Moved cost p done delta s t := by
  have hmem : ∀ k ∈ done, k ∈ List.range (n + 1) := fun k hk =>
    List.mem_range.mpr (Nat.lt_succ_of_le (hle k hk))
  have hu : ∀ k ∈ done, t.u (p k) = s.u (p k) + delta := fun k hk =>
    h.u_add k (hmem k hk) ((hused k).mpr hk)
  have hu' : ∀ r, (∀ k ∈ done, p k ≠ r) → t.u r = s.u r := fun r hr =>
    h.u_eq r fun k _ hk => hr k ((hused k).mp hk)
  have hv : ∀ j ∈ done, t.v j = s.v j - delta := fun j hj => by
    rw [h.v_eq j, if_pos ⟨(hused j).mpr hj, hmem j hj⟩]
  have hv' : ∀ j ∉ done, t.v j = s.v j := fun j hj => by
    rw [h.v_eq j, if_neg fun hand => hj ((hused j).mp hand.1)]
  refine ⟨fun k hk j hj => ?_, fun k hk j hj => ?_, fun r hr j hj => ?_,
    fun r hr j hj => ?_⟩
  · rw [slack, slack, hu k hk, hv j hj]
    ring
  · rw [slack, slack, hu k hk, hv' j hj]
    ring
  · rw [slack, slack, hu' r hr, hv j hj]
    ring
  · rw [slack, slack, hu' r hr, hv' j hj]

omit [IsStrictOrderedRing K] in
theorem Searching.trail_ne_nil (h : Searching cost n i p trail s) {j : ℕ}
    (hj : j ∈ Finset.Icc 1 n) (hmem : j ∈ s.j0 :: trail) : trail ≠ [] := by
  rintro rfl
  have hzero : 0 = s.j0 := List.mem_singleton.mp h.reached.zero_mem
  rw [List.mem_singleton.mp hmem, ← hzero] at hj
  exact absurd (Finset.mem_Icc.mp hj).1 (by omega)

omit [IsStrictOrderedRing K] in
theorem Searching.feasible_all (h : Searching cost n i p trail s)
    (htrail : trail ≠ []) : ∀ r ∈ Finset.Icc 1 (i + 1), ∀ j ∈ Finset.Icc 1 n,
    0 ≤ slack cost s.u s.v r j := by
  intro r hr j hj
  obtain ⟨hlow, hhigh⟩ := Finset.mem_Icc.mp hr
  rcases Nat.lt_or_eq_of_le hhigh with hlt | rfl
  · exact h.balanced.feasible r
      (Finset.mem_Icc.mpr ⟨hlow, Nat.lt_succ_iff.mp hlt⟩) j hj
  · exact h.feasible_new htrail j hj

omit [IsStrictOrderedRing K] in
theorem Searching.delta_nonneg (h : Searching cost n i p trail s)
    (hp : Placed n i p) (hsource : p 0 = i + 1) (hbusy : p s.j0 ≠ 0)
    {w : Scan K} (hw : Chosen cost n p (s.j0 :: trail) s w)
    (htrail : trail ≠ []) : 0 ≤ w.delta := by
  obtain ⟨hway, hattained⟩ := hw.minv_eq _ hw.j1_mem hw.j1_new
  rw [hw.delta_eq, hattained]
  exact h.feasible_all htrail _ (h.row_mem hp hsource hbusy hway) _ hw.j1_mem

theorem Searching.feasible_moved (h : Searching cost n i p trail s)
    (hp : Placed n i p) (hsource : p 0 = i + 1) (hbusy : p s.j0 ≠ 0)
    {w : Scan K} (hw : Chosen cost n p (s.j0 :: trail) s w) {t : Search K}
    (ht : Moved cost p (s.j0 :: trail) w.delta s t) :
    ∀ r ∈ Finset.Icc 1 (i + 1), ∀ j ∈ Finset.Icc 1 n,
      0 ≤ slack cost t.u t.v r j := by
  intro r hr j hj
  by_cases hrow : ∃ k ∈ s.j0 :: trail, p k = r
  · obtain ⟨k, hk, rfl⟩ := hrow
    by_cases hdone : j ∈ s.j0 :: trail
    · rw [ht.both k hk j hdone]
      exact h.feasible_all (h.trail_ne_nil hj hdone) _ hr j hj
    · rw [ht.row k hk j hdone]
      exact sub_nonneg.mpr
        ((hw.delta_le j hj hdone).trans (hw.minv_le j hj hdone k hk))
  · push Not at hrow
    have hne : r ≠ i + 1 := by
      rintro rfl
      exact hrow 0 h.reached.zero_mem hsource
    obtain ⟨hlow, hhigh⟩ := Finset.mem_Icc.mp hr
    have hold : r ∈ Finset.Icc 1 i := Finset.mem_Icc.mpr ⟨hlow, by omega⟩
    have hfeasible := h.balanced.feasible r hold j hj
    by_cases hdone : j ∈ s.j0 :: trail
    · rw [ht.column r hrow j hdone]
      exact add_nonneg hfeasible
        (h.delta_nonneg hp hsource hbusy hw (h.trail_ne_nil hj hdone))
    · rw [ht.neither r hrow j hdone]
      exact hfeasible

omit [IsStrictOrderedRing K] in
theorem Searching.tight_moved (h : Searching cost n i p trail s)
    (hp : Placed n i p) (hsource : p 0 = i + 1) {delta : K} {t : Search K}
    (ht : Moved cost p (s.j0 :: trail) delta s t) :
    ∀ j ∈ Finset.Icc 1 n, p j ≠ 0 → slack cost t.u t.v (p j) j = 0 := by
  intro j hj hbusyj
  have hold := h.balanced.tight j hj hbusyj
  by_cases hdone : j ∈ s.j0 :: trail
  · rw [ht.both j hdone j hdone]
    exact hold
  · rw [ht.neither (p j) ?_ j hdone]
    · exact hold
    · intro k hk heq
      have hle := hp.row_le j hj
      have hk0 : k ≠ 0 := by
        rintro rfl
        omega
      have hmem : k ∈ Finset.Icc 1 n := Finset.mem_Icc.mpr
        ⟨Nat.one_le_iff_ne_zero.mpr hk0, h.le k hk⟩
      rw [hp.injective k hmem j hj heq (heq ▸ hbusyj)] at hk
      exact hdone hk

theorem Searching.advanced (h : Searching cost n i p trail s)
    (hp : Placed n i p) (hsource : p 0 = i + 1) (hbusy : p s.j0 ≠ 0)
    {w : Scan K} (hw : Chosen cost n p (s.j0 :: trail) s w) {t : Search K}
    (hshifted : Shifted p w.delta
      ⟨s.u, s.v, w.minv, Function.update s.used s.j0 true, w.way, w.j1⟩
      (List.range (n + 1)) t) :
    Searching cost n i p (s.j0 :: trail) t := by
  have hmem := h.mem_used
  have hmoved : Moved cost p (s.j0 :: trail) w.delta s t := by
    have hmoved : Moved cost p (s.j0 :: trail) w.delta
        ⟨s.u, s.v, w.minv, Function.update s.used s.j0 true, w.way, w.j1⟩ t :=
      hshifted.moved hmem h.le
    exact ⟨hmoved.both, hmoved.row, hmoved.column, hmoved.neither⟩
  have hfeasible := h.feasible_moved hp hsource hbusy hw hmoved
  have hrows := fun {k} => h.row_mem hp hsource hbusy (k := k)
  have hj1le : w.j1 ≤ n := (Finset.mem_Icc.mp hw.j1_mem).2
  have hunused : ∀ j ∈ Finset.Icc 1 n, j ∉ s.j0 :: trail →
      t.minv j = w.minv j - w.delta := by
    intro j hj hnew
    rw [hshifted.minv_eq j, if_pos]
    exact ⟨Bool.eq_false_iff.mpr fun hused => hnew ((hmem j).mp hused),
      List.mem_range.mpr (Nat.lt_succ_of_le (Finset.mem_Icc.mp hj).2)⟩
  refine {
    balanced := {
      feasible := fun r hr => hfeasible r
        (Finset.Icc_subset_Icc_right (Nat.le_succ i) hr)
      tight := h.tight_moved hp hsource hmoved
      v_nonpos := ?_
      v_free := ?_ }
    feasible_new := fun _ => hfeasible (i + 1) (Finset.mem_Icc.mpr ⟨by omega, le_rfl⟩)
    u_later := ?_
    used_iff := ?_
    nodup := ?_
    le := ?_
    reached := ?_
    busy := ?_
    edge := ?_
    minv_le := ?_
    minv_eq := ?_
    fresh := fun hnil => absurd hnil (List.cons_ne_nil _ _) }
  · intro j hj
    rw [hshifted.v_eq j]
    split_ifs with hused
    · have hnonneg := h.delta_nonneg hp hsource hbusy hw
        (h.trail_ne_nil hj ((hmem j).mp hused.1))
      have hv := h.balanced.v_nonpos j hj
      linarith
    · exact h.balanced.v_nonpos j hj
  · intro j hj hfree
    rw [hshifted.v_eq j, if_neg]
    · exact h.balanced.v_free j hj hfree
    · intro hused
      have hrow := Finset.mem_Icc.mp (hrows ((hmem j).mp hused.1))
      omega
  · intro r hr
    rw [hshifted.u_eq r]
    · exact h.u_later r hr
    · intro j _ hused heq
      have hrow := Finset.mem_Icc.mp (hrows ((hmem j).mp hused))
      omega
  · rw [hshifted.used_eq]
    exact hmem
  · rw [hshifted.j0_eq]
    exact List.nodup_cons.mpr ⟨hw.j1_new, h.nodup⟩
  · rw [hshifted.j0_eq]
    intro k hk
    rcases List.mem_cons.mp hk with rfl | hk
    · exact hj1le
    · exact h.le k hk
  · rw [hshifted.j0_eq, hshifted.way_eq]
    exact .cons (hw.minv_eq _ hw.j1_mem hw.j1_new).1 (h.reached.congr hw.way_eq)
  · intro k hk
    exact Nat.one_le_iff_ne_zero.mp (Finset.mem_Icc.mp (hrows hk)).1
  · rw [hshifted.j0_eq, hshifted.way_eq]
    intro k hk hne
    rcases List.mem_cons.mp hk with rfl | hk
    · obtain ⟨hway, hattained⟩ := hw.minv_eq _ hw.j1_mem hw.j1_new
      change slack cost t.u t.v (p (w.way w.j1)) w.j1 = 0
      rw [hmoved.row _ hway _ hw.j1_new, ← hattained, hw.delta_eq, sub_self]
    · change slack cost t.u t.v (p (w.way k)) k = 0
      rw [hw.way_eq k hk, hmoved.both _ (h.reached.way_mem hk hne) _ hk]
      exact h.edge k hk hne
  · intro j hj hnew k hk
    rw [hunused j hj hnew, hmoved.row k hk j hnew]
    exact sub_le_sub_right (hw.minv_le j hj hnew k hk) _
  · intro _ j hj hnew
    obtain ⟨hway, hattained⟩ := hw.minv_eq j hj hnew
    rw [hshifted.way_eq, hunused j hj hnew]
    change w.way j ∈ _ ∧ _ = slack cost t.u t.v (p (w.way j)) j
    rw [hmoved.row _ hway j hnew, hattained]
    exact ⟨hway, rfl⟩

theorem Searching.step (h : Searching cost n i p trail s)
    (hp : Placed n i p) (hin : i < n) (hsource : p 0 = i + 1)
    (hbusy : p s.j0 ≠ 0) (hcost : Moderate cost lo hi) :
    Searching cost n i p (s.j0 :: trail) (searchStep cost n p s) := by
  have hw := h.chosen hp hin hsource hbusy hcost
  obtain ⟨w, hscan⟩ : ∃ w, scan n (Function.update s.used s.j0 true)
      (fun j => cell cost (p s.j0) j - s.u (p s.j0) - s.v j) s.j0 s.minv s.way = w :=
    ⟨_, rfl⟩
  rw [hscan] at hw
  have hmem := h.mem_used
  have hshifted := shift_shifted p w.delta n
    (s := ⟨s.u, s.v, w.minv, Function.update s.used s.j0 true, w.way, w.j1⟩)
    fun j _ k _ hj hk heq =>
      h.row_injective hp hsource hbusy ((hmem j).mp hj) ((hmem k).mp hk) heq
  have hstep : searchStep cost n p s = shift n p w.delta
      ⟨s.u, s.v, w.minv, Function.update s.used s.j0 true, w.way, w.j1⟩ := by
    rw [← hscan]
    rfl
  rw [hstep]
  generalize shift n p w.delta
    ⟨s.u, s.v, w.minv, Function.update s.used s.j0 true, w.way, w.j1⟩ = t
    at hshifted ⊢
  exact h.advanced hp hsource hbusy hw hshifted

omit [IsStrictOrderedRing K] in
theorem Searching.length_le (h : Searching cost n i p trail s) {f : ℕ}
    (hf : f ∈ Finset.Icc 1 n) (hfree : p f = 0) (hbusy : p s.j0 ≠ 0) :
    (s.j0 :: trail).length ≤ n := by
  have hsubset : (s.j0 :: trail).toFinset ⊆ (Finset.range (n + 1)).erase f := by
    intro k hk
    rw [List.mem_toFinset] at hk
    refine Finset.mem_erase.mpr ⟨?_, Finset.mem_range.mpr
      (Nat.lt_succ_of_le (h.le k hk))⟩
    rintro rfl
    rcases List.mem_cons.mp hk with rfl | hk
    · exact hbusy hfree
    · exact h.busy k hk hfree
  have hcard := Finset.card_le_card hsubset
  rw [List.toFinset_card_of_nodup h.nodup, Finset.card_erase_of_mem,
    Finset.card_range] at hcard
  · omega
  · exact Finset.mem_range.mpr (Nat.lt_succ_of_le (Finset.mem_Icc.mp hf).2)

/-- The search ends at a free column. -/
theorem search_spec (hp : Placed n i p) (hin : i < n) (hsource : p 0 = i + 1)
    (hcost : Moderate cost lo hi) (fuel : ℕ) :
    ∀ {trail : List ℕ} {s : Search K}, Searching cost n i p trail s →
      p s.j0 ≠ 0 → n < fuel + (s.j0 :: trail).length →
      ∃ trail' s', search cost n p fuel s = some s' ∧
        Searching cost n i p trail' s' ∧ p s'.j0 = 0 ∧ trail' ≠ [] := by
  induction fuel with
  | zero =>
      intro trail s h hbusy hfuel
      obtain ⟨f, hf, hfree⟩ := hp.exists_free hin
      have hlength := h.length_le hf hfree hbusy
      omega
  | succ fuel ih =>
      intro trail s h hbusy hfuel
      have hstep := h.step hp hin hsource hbusy hcost
      rw [search]
      by_cases hfound : p (searchStep cost n p s).j0 = 0
      · rw [if_neg (not_not.mpr hfound)]
        exact ⟨_, _, rfl, hstep, hfound, List.cons_ne_nil _ _⟩
      · rw [if_pos hfound]
        refine ih hstep hfound ?_
        rw [List.length_cons]
        omega

end Step

/-! ## The augmentation -/

/-- Rows `1..i` sit on columns of their own, but for the column `h`. -/
structure Hole (cost : ℕ → ℕ → K) (n i : ℕ) (u v : ℕ → K) (p : ℕ → ℕ) (h : ℕ) :
    Prop where
  row_le : ∀ j ≤ n, j ≠ h → p j ≤ i
  injective : ∀ j ≤ n, j ≠ h → ∀ k ≤ n, k ≠ h → p j = p k → p j ≠ 0 → j = k
  rows : ∀ r ∈ Finset.Icc 1 i, ∃ j ≤ n, j ≠ h ∧ p j = r
  tight : ∀ j ∈ Finset.Icc 1 n, j ≠ h → p j ≠ 0 → slack cost u v (p j) j = 0
  v_free : ∀ j ∈ Finset.Icc 1 n, j ≠ h → p j = 0 → v j = 0

section Augment

variable {cost : ℕ → ℕ → K} {n i : ℕ} {u v : ℕ → K} {way : ℕ → ℕ}

omit [LinearOrder K] [IsStrictOrderedRing K] in
/-- The hole moves to the column its row comes from. -/
theorem Hole.move {p : ℕ → ℕ} {h k : ℕ} (hole : Hole cost n i u v p h)
    (hh : h ≤ n) (hk : k ≤ n) (hne : k ≠ h) (hbusy : p k ≠ 0)
    (hedge : slack cost u v (p k) h = 0) :
    Hole cost n i u v (Function.update p h (p k)) k := by
  have hnew : ∀ j, j ≠ h → Function.update p h (p k) j = p j := fun j hj =>
    Function.update_of_ne hj _ _
  have hself : Function.update p h (p k) h = p k := Function.update_self ..
  refine ⟨fun j hj _ => ?_, fun j hj hjk l hl hlk heq hrow => ?_, fun r hr => ?_,
    fun j hj hjk hrow => ?_, fun j hj hjk hfree => ?_⟩
  · by_cases hjh : j = h
    · rw [hjh, hself]
      exact hole.row_le k hk hne
    · rw [hnew j hjh]
      exact hole.row_le j hj hjh
  · by_cases hjh : j = h <;> by_cases hlh : l = h
    · rw [hjh, hlh]
    · rw [hjh, hself, hnew l hlh] at heq
      exact absurd (hole.injective k hk hne l hl hlh heq hbusy).symm hlk
    · rw [hlh, hself, hnew j hjh] at heq
      exact absurd (hole.injective k hk hne j hj hjh heq.symm hbusy).symm hjk
    · rw [hnew j hjh] at heq hrow
      rw [hnew l hlh] at heq
      exact hole.injective j hj hjh l hl hlh heq hrow
  · obtain ⟨j, hj, hjh, heq⟩ := hole.rows r hr
    by_cases hjk : j = k
    · exact ⟨h, hh, hne.symm, by rw [hself, ← hjk, heq]⟩
    · exact ⟨j, hj, hjk, by rw [hnew j hjh, heq]⟩
  · by_cases hjh : j = h
    · rw [hjh, hself]
      exact hedge
    · rw [hnew j hjh] at hrow ⊢
      exact hole.tight j hj hjh hrow
  · by_cases hjh : j = h
    · rw [hjh, hself] at hfree
      exact absurd hfree hbusy
    · rw [hnew j hjh] at hfree
      exact hole.v_free j hj hjh hfree

omit [LinearOrder K] [IsStrictOrderedRing K] in
/-- Following the trail back from a free column brings the hole to the source. -/
theorem augment_spec {p : ℕ → ℕ} (fuel : ℕ) : ∀ {h : ℕ} {t : List ℕ} {q : ℕ → ℕ},
    Trail way (h :: t) → (h :: t).Nodup → (∀ k ∈ h :: t, k ≤ n) → h ≠ 0 →
      (∀ k ∈ t, p k ≠ 0) → (∀ k ∈ t, q k = p k) →
      (∀ k ∈ h :: t, k ≠ 0 → slack cost u v (p (way k)) k = 0) →
      Hole cost n i u v q h → t.length ≤ fuel →
      ∃ q', augment way fuel q h = some q' ∧ Hole cost n i u v q' 0 := by
  induction fuel with
  | zero =>
      intro h t q htrail _ _ hne _ _ _ _ hfuel
      rw [List.length_eq_zero_iff.mp (Nat.le_zero.mp hfuel)] at htrail
      exact absurd (List.mem_singleton.mp htrail.zero_mem).symm hne
  | succ fuel ih =>
      intro h t q htrail hnodup hle hne hbusy hsame hedge hole hfuel
      have hway : way h ∈ t := by
        cases htrail with
        | source => exact absurd rfl hne
        | cons hway _ => exact hway
      have hrest : Trail way t := by
        cases htrail with
        | source => exact absurd rfl hne
        | cons _ hrest => exact hrest
      obtain ⟨hnew, hnodup⟩ := List.nodup_cons.mp hnodup
      have hwayne : way h ≠ h := fun heq => hnew (heq ▸ hway)
      have hmoved : Hole cost n i u v (Function.update q h (q (way h))) (way h) := by
        refine hole.move (hle h List.mem_cons_self)
          (hle _ (List.mem_cons_of_mem _ hway)) hwayne ?_ ?_
        · rw [hsame _ hway]
          exact hbusy _ hway
        · rw [hsame _ hway]
          exact hedge h List.mem_cons_self hne
      rw [augment]
      by_cases hend : way h = 0
      · rw [if_neg (not_not.mpr hend)]
        exact ⟨_, rfl, hend ▸ hmoved⟩
      · rw [if_pos hend]
        obtain ⟨t', hsuffix, htrail'⟩ := hrest.exists_suffix hway
        have hsub : ∀ k ∈ way h :: t', k ∈ t := fun k hk => hsuffix.subset hk
        refine ih htrail' (hnodup.sublist hsuffix.sublist)
          (fun k hk => hle k (List.mem_cons_of_mem _ (hsub k hk))) hend
          (fun k hk => hbusy k (hsub k (List.mem_cons_of_mem _ hk))) ?_
          (fun k hk => hedge k (List.mem_cons_of_mem _ (hsub k hk))) hmoved ?_
        · intro k hk
          have hmem := hsub k (List.mem_cons_of_mem _ hk)
          have hkh : k ≠ h := fun heq => hnew (heq ▸ hmem)
          rw [Function.update_of_ne hkh, hsame k hmem]
        · have hlength := hsuffix.length_le
          rw [List.length_cons] at hlength
          omega

end Augment

/-! ## Inserting the rows -/

section Insert

variable {cost : ℕ → ℕ → K} {n i : ℕ} {lo hi : K}

/-- What holds after rows `1..i`. -/
structure Inserted (cost : ℕ → ℕ → K) (n i : ℕ) (s : State K) : Prop where
  placed : Placed n i s.p
  balanced : Balanced cost n i s.p s.u s.v
  u_later : ∀ r, i < r → s.u r = 0

omit [LinearOrder K] [IsStrictOrderedRing K] in
theorem column_ne_zero {j : ℕ} (hj : j ∈ Finset.Icc 1 n) : j ≠ 0 :=
  Nat.one_le_iff_ne_zero.mp (Finset.mem_Icc.mp hj).1

omit [IsStrictOrderedRing K] in
theorem Inserted.searching {s : State K} (h : Inserted cost n i s) :
    Searching cost n i (Function.update s.p 0 (i + 1)) []
      ⟨s.u, s.v, fun _ => kInf, fun _ => false, s.way, 0⟩ := by
  have hp : ∀ j ∈ Finset.Icc 1 n, Function.update s.p 0 (i + 1) j = s.p j :=
    fun j hj => Function.update_of_ne (column_ne_zero hj) _ _
  refine {
    balanced := {
      feasible := h.balanced.feasible
      tight := ?_
      v_nonpos := h.balanced.v_nonpos
      v_free := ?_ }
    feasible_new := fun hne => absurd rfl hne
    u_later := fun r hr => h.u_later r (by omega)
    used_iff := by simp
    nodup := List.nodup_singleton 0
    le := by simp
    reached := .source
    busy := by simp
    edge := by simp
    minv_le := by simp
    minv_eq := fun hne => absurd rfl hne
    fresh := fun _ => ⟨fun _ => rfl, h.u_later _ (Nat.lt_succ_self i)⟩ }
  · intro j hj
    rw [hp j hj]
    exact h.balanced.tight j hj
  · intro j hj
    rw [hp j hj]
    exact h.balanced.v_free j hj

theorem Placed.update_zero {p : ℕ → ℕ} (h : Placed n i p) (r : ℕ) :
    Placed n i (Function.update p 0 r) := by
  have hp : ∀ j ∈ Finset.Icc 1 n, Function.update p 0 r j = p j :=
    fun j hj => Function.update_of_ne (column_ne_zero hj) _ _
  refine ⟨fun j hj => ?_, fun j hj k hk => ?_, fun r' hr' => ?_⟩
  · rw [hp j hj]
    exact h.row_le j hj
  · rw [hp j hj, hp k hk]
    exact h.injective j hj k hk
  · obtain ⟨j, hj, heq⟩ := h.rows r' hr'
    exact ⟨j, hj, (hp j hj).trans heq⟩

omit [IsStrictOrderedRing K] in
/-- At the end of a search only the free column is not in use. -/
theorem Searching.hole {p : ℕ → ℕ} {trail : List ℕ} {s : Search K}
    (h : Searching cost n i p trail s) (hp : Placed n i p)
    (hsource : p 0 = i + 1) (hfound : p s.j0 = 0) :
    Hole cost n (i + 1) s.u s.v p s.j0 := by
  have hcolumn : ∀ j ≤ n, j ≠ 0 → j ∈ Finset.Icc 1 n := fun j hj hne =>
    Finset.mem_Icc.mpr ⟨Nat.one_le_iff_ne_zero.mpr hne, hj⟩
  refine ⟨fun j hj _ => ?_, fun j hj _ k hk _ heq hrow => ?_, fun r hr => ?_,
    fun j hj _ hrow => h.balanced.tight j hj hrow,
    fun j hj _ hfree => h.balanced.v_free j hj hfree⟩
  · by_cases hzero : j = 0
    · rw [hzero, hsource]
    · exact (hp.row_le j (hcolumn j hj hzero)).trans (Nat.le_succ i)
  · by_cases hj0 : j = 0 <;> by_cases hk0 : k = 0
    · rw [hj0, hk0]
    · have hle := hp.row_le k (hcolumn k hk hk0)
      rw [← heq, hj0, hsource] at hle
      omega
    · have hle := hp.row_le j (hcolumn j hj hj0)
      rw [heq, hk0, hsource] at hle
      omega
    · exact hp.injective j (hcolumn j hj hj0) k (hcolumn k hk hk0) heq hrow
  · have hne : ∀ j, p j = r → j ≠ s.j0 := by
      rintro j heq rfl
      rw [← heq, hfound] at hr
      exact absurd (Finset.mem_Icc.mp hr).1 (by omega)
    obtain ⟨hlow, hhigh⟩ := Finset.mem_Icc.mp hr
    rcases Nat.lt_or_eq_of_le hhigh with hlt | rfl
    · obtain ⟨j, hj, heq⟩ := hp.rows r
        (Finset.mem_Icc.mpr ⟨hlow, Nat.lt_succ_iff.mp hlt⟩)
      exact ⟨j, (Finset.mem_Icc.mp hj).2, hne j heq, heq⟩
    · exact ⟨0, Nat.zero_le n, hne 0 hsource, hsource⟩

omit [LinearOrder K] [IsStrictOrderedRing K] in
theorem Hole.placed {u v : ℕ → K} {p : ℕ → ℕ} (h : Hole cost n i u v p 0) :
    Placed n i p := by
  refine ⟨fun j hj => ?_, fun j hj k hk heq hrow => ?_, fun r hr => ?_⟩
  · exact h.row_le j (Finset.mem_Icc.mp hj).2 (column_ne_zero hj)
  · exact h.injective j (Finset.mem_Icc.mp hj).2 (column_ne_zero hj) k
      (Finset.mem_Icc.mp hk).2 (column_ne_zero hk) heq hrow
  · obtain ⟨j, hj, hne, heq⟩ := h.rows r hr
    exact ⟨j, Finset.mem_Icc.mpr ⟨Nat.one_le_iff_ne_zero.mpr hne, hj⟩, heq⟩

theorem insertRow_spec (hin : i < n) (hcost : Moderate cost lo hi) {s : State K}
    (h : Inserted cost n i s) :
    ∃ s', insertRow cost n s (i + 1) = some s' ∧ Inserted cost n (i + 1) s' := by
  have hp := h.placed.update_zero (i + 1)
  have hsource : Function.update s.p 0 (i + 1) 0 = i + 1 := Function.update_self ..
  obtain ⟨trail, found, hsearch, hs, hfree, htrail⟩ :=
    search_spec hp hin hsource hcost (n + 1) h.searching
      (by rw [hsource]; exact Nat.succ_ne_zero i) (by simp)
  have hj0 : found.j0 ≠ 0 := by
    intro hzero
    rw [hzero, hsource] at hfree
    exact Nat.succ_ne_zero i hfree
  have hlength : trail.length ≤ n + 1 := by
    have hsubset : trail.toFinset ⊆ Finset.range (n + 1) := fun k hk =>
      Finset.mem_range.mpr (Nat.lt_succ_of_le
        (hs.le k (List.mem_cons_of_mem _ (List.mem_toFinset.mp hk))))
    have hcard := Finset.card_le_card hsubset
    rwa [List.toFinset_card_of_nodup (List.nodup_cons.mp hs.nodup).2,
      Finset.card_range] at hcard
  obtain ⟨p', haugment, hhole⟩ := augment_spec (n + 1) hs.reached hs.nodup hs.le hj0
    hs.busy (fun _ _ => rfl) hs.edge (hs.hole hp hsource hfree) hlength
  refine ⟨⟨found.u, found.v, p', found.way⟩, ?_, ?_⟩
  · rw [insertRow]
    simp only [hsearch, haugment, Option.bind_eq_bind, Option.bind_some]
  · refine ⟨hhole.placed, ⟨fun r hr j hj => ?_, fun j hj => ?_,
      hs.balanced.v_nonpos, fun j hj => ?_⟩, hs.u_later⟩
    · obtain ⟨hlow, hhigh⟩ := Finset.mem_Icc.mp hr
      exact hs.feasible_all htrail r hr j hj
    · exact hhole.tight j hj (column_ne_zero hj)
    · exact hhole.v_free j hj (column_ne_zero hj)

theorem insertRows_spec (hcost : Moderate cost lo hi) {m : ℕ} (hm : m ≤ n) :
    ∃ s, (List.range' 1 m).foldlM (insertRow cost n)
        ⟨fun _ => 0, fun _ => 0, fun _ => 0, fun _ => 0⟩ = some s ∧
      Inserted cost n m s := by
  induction m with
  | zero =>
      refine ⟨_, rfl, ⟨by simp, by simp, by simp⟩, ⟨by simp, ?_, by simp, by simp⟩,
        fun _ _ => rfl⟩
      exact fun j _ hne => absurd rfl hne
  | succ m ih =>
      obtain ⟨s, hrun, hs⟩ := ih (Nat.le_of_succ_le hm)
      obtain ⟨s', hinsert, hs'⟩ := insertRow_spec hm hcost hs
      refine ⟨s', ?_, hs'⟩
      rw [List.range'_1_concat, List.foldlM_append, hrun, Nat.add_comm 1 m]
      simp only [List.foldlM_cons, List.foldlM_nil, hinsert,
        Option.bind_eq_bind, Option.bind_some]
      rfl

theorem Placed.exists_perm {p : ℕ → ℕ} (h : Placed n n p) :
    ∃ σ : Equiv.Perm (Fin n), ∀ j : Fin n, p (j + 1) = (σ j : ℕ) + 1 := by
  have hcolumn : ∀ j : Fin n, (j : ℕ) + 1 ∈ Finset.Icc 1 n := fun j =>
    Finset.mem_Icc.mpr ⟨Nat.le_add_left 1 j, j.isLt⟩
  have hsubset : Finset.Icc 1 n ⊆
      Finset.univ.image fun j : Fin n => p ((j : ℕ) + 1) := by
    intro r hr
    obtain ⟨j, hj, heq⟩ := h.rows r hr
    obtain ⟨hlow, hhigh⟩ := Finset.mem_Icc.mp hj
    refine Finset.mem_image.mpr ⟨⟨j - 1, by omega⟩, Finset.mem_univ _, ?_⟩
    rw [← heq]
    exact congrArg p (Nat.sub_add_cancel hlow)
  have hcard : (Finset.univ.image fun j : Fin n => p ((j : ℕ) + 1)).card ≤
      (Finset.Icc 1 n).card := by
    refine Finset.card_image_le.trans ?_
    simp
  have himage := Finset.eq_of_subset_of_card_le hsubset hcard
  have hrow : ∀ j : Fin n, p (j + 1) ∈ Finset.Icc 1 n := fun j =>
    himage ▸ Finset.mem_image_of_mem _ (Finset.mem_univ j)
  have hpositive : ∀ j : Fin n, 1 ≤ p (j + 1) := fun j =>
    (Finset.mem_Icc.mp (hrow j)).1
  let row : Fin n → Fin n := fun j =>
    ⟨p (j + 1) - 1, by
      have hle := (Finset.mem_Icc.mp (hrow j)).2
      have hlow := hpositive j
      omega⟩
  have hinjective : Function.Injective row := by
    intro j k heq
    have hval : p (j + 1) - 1 = p (k + 1) - 1 := congrArg Fin.val heq
    have hj := hpositive j
    have hk := hpositive k
    have hsame := h.injective _ (hcolumn j) _ (hcolumn k) (by omega) (by omega)
    exact Fin.ext (Nat.succ_injective hsame)
  refine ⟨Equiv.ofBijective row (Finite.injective_iff_bijective.mp hinjective),
    fun j => ?_⟩
  exact (Nat.sub_add_cancel (hpositive j)).symm

end Insert

end Hungarian

/-- The solver ends, and its rows are an assignment of minimal cost. -/
theorem solveAssignment_spec {K : Type} [Field K] [LinearOrder K]
    [IsStrictOrderedRing K] {cost : ℕ → ℕ → K} {lo hi : K}
    (hcost : Hungarian.Moderate cost lo hi) (n : ℕ) :
    ∃ σ : Equiv.Perm (Fin n),
      solveAssignment cost n = some (List.ofFn fun j => ((σ j : ℕ) : ℤ)) ∧
      Assignment.IsOptimal (fun r j : Fin n => cost r j) σ := by
  obtain ⟨s, hrun, hs⟩ := Hungarian.insertRows_spec (n := n) hcost le_rfl
  obtain ⟨σ, hσ⟩ := hs.placed.exists_perm
  have hcolumn : ∀ j : Fin n, (j : ℕ) + 1 ∈ Finset.Icc 1 n := fun j =>
    Finset.mem_Icc.mpr ⟨Nat.le_add_left 1 j, j.isLt⟩
  refine ⟨σ, ?_, ?_⟩
  · rw [solveAssignment, hrun]
    simp only [Option.bind_eq_bind, Option.bind_some, Option.some.injEq]
    apply List.ext_getElem
    · simp
    · intro j hj _
      have hj' : j < n := by simpa using hj
      simp [hσ ⟨j, hj'⟩]
  · refine Assignment.isOptimal_of_potentials
      (u := fun r : Fin n => s.u (r + 1)) (v := fun j : Fin n => s.v (j + 1))
      (fun r j => ?_) (fun j => ?_)
    · have hfeasible := hs.balanced.feasible _ (hcolumn r) _ (hcolumn j)
      rw [Hungarian.slack, Hungarian.cell] at hfeasible
      simp only [Nat.add_sub_cancel] at hfeasible
      linarith
    · have htight := hs.balanced.tight _ (hcolumn j)
        (by rw [hσ j]; exact Nat.succ_ne_zero _)
      rw [Hungarian.slack, Hungarian.cell, hσ j] at htight
      simp only [Nat.add_sub_cancel] at htight
      linarith

end Semaforo
