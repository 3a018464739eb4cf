import Mathlib.Tactic
import Semaforo.Tracker

/-!
# The association is a best matching

With exact arithmetic a ratio of areas lies between zero and one, so the padding
of the cost matrix is dearer than any set of true pairs.  The pairs an update
treats as matched are then a largest set of feasible pairs, and among those one
of largest total overlap.
-/

namespace Semaforo

variable {Φ K : Type} [Field K] [LinearOrder K] [IsStrictOrderedRing K]

section Iou

omit [Field K] [IsStrictOrderedRing K] in
theorem stdMax_eq_max (x y : K) : stdMax x y = max x y := by
  unfold stdMax
  split_ifs with hlt
  · exact (max_eq_right hlt.le).symm
  · exact (max_eq_left (not_lt.mp hlt)).symm

omit [Field K] [IsStrictOrderedRing K] in
theorem stdMin_eq_min (x y : K) : stdMin x y = min x y := by
  unfold stdMin
  split_ifs with hlt
  · exact (min_eq_right hlt.le).symm
  · exact (min_eq_left (not_lt.mp hlt)).symm

/-- Two sides that overlap are both at least as long as the overlap. -/
theorem overlap_le {a b v w o : K} (ho : o = min (a + v) (b + w) - max a b) :
    o ≤ v ∧ o ≤ w := by
  have hleft := min_le_left (a + v) (b + w)
  have hright := min_le_right (a + v) (b + w)
  have ha := le_max_left a b
  have hb := le_max_right a b
  constructor <;> linarith

theorem product_overlap_le {o o' v v' : K} (ho : o ≤ v) (ho' : o' ≤ v') :
    max 0 o * max 0 o' ≤ v * v' ∨ max 0 o * max 0 o' = 0 := by
  rcases le_total o 0 with hneg | hpos
  · exact .inr (by rw [max_eq_left hneg, zero_mul])
  rcases le_total o' 0 with hneg' | hpos'
  · exact .inr (by rw [max_eq_left hneg', mul_zero])
  rw [max_eq_right hpos, max_eq_right hpos']
  exact .inl (mul_le_mul ho ho' hpos' (hpos.trans ho))

theorem computeIou_bounds (a b : BBox K) :
    0 ≤ computeIou a b ∧ computeIou a b ≤ 1 := by
  unfold computeIou
  simp only [stdMax_eq_max, stdMin_eq_min]
  obtain ⟨hx, hx'⟩ := overlap_le (a := a.x) (b := b.x) (v := a.width)
    (w := b.width) rfl
  obtain ⟨hy, hy'⟩ := overlap_le (a := a.y) (b := b.y) (v := a.height)
    (w := b.height) rfl
  have harea := product_overlap_le hx hy
  have harea' := product_overlap_le hx' hy'
  have hnonneg : 0 ≤ max 0 (min (a.x + a.width) (b.x + b.width) - max a.x b.x) *
      max 0 (min (a.y + a.height) (b.y + b.height) - max a.y b.y) :=
    mul_nonneg (le_max_left _ _) (le_max_left _ _)
  revert harea harea' hnonneg
  generalize max 0 (min (a.x + a.width) (b.x + b.width) - max a.x b.x) *
    max 0 (min (a.y + a.height) (b.y + b.height) - max a.y b.y) = inter
  intro harea harea' hnonneg
  split_ifs with hunion
  · refine ⟨div_nonneg hnonneg hunion.le, (div_le_one hunion).mpr ?_⟩
    rcases harea with harea | hzero
    · rcases harea' with harea' | hzero
      · linarith
      · rw [hzero] at hunion ⊢
        exact hunion.le
    · rw [hzero] at hunion ⊢
      exact hunion.le
  · exact ⟨le_rfl, zero_le_one⟩

theorem computeIou_le_double (a b : BBox K) : computeIou a b ≤ 2 ^ 24 :=
  (computeIou_bounds a b).2.trans (one_le_pow₀ one_le_two)

end Iou

def exactBoxes (filter : BoxFilter K Φ) : BoxModel K Φ K where
  toBoxFilter := filter
  toDouble := id
  iou_nonneg := fun a b => (computeIou_bounds a b).1
  iou_le := computeIou_le_double

namespace VehicleTracker

/-- The track and the place in the frame of every detection that updated one. -/
def matchedPairs (outcomes : List Outcome) : Finset (ℕ × ℕ) :=
  ((List.range outcomes.length).filterMap fun d : ℕ =>
    match outcomes[d]? with
    | some (Outcome.updated id) => some (id, d)
    | _ => none).toFinset

theorem mem_matchedPairs {outcomes : List Outcome} {a : ℕ × ℕ} :
    a ∈ matchedPairs outcomes ↔ outcomes[a.2]? = some (.updated a.1) := by
  rw [matchedPairs, List.mem_toFinset, List.mem_filterMap]
  constructor
  · rintro ⟨d, -, hd⟩
    split at hd
    · rename_i id hid
      rw [← Option.some.inj hd]
      exact hid
    · exact absurd hd (Option.some_ne_none _).symm
  · intro h
    refine ⟨a.2, List.mem_range.mpr (List.getElem?_eq_some_iff.mp h).1, ?_⟩
    rw [h]

/-- A live track and a detection of its class above the threshold. -/
def Feasible (cfg : TrackerConfig K) (tracks : UnorderedMap ℕ (Track K Φ))
    (detections : List (Detection K)) (a : ℕ × ℕ) : Prop :=
  ∃ track detection, (a.1, track) ∈ tracks.entries ∧
    detections[a.2]? = some detection ∧ Gate cfg track detection

def pairIou (tracks : UnorderedMap ℕ (Track K Φ))
    (detections : List (Detection K)) (a : ℕ × ℕ) : K :=
  match tracks.get? a.1, detections[a.2]? with
  | some track, some detection =>
      computeIou detection.bbox track.obj.detection.bbox
  | _, _ => 0

section Rows

variable (filter : BoxFilter K Φ) (cfg : TrackerConfig K)
variable (tracks : UnorderedMap ℕ (Track K Φ)) (detections : List (Detection K))

def allowedCells : Finset (Fin (max tracks.entries.length detections.length) ×
    Fin (max tracks.entries.length detections.length)) :=
  Finset.univ.filter fun a =>
    frameCost (exactBoxes filter) cfg tracks detections a.1 a.2 < kInfeasibleCost

def cellPair (a : Fin (max tracks.entries.length detections.length) ×
    Fin (max tracks.entries.length detections.length)) : ℕ × ℕ :=
  (tracks.keys.getD a.1 0, a.2)

theorem allowedCells_spec {a : Fin (max tracks.entries.length detections.length) ×
    Fin (max tracks.entries.length detections.length)}
    (ha : a ∈ allowedCells filter cfg tracks detections) :
    tracks.keys[a.1.val]? = some (cellPair tracks detections a).1 ∧
      Feasible cfg tracks detections (cellPair tracks detections a) ∧
      frameCost (exactBoxes filter) cfg tracks detections a.1 a.2 =
        1 - pairIou tracks detections (cellPair tracks detections a) := by
  have hlt := (Finset.mem_filter.mp ha).2
  obtain ⟨track, detection, htrack, hdetection, hgate⟩ :=
    (costMatrix_lt_iff (exactBoxes filter) cfg _ detections _ _).mp hlt
  have hcost := costMatrix_of_gate (exactBoxes filter) cfg htrack hdetection hgate
  rw [List.getElem?_map, Option.map_eq_some_iff] at htrack
  obtain ⟨⟨k, track'⟩, hentry, rfl⟩ := htrack
  have hkey : tracks.keys[a.1.val]? = some k := by
    rw [UnorderedMap.keys, List.getElem?_map, hentry]
    rfl
  have hcell : (cellPair tracks detections a).1 = k := by
    rw [cellPair, List.getD_eq_getElem?_getD, hkey, Option.getD_some]
  have hmem : ((cellPair tracks detections a).1, track') ∈ tracks.entries := by
    rw [hcell]
    exact List.mem_of_getElem? hentry
  refine ⟨by rw [hkey, hcell], ⟨track', detection, hmem, hdetection, hgate⟩, ?_⟩
  rw [pairIou, UnorderedMap.get?_eq_some_iff.mpr hmem]
  exact hcost.trans (by simp only [hdetection, cellPair]; rfl)

theorem exists_allowedCell {b : ℕ × ℕ} (h : Feasible cfg tracks detections b) :
    ∃ a ∈ allowedCells filter cfg tracks detections,
      cellPair tracks detections a = b := by
  obtain ⟨track, detection, hmem, hdetection, hgate⟩ := h
  obtain ⟨r, hentry⟩ := List.mem_iff_getElem?.mp hmem
  have hr : r < max tracks.entries.length detections.length :=
    lt_max_of_lt_left (List.getElem?_eq_some_iff.mp hentry).1
  have hd : b.2 < max tracks.entries.length detections.length :=
    lt_max_of_lt_right (List.getElem?_eq_some_iff.mp hdetection).1
  refine ⟨(⟨r, hr⟩, ⟨b.2, hd⟩), Finset.mem_filter.mpr ⟨Finset.mem_univ _, ?_⟩, ?_⟩
  · refine (costMatrix_lt_iff (exactBoxes filter) cfg _ detections _ _).mpr
      ⟨track, detection, ?_, hdetection, hgate⟩
    rw [List.getElem?_map, hentry]
    rfl
  · refine Prod.ext ?_ rfl
    change tracks.keys.getD r 0 = b.1
    rw [List.getD_eq_getElem?_getD, UnorderedMap.keys, List.getElem?_map, hentry]
    rfl

theorem cellPair_row {a b : Fin (max tracks.entries.length detections.length) ×
    Fin (max tracks.entries.length detections.length)}
    (ha : a ∈ allowedCells filter cfg tracks detections)
    (hb : b ∈ allowedCells filter cfg tracks detections)
    (heq : (cellPair tracks detections a).1 = (cellPair tracks detections b).1) :
    a.1 = b.1 := by
  obtain ⟨hrow, -⟩ := allowedCells_spec filter cfg tracks detections ha
  obtain ⟨hrow', -⟩ := allowedCells_spec filter cfg tracks detections hb
  rw [← heq] at hrow'
  exact Fin.ext ((List.getElem?_inj (List.getElem?_eq_some_iff.mp hrow).1
    tracks.nodup).mp (hrow.trans hrow'.symm))

theorem cellPair_injOn : Set.InjOn (cellPair tracks detections)
    (allowedCells filter cfg tracks detections) := by
  intro a ha b hb heq
  have hrow := cellPair_row filter cfg tracks detections (Finset.mem_coe.mp ha)
    (Finset.mem_coe.mp hb) (congrArg Prod.fst heq)
  exact Prod.ext hrow (Fin.ext (congrArg Prod.snd heq))

def cellsOf (M : Finset (ℕ × ℕ)) :
    Finset (Fin (max tracks.entries.length detections.length) ×
      Fin (max tracks.entries.length detections.length)) :=
  (allowedCells filter cfg tracks detections).filter fun a =>
    cellPair tracks detections a ∈ M

variable {M : Finset (ℕ × ℕ)}

theorem cellsOf_subset : cellsOf filter cfg tracks detections M ⊆
    allowedCells filter cfg tracks detections :=
  Finset.filter_subset _ _

theorem image_cellsOf (hM : ∀ b ∈ M, Feasible cfg tracks detections b) :
    (cellsOf filter cfg tracks detections M).image (cellPair tracks detections) =
      M := by
  ext b
  rw [Finset.mem_image]
  constructor
  · rintro ⟨a, ha, rfl⟩
    exact (Finset.mem_filter.mp ha).2
  · intro hb
    obtain ⟨a, ha, rfl⟩ := exists_allowedCell filter cfg tracks detections (hM b hb)
    exact ⟨a, Finset.mem_filter.mpr ⟨ha, hb⟩, rfl⟩

theorem card_image_cells {C : Finset (Fin (max tracks.entries.length
    detections.length) × Fin (max tracks.entries.length detections.length))}
    (hC : C ⊆ allowedCells filter cfg tracks detections) :
    (C.image (cellPair tracks detections)).card = C.card :=
  Finset.card_image_of_injOn
    ((cellPair_injOn filter cfg tracks detections).mono (Finset.coe_subset.mpr hC))

theorem sum_cells {C : Finset (Fin (max tracks.entries.length
    detections.length) × Fin (max tracks.entries.length detections.length))}
    (hC : C ⊆ allowedCells filter cfg tracks detections) :
    ∑ a ∈ C, frameCost (exactBoxes filter) cfg tracks detections a.1 a.2 =
      C.card - ∑ b ∈ C.image (cellPair tracks detections),
        pairIou tracks detections b := by
  rw [Finset.sum_image ((cellPair_injOn filter cfg tracks detections).mono
    (Finset.coe_subset.mpr hC)), Finset.sum_congr rfl fun a ha =>
      (allowedCells_spec filter cfg tracks detections (hC ha)).2.2,
    Finset.sum_sub_distrib, Finset.sum_const, nsmul_one]

theorem isMatching_cellsOf (hM : Assignment.IsMatching M) :
    Assignment.IsMatching (cellsOf filter cfg tracks detections M) := by
  have hinjective := cellPair_injOn filter cfg tracks detections
  constructor
  · intro a ha b hb heq
    obtain ⟨ha, hmem⟩ := Finset.mem_filter.mp ha
    obtain ⟨hb, hmem'⟩ := Finset.mem_filter.mp hb
    refine hinjective ha hb (hM.row_unique _ hmem _ hmem' ?_)
    rw [cellPair, cellPair, heq]
  · intro a ha b hb heq
    obtain ⟨ha, hmem⟩ := Finset.mem_filter.mp ha
    obtain ⟨hb, hmem'⟩ := Finset.mem_filter.mp hb
    refine hinjective ha hb (hM.column_unique _ hmem _ hmem' ?_)
    rw [cellPair, cellPair, heq]

theorem frameCost_eq_gated (r j : Fin (max tracks.entries.length
    detections.length)) :
    frameCost (exactBoxes filter) cfg tracks detections r j =
      Assignment.gated (allowedCells filter cfg tracks detections)
        (fun r j => frameCost (exactBoxes filter) cfg tracks detections r.val j.val)
        kInfeasibleCost r j := by
  unfold Assignment.gated
  split_ifs with hallowed
  · rfl
  · refine costMatrix_eq_of_not_lt (exactBoxes filter) cfg fun hlt => hallowed ?_
    exact Finset.mem_filter.mpr ⟨Finset.mem_univ _, hlt⟩

end Rows

omit [IsStrictOrderedRing K] in
theorem mem_matchedPairs_iff {model : BoxModel K Φ K} {cfg : TrackerConfig K}
    {s : VehicleTracker K Φ} {frame : TrackerFrame K Φ} {ids : List (Option ℕ)}
    {u : TrackerUpdate K Φ} (hlength : ids.length = frame.detections.length)
    (hu : Updates model cfg s frame ids u) {b : ℕ × ℕ} :
    b ∈ matchedPairs u.outcomes ↔ ids[b.2]? = some (some b.1) := by
  rw [mem_matchedPairs, hu.outcomes_eq, outcomesOf_getElem?,
    List.map_snd_zip hlength.le]

/-- A largest matching of feasible pairs, and of the largest total overlap. -/
structure BestMatching (cfg : TrackerConfig K) (tracks : UnorderedMap ℕ (Track K Φ))
    (detections : List (Detection K)) (M : Finset (ℕ × ℕ)) : Prop where
  isMatching : Assignment.IsMatching M
  feasible : ∀ a ∈ M, Feasible cfg tracks detections a
  card_le : ∀ M', Assignment.IsMatching M' →
    (∀ a ∈ M', Feasible cfg tracks detections a) → M'.card ≤ M.card
  sum_le : ∀ M', Assignment.IsMatching M' →
    (∀ a ∈ M', Feasible cfg tracks detections a) → M'.card = M.card →
      ∑ a ∈ M', pairIou tracks detections a ≤ ∑ a ∈ M, pairIou tracks detections a

section Best

variable (filter : BoxFilter K Φ) (cfg : TrackerConfig K)
variable (tracks : UnorderedMap ℕ (Track K Φ)) (detections : List (Detection K))

theorem bestMatching_of_optimal
    {σ : Equiv.Perm (Fin (max tracks.entries.length detections.length))}
    (hoptimal : Assignment.IsOptimal (fun r j =>
      frameCost (exactBoxes filter) cfg tracks detections r.val j.val) σ)
    (hsize : max tracks.entries.length detections.length < 10 ^ 6) :
    BestMatching cfg tracks detections
      ((Assignment.pairs (allowedCells filter cfg tracks detections) σ).image
        (cellPair tracks detections)) := by
  have hpairs : Assignment.pairs (allowedCells filter cfg tracks detections) σ ⊆
      allowedCells filter cfg tracks detections := Finset.filter_subset _ _
  have hgated : Assignment.IsOptimal (Assignment.gated
      (allowedCells filter cfg tracks detections) (fun r j =>
        frameCost (exactBoxes filter) cfg tracks detections r.val j.val)
      kInfeasibleCost) σ := by
    intro τ
    have hcosts := hoptimal τ
    simp only [Assignment.totalCost, ← frameCost_eq_gated] at hcosts ⊢
    exact hcosts
  have hweight : ∀ a ∈ allowedCells filter cfg tracks detections,
      0 ≤ frameCost (exactBoxes filter) cfg tracks detections a.1 a.2 ∧
        frameCost (exactBoxes filter) cfg tracks detections a.1 a.2 ≤ 1 := by
    intro a ha
    obtain ⟨-, ⟨track, detection, hmem, hdetection, -⟩, hcost⟩ :=
      allowedCells_spec filter cfg tracks detections ha
    obtain ⟨hlow, hhigh⟩ := computeIou_bounds detection.bbox
      track.obj.detection.bbox
    rw [hcost, pairIou, UnorderedMap.get?_eq_some_iff.mpr hmem, hdetection]
    exact ⟨sub_nonneg.mpr hhigh, sub_le_self _ hlow⟩
  have hforbidden : (Fintype.card (Fin (max tracks.entries.length
      detections.length)) : K) < kInfeasibleCost := by
    rw [Fintype.card_fin, kInfeasibleCost]
    exact_mod_cast hsize
  have hbest := fun M' (h : Assignment.IsMatching M')
      (hM : ∀ a ∈ M', Feasible cfg tracks detections a) =>
    Assignment.pairs_lexicographic hgated (fun a ha => (hweight a ha).1)
      (fun a ha => (hweight a ha).2) hforbidden
      (isMatching_cellsOf filter cfg tracks detections h)
      (cellsOf_subset filter cfg tracks detections)
  have hcard := card_image_cells filter cfg tracks detections hpairs
  have hcells : ∀ M', (∀ a ∈ M', Feasible cfg tracks detections a) →
      (cellsOf filter cfg tracks detections M').card = M'.card := by
    intro M' hM
    rw [← card_image_cells filter cfg tracks detections
      (cellsOf_subset filter cfg tracks detections)]
    exact congrArg Finset.card (image_cellsOf filter cfg tracks detections hM)
  refine ⟨⟨?_, ?_⟩, ?_, fun M' h hM => ?_, fun M' h hM heq => ?_⟩
  · intro b hb b' hb' heq
    obtain ⟨a, ha, rfl⟩ := Finset.mem_image.mp hb
    obtain ⟨a', ha', rfl⟩ := Finset.mem_image.mp hb'
    have hrow := cellPair_row filter cfg tracks detections (hpairs ha) (hpairs ha') heq
    exact congrArg (cellPair tracks detections)
      ((Assignment.isMatching_pairs _ σ).row_unique a ha a' ha' hrow)
  · intro b hb b' hb' heq
    obtain ⟨a, ha, rfl⟩ := Finset.mem_image.mp hb
    obtain ⟨a', ha', rfl⟩ := Finset.mem_image.mp hb'
    exact congrArg (cellPair tracks detections)
      ((Assignment.isMatching_pairs _ σ).column_unique a ha a' ha' (Fin.ext heq))
  · intro b hb
    obtain ⟨a, ha, rfl⟩ := Finset.mem_image.mp hb
    exact (allowedCells_spec filter cfg tracks detections (hpairs ha)).2.1
  · rw [hcard, ← hcells M' hM]
    exact (hbest M' h hM).1
  · have hsum := (hbest M' h hM).2 (by rw [hcells M' hM, heq, hcard])
    rw [sum_cells filter cfg tracks detections hpairs,
      sum_cells filter cfg tracks detections
        (cellsOf_subset filter cfg tracks detections),
      image_cellsOf filter cfg tracks detections hM, hcells M' hM, heq, hcard] at hsum
    linarith

theorem assigned_iff_image {ids : List (Option ℕ)}
    {σ : Equiv.Perm (Fin (max tracks.entries.length detections.length))}
    (hlength : ids.length = detections.length)
    (hids : ∀ d, (hd : d < max tracks.entries.length detections.length) →
      d < detections.length → ids[d]? =
        some (if frameCost (exactBoxes filter) cfg tracks detections
          (σ ⟨d, hd⟩).val d < kInfeasibleCost then
            tracks.keys[(σ ⟨d, hd⟩).val]? else none)) (b : ℕ × ℕ) :
    ids[b.2]? = some (some b.1) ↔
      b ∈ (Assignment.pairs (allowedCells filter cfg tracks detections) σ).image
        (cellPair tracks detections) := by
  constructor
  · intro hb
    obtain ⟨hd, hlt, hkey⟩ :=
      assigned_some (exactBoxes filter) cfg hlength hids hb
    refine Finset.mem_image.mpr ⟨(σ ⟨b.2, hd⟩, ⟨b.2, hd⟩),
      Assignment.mem_pairs.mpr ⟨Finset.mem_filter.mpr ⟨Finset.mem_univ _, hlt⟩, rfl⟩,
      Prod.ext ?_ rfl⟩
    change tracks.keys.getD (σ ⟨b.2, hd⟩).val 0 = b.1
    rw [List.getD_eq_getElem?_getD, hkey, Option.getD_some]
  · intro hb
    obtain ⟨⟨r, d⟩, ha, rfl⟩ := Finset.mem_image.mp hb
    obtain ⟨hallowed, hrow⟩ := Assignment.mem_pairs.mp ha
    obtain rfl : σ d = r := hrow
    obtain ⟨hkey, ⟨track, detection, -, hdetection, -⟩, -⟩ :=
      allowedCells_spec filter cfg tracks detections hallowed
    have hlt := (Finset.mem_filter.mp hallowed).2
    rw [show (cellPair tracks detections (σ d, d)).2 = d.val from rfl,
      hids d.val d.isLt (List.getElem?_eq_some_iff.mp hdetection).1, if_pos hlt]
    exact congrArg some hkey

end Best

/-- The association is a largest set of feasible pairs, of largest overlap. -/
theorem association_optimal (filter : BoxFilter K Φ) (cfg : TrackerConfig K)
    (s : VehicleTracker K Φ) (frame : TrackerFrame K Φ)
    (hsize : max s.tracks.keys.length frame.detections.length < 10 ^ 6) :
    ∃ u, update (exactBoxes filter) cfg s frame = some u ∧
      BestMatching cfg (s.predicted filter frame.dt) frame.detections
        (matchedPairs u.outcomes) := by
  obtain ⟨ids, u, hupdate, -, hlength, hdecided, hu⟩ :=
    update_spec (exactBoxes filter) cfg s frame
  refine ⟨u, hupdate, ?_⟩
  have hmem := fun b => mem_matchedPairs_iff (b := b) hlength hu
  cases hdecided with
  | nothing hempty hids =>
      have hnone : ∀ a, ¬ Feasible cfg (s.predicted filter frame.dt)
          frame.detections a := by
        rintro a ⟨track, detection, htrack, hdetection, -⟩
        rcases hempty with hempty | hempty
        · rw [show (s.predicted filter frame.dt).entries = [] from hempty] at htrack
          exact List.not_mem_nil htrack
        · rw [hempty] at hdetection
          exact absurd hdetection (by simp)
      have hnothing : matchedPairs u.outcomes = ∅ := by
        refine Finset.eq_empty_of_forall_notMem fun b hb => ?_
        rw [hmem] at hb
        have hd := (List.getElem?_eq_some_iff.mp hb).1
        rw [hids b.2 (hlength ▸ hd)] at hb
        exact Option.some_ne_none _ (Option.some.inj hb).symm
      have hsame : ∀ M' : Finset (ℕ × ℕ), (∀ a ∈ M', Feasible cfg
          (s.predicted filter frame.dt) frame.detections a) → M' = ∅ :=
        fun M' hM => Finset.eq_empty_of_forall_notMem fun b hb => hnone b (hM b hb)
      rw [hnothing]
      refine ⟨⟨by simp, by simp⟩, by simp, fun M' _ hM => ?_, fun M' _ hM _ => ?_⟩
      · rw [hsame M' hM]
      · rw [hsame M' hM]
  | assigned σ hoptimal hids =>
      have hpairs : matchedPairs u.outcomes = (Assignment.pairs (allowedCells filter cfg
          (s.predicted filter frame.dt) frame.detections) σ).image
          (cellPair (s.predicted filter frame.dt) frame.detections) := by
        ext b
        rw [hmem]
        exact assigned_iff_image filter cfg _ _ hlength hids b
      rw [hpairs]
      refine bestMatching_of_optimal filter cfg _ _ hoptimal ?_
      have hkeys : (s.predicted filter frame.dt).entries.length =
          s.tracks.keys.length := by
        rw [predicted, UnorderedMap.keys, UnorderedMap.transform, List.length_map,
          List.length_map]
      rwa [hkeys]

/-- A filter that has seen a box standing still. -/
def standingFilter : BoxFilter ℚ (BBox ℚ) where
  init := id
  predict := fun box _ => box
  update := fun box _ => box
  bbox := id
  vx := fun _ => 0
  vy := fun _ => 0

/-- Two cars side by side, the frame after they were first seen. -/
def twoStanding : VehicleTracker ℚ (BBox ℚ) where
  tracks := ⟨[(1, newTrack standingFilter 0 1 ⟨⟨0, 0, 100, 100⟩, 2, 1⟩),
    (2, newTrack standingFilter 0 2 ⟨⟨50, 0, 100, 100⟩, 2, 1⟩)], by decide⟩
  nextId := 2

def adversarialFrame : TrackerFrame ℚ (BBox ℚ) where
  detections := [⟨⟨40, 0, 100, 100⟩, 2, 1⟩, ⟨⟨55, 0, 100, 100⟩, 2, 1⟩]
  dt := 1
  now := 33
  capacity := 256
  order := ⟨id, fun _ => List.Perm.refl _⟩

theorem association_optimal_adversarial :
    ∃ u, update (exactBoxes standingFilter) ⟨3 / 10, 30, 1⟩ twoStanding
        adversarialFrame = some u ∧
      BestMatching ⟨3 / 10, 30, 1⟩ (twoStanding.predicted standingFilter 1)
        adversarialFrame.detections (matchedPairs u.outcomes) :=
  association_optimal standingFilter _ twoStanding adversarialFrame (by decide)

example : associate (exactBoxes standingFilter) ⟨3 / 10, 30, 1⟩
    (twoStanding.predicted standingFilter 1) adversarialFrame.detections =
      some [some 1, some 2] := by
  decide +kernel

end VehicleTracker

end Semaforo
