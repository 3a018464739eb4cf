import Semaforo.NumpyClip
import Mathlib.Tactic

/-!
# Four directional buckets

`_aggregate_directions` of the single-intersection environment and of the
corridor environment, in exact arithmetic.  The first puts the lanes that do
not divide evenly into its last bucket; the second leaves them out, and reports
zeros when there are fewer lanes than directions.
-/

namespace Semaforo

open Numpy

/-- `per_lane[start:stop].sum()`. -/
def sliceSum (perLane : List ℚ) (slice : ℕ × ℕ) : ℚ :=
  ((perLane.take slice.2).drop slice.1).sum

namespace SingleIntersectionEnv

/-- The bounds of the slices of the loop over the directions. -/
def slices (n : ℕ) : List (ℕ × ℕ) :=
  let chunk := max (n / 4) 1
  (List.range 4).map fun i =>
    (i * chunk, if i < 4 - 1 then (i + 1) * chunk else n)

def aggregateDirections (perLane : List ℚ) (maxVal : ℚ := 1) : List ℚ :=
  if perLane.length = 0 then [0, 0, 0, 0]
  else
    let result := (slices perLane.length).map (sliceSum perLane)
    if 0 < maxVal then result.map fun x => clip (x / maxVal) 0 1 else result

end SingleIntersectionEnv

namespace CorridorVecEnv

def slices (numLanes : ℕ) : List (ℕ × ℕ) :=
  let lanesPerDir := numLanes / 4
  (List.range 4).map fun i => (i * lanesPerDir, i * lanesPerDir + lanesPerDir)

/-- The maximum is not zero. -/
def aggregateDirections (perLane : List ℚ) (maxVal : ℚ := 1) : List ℚ :=
  if perLane.length = 0 then [0, 0, 0, 0]
  else if perLane.length / 4 = 0 then [0, 0, 0, 0]
  else
    let agg := (slices perLane.length).map fun slice =>
      sliceSum perLane slice / maxVal
    agg.map fun x => clip x 0 1

end CorridorVecEnv

/-- Every lane is in exactly one of the slices. -/
def EachLaneOnce (n : ℕ) (slices : List (ℕ × ℕ)) : Prop :=
  ∀ lane < n, slices.countP (fun s => s.1 ≤ lane ∧ lane < s.2) = 1

structure OneAggregation (perLane : List ℚ) (maxVal : ℚ) : Prop where
  same : SingleIntersectionEnv.aggregateDirections perLane maxVal =
    CorridorVecEnv.aggregateDirections perLane maxVal
  single_once : EachLaneOnce perLane.length
    (SingleIntersectionEnv.slices perLane.length)
  corridor_once : EachLaneOnce perLane.length
    (CorridorVecEnv.slices perLane.length)

/-! ## Which lanes are counted -/

theorem single_slices_eq (n : ℕ) :
    SingleIntersectionEnv.slices n =
      [(0, max (n / 4) 1), (max (n / 4) 1, 2 * max (n / 4) 1),
        (2 * max (n / 4) 1, 3 * max (n / 4) 1), (3 * max (n / 4) 1, n)] := by
  simp [SingleIntersectionEnv.slices, List.range_succ]

theorem corridor_slices_eq (n : ℕ) :
    CorridorVecEnv.slices n =
      [(0, n / 4), (n / 4, 2 * (n / 4)), (2 * (n / 4), 3 * (n / 4)),
        (3 * (n / 4), 4 * (n / 4))] := by
  simp [CorridorVecEnv.slices, List.range_succ]
  omega

theorem single_eachLaneOnce (n : ℕ) :
    EachLaneOnce n (SingleIntersectionEnv.slices n) := by
  intro lane hlane
  have hchunk : 1 ≤ max (n / 4) 1 := le_max_right _ _
  have hfew : n < 4 → max (n / 4) 1 = 1 := by omega
  have hmany : 4 ≤ n → max (n / 4) 1 = n / 4 := by omega
  rw [single_slices_eq]
  simp only [List.countP_cons, List.countP_nil, decide_eq_true_eq]
  split_ifs <;> omega

theorem corridor_eachLaneOnce_iff (n : ℕ) :
    EachLaneOnce n (CorridorVecEnv.slices n) ↔ 4 ∣ n := by
  rw [corridor_slices_eq]
  constructor
  · intro honce
    by_contra hdvd
    -- the first of the remaining lanes is in no slice
    have hmissed := honce (4 * (n / 4)) (by omega)
    simp only [List.countP_cons, List.countP_nil, decide_eq_true_eq] at hmissed
    split_ifs at hmissed <;> omega
  · intro hdvd lane hlane
    simp only [List.countP_cons, List.countP_nil, decide_eq_true_eq]
    split_ifs <;> omega

/-! ## What is counted -/

theorem sliceSum_add {perLane : List ℚ} {a b c : ℕ} (hab : a ≤ b)
    (hbc : b ≤ c) :
    sliceSum perLane (a, b) + sliceSum perLane (b, c) =
      sliceSum perLane (a, c) := by
  have hsplit : (perLane.take c).drop a =
      (perLane.take b).drop a ++ (perLane.take c).drop b := by
    rw [← List.take_append_drop (b - a) ((perLane.take c).drop a),
      List.drop_drop, List.take_drop, List.take_take, Nat.add_sub_cancel' hab,
      min_eq_left hbc]
  unfold sliceSum
  rw [hsplit, List.sum_append]

theorem sliceSum_nonneg {perLane : List ℚ} (hnonneg : ∀ x ∈ perLane, 0 ≤ x)
    (slice : ℕ × ℕ) : 0 ≤ sliceSum perLane slice :=
  List.sum_nonneg fun x hx =>
    hnonneg x (List.mem_of_mem_take (List.mem_of_mem_drop hx))

theorem single_eq {perLane : List ℚ} (hlanes : perLane ≠ []) {maxVal : ℚ}
    (hmax : 0 < maxVal) :
    SingleIntersectionEnv.aggregateDirections perLane maxVal =
      (SingleIntersectionEnv.slices perLane.length).map fun slice =>
        clip (sliceSum perLane slice / maxVal) 0 1 := by
  have hlength : perLane.length ≠ 0 := mt List.length_eq_zero_iff.mp hlanes
  rw [SingleIntersectionEnv.aggregateDirections, if_neg hlength]
  dsimp only
  rw [if_pos hmax, List.map_map]
  rfl

theorem corridor_eq {perLane : List ℚ} (hlanes : 4 ≤ perLane.length)
    (maxVal : ℚ) :
    CorridorVecEnv.aggregateDirections perLane maxVal =
      (CorridorVecEnv.slices perLane.length).map fun slice =>
        clip (sliceSum perLane slice / maxVal) 0 1 := by
  rw [CorridorVecEnv.aggregateDirections, if_neg (by omega), if_neg (by omega)]
  dsimp only
  rw [List.map_map]
  rfl

theorem clip_sliceSum_eq_zero_iff {perLane : List ℚ}
    (hnonneg : ∀ x ∈ perLane, 0 ≤ x) {maxVal : ℚ} (hmax : 0 < maxVal)
    (slice : ℕ × ℕ) :
    clip (sliceSum perLane slice / maxVal) 0 1 = 0 ↔
      sliceSum perLane slice = 0 := by
  have hzero : clip (0 : ℚ) 0 1 = 0 := clip_eq_self le_rfl zero_le_one
  have hsum := div_nonneg (sliceSum_nonneg hnonneg slice) hmax.le
  have hiff : clip 0 0 1 = clip (sliceSum perLane slice / maxVal) 0 1 ↔ _ :=
    clip_eq_clip_iff le_rfl hsum
  rw [hzero, or_iff_left (by norm_num), eq_comm,
    eq_comm (a := (0 : ℚ)), div_eq_zero_iff, or_iff_left hmax.ne'] at hiff
  exact hiff

/-- With fewer lanes than directions one environment reports zeros and the
other the lanes themselves. -/
theorem aggregateDirections_eq_iff_of_few {perLane : List ℚ} {maxVal : ℚ}
    (hnonneg : ∀ x ∈ perLane, 0 ≤ x) (hmax : 0 < maxVal)
    (hfew : perLane.length < 4) :
    SingleIntersectionEnv.aggregateDirections perLane maxVal =
        CorridorVecEnv.aggregateDirections perLane maxVal ↔
      perLane.sum = 0 := by
  have hcorridor : CorridorVecEnv.aggregateDirections perLane maxVal =
      [0, 0, 0, 0] := by
    rw [CorridorVecEnv.aggregateDirections, if_pos (by omega : _ / 4 = 0),
      ite_self]
  rw [hcorridor]
  by_cases hlanes : perLane = []
  · subst hlanes
    exact iff_of_true rfl rfl
  · have hlength := List.length_pos_iff.mpr hlanes
    have hchunk : max (perLane.length / 4) 1 = 1 := by omega
    have hall : sliceSum perLane (0, 1) + sliceSum perLane (1, 2) +
        sliceSum perLane (2, 3) = perLane.sum := by
      rw [sliceSum_add (by omega) (by omega), sliceSum_add (by omega) (by omega),
        sliceSum, List.take_of_length_le (by simpa using by omega)]
      rfl
    have hlast : sliceSum perLane (3, perLane.length) = 0 := by
      rw [sliceSum, List.take_length, List.drop_of_length_le (by simpa using by omega)]
      rfl
    have h0 := sliceSum_nonneg hnonneg (0, 1)
    have h1 := sliceSum_nonneg hnonneg (1, 2)
    have h2 := sliceSum_nonneg hnonneg (2, 3)
    rw [single_eq hlanes hmax, single_slices_eq, hchunk]
    simp only [List.map_cons, List.map_nil, List.cons.injEq, and_true,
      clip_sliceSum_eq_zero_iff hnonneg hmax]
    constructor
    · rintro ⟨hz0, hz1, hz2, -⟩
      rw [← hall, hz0, hz1, hz2]
      norm_num
    · intro hsum
      refine ⟨?_, ?_, ?_, hlast⟩ <;> linarith

/-- The buckets agree exactly if the remaining lanes are empty or the last
bucket is full without them. -/
theorem aggregateDirections_eq_iff {perLane : List ℚ} {maxVal : ℚ}
    (hnonneg : ∀ x ∈ perLane, 0 ≤ x) (hmax : 0 < maxVal) :
    SingleIntersectionEnv.aggregateDirections perLane maxVal =
        CorridorVecEnv.aggregateDirections perLane maxVal ↔
      (perLane.drop (4 * (perLane.length / 4))).sum = 0 ∨
        maxVal ≤ sliceSum perLane
          (3 * (perLane.length / 4), 4 * (perLane.length / 4)) := by
  by_cases hfew : perLane.length < 4
  · have hdiv : perLane.length / 4 = 0 := by omega
    rw [aggregateDirections_eq_iff_of_few hnonneg hmax hfew, hdiv, or_iff_left]
    · rfl
    · exact not_le.mpr hmax
  · have hlanes : perLane ≠ [] := by
      rintro rfl
      exact hfew (by decide)
    have hchunk : max (perLane.length / 4) 1 = perLane.length / 4 := by omega
    set chunk := perLane.length / 4 with hdef
    have hrest : (perLane.drop (4 * chunk)).sum =
        sliceSum perLane (4 * chunk, perLane.length) := by
      rw [sliceSum, List.take_length]
    have hlast : sliceSum perLane (3 * chunk, 4 * chunk) +
        sliceSum perLane (4 * chunk, perLane.length) =
          sliceSum perLane (3 * chunk, perLane.length) :=
      sliceSum_add (by omega) (by omega)
    have hnonneg' := sliceSum_nonneg hnonneg (3 * chunk, 4 * chunk)
    have hle : sliceSum perLane (3 * chunk, 4 * chunk) / maxVal ≤
        sliceSum perLane (3 * chunk, perLane.length) / maxVal := by
      rw [← hlast]
      exact div_le_div_of_nonneg_right
        (le_add_of_nonneg_right (sliceSum_nonneg hnonneg _)) hmax.le
    rw [single_eq hlanes hmax, corridor_eq (by omega), single_slices_eq,
      corridor_slices_eq, ← hdef, hchunk]
    simp only [List.map_cons, List.map_nil, List.cons.injEq, and_true, true_and]
    rw [eq_comm, clip_eq_clip_iff (div_nonneg hnonneg' hmax.le) hle,
      div_left_inj' hmax.ne', one_le_div hmax, hrest, ← hlast,
      left_eq_add]

theorem oneAggregation_iff (perLane : List ℚ) (maxVal : ℚ)
    (hnonneg : ∀ x ∈ perLane, 0 ≤ x) (hmax : 0 < maxVal) :
    OneAggregation perLane maxVal ↔ 4 ∣ perLane.length := by
  constructor
  · intro h
    exact (corridor_eachLaneOnce_iff _).mp h.corridor_once
  · intro hdvd
    refine ⟨?_, single_eachLaneOnce _, (corridor_eachLaneOnce_iff _).mpr hdvd⟩
    rw [aggregateDirections_eq_iff hnonneg hmax, Nat.mul_div_cancel' hdvd,
      List.drop_length]
    exact Or.inl List.sum_nil

theorem oneAggregation_iff_four :
    OneAggregation [3, 0, 7, 1] 20 ↔ 4 ∣ ([3, 0, 7, 1] : List ℚ).length :=
  oneAggregation_iff [3, 0, 7, 1] 20 (by decide +kernel) (by norm_num)

/-- Ten vehicles wait on the fifth of five lanes. -/
theorem fifth_lane_lost :
    SingleIntersectionEnv.aggregateDirections [0, 0, 0, 0, 10] 20 =
        [0, 0, 0, 1 / 2] ∧
      CorridorVecEnv.aggregateDirections [0, 0, 0, 0, 10] 20 = [0, 0, 0, 0] ∧
      ¬ ∀ (perLane : List ℚ) (maxVal : ℚ), (∀ x ∈ perLane, 0 ≤ x) →
        0 < maxVal → OneAggregation perLane maxVal := by
  have hsingle : SingleIntersectionEnv.aggregateDirections [0, 0, 0, 0, 10] 20 =
      [0, 0, 0, 1 / 2] := by decide +kernel
  have hcorridor : CorridorVecEnv.aggregateDirections [0, 0, 0, 0, 10] 20 =
      [0, 0, 0, 0] := by decide +kernel
  refine ⟨hsingle, hcorridor, fun hall => ?_⟩
  have hsame := (hall [0, 0, 0, 0, 10] 20 (by decide +kernel) (by norm_num)).same
  rw [hsingle, hcorridor] at hsame
  exact absurd hsame (by decide +kernel)

end Semaforo
