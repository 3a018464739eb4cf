import Semaforo.CoordinatorCommands
import Mathlib.Tactic

/-!
# Corridor plans

`Coordinator._compute_corridor_plan` over the roads of the topology, in exact
arithmetic.  The offset of an intersection is the travel time from the start of
the corridor, truncated to whole seconds and reduced to one cycle; the distance
is accumulated before it is rounded, so the plan stays within a second of the
vehicle along the whole corridor.
-/

namespace Semaforo

structure PlannedIntersection where
  intersectionId : String
  offsetS : ℤ
  cycleLengthS : ℤ
  deriving DecidableEq, Repr

structure CorridorData where
  corridorId : String
  name : String
  designSpeedKmh : ℚ
  intersections : List PlannedIntersection
  deriving DecidableEq, Repr

structure TimingPlan where
  planId : String
  timestamp : ℤ
  zoneId : String
  cycleLengthS : ℤ
  corridors : List CorridorData
  source : String
  deriving DecidableEq, Repr

namespace CorridorPlan

/-- `DEFAULT_CYCLE_LENGTH_S`. -/
def cycleLengthS : ℤ := 90

/-- `DEFAULT_DESIGN_SPEED_KMH`. -/
def designSpeedKmh : ℚ := 50

/-- `design_speed_ms`. -/
def designSpeedMs : ℚ := designSpeedKmh / (36 / 10)

def offsetS (cumulativeDistance : ℚ) : ℤ :=
  if 0 < designSpeedMs then pyInt (cumulativeDistance / designSpeedMs) else 0

/-- The loop over the corridor behind `previous`. -/
def planLoop (roads : RoadNetwork) :
    Option String → ℚ → List String → List PlannedIntersection
  | _, _, [] => []
  | previous, cumulativeDistance, intersection :: corridor =>
      let cumulativeDistance :=
        match previous with
        | some source =>
            cumulativeDistance + getEdgeDistance roads source intersection
        | none => cumulativeDistance
      { intersectionId := intersection
        offsetS := offsetS cumulativeDistance % cycleLengthS
        cycleLengthS := cycleLengthS } ::
        planLoop roads (some intersection) cumulativeDistance corridor

/-- The clock is read twice. -/
def computeCorridorPlan (roads : RoadNetwork) (clock : ℕ → ℚ)
    (corridor : List String) : Option TimingPlan :=
  if corridor.length < 2 then none
  else
    let first := corridor.headD ""
    let last := corridor.getLastD ""
    some
      { planId := "plan-" ++ toString (pyInt (clock 0))
        timestamp := pyInt (clock 1 * 1000)
        zoneId := "zone-default"
        cycleLengthS := cycleLengthS
        corridors :=
          [{ corridorId := "corridor-" ++ first ++ "-" ++ last
             name := "Corridor " ++ first ++ " to " ++ last
             designSpeedKmh := designSpeedKmh
             intersections := planLoop roads none 0 corridor }]
        source := "coordinator" }

/-! ## The vehicle -/

/-- The length of the first `i` hops of a corridor. -/
def travelledDistance (roads : RoadNetwork) (corridor : List String)
    (i : ℕ) : ℚ :=
  (((corridor.zip corridor.tail).take i).map fun hop =>
    getEdgeDistance roads hop.1 hop.2).sum

/-- When a vehicle at the design speed is at the `i`-th intersection. -/
def arrivalTime (roads : RoadNetwork) (corridor : List String) (i : ℕ) : ℚ :=
  travelledDistance roads corridor i / designSpeedMs

/-- The corridor is a path along roads of no negative length. -/
def RoadPath (roads : RoadNetwork) (corridor : List String) : Prop :=
  corridor.IsChain fun source target =>
    ∃ road, roads source target = some road ∧ 0 ≤ road.distanceM

theorem designSpeedMs_pos : 0 < designSpeedMs := by
  norm_num [designSpeedMs, designSpeedKmh]

theorem offsetS_eq_floor {distance : ℚ} (h : 0 ≤ distance) :
    offsetS distance = ⌊distance / designSpeedMs⌋ := by
  unfold offsetS pyInt
  rw [if_pos designSpeedMs_pos,
    if_pos (div_nonneg h designSpeedMs_pos.le)]

theorem planLoop_ids (roads : RoadNetwork) (previous : Option String)
    (distance : ℚ) (corridor : List String) :
    (planLoop roads previous distance corridor).map
      PlannedIntersection.intersectionId = corridor := by
  induction corridor generalizing previous distance with
  | nil => rfl
  | cons intersection corridor ih =>
      unfold planLoop
      rw [List.map_cons, ih]

/-- The entry of an intersection behind `previous`. -/
theorem planLoop_getElem (roads : RoadNetwork) (corridor : List String) :
    ∀ (previous : String) (distance : ℚ) (i : ℕ) (hi : i < corridor.length),
      (planLoop roads (some previous) distance corridor)[i]? =
        some
          { intersectionId := corridor[i]
            offsetS := offsetS (distance +
              travelledDistance roads (previous :: corridor) (i + 1)) %
                cycleLengthS
            cycleLengthS := cycleLengthS } := by
  induction corridor with
  | nil =>
      intro previous distance i hi
      exact absurd hi (Nat.not_lt_zero i)
  | cons intersection corridor ih =>
      intro previous distance i hi
      unfold planLoop
      dsimp only
      cases i with
      | zero => simp [travelledDistance]
      | succ i =>
          rw [List.getElem?_cons_succ,
            ih intersection _ i (Nat.lt_of_succ_lt_succ hi)]
          have hsum : distance +
              travelledDistance roads (previous :: intersection :: corridor)
                (i + 1 + 1) =
              distance + getEdgeDistance roads previous intersection +
                travelledDistance roads (intersection :: corridor) (i + 1) := by
            simp [travelledDistance, add_assoc]
          rw [hsum]
          rfl

theorem planned_entry (roads : RoadNetwork) (corridor : List String) (i : ℕ)
    (hi : i < corridor.length) :
    (planLoop roads none 0 corridor)[i]? =
      some
        { intersectionId := corridor[i]
          offsetS := offsetS (travelledDistance roads corridor i) %
            cycleLengthS
          cycleLengthS := cycleLengthS } := by
  cases corridor with
  | nil => exact absurd hi (Nat.not_lt_zero i)
  | cons first corridor =>
      unfold planLoop
      dsimp only
      cases i with
      | zero => simp [travelledDistance]
      | succ i =>
          rw [List.getElem?_cons_succ, planLoop_getElem roads corridor first 0 i
            (Nat.lt_of_succ_lt_succ hi), zero_add]
          rfl

theorem travelledDistance_nonneg {roads : RoadNetwork} {corridor : List String}
    (hpath : RoadPath roads corridor) (i : ℕ) :
    0 ≤ travelledDistance roads corridor i := by
  have hhops : ∀ hop ∈ corridor.zip corridor.tail,
      0 ≤ getEdgeDistance roads hop.1 hop.2 := by
    induction corridor with
    | nil =>
        intro hop hhop
        cases hhop
    | cons first corridor ih =>
        cases corridor with
        | nil =>
            intro hop hhop
            cases hhop
        | cons second corridor =>
            obtain ⟨⟨road, hroad, hdistance⟩, hrest⟩ :=
              List.isChain_cons_cons.mp hpath
            intro hop hhop
            rcases List.mem_cons.mp hhop with rfl | hmem
            · unfold getEdgeDistance
              rw [hroad]
              exact hdistance
            · exact ih hrest hop hmem
  unfold travelledDistance
  apply List.sum_nonneg
  intro x hx
  obtain ⟨hop, hhop, rfl⟩ := List.mem_map.mp hx
  exact hhops hop (List.mem_of_mem_take hhop)

/-- A time is less than one second behind its whole seconds, which are some
cycles and the remainder. -/
theorem within_a_second {t : ℚ} (ht : 0 ≤ t) :
    ∃ cycle : ℕ,
      0 ≤ t - (cycle * cycleLengthS + ⌊t⌋ % cycleLengthS : ℤ) ∧
      t - (cycle * cycleLengthS + ⌊t⌋ % cycleLengthS : ℤ) < 1 := by
  have hfloor : 0 ≤ ⌊t⌋ := Int.floor_nonneg.mpr ht
  refine ⟨(⌊t⌋ / cycleLengthS).toNat, ?_⟩
  have hcycles : ((⌊t⌋ / cycleLengthS).toNat : ℤ) * cycleLengthS +
      ⌊t⌋ % cycleLengthS = ⌊t⌋ := by
    rw [Int.toNat_of_nonneg (Int.ediv_nonneg hfloor (by decide)), mul_comm]
    exact Int.mul_ediv_add_emod ⌊t⌋ cycleLengthS
  rw [hcycles, Int.self_sub_floor]
  exact ⟨Int.fract_nonneg t, Int.fract_lt_one t⟩

/-- The plan of a corridor lists its intersections in order.  A vehicle that
starts with the cycle and keeps the design speed reaches each of them less than
a second after its offset in some cycle, however long the corridor is. -/
theorem offsets_do_not_drift (roads : RoadNetwork) (clock : ℕ → ℚ)
    (corridor : List String) (hlength : 2 ≤ corridor.length)
    (hpath : RoadPath roads corridor) :
    ∃ plan data,
      computeCorridorPlan roads clock corridor = some plan ∧
      plan.cycleLengthS = 90 ∧ plan.corridors = [data] ∧
      data.intersections.map PlannedIntersection.intersectionId = corridor ∧
      ∀ i < corridor.length, ∃ entry,
        data.intersections[i]? = some entry ∧
        0 ≤ entry.offsetS ∧ entry.offsetS < 90 ∧ entry.cycleLengthS = 90 ∧
        ∃ cycle : ℕ,
          0 ≤ arrivalTime roads corridor i -
            (cycle * 90 + entry.offsetS : ℤ) ∧
          arrivalTime roads corridor i -
            (cycle * 90 + entry.offsetS : ℤ) < 1 := by
  refine ⟨_, _, if_neg (by omega), rfl, rfl, planLoop_ids roads none 0 corridor,
    ?_⟩
  intro i hi
  have hdistance := travelledDistance_nonneg hpath i
  have hoffset := offsetS_eq_floor hdistance
  refine ⟨_, planned_entry roads corridor i hi,
    Int.emod_nonneg _ (by decide), Int.emod_lt_of_pos _ (by decide), rfl, ?_⟩
  rw [hoffset]
  exact within_a_second (div_nonneg hdistance designSpeedMs_pos.le)

/-- Two hops of a kilometre each. -/
def threeInARow : RoadNetwork := fun _ _ => some ⟨1000, 50⟩

theorem threeInARow_offsets :
    ∃ plan data,
      computeCorridorPlan threeInARow (fun _ => 0) ["A", "B", "C"] =
        some plan ∧
      plan.cycleLengthS = 90 ∧ plan.corridors = [data] ∧
      data.intersections.map PlannedIntersection.intersectionId =
        ["A", "B", "C"] ∧
      ∀ i < ["A", "B", "C"].length, ∃ entry,
        data.intersections[i]? = some entry ∧
        0 ≤ entry.offsetS ∧ entry.offsetS < 90 ∧ entry.cycleLengthS = 90 ∧
        ∃ cycle : ℕ,
          0 ≤ arrivalTime threeInARow ["A", "B", "C"] i -
            (cycle * 90 + entry.offsetS : ℤ) ∧
          arrivalTime threeInARow ["A", "B", "C"] i -
            (cycle * 90 + entry.offsetS : ℤ) < 1 :=
  offsets_do_not_drift threeInARow (fun _ => 0) ["A", "B", "C"] (by decide) (by
    unfold RoadPath threeInARow
    simp)

end CorridorPlan

end Semaforo
