import Semaforo.QueueEstimator
import Mathlib.Tactic

/-!
# Lane membership and the vehicle count

`point_in_polygon` is the parity of the edges that cross a ray, so membership is
additive along a chord of the polygon.  The total of the queue estimator counts
a vehicle once for every lane it is in.
-/

namespace Semaforo

namespace QueueEstimator

open CyclicParity

/-! ## Cut polygons -/

section Exact

variable {α : Type} [Field α] [LinearOrder α]

/-- The edge from `vj` to `vi` crosses the ray. -/
def edgeTest (point : Point2f α) (vj vi : Point2f α) : Bool :=
  crosses point vi vj

theorem crosses_comm (point vi vj : Point2f α) :
    crosses point vi vj = crosses point vj vi := by
  unfold crosses
  by_cases hstraddle :
      (decide (point.y < vi.y) != decide (point.y < vj.y)) = true
  · have hne : vi.y ≠ vj.y := by
      intro heq
      rw [heq, bne_self_eq_false] at hstraddle
      cases hstraddle
    have hij : vj.y - vi.y ≠ 0 := sub_ne_zero.mpr hne.symm
    have hji : vi.y - vj.y ≠ 0 := sub_ne_zero.mpr hne
    have hline :
        (vj.x - vi.x) * (point.y - vi.y) / (vj.y - vi.y) + vi.x =
          (vi.x - vj.x) * (point.y - vj.y) / (vi.y - vj.y) + vj.x := by
      field_simp
      ring
    rw [hline, bne_comm]
  · have hflat : (decide (point.y < vi.y) != decide (point.y < vj.y)) =
        false := Bool.not_eq_true _ ▸ hstraddle
    rw [bne_comm (a := decide (point.y < vj.y)), hflat, Bool.false_and,
      Bool.false_and]

theorem edgeTest_comm (point vi vj : Point2f α) :
    edgeTest point vi vj = edgeTest point vj vi :=
  crosses_comm point vj vi

theorem castRay_foldl (point : Point2f α) :
    ∀ (vertices : List (Point2f α)) (inside : Bool) (vj : Point2f α),
      (vertices.foldl (castRay point) (inside, vj)).1 =
        (inside ^^ pathParity (edgeTest point) vj vertices) := by
  intro vertices
  induction vertices with
  | nil =>
      intro inside vj
      exact (Bool.xor_false inside).symm
  | cons vi rest ih =>
      intro inside vj
      rw [List.foldl_cons]
      change (rest.foldl (castRay point)
        (if crosses point vi vj then !inside else inside, vi)).1 = _
      rw [ih]
      change _ = (inside ^^ (crosses point vi vj ^^ _))
      rw [← Bool.xor_assoc]
      cases crosses point vi vj <;> simp

theorem pointInPolygon_eq_cycleParity (point : Point2f α)
    (polygon : List (Point2f α)) :
    pointInPolygon point polygon = cycleParity (edgeTest point) polygon := by
  unfold pointInPolygon cycleParity
  cases polygon.getLast? with
  | none => rfl
  | some last =>
      dsimp only
      rw [castRay_foldl, Bool.false_xor]

theorem pointInPolygon_chord (point : Point2f α) (polygon : List (Point2f α))
    {i j : ℕ} (hij : i < j) (hj : j < polygon.length) :
    pointInPolygon point polygon =
      (pointInPolygon point (chordInner i j polygon) ^^
        pointInPolygon point (chordOuter i j polygon)) := by
  simp only [pointInPolygon_eq_cycleParity]
  exact cycleParity_chord (edgeTest_comm point) polygon hij hj

/-- The two lanes a chord cuts out of a region. -/
def cutLanes (polygon : List (Point2f α)) (i j : ℕ)
    (inner outer : LaneRegion α) : LaneConfig α where
  lanes := [{ inner with polygon := chordInner i j polygon },
    { outer with polygon := chordOuter i j polygon }]

/-- Ray casting is additive along chords and sees neither the first vertex nor
the orientation of a polygon, whence a vehicle in a region that is cut in two
is counted in exactly one of the lanes. -/
theorem pointInPolygon_additive (polygon : List (Point2f α)) :
    (∀ (point : Point2f α) (i j : ℕ), i < j → j < polygon.length →
      pointInPolygon point polygon =
        (pointInPolygon point (chordInner i j polygon) ^^
          pointInPolygon point (chordOuter i j polygon))) ∧
    (∀ (point : Point2f α) (n : ℕ),
      pointInPolygon point (polygon.rotate n) =
        pointInPolygon point polygon) ∧
    (∀ point : Point2f α,
      pointInPolygon point polygon.reverse = pointInPolygon point polygon) ∧
    ∀ (i j : ℕ) (inner outer : LaneRegion α) (m : FloatMath α)
      (stoppedThreshold : α) (now : ℕ → ℕ → ℤ)
      (trackedObjects : List (TrackedObject α)) (obj : TrackedObject α),
      i < j → j < polygon.length →
      pointInPolygon (bboxCenter obj.detection.bbox) polygon = true →
      let counts := fun objects =>
        (estimate m stoppedThreshold now objects
          (cutLanes polygon i j inner outer)).lanes.map LaneQueueState.count
      ∃ first second : ℤ, counts trackedObjects = [first, second] ∧
        (counts (obj :: trackedObjects) = [first + 1, second] ∨
          counts (obj :: trackedObjects) = [first, second + 1]) := by
  refine ⟨fun point i j hij hj => pointInPolygon_chord point polygon hij hj,
    ?_, ?_, ?_⟩
  · intro point n
    simp only [pointInPolygon_eq_cycleParity]
    exact cycleParity_rotate _ polygon n
  · intro point
    simp only [pointInPolygon_eq_cycleParity]
    exact cycleParity_reverse (edgeTest_comm point) polygon
  · intro i j inner outer m stoppedThreshold now trackedObjects obj hij hj
      hregion counts
    have hcut := pointInPolygon_chord (bboxCenter obj.detection.bbox) polygon
      hij hj
    rw [hregion] at hcut
    have hcounts : ∀ objects, counts objects =
        [(objects.countP (inLane
            { inner with polygon := chordInner i j polygon }) : ℤ),
          (objects.countP (inLane
            { outer with polygon := chordOuter i j polygon }) : ℤ)] :=
      fun objects => estimate_counts m stoppedThreshold now objects _
    refine ⟨_, _, hcounts trackedObjects, ?_⟩
    rw [hcounts (obj :: trackedObjects), List.countP_cons, List.countP_cons]
    unfold inLane
    cases hinner : pointInPolygon (bboxCenter obj.detection.bbox)
        (chordInner i j polygon) with
    | true =>
        rw [hinner] at hcut
        have houter : pointInPolygon (bboxCenter obj.detection.bbox)
            (chordOuter i j polygon) = false := by
          simpa using hcut
        left
        simp [houter]
    | false =>
        rw [hinner] at hcut
        have houter : pointInPolygon (bboxCenter obj.detection.bbox)
            (chordOuter i j polygon) = true := by
          simpa using hcut
        right
        simp [houter]

end Exact

/-! ## The total -/

section Total

variable {α : Type} [IntCast α] [Add α] [Sub α] [Mul α] [Div α] [LT α]
variable [DecidableLT α]

def inSomeLane (laneConfig : LaneConfig α) (obj : TrackedObject α) : Bool :=
  laneConfig.lanes.any fun lane => inLane lane obj

theorem countP_eq_sum_map {ι : Type} (p : ι → Bool) (items : List ι) :
    items.countP p = (items.map fun x => if p x then 1 else 0).sum := by
  induction items with
  | nil => rfl
  | cons x rest ih =>
      rw [List.countP_cons, List.map_cons, List.sum_cons, ih, add_comm]

theorem sum_countP_comm {ι κ : Type} (p : ι → κ → Bool) (rows : List ι)
    (columns : List κ) :
    (rows.map fun i => columns.countP (p i)).sum =
      (columns.map fun k => rows.countP fun i => p i k).sum := by
  induction columns with
  | nil => simp
  | cons k columns ih =>
      simp only [List.countP_cons, List.sum_map_add, List.map_cons,
        List.sum_cons, ih]
      rw [countP_eq_sum_map (fun i => p i k) rows, add_comm]

theorem sum_map_eq_iff {ι : Type} {f g : ι → ℕ} (hle : ∀ x, g x ≤ f x)
    (items : List ι) :
    (items.map f).sum = (items.map g).sum ↔ ∀ x ∈ items, f x = g x := by
  have hsum : ∀ rest : List ι, (rest.map g).sum ≤ (rest.map f).sum :=
    fun rest => List.sum_le_sum fun x _ => hle x
  induction items with
  | nil => simp
  | cons x rest ih =>
      have hhead := hle x
      have htail := hsum rest
      rw [List.map_cons, List.map_cons, List.sum_cons, List.sum_cons,
        List.forall_mem_cons]
      constructor
      · intro heq
        exact ⟨by omega, ih.mp (by omega)⟩
      · intro hall
        have hrest := ih.mpr hall.2
        omega

theorem countP_eq_any_iff {ι : Type} (p : ι → Bool) (items : List ι) :
    items.countP p = (if items.any p then 1 else 0) ↔
      items.Pairwise fun a b => ¬ (p a = true ∧ p b = true) := by
  induction items with
  | nil => simp
  | cons x rest ih =>
      rw [List.countP_cons, List.any_cons, List.pairwise_cons, ← ih]
      cases hx : p x with
      | false => simp
      | true =>
          have hnone : rest.countP p = 0 ↔ ∀ y ∈ rest, ¬ p y = true :=
            List.countP_eq_zero
          simp only [true_and, Bool.true_or, if_true, add_eq_right]
          rw [hnone]
          constructor
          · intro hy
            refine ⟨hy, ?_⟩
            have hany : rest.any p = false := by
              rw [List.any_eq_false]
              exact hy
            rw [hnone.mpr hy, hany]
            rfl
          · intro hboth
            exact hboth.1

theorem countP_any_le {ι : Type} (p : ι → Bool) (items : List ι) :
    (if items.any p then 1 else 0) ≤ items.countP p := by
  split_ifs with hany
  · obtain ⟨x, hx, hp⟩ := List.any_eq_true.mp hany
    exact List.countP_pos_iff.mpr ⟨x, hx, hp⟩
  · exact Nat.zero_le _

/-- The total is the number of vehicles in the lanes exactly if no vehicle is
in two of them. -/
theorem totalCount_eq_iff (m : FloatMath α) (stoppedThreshold : α)
    (now : ℕ → ℕ → ℤ) (trackedObjects : List (TrackedObject α))
    (laneConfig : LaneConfig α) :
    let state := estimate m stoppedThreshold now trackedObjects laneConfig
    (state.totalCount = trackedObjects.countP (inSomeLane laneConfig) ∧
      state.totalCount ≤ trackedObjects.length) ↔
      ∀ obj ∈ trackedObjects, laneConfig.lanes.Pairwise fun a b =>
        ¬ (inLane a obj = true ∧ inLane b obj = true) := by
  intro state
  have htotal : state.totalCount = ((trackedObjects.map fun obj =>
      laneConfig.lanes.countP fun lane => inLane lane obj).sum : ℕ) := by
    rw [← sum_countP_comm]
    exact estimate_totalCount m stoppedThreshold now trackedObjects laneConfig
  have hvehicles : trackedObjects.countP (inSomeLane laneConfig) =
      (trackedObjects.map fun obj =>
        if laneConfig.lanes.any fun lane => inLane lane obj then 1 else 0).sum :=
    countP_eq_sum_map (inSomeLane laneConfig) trackedObjects
  have hiff : state.totalCount =
      trackedObjects.countP (inSomeLane laneConfig) ↔
      ∀ obj ∈ trackedObjects, laneConfig.lanes.Pairwise fun a b =>
        ¬ (inLane a obj = true ∧ inLane b obj = true) := by
    rw [htotal, hvehicles, Nat.cast_inj,
      sum_map_eq_iff fun obj => countP_any_le _ laneConfig.lanes]
    constructor
    · intro hall obj hobj
      exact (countP_eq_any_iff _ laneConfig.lanes).mp (hall obj hobj)
    · intro hall obj hobj
      exact (countP_eq_any_iff _ laneConfig.lanes).mpr (hall obj hobj)
  constructor
  · intro hboth
    exact hiff.mp hboth.1
  · intro hall
    have heq := hiff.mpr hall
    refine ⟨heq, ?_⟩
    rw [heq]
    exact_mod_cast List.countP_le_length

end Total

/-! ## The shipped lanes -/

/-- The lanes of `node_config.yaml`. -/
def nodeConfigLanes : LaneConfig ℚ where
  lanes :=
    [{ laneId := "NS_lane_1", direction := "NS"
       polygon := [⟨320, 100⟩, ⟨400, 100⟩, ⟨450, 480⟩, ⟨270, 480⟩] },
     { laneId := "NS_lane_2", direction := "NS"
       polygon := [⟨400, 100⟩, ⟨480, 100⟩, ⟨530, 480⟩, ⟨350, 480⟩] },
     { laneId := "EW_lane_1", direction := "EW"
       polygon := [⟨50, 200⟩, ⟨280, 200⟩, ⟨280, 280⟩, ⟨50, 280⟩] },
     { laneId := "EW_lane_2", direction := "EW"
       polygon := [⟨360, 200⟩, ⟨590, 200⟩, ⟨590, 280⟩, ⟨360, 280⟩] },
     { laneId := "NS_left_1", direction := "NS_left"
       polygon := [⟨240, 100⟩, ⟨320, 100⟩, ⟨270, 480⟩, ⟨190, 480⟩] },
     { laneId := "EW_left_1", direction := "EW_left"
       polygon := [⟨50, 280⟩, ⟨280, 280⟩, ⟨280, 360⟩, ⟨50, 360⟩] }]

/-- A car between the two north-south lanes, standing still. -/
def carOnTheLine : TrackedObject ℚ where
  trackId := 1
  detection :=
    { bbox := ⟨360, 370, 80, 60⟩
      classId := 2
      confidence := 9 / 10 }
  age := 10
  framesSinceSeen := 0
  velocityX := 0
  velocityY := 0
  firstSeen := 0
  lastSeen := 0

def exactMath : FloatMath ℚ where
  sqrt x := mkRat (Nat.sqrt (x.num.toNat * x.den)) x.den
  seconds ns := mkRat ns (10 ^ 9)
  value := .fin

theorem one_car_counted_twice :
    let state := estimate exactMath 2 (fun _ _ => 0) [carOnTheLine]
      nodeConfigLanes
    state.totalCount = 2 ∧
      [carOnTheLine].countP (inSomeLane nodeConfigLanes) = 1 ∧
      ¬ state.totalCount ≤ [carOnTheLine].length := by
  decide +kernel

end QueueEstimator

end Semaforo
