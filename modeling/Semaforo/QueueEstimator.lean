import Semaforo.CyclicParity
import Semaforo.TelemetryEncoding
import Semaforo.Tracker
import Mathlib.Tactic

/-!
# `QueueEstimator::estimate`

Every lane of the configuration counts the tracked objects whose box centre is
in its polygon, and the counts are added up.  Boxes are over any arithmetic, and
the clock is read anew for every stopped vehicle.
-/

namespace Semaforo

structure Point2f (α : Type) where
  x : α
  y : α
  deriving DecidableEq, Repr

structure LaneRegion (α : Type) where
  laneId : String
  polygon : List (Point2f α)
  direction : String
  deriving DecidableEq, Repr

structure LaneConfig (α : Type) where
  lanes : List (LaneRegion α)
  deriving DecidableEq, Repr

/-- `std::sqrt`, `duration<float>::count` and the value of a `float`. -/
structure FloatMath (α : Type) where
  sqrt : α → α
  seconds : ℤ → α
  value : α → FloatValue ℚ

namespace QueueEstimator

section Estimate

variable {α : Type} [IntCast α] [Add α] [Sub α] [Mul α] [Div α] [LT α]
variable [DecidableLT α]

/-- The test of the loop for `polygon[i]` and `polygon[j]`. -/
def crosses (point : Point2f α) (vi vj : Point2f α) : Bool :=
  (decide (point.y < vi.y) != decide (point.y < vj.y)) &&
    decide (point.x < (vj.x - vi.x) * (point.y - vi.y) / (vj.y - vi.y) + vi.x)

/-- `inside` and `polygon[j]` after one round. -/
def castRay (point : Point2f α) (loop : Bool × Point2f α)
    (vi : Point2f α) : Bool × Point2f α :=
  (if crosses point vi loop.2 then !loop.1 else loop.1, vi)

def pointInPolygon (point : Point2f α) (polygon : List (Point2f α)) : Bool :=
  match polygon.getLast? with
  | none => false
  | some last => (polygon.foldl (castRay point) (false, last)).1

def bboxCenter (bbox : BBox α) : Point2f α where
  x := bbox.x + bbox.width / ((2 : ℤ) : α)
  y := bbox.y + bbox.height / ((2 : ℤ) : α)

def inLane (lane : LaneRegion α) (obj : TrackedObject α) : Bool :=
  pointInPolygon (bboxCenter obj.detection.bbox) lane.polygon

def velocity (m : FloatMath α) (obj : TrackedObject α) : α :=
  m.sqrt (obj.velocityX * obj.velocityX + obj.velocityY * obj.velocityY)

/-- `count` and `wait_times` after one object; `now` is what the clock says if
the object is stopped. -/
def measureObject (m : FloatMath α) (stoppedThreshold : α)
    (lane : LaneRegion α) (now : ℕ → ℤ) (measured : ℤ × List α)
    (object : TrackedObject α × ℕ) : ℤ × List α :=
  if inLane lane object.1 then
    if velocity m object.1 < stoppedThreshold then
      (measured.1 + 1,
        measured.2 ++ [m.seconds (now object.2 - object.1.firstSeen)])
    else (measured.1 + 1, measured.2)
  else measured

def maxVehiclesPerLane : ℤ := 15

def clamp (x lo hi : α) : α := if x < lo then lo else if hi < x then hi else x

def averageWait (waitTimes : List α) : α :=
  if waitTimes.isEmpty then ((0 : ℤ) : α)
  else waitTimes.foldl (· + ·) ((0 : ℤ) : α) / ((waitTimes.length : ℤ) : α)

def measureLane (m : FloatMath α) (stoppedThreshold : α) (now : ℕ → ℤ)
    (trackedObjects : List (TrackedObject α)) (lane : LaneRegion α) :
    LaneQueueState :=
  let measured := trackedObjects.zipIdx.foldl
    (measureObject m stoppedThreshold lane now) (0, [])
  { laneId := lane.laneId
    count := measured.1
    density := m.value (clamp ((measured.1 : α) / (maxVehiclesPerLane : α))
      ((0 : ℤ) : α) ((1 : ℤ) : α))
    avgWaitS := m.value (averageWait measured.2) }

/-- One round of the loop over the lanes. -/
def addLane (state : QueueReport) (laneState : LaneQueueState) : QueueReport where
  lanes := state.lanes ++ [laneState]
  totalCount := state.totalCount + laneState.count
  maxDensity := stdMax state.maxDensity laneState.density
  maxWaitS := stdMax state.maxWaitS laneState.avgWaitS

def clearedState : QueueReport where
  lanes := []
  totalCount := 0
  maxDensity := .fin 0
  maxWaitS := .fin 0

/-- `now` is the clock at the object of the second index in the lane of the
first. -/
def estimate (m : FloatMath α) (stoppedThreshold : α) (now : ℕ → ℕ → ℤ)
    (trackedObjects : List (TrackedObject α)) (laneConfig : LaneConfig α) :
    QueueReport :=
  laneConfig.lanes.zipIdx.foldl
    (fun state lane =>
      addLane state
        (measureLane m stoppedThreshold (now lane.2) trackedObjects lane.1))
    clearedState

/-! ## The counts -/

theorem measureObject_fst (m : FloatMath α) (stoppedThreshold : α)
    (lane : LaneRegion α) (now : ℕ → ℤ) (measured : ℤ × List α)
    (object : TrackedObject α × ℕ) :
    (measureObject m stoppedThreshold lane now measured object).1 =
      measured.1 + if inLane lane object.1 then 1 else 0 := by
  unfold measureObject
  split_ifs <;> simp

theorem measure_count (m : FloatMath α) (stoppedThreshold : α)
    (lane : LaneRegion α) (now : ℕ → ℤ) :
    ∀ (trackedObjects : List (TrackedObject α)) (k : ℕ)
      (measured : ℤ × List α),
      ((trackedObjects.zipIdx k).foldl
        (measureObject m stoppedThreshold lane now) measured).1 =
        measured.1 + trackedObjects.countP (inLane lane) := by
  intro trackedObjects
  induction trackedObjects with
  | nil =>
      intro k measured
      simp
  | cons obj rest ih =>
      intro k measured
      rw [List.zipIdx_cons, List.foldl_cons, ih, measureObject_fst,
        List.countP_cons]
      push_cast
      ring

theorem measureLane_count (m : FloatMath α) (stoppedThreshold : α)
    (now : ℕ → ℤ) (trackedObjects : List (TrackedObject α))
    (lane : LaneRegion α) :
    (measureLane m stoppedThreshold now trackedObjects lane).count =
      trackedObjects.countP (inLane lane) := by
  change (trackedObjects.zipIdx.foldl
    (measureObject m stoppedThreshold lane now) (0, [])).1 = _
  rw [measure_count, zero_add]

theorem lanes_loop (m : FloatMath α) (stoppedThreshold : α) (now : ℕ → ℕ → ℤ)
    (trackedObjects : List (TrackedObject α)) :
    ∀ (lanes : List (LaneRegion α)) (k : ℕ) (state : QueueReport),
      let after := (lanes.zipIdx k).foldl
        (fun state lane => addLane state
          (measureLane m stoppedThreshold (now lane.2) trackedObjects lane.1))
        state
      after.totalCount = state.totalCount +
          ((lanes.map fun lane => trackedObjects.countP (inLane lane)).sum : ℕ) ∧
        after.lanes = state.lanes ++ (lanes.zipIdx k).map fun lane =>
          measureLane m stoppedThreshold (now lane.2) trackedObjects lane.1 := by
  intro lanes
  induction lanes with
  | nil =>
      intro k state
      simp
  | cons lane rest ih =>
      intro k state
      dsimp only
      rw [List.zipIdx_cons, List.foldl_cons]
      obtain ⟨htotal, hlanes⟩ := ih (k + 1) (addLane state
        (measureLane m stoppedThreshold (now k) trackedObjects lane))
      constructor
      · rw [htotal]
        change state.totalCount + _ + _ = _
        rw [measureLane_count, List.map_cons, List.sum_cons]
        push_cast
        ring
      · rw [hlanes, List.map_cons]
        change state.lanes ++ [_] ++ _ = _
        rw [List.append_assoc]
        rfl

/-- The total is the sum over the lanes of what each of them counts. -/
theorem estimate_totalCount (m : FloatMath α) (stoppedThreshold : α)
    (now : ℕ → ℕ → ℤ) (trackedObjects : List (TrackedObject α))
    (laneConfig : LaneConfig α) :
    (estimate m stoppedThreshold now trackedObjects laneConfig).totalCount =
      ((laneConfig.lanes.map fun lane =>
        trackedObjects.countP (inLane lane)).sum : ℕ) := by
  have hloop := (lanes_loop m stoppedThreshold now trackedObjects
    laneConfig.lanes 0 clearedState).1
  rw [show clearedState.totalCount = 0 from rfl, zero_add] at hloop
  exact hloop

/-- Every lane is measured by itself. -/
theorem estimate_lanes (m : FloatMath α) (stoppedThreshold : α)
    (now : ℕ → ℕ → ℤ) (trackedObjects : List (TrackedObject α))
    (laneConfig : LaneConfig α) :
    (estimate m stoppedThreshold now trackedObjects laneConfig).lanes =
      laneConfig.lanes.zipIdx.map fun lane =>
        measureLane m stoppedThreshold (now lane.2) trackedObjects lane.1 :=
  (lanes_loop m stoppedThreshold now trackedObjects laneConfig.lanes 0
    clearedState).2

theorem estimate_counts (m : FloatMath α) (stoppedThreshold : α)
    (now : ℕ → ℕ → ℤ) (trackedObjects : List (TrackedObject α))
    (laneConfig : LaneConfig α) :
    (estimate m stoppedThreshold now trackedObjects laneConfig).lanes.map
      LaneQueueState.count =
      laneConfig.lanes.map fun lane =>
        (trackedObjects.countP (inLane lane) : ℤ) := by
  rw [estimate_lanes, List.map_map]
  conv_rhs => rw [← List.zipIdx_map_fst 0 laneConfig.lanes, List.map_map]
  exact List.map_congr_left fun lane _ =>
    measureLane_count m stoppedThreshold (now lane.2) trackedObjects lane.1

end Estimate

end QueueEstimator

end Semaforo
