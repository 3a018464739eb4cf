import Semaforo.Phase
import Semaforo.SafetyLayer
import Mathlib.Tactic

/-!
# The local policy

Without a directive the node asks `PolicyEngine::decide`.  A loaded actor
network scores its actions, and the index of the best score is cast to a phase;
without a network, or when it throws, the densest lane decides.  The network is
a parameter: a function of the encoded queue state that may fail.
-/

namespace Semaforo

structure LaneQueueState where
  laneId : String
  count : ℤ
  density : FloatValue ℚ
  avgWaitS : FloatValue ℚ
  deriving DecidableEq, Repr

structure QueueState where
  lanes : List LaneQueueState
  totalCount : ℤ
  maxWaitS : FloatValue ℚ
  deriving DecidableEq, Repr

def phaseEnumerators : List Phase :=
  [.allRed, .greenNS, .yellowNS, .greenEW, .yellowEW, .greenNSLeft,
    .greenEWLeft, .flashYellowNS, .flashYellowEW, .flashAllRed]

/-- `static_cast<Phase>(i)`; the default is never read, as the actions are
fewer than the enumerators. -/
def phaseOfIndex (i : ℕ) : Phase := phaseEnumerators.getD i .allRed

namespace PolicyEngine

def maxActions : ℕ := 4

/-- The loop over the Q-values from index `i` on; a value replaces the best so
far only if it is greater. -/
def scanActions : ℕ → ℕ × FloatValue ℚ → List (FloatValue ℚ) → ℕ
  | _, best, [] => best.1
  | i, best, q :: qValues =>
      if i < maxActions then
        scanActions (i + 1) (if best.2 < q then (i, q) else best) qValues
      else best.1

def bestAction : List (FloatValue ℚ) → ℕ
  | [] => 0
  | q :: qValues => scanActions 1 (0, q) qValues

def encodeState (state : QueueState) : List (FloatValue ℚ) :=
  state.lanes.flatMap
      (fun lane => [.fin lane.count, lane.density, lane.avgWaitS]) ++
    [.fin state.totalCount, state.maxWaitS]

/-- `text.find(pattern) != npos`. -/
def contains (text pattern : String) : Bool :=
  text.toList.tails.any pattern.toList.isPrefixOf

def lanePhase (laneId : String) : Option Phase :=
  if contains laneId "NS" then
    if contains laneId "left" then some .greenNSLeft else some .greenNS
  else if contains laneId "EW" then
    if contains laneId "left" then some .greenEWLeft else some .greenEW
  else none

/-- The body of the loop over the lanes: a denser lane sets the best density,
and also the best phase if its direction is recognised. -/
def considerLane (best : Phase × FloatValue ℚ) (lane : LaneQueueState) :
    Phase × FloatValue ℚ :=
  if best.2 < lane.density then
    ((lanePhase lane.laneId).getD best.1, lane.density)
  else best

def fallbackDecide (state : QueueState) : Phase :=
  (state.lanes.foldl considerLane (.greenNS, .fin (-1))).1

/-- The actor network, if one is loaded: the Q-values it answers with, or
`none` for an exception. -/
abbrev Model := Option (List (FloatValue ℚ) → Option (List (FloatValue ℚ)))

def decide (model : Model) (state : QueueState) : Phase :=
  match model with
  | none => fallbackDecide state
  | some actor =>
      match actor (encodeState state) with
      | none => fallbackDecide state
      | some qValues => phaseOfIndex (bestAction qValues)

/-! ## The lanes it recognises -/

theorem contains_iff (text pattern : String) :
    contains text pattern = true ↔ pattern.toList <:+: text.toList := by
  rw [contains, List.any_eq_true, List.infix_iff_prefix_suffix]
  constructor
  · rintro ⟨rest, hrest, hprefix⟩
    exact ⟨rest, List.isPrefixOf_iff_prefix.mp hprefix, (List.mem_tails _ _).mp hrest⟩
  · rintro ⟨rest, hprefix, hsuffix⟩
    exact ⟨rest, (List.mem_tails _ _).mpr hsuffix,
      List.isPrefixOf_iff_prefix.mpr hprefix⟩

/-- A lane is recognised exactly if its id contains `NS` or `EW`. -/
theorem lanePhase_isSome_iff (laneId : String) :
    (lanePhase laneId).isSome ↔
      "NS".toList <:+: laneId.toList ∨ "EW".toList <:+: laneId.toList := by
  rw [← contains_iff, ← contains_iff]
  unfold lanePhase
  generalize contains laneId "NS" = ns, contains laneId "EW" = ew,
    contains laneId "left" = left
  cases ns <;> cases ew <;> cases left <;> simp

/-- The green of a lane is on the axis that its id names, `NS` before `EW`, and
the left-turn green exactly if the id contains `left`. -/
theorem lanePhase_eq_some_iff (laneId : String) (phase : Phase) :
    lanePhase laneId = some phase ↔
      "NS".toList <:+: laneId.toList ∧
          (phase = .greenNSLeft ∧ "left".toList <:+: laneId.toList ∨
            phase = .greenNS ∧ ¬ "left".toList <:+: laneId.toList) ∨
        ¬ "NS".toList <:+: laneId.toList ∧ "EW".toList <:+: laneId.toList ∧
          (phase = .greenEWLeft ∧ "left".toList <:+: laneId.toList ∨
            phase = .greenEW ∧ ¬ "left".toList <:+: laneId.toList) := by
  rw [← contains_iff, ← contains_iff, ← contains_iff]
  unfold lanePhase
  generalize contains laneId "NS" = ns, contains laneId "EW" = ew,
    contains laneId "left" = left
  cases ns <;> cases ew <;> cases left <;> simp [eq_comm]

end PolicyEngine

end Semaforo
