import Semaforo.CoordinatorCommands
import Semaforo.PolicyEngine
import Mathlib.Tactic

/-!
# The two decoders of the actor

The Brain trains an actor with one score for each axis.  The coordinator reads
its logits through `_PHASE_BY_ACTION`, the node casts the index of the best
score to a phase.  Both loops take the first greatest score; the phases they
give to it are compared here.  The actor is a parameter on both sides, and the
observation has exact entries.
-/

namespace Semaforo

def phaseToString : Phase → String
  | .allRed => "ALL_RED"
  | .greenNS => "GREEN_NS"
  | .yellowNS => "YELLOW_NS"
  | .greenEW => "GREEN_EW"
  | .yellowEW => "YELLOW_EW"
  | .greenNSLeft => "GREEN_NS_LEFT"
  | .greenEWLeft => "GREEN_EW_LEFT"
  | .flashYellowNS => "FLASH_YELLOW_NS"
  | .flashYellowEW => "FLASH_YELLOW_EW"
  | .flashAllRed => "FLASH_ALL_RED"

/-! ## The policy of the coordinator -/

/-- What `_telemetry_to_observation` reads of the telemetry: the vehicle count
after `float(... or 0)`, and the phase if it is a string. -/
structure PolicyTelemetry where
  vehicleCount : FloatValue ℚ
  phase : Option String
  deriving DecidableEq, Repr

namespace AIPolicyWrapper

def obsSize : ℕ := 17

def numLanes : ℚ := 12

def laneCapacityVehicles : ℚ := 20

def divide (x : FloatValue ℚ) (y : ℚ) : FloatValue ℚ :=
  match x with
  | .fin x => .fin (x / y)
  | x => x

/-- `min(1.0, ...)` of Python: the second argument only if it is less. -/
def perDirection (vehicleCount : FloatValue ℚ) : FloatValue ℚ :=
  let share := divide (divide vehicleCount numLanes) laneCapacityVehicles
  if share < .fin 1 then share else .fin 1

/-- `np.clip(x, 0.0, 1.0)`. -/
def clip (x : FloatValue ℚ) : FloatValue ℚ :=
  if x < .fin 0 then .fin 0 else if .fin 1 < x then .fin 1 else x

def telemetryToObservation (telemetry : PolicyTelemetry) :
    List (FloatValue ℚ) :=
  let share := perDirection telemetry.vehicleCount
  let ns : ℚ := if telemetry.phase = some "GREEN_NS" then 1 else 0
  let ew : ℚ := if telemetry.phase = some "GREEN_EW" then 1 else 0
  (List.replicate 4 share ++ List.replicate 4 share ++
    [ns, ew, 0, 0].map FloatValue.fin ++ [FloatValue.fin 0] ++
    List.replicate 4 (FloatValue.fin 0)).map clip

/-- The ONNX session: from a batch of observations to the logits of each, or
`none` for an exception. -/
abbrev Session := List (List (FloatValue ℚ)) → Option (List (List (FloatValue ℚ)))

def infer (session : Session) (obs : List (List (FloatValue ℚ))) :
    Option (List (List (FloatValue ℚ))) :=
  if ∀ row ∈ obs, row.length = obsSize then session obs else none

/-- The loop of `np.argmax` from index `i` on, which stops at a NaN. -/
def argmaxScan : ℕ → ℕ × FloatValue ℚ → List (FloatValue ℚ) → ℕ
  | _, best, [] => best.1
  | i, best, x :: xs =>
      if best.2 = .nan then best.1
      else argmaxScan (i + 1) (if x ≤ best.2 then best else (i, x)) xs

/-- `np.argmax`, which rejects an empty array. -/
def argmax : List (FloatValue ℚ) → Option ℕ
  | [] => none
  | x :: xs => some (argmaxScan 1 (0, x) xs)

/-- `_PHASE_BY_ACTION[i]`. -/
def phaseAt (i : ℕ) : Option String :=
  if h : i < 2 then some (phaseByAction ⟨i, h⟩) else none

def predict (session : Session) (telemetry : PolicyTelemetry) :
    Option String := do
  let logits ← infer session [telemetryToObservation telemetry]
  let row ← logits.head?
  let action ← argmax row
  phaseAt action

theorem length_telemetryToObservation (telemetry : PolicyTelemetry) :
    (telemetryToObservation telemetry).length = obsSize := rfl

theorem infer_telemetryToObservation (session : Session)
    (telemetry : PolicyTelemetry) :
    infer session [telemetryToObservation telemetry] =
      session [telemetryToObservation telemetry] := by
  apply if_pos
  intro row hrow
  rw [List.mem_singleton.mp hrow]
  exact length_telemetryToObservation telemetry

theorem predict_eq {session : Session} {telemetry : PolicyTelemetry}
    {row : List (FloatValue ℚ)}
    (hsession : session [telemetryToObservation telemetry] = some [row]) :
    predict session telemetry = (argmax row).bind phaseAt := by
  unfold predict
  rw [infer_telemetryToObservation, hsession]
  rfl

end AIPolicyWrapper

/-! ## The two loops -/

section Loops

open AIPolicyWrapper PolicyEngine

/-- On finite scores, and within the actions that the node looks at, the two
loops keep the same best index. -/
theorem scanActions_eq_argmaxScan (i k : ℕ) (best : ℚ) (scores : List ℚ)
    (hlength : i + scores.length ≤ maxActions) :
    scanActions i (k, .fin best) (scores.map .fin) =
      argmaxScan i (k, .fin best) (scores.map .fin) := by
  induction scores generalizing i k best with
  | nil => rfl
  | cons score scores ih =>
      rw [List.length_cons] at hlength
      have hi : i < maxActions := by omega
      have hrest : i + 1 + scores.length ≤ maxActions := by omega
      have hfinite : FloatValue.fin best ≠ FloatValue.nan := nofun
      rw [List.map_cons, scanActions, argmaxScan, if_pos hi, if_neg hfinite]
      by_cases hscore : best < score
      · have hle : ¬ (FloatValue.fin score) ≤ FloatValue.fin best :=
          fun h => absurd (FloatValue.fin_le_fin.mp h) (not_le.mpr hscore)
        rw [if_pos (FloatValue.fin_lt_fin.mpr hscore), if_neg hle]
        exact ih (i + 1) i score hrest
      · have hle : (FloatValue.fin score) ≤ FloatValue.fin best :=
          FloatValue.fin_le_fin.mpr (not_lt.mp hscore)
        rw [if_neg (fun h => hscore (FloatValue.fin_lt_fin.mp h)), if_pos hle]
        exact ih (i + 1) k best hrest

/-- The decoders differ in the phases only: both pick the same action. -/
theorem argmax_eq_bestAction (scores : List ℚ) (hscores : scores ≠ [])
    (hlength : scores.length ≤ maxActions) :
    argmax (scores.map .fin) = some (bestAction (scores.map .fin)) := by
  cases scores with
  | nil => exact absurd rfl hscores
  | cons score scores =>
      have hrest : 1 + scores.length ≤ maxActions := by
        rw [List.length_cons] at hlength
        omega
      exact congrArg some
        (scanActions_eq_argmaxScan 1 0 score scores hrest).symm

theorem scanActions_lt_length (i : ℕ) (best : ℕ × FloatValue ℚ)
    (scores : List (FloatValue ℚ)) (hbest : best.1 < i + scores.length) :
    scanActions i best scores < i + scores.length := by
  induction scores generalizing i best with
  | nil => exact hbest
  | cons score scores ih =>
      rw [List.length_cons] at hbest ⊢
      have hshift : i + (scores.length + 1) = i + 1 + scores.length := by
        omega
      rw [hshift] at hbest ⊢
      unfold scanActions
      split_ifs with hi hscore
      · exact ih (i + 1) (i, score) (by omega)
      · exact ih (i + 1) best hbest
      · exact hbest

theorem bestAction_lt_length {scores : List (FloatValue ℚ)}
    (hscores : scores ≠ []) : bestAction scores < scores.length := by
  cases scores with
  | nil => exact absurd rfl hscores
  | cons score scores =>
      have hrest := scanActions_lt_length 1 (0, score) scores (by omega)
      rwa [Nat.add_comm] at hrest

end Loops

/-! ## The phases -/

/-- The node serves a green, and it is the one that the coordinator
recommends. -/
def ServesRecommended (served : Phase) (recommended : Option String) : Prop :=
  recommended = some (phaseToString served) ∧ isGreen served = true

instance (served : Phase) (recommended : Option String) :
    Decidable (ServesRecommended served recommended) :=
  inferInstanceAs (Decidable (_ ∧ _))

open AIPolicyWrapper in
/-- An action is an axis for the coordinator and a position in the enumeration
for the node, whose first two phases are all-red and the green of the first
axis. -/
theorem not_servesRecommended_index (action : ℕ) (haction : action < 2) :
    ¬ ServesRecommended (phaseOfIndex action) (phaseAt action) := by
  interval_cases action <;> decide

/-- Whatever the two scores of the actor, the node does not serve the axis they
ask for. -/
theorem decide_not_servesRecommended
    (actor : List (FloatValue ℚ) → Option (List (FloatValue ℚ)))
    (session : AIPolicyWrapper.Session) (state : QueueState)
    (telemetry : PolicyTelemetry) (ns ew : ℚ)
    (hactor : actor (PolicyEngine.encodeState state) =
      some [.fin ns, .fin ew])
    (hsession :
      session [AIPolicyWrapper.telemetryToObservation telemetry] =
        some [[.fin ns, .fin ew]]) :
    ¬ ServesRecommended (PolicyEngine.decide (some actor) state)
        (AIPolicyWrapper.predict session telemetry) := by
  have hserved : PolicyEngine.decide (some actor) state =
      phaseOfIndex (PolicyEngine.bestAction [.fin ns, .fin ew]) := by
    simp only [PolicyEngine.decide, hactor]
  have hargmax := argmax_eq_bestAction [ns, ew] (List.cons_ne_nil _ _)
    (show 2 ≤ 4 by omega)
  rw [hserved, AIPolicyWrapper.predict_eq hsession]
  change ¬ ServesRecommended _
    ((AIPolicyWrapper.argmax ([ns, ew].map .fin)).bind _)
  rw [hargmax]
  exact not_servesRecommended_index _
    (bestAction_lt_length (List.cons_ne_nil _ _))

theorem decide_not_servesRecommended_tie :
    ¬ ServesRecommended
        (PolicyEngine.decide (some fun _ => some [.fin 3, .fin 3])
          ⟨[], 0, .fin 0⟩)
        (AIPolicyWrapper.predict (fun _ => some [[.fin 3, .fin 3]])
          ⟨.fin 0, none⟩) :=
  decide_not_servesRecommended (fun _ => some [.fin 3, .fin 3])
    (fun _ => some [[.fin 3, .fin 3]]) _ _ 3 3 rfl rfl

/-- The scores ask for the north-south axis: the coordinator recommends it, the
node shows red to both. -/
theorem ns_scores_served_all_red :
    AIPolicyWrapper.predict (fun _ => some [[.fin 2, .fin 1]])
        ⟨.fin 6, some "ALL_RED"⟩ = some "GREEN_NS" ∧
      PolicyEngine.decide (some fun _ => some [.fin 2, .fin 1])
        ⟨[], 0, .fin 0⟩ = .allRed ∧
      ¬ ServesRecommended
        (PolicyEngine.decide (some fun _ => some [.fin 2, .fin 1])
          ⟨[], 0, .fin 0⟩)
        (AIPolicyWrapper.predict (fun _ => some [[.fin 2, .fin 1]])
          ⟨.fin 6, some "ALL_RED"⟩) := by
  refine ⟨?_, ?_, ?_⟩ <;> decide +kernel

end Semaforo
