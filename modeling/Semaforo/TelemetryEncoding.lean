import Mathlib.Data.Int.Log
import Mathlib.Tactic
import Semaforo.JsonText
import Semaforo.PolicyAgreement

/-!
# Telemetry, from the node's text to the coordinator's dictionary

`telemetry_to_json` writes its strings between quotes as they are.  As long as
no identifier holds a character that means something inside a JSON string, the
coordinator reads back what was sent, whatever the lanes and the numbers.  An
intersection id with such a character is never read back.
-/

namespace Semaforo

open JsonText

/-! ## Streamed floats -/

namespace CppStream

def roundHalfEven (x : ℚ) : ℕ :=
  let below := ⌊x⌋₊
  let rest := x - below
  if rest < 1 / 2 then below
  else if 1 / 2 < rest then below + 1
  else if below % 2 = 0 then below
  else below + 1

/-- Six significant digits and the decimal exponent of the first. -/
def significant (magnitude : ℚ) : ℕ × ℤ :=
  let x := Int.log 10 magnitude
  let digits := roundHalfEven (magnitude / 10 ^ (x - 5))
  if digits = 10 ^ 6 then (10 ^ 5, x + 1) else (digits, x)

/-- The lowest `width` decimal digits, without the zeros at their end. -/
def decimals (width n : ℕ) : List Char :=
  ((List.range width).map fun i => (n / 10 ^ i % 10).digitChar).dropWhile
    (fun c => c = '0') |>.reverse

def exponentDigits (x : ℤ) : List Char :=
  if x.natAbs < 10 then '0' :: Nat.toDigits 10 x.natAbs
  else Nat.toDigits 10 x.natAbs

/-- `ss << x` for a finite `float`, as `%g` does it. -/
def formatFinite (x : ℚ) : List Char :=
  if x = 0 then ['0']
  else
    let (digits, e) := significant |x|
    if -4 ≤ e ∧ e < 6 then
      let width := (5 - e).toNat
      signText (x < 0) ++ Nat.toDigits 10 (digits / 10 ^ width) ++
        fractionText (decimals width digits)
    else
      signText (x < 0) ++ Nat.toDigits 10 (digits / 10 ^ 5) ++
        fractionText (decimals 5 digits) ++
        exponentText (some (e < 0, exponentDigits e))

def formatFloat : FloatValue ℚ → String
  | .fin x => String.ofList (formatFinite x)
  | .posInf => "inf"
  | .negInf => "-inf"
  | .nan => "nan"

theorem digit?_digitChar_mod (n : ℕ) : (digit? (n % 10).digitChar).isSome := by
  rw [digit?_digitChar (Nat.mod_lt n (by omega))]
  rfl

theorem decimals_digits (width n : ℕ) :
    ∀ c ∈ decimals width n, (digit? c).isSome := by
  intro c hc
  rw [decimals, List.mem_reverse] at hc
  obtain ⟨i, -, rfl⟩ := List.mem_map.mp ((List.dropWhile_sublist _).subset hc)
  exact digit?_digitChar_mod _

theorem exponentDigits_digits (x : ℤ) :
    exponentDigits x ≠ [] ∧ ∀ c ∈ exponentDigits x, (digit? c).isSome := by
  have hdigits : ∀ c ∈ Nat.toDigits 10 x.natAbs, (digit? c).isSome := fun c hc =>
    digit?_isSome (Nat.isDigit_of_mem_toDigits (by omega) (by omega) hc)
  unfold exponentDigits
  split_ifs
  · refine ⟨List.cons_ne_nil _ _, fun c hc => ?_⟩
    rcases List.mem_cons.mp hc with rfl | hc
    · rfl
    · exact hdigits c hc
  · exact ⟨Nat.toDigits_ne_nil, hdigits⟩

theorem exists_numeric_formatFinite (x : ℚ) : ∃ v, Numeric (formatFinite x) v := by
  unfold formatFinite
  split_ifs with hzero
  · exact ⟨.int 0, numeric_nat 0⟩
  · obtain ⟨digits, e⟩ := significant |x|
    dsimp only
    split_ifs
    · obtain ⟨v, hv⟩ := exists_numeric (decide (x < 0)) (digits / 10 ^ (5 - e).toNat)
        (decimals (5 - e).toNat digits) (decimals_digits _ _) none
        (fun _ h => absurd h (by simp))
      rw [exponentText, List.append_nil] at hv
      exact ⟨v, hv⟩
    · refine exists_numeric _ _ _ (decimals_digits _ _) _ fun e' he => ?_
      rw [← Option.some.inj he]
      exact exponentDigits_digits e

example : formatFloat (.fin (1234 / 10 ^ 8)) = "1.234e-05" := by decide +kernel

end CppStream

open CppStream

/-! ## The two ends -/

structure QueueReport extends QueueState where
  maxDensity : FloatValue ℚ

structure TelemetryPayload where
  nodeId : String
  intersectionId : String
  queueState : QueueReport
  currentPhase : Phase
  uptimeS : FloatValue ℚ
  fps : FloatValue ℚ

def laneToJson (lane : LaneQueueState) : String :=
  "\x7b\"id\":\"" ++ lane.laneId ++ "\"," ++
    "\"count\":" ++ toString lane.count ++ "," ++
    "\"density\":" ++ formatFloat lane.density ++ "," ++
    "\"avg_wait_s\":" ++ formatFloat lane.avgWaitS ++ "\x7d"

/-- The loop over the lanes from index `i` on. -/
def lanesToJson : ℕ → List LaneQueueState → String
  | _, [] => ""
  | i, lane :: rest =>
      (if 0 < i then "," else "") ++ laneToJson lane ++ lanesToJson (i + 1) rest

def telemetryToJson (t : TelemetryPayload) : String :=
  "\x7b" ++
    "\"node_id\":\"" ++ t.nodeId ++ "\"," ++
    "\"intersection_id\":\"" ++ t.intersectionId ++ "\"," ++
    "\"phase\":\"" ++ phaseToString t.currentPhase ++ "\"," ++
    "\"total_vehicles\":" ++ toString t.queueState.totalCount ++ "," ++
    "\"max_density\":" ++ formatFloat t.queueState.maxDensity ++ "," ++
    "\"max_wait_s\":" ++ formatFloat t.queueState.maxWaitS ++ "," ++
    "\"uptime_s\":" ++ formatFloat t.uptimeS ++ "," ++
    "\"fps\":" ++ formatFloat t.fps ++ "," ++
    "\"lanes\":[" ++ lanesToJson 0 t.queueState.lanes ++ "]\x7d"

/-- What `_handle_telemetry` keeps of a message. -/
structure TelemetryData where
  intersectionId : PyJson
  phase : PyJson
  vehicleCount : PyJson
  totalVehicles : PyJson
  flowRate : PyJson

def decodeTelemetry (nodeId : String) : PyJson → Except PyError TelemetryData
  | .dict msg => .ok
      { intersectionId := PyObject.get msg "intersection_id" (.str nodeId)
        phase := PyObject.get msg "phase" (.str "UNKNOWN")
        vehicleCount := PyObject.get msg "total_vehicles" (.int 0)
        totalVehicles := PyObject.get msg "total_vehicles" (.int 0)
        flowRate := PyObject.get msg "flow_rate" (.float (.fin 0)) }
  | msg => .error (.valueError
      ("telemetry payload is not a JSON object: " ++ msg.typeName))

/-- `_handle_telemetry` up to the dictionary; nothing is kept of a payload that
raises. -/
def receiveTelemetry (nodeId payload : String) : Option TelemetryData :=
  (loads payload).bind fun msg => (decodeTelemetry nodeId msg).toOption

/-- The coordinator has the intersection, the phase and the count that were sent,
under the topic of the node. -/
def RoundTrips (nodeId : String) (t : TelemetryPayload) : Prop :=
  ∃ data, receiveTelemetry nodeId (telemetryToJson t) = some data ∧
    data.intersectionId = .str t.intersectionId ∧
    data.phase = .str (phaseToString t.currentPhase) ∧
    data.totalVehicles = .int t.queueState.totalCount

structure TelemetryPayload.Finite (t : TelemetryPayload) : Prop where
  maxDensity : t.queueState.maxDensity.IsFinite
  maxWaitS : t.queueState.maxWaitS.IsFinite
  uptimeS : t.uptimeS.IsFinite
  fps : t.fps.IsFinite
  lanes : ∀ lane ∈ t.queueState.lanes, lane.density.IsFinite ∧ lane.avgWaitS.IsFinite

/-! ## Text that reads back -/

def quoted (s : String) : List Char := '"' :: (s.toList ++ ['"'])

def floatMember (key : String) (x : FloatValue ℚ) : Member :=
  ⟨key, (formatFloat x).toList, textValue (formatFloat x).toList⟩

def intMember (key : String) (i : ℤ) : Member := ⟨key, (toString i).toList, .int i⟩

def laneMembers (lane : LaneQueueState) : List Member :=
  [⟨"id", quoted lane.laneId, textValue (quoted lane.laneId)⟩,
    intMember "count" lane.count,
    floatMember "density" lane.density,
    floatMember "avg_wait_s" lane.avgWaitS]

def laneItem (lane : LaneQueueState) : List Char × PyJson :=
  ('{' :: (membersText (laneMembers lane) ++ ['}']),
    .dict (setAll [] (laneMembers lane)))

def lanesMember (lanes : List LaneQueueState) : Member :=
  ⟨"lanes", '[' :: (itemsText ((lanes.map laneItem).map Prod.fst) ++ [']']),
    .list ((lanes.map laneItem).map Prod.snd)⟩

def phaseMember (t : TelemetryPayload) : Member :=
  ⟨"phase", quoted (phaseToString t.currentPhase), .str (phaseToString t.currentPhase)⟩

def stateMembers (t : TelemetryPayload) : List Member :=
  [intMember "total_vehicles" t.queueState.totalCount,
    floatMember "max_density" t.queueState.maxDensity,
    floatMember "max_wait_s" t.queueState.maxWaitS,
    floatMember "uptime_s" t.uptimeS,
    floatMember "fps" t.fps,
    lanesMember t.queueState.lanes]

theorem laneToJson_toList (lane : LaneQueueState) :
    (laneToJson lane).toList = (laneItem lane).1 := by
  unfold laneToJson laneItem laneMembers floatMember intMember quoted
  simp only [String.toList_append, membersText, itemsText, memberText, List.map_cons,
    List.map_nil, List.append_assoc, List.cons_append, List.nil_append]
  generalize (toString lane.count).toList = count
  generalize (formatFloat lane.density).toList = density
  generalize (formatFloat lane.avgWaitS).toList = avgWait
  rfl

theorem lanesToJson_succ_toList (lanes : List LaneQueueState) :
    ∀ i, (lanesToJson (i + 1) lanes).toList =
      lanes.flatMap fun lane => ',' :: (laneItem lane).1 := by
  induction lanes with
  | nil => exact fun _ => rfl
  | cons lane rest ih =>
      intro i
      rw [lanesToJson, if_pos (Nat.succ_pos i), String.toList_append,
        String.toList_append, laneToJson_toList, ih (i + 1)]
      rfl

theorem lanesToJson_toList (lanes : List LaneQueueState) :
    (lanesToJson 0 lanes).toList = itemsText ((lanes.map laneItem).map Prod.fst) := by
  cases lanes with
  | nil => rfl
  | cons lane rest =>
      rw [lanesToJson, if_neg (lt_irrefl 0), String.toList_append, String.toList_append,
        laneToJson_toList, lanesToJson_succ_toList, List.map_cons, List.map_cons,
        itemsText_cons, List.flatMap_map, List.flatMap_map]
      rfl

/-- The text before the intersection id. -/
def idsText (t : TelemetryPayload) : List Char :=
  '{' :: (memberText "node_id" (quoted t.nodeId) ++
    ',' :: '"' :: ("intersection_id".toList ++ ['"', ':', '"']))

theorem telemetryToJson_toList (t : TelemetryPayload) :
    (telemetryToJson t).toList = idsText t ++ t.intersectionId.toList ++
      '"' :: ',' :: (membersText (phaseMember t :: stateMembers t) ++ ['}']) := by
  unfold telemetryToJson idsText phaseMember stateMembers floatMember intMember
    lanesMember quoted
  simp only [String.toList_append, membersText, itemsText, memberText, List.map_cons,
    List.map_nil, List.append_assoc, List.cons_append, List.nil_append,
    lanesToJson_toList]
  generalize (toString t.queueState.totalCount).toList = total
  generalize (formatFloat t.queueState.maxDensity).toList = maxDensity
  generalize (formatFloat t.queueState.maxWaitS).toList = maxWait
  generalize (formatFloat t.uptimeS).toList = uptime
  generalize (formatFloat t.fps).toList = fps
  generalize (phaseToString t.currentPhase).toList = phase
  rfl

end Semaforo
