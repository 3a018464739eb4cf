import Semaforo.GraphManager
import Semaforo.PolicyAgreement
import Semaforo.TelemetryEncoding

/-!
# `_handle_telemetry`

The telemetry handler of `network/coordinator/src/coordinator.py`, without an
auditor: from the bytes of a payload to the entry of the cache and the command.
The entry is written before the policy is asked.  What fails until then leaves
the cache as it is, what fails later leaves the new entry without a command.
-/

namespace Semaforo

/-- What surrounds the handler: the decoding of a payload, `none` for an
exception, the reading of floats, the ONNX session, and the check that the
client makes of a topic. -/
structure TelemetryEnvironment where
  loads : List UInt8 → Option PyJson
  reading : PyJson.FloatReading
  session : AIPolicyWrapper.Session
  rejects : String → Option PyError

structure MqttMessage where
  topic : String
  payload : PyDict
  deriving DecidableEq, Repr

structure GreenWaveCoordinator where
  /-- `_telemetry`. -/
  telemetry : PyKey → Option TelemetryData
  coordinator : Coordinator
  published : List MqttMessage

/-- `TOPIC_COMMAND_FMT.format(node_id=node_id)`. -/
def commandTopic (nodeId : String) : String := "semaforo/commands/" ++ nodeId

namespace AIPolicyWrapper

/-- `float(telemetry.get("vehicle_count", 0) or 0)`. -/
def vehicleCount (reading : PyJson.FloatReading) (telemetry : TelemetryData) :
    Except PyError (FloatValue ℚ) :=
  if telemetry.vehicleCount.truthy then telemetry.vehicleCount.toFloat reading
  else .ok (.fin 0)

def policyTelemetry (reading : PyJson.FloatReading)
    (telemetry : TelemetryData) : Except PyError PolicyTelemetry := do
  let vehicleCount ← vehicleCount reading telemetry
  let phase : Option String :=
    match telemetry.phase with
    | .str phase => some phase
    | _ => none
  return ⟨vehicleCount, phase⟩

end AIPolicyWrapper

namespace GreenWaveCoordinator

variable (env : TelemetryEnvironment)

/-- `_publish_json`: the number is taken before the client looks at the
topic. -/
def publishJson (c : GreenWaveCoordinator) (topic : String)
    (payload : PyDict) : GreenWaveCoordinator :=
  let (payload, coordinator) := c.coordinator.publishJson payload
  match env.rejects topic with
  | some _ => { c with coordinator := coordinator }
  | none =>
      { c with
        coordinator := coordinator
        published := c.published ++ [⟨topic, payload⟩] }

/-- The decision and the reply. -/
def reply (c : GreenWaveCoordinator) (nodeId : String)
    (data : TelemetryData) (clock : ℚ) : GreenWaveCoordinator :=
  match AIPolicyWrapper.policyTelemetry env.reading data with
  | .error _ => c
  | .ok telemetry =>
      match AIPolicyWrapper.predict env.session telemetry with
      | none => c
      | some phase =>
          c.publishJson env (commandTopic nodeId)
            (buildPhaseCommand phase "HIGH" clock)

/-- `_handle_telemetry`, which catches every exception. -/
def handleTelemetry (c : GreenWaveCoordinator) (nodeId : String)
    (payload : List UInt8) (clock : ℚ) : GreenWaveCoordinator :=
  match (env.loads payload).map (decodeTelemetry nodeId) with
  | some (.ok data) =>
      match data.intersectionId.toKey with
      | .ok key =>
          reply env
            { c with telemetry := Function.update c.telemetry key (some data) }
            nodeId data clock
      | .error _ => c
  | _ => c

/-! ## What a payload leads to -/

/-- The payload is an object, and its identifier can be a key. -/
def Decodes (nodeId : String) (payload : List UInt8) (key : PyKey)
    (data : TelemetryData) : Prop :=
  (env.loads payload).map (decodeTelemetry nodeId) = some (.ok data) ∧
    data.intersectionId.toKey = .ok key

/-- The count is no float, or the topic cannot be published to. -/
def Unanswerable (nodeId : String) (data : TelemetryData) : Prop :=
  (∃ e, AIPolicyWrapper.vehicleCount env.reading data = .error e) ∨
    env.rejects (commandTopic nodeId) ≠ none

/-- Neither the cache nor the history has changed. -/
def Untouched (c c' : GreenWaveCoordinator) : Prop :=
  c'.telemetry = c.telemetry ∧ c'.published = c.published

/-- One entry of the cache has been set. -/
def Cached (c c' : GreenWaveCoordinator) (key : PyKey)
    (data : TelemetryData) : Prop :=
  c'.telemetry = Function.update c.telemetry key (some data)

/-- One command has been published, to the node that has sent. -/
def Commanded (c c' : GreenWaveCoordinator) (nodeId : String) (clock : ℚ) :
    Prop :=
  ∃ action, c'.published = c.published ++ [⟨commandTopic nodeId,
    phasePayload (phaseByAction action) (pyInt (clock * 1000))
      c.coordinator.sequence⟩]

/-- Either a command and its entry, or nothing. -/
def Atomic (c c' : GreenWaveCoordinator) (nodeId : String)
    (payload : List UInt8) (clock : ℚ) : Prop :=
  (∃ key data, Decodes env nodeId payload key data ∧ c.Cached c' key data ∧
    c.Commanded c' nodeId clock) ∨ c.Untouched c'

end GreenWaveCoordinator

namespace AIPolicyWrapper

/-- The session gives two finite logits for each observation of a batch. -/
def TwoFiniteLogits (session : Session) : Prop :=
  ∀ batch, (∀ row ∈ batch, row.length = obsSize) →
    ∃ scores : List (ℚ × ℚ), scores.length = batch.length ∧
      session batch = some (scores.map fun s => [.fin s.1, .fin s.2])

theorem policyTelemetry_of_error {reading : PyJson.FloatReading}
    {data : TelemetryData} {e : PyError}
    (h : vehicleCount reading data = .error e) :
    policyTelemetry reading data = .error e := by
  unfold policyTelemetry
  rw [h]
  rfl

theorem policyTelemetry_of_ok {reading : PyJson.FloatReading}
    {data : TelemetryData} {count : FloatValue ℚ}
    (h : vehicleCount reading data = .ok count) :
    ∃ telemetry, policyTelemetry reading data = .ok telemetry := by
  unfold policyTelemetry
  rw [h]
  exact ⟨_, rfl⟩

theorem TwoFiniteLogits.predict {session : Session}
    (h : TwoFiniteLogits session) (telemetry : PolicyTelemetry) :
    ∃ action, predict session telemetry = some (phaseByAction action) := by
  obtain ⟨scores, hlength, hlogits⟩ :=
    h [telemetryToObservation telemetry] (by
      intro row hrow
      rw [List.mem_singleton.mp hrow]
      exact length_telemetryToObservation telemetry)
  obtain ⟨⟨ns, ew⟩, rfl⟩ := List.length_eq_one_iff.mp hlength
  have hsession : session [telemetryToObservation telemetry] =
      some [[.fin ns, .fin ew]] := hlogits
  have hargmax := argmax_eq_bestAction [ns, ew] (List.cons_ne_nil _ _)
    (show 2 ≤ 4 by omega)
  have hbest : PolicyEngine.bestAction ([ns, ew].map .fin) < 2 :=
    bestAction_lt_length (List.cons_ne_nil _ _)
  refine ⟨⟨_, hbest⟩, ?_⟩
  rw [predict_eq hsession]
  change (argmax ([ns, ew].map .fin)).bind phaseAt = _
  rw [hargmax]
  exact dif_pos hbest

end AIPolicyWrapper

namespace GreenWaveCoordinator

variable {env : TelemetryEnvironment}

theorem publishJson_of_rejects (c : GreenWaveCoordinator) {topic : String}
    (h : env.rejects topic ≠ none) (payload : PyDict) :
    c.Untouched (c.publishJson env topic payload) := by
  obtain ⟨e, he⟩ := Option.ne_none_iff_exists'.mp h
  unfold publishJson
  rw [he]
  exact ⟨rfl, rfl⟩

theorem publishJson_of_accepts (c : GreenWaveCoordinator) {topic : String}
    (h : env.rejects topic = none) (action : Fin 2) (clock : ℚ) :
    (c.publishJson env topic
        (buildPhaseCommand (phaseByAction action) "HIGH" clock)).telemetry =
      c.telemetry ∧
    (c.publishJson env topic
        (buildPhaseCommand (phaseByAction action) "HIGH" clock)).published =
      c.published ++ [⟨topic, phasePayload (phaseByAction action)
        (pyInt (clock * 1000)) c.coordinator.sequence⟩] := by
  unfold publishJson
  rw [h]
  exact ⟨rfl, rfl⟩

theorem reply_of_unanswerable (c : GreenWaveCoordinator) {nodeId : String}
    {data : TelemetryData} (clock : ℚ) (h : Unanswerable env nodeId data) :
    c.Untouched (c.reply env nodeId data clock) := by
  unfold reply
  cases h with
  | inl hcount =>
      obtain ⟨e, he⟩ := hcount
      rw [AIPolicyWrapper.policyTelemetry_of_error he]
      exact ⟨rfl, rfl⟩
  | inr hrejects =>
      split
      · exact ⟨rfl, rfl⟩
      · split
        · exact ⟨rfl, rfl⟩
        · exact publishJson_of_rejects c hrejects _

theorem reply_of_answerable
    (hsession : AIPolicyWrapper.TwoFiniteLogits env.session)
    (c : GreenWaveCoordinator) {nodeId : String} {data : TelemetryData} (clock : ℚ)
    (h : ¬ Unanswerable env nodeId data) :
    (c.reply env nodeId data clock).telemetry = c.telemetry ∧
      c.Commanded (c.reply env nodeId data clock) nodeId clock := by
  unfold Unanswerable at h
  rw [not_or, not_not] at h
  obtain ⟨hcount, haccepts⟩ := h
  cases hvehicles : AIPolicyWrapper.vehicleCount env.reading data with
  | error e => exact absurd ⟨e, hvehicles⟩ hcount
  | ok count =>
      obtain ⟨telemetry, htelemetry⟩ :=
        AIPolicyWrapper.policyTelemetry_of_ok hvehicles
      obtain ⟨action, haction⟩ := hsession.predict telemetry
      have hreply : c.reply env nodeId data clock =
          c.publishJson env (commandTopic nodeId)
            (buildPhaseCommand (phaseByAction action) "HIGH" clock) := by
        unfold reply
        rw [htelemetry]
        dsimp only
        rw [haction]
      rw [hreply]
      obtain ⟨hcache, hpublished⟩ :=
        publishJson_of_accepts c haccepts action clock
      exact ⟨hcache, action, hpublished⟩

theorem handleTelemetry_of_decodes {c : GreenWaveCoordinator}
    {nodeId : String} {payload : List UInt8} {clock : ℚ} {key : PyKey}
    {data : TelemetryData} (h : Decodes env nodeId payload key data) :
    c.handleTelemetry env nodeId payload clock =
      reply env
        { c with telemetry := Function.update c.telemetry key (some data) }
        nodeId data clock := by
  obtain ⟨hdata, hkey⟩ := h
  unfold handleTelemetry
  rw [hdata]
  dsimp only
  rw [hkey]

theorem handleTelemetry_of_not_decodes {c : GreenWaveCoordinator}
    {nodeId : String} {payload : List UInt8} {clock : ℚ}
    (h : ¬ ∃ key data, Decodes env nodeId payload key data) :
    c.handleTelemetry env nodeId payload clock = c := by
  unfold handleTelemetry
  split
  · rename_i data hdata
    split
    · rename_i key hkey
      exact absurd ⟨key, data, hdata, hkey⟩ h
    · rfl
  · rfl

/-- A payload that does not decode changes nothing.  One that does sets its
entry, and is answered by one command if it can be. -/
theorem handleTelemetry_outcome (env : TelemetryEnvironment)
    (hsession : AIPolicyWrapper.TwoFiniteLogits env.session)
    (c : GreenWaveCoordinator) (nodeId : String) (payload : List UInt8)
    (clock : ℚ) :
    ((¬ ∃ key data, Decodes env nodeId payload key data) ∧
        c.Untouched (c.handleTelemetry env nodeId payload clock)) ∨
      ∃ key data, Decodes env nodeId payload key data ∧
        c.Cached (c.handleTelemetry env nodeId payload clock) key data ∧
        (Unanswerable env nodeId data ∧
            (c.handleTelemetry env nodeId payload clock).published =
              c.published ∨
          ¬ Unanswerable env nodeId data ∧
            c.Commanded (c.handleTelemetry env nodeId payload clock) nodeId
              clock) := by
  by_cases hdecodes : ∃ key data, Decodes env nodeId payload key data
  · right
    obtain ⟨key, data, h⟩ := hdecodes
    refine ⟨key, data, h, ?_⟩
    rw [handleTelemetry_of_decodes h]
    by_cases hanswer : Unanswerable env nodeId data
    · obtain ⟨hcache, hpublished⟩ := reply_of_unanswerable
        { c with telemetry := Function.update c.telemetry key (some data) }
        clock hanswer
      exact ⟨hcache, Or.inl ⟨hanswer, hpublished⟩⟩
    · obtain ⟨hcache, hcommand⟩ := reply_of_answerable hsession
        { c with telemetry := Function.update c.telemetry key (some data) }
        clock hanswer
      exact ⟨hcache, Or.inr ⟨hanswer, hcommand⟩⟩
  · left
    rw [handleTelemetry_of_not_decodes hdecodes]
    exact ⟨hdecodes, rfl, rfl⟩

/-- An object without an identifier, whose count is a list. -/
def listedPayload : List UInt8 :=
  encodeUtf8 "\x7b\"total_vehicles\": [1]\x7d"

def listedData : TelemetryData where
  intersectionId := .str "A"
  phase := .str "UNKNOWN"
  vehicleCount := .list [.int 1]
  totalVehicles := .list [.int 1]
  flowRate := .float (.fin 0)

/-- A client that refuses topics with wildcards, and a session that prefers the
north-south axis. -/
def broker : TelemetryEnvironment where
  loads := fun payload =>
    (String.fromUTF8? ⟨payload.toArray⟩).bind JsonText.loads
  reading := NetworkGraphManager.exactReading
  session := fun batch => some (batch.map fun _ => [.fin 1, .fin 0])
  rejects := fun topic =>
    if '+' ∈ topic.toList ∨ '#' ∈ topic.toList then
      some (.valueError "Publish topic cannot contain wildcards.")
    else none

def idle : GreenWaveCoordinator := ⟨fun _ => none, ⟨1, []⟩, []⟩

theorem broker_twoFiniteLogits :
    AIPolicyWrapper.TwoFiniteLogits broker.session := by
  intro batch _
  refine ⟨batch.map fun _ => (1, 0), List.length_map _, ?_⟩
  change some (batch.map _) = _
  rw [List.map_map]
  rfl

theorem broker_decodes :
    Decodes broker "A" listedPayload (.str "A") listedData := by
  have htext : String.fromUTF8? ⟨listedPayload.toArray⟩ =
      some "\x7b\"total_vehicles\": [1]\x7d" := by
    decide +kernel
  refine ⟨?_, rfl⟩
  unfold broker
  dsimp only
  rw [htext]
  rfl

theorem handleTelemetry_outcome_listed :
    ((¬ ∃ key data, Decodes broker "A" listedPayload key data) ∧
        idle.Untouched (idle.handleTelemetry broker "A" listedPayload 0)) ∨
      ∃ key data, Decodes broker "A" listedPayload key data ∧
        idle.Cached (idle.handleTelemetry broker "A" listedPayload 0) key
          data ∧
        (Unanswerable broker "A" data ∧
            (idle.handleTelemetry broker "A" listedPayload 0).published =
              idle.published ∨
          ¬ Unanswerable broker "A" data ∧
            idle.Commanded (idle.handleTelemetry broker "A" listedPayload 0)
              "A" 0) :=
  handleTelemetry_outcome broker broker_twoFiniteLogits idle "A" listedPayload 0

/-- The count cannot be converted: no command is published, but the entry is
there. -/
theorem listedPayload_not_atomic :
    AIPolicyWrapper.TwoFiniteLogits broker.session ∧
      ¬ idle.Atomic broker (idle.handleTelemetry broker "A" listedPayload 0)
        "A" listedPayload 0 := by
  have hunanswerable : Unanswerable broker "A" listedData := Or.inl ⟨_, rfl⟩
  have hresult : idle.handleTelemetry broker "A" listedPayload 0 =
      reply broker
        { idle with
          telemetry :=
            Function.update idle.telemetry (.str "A") (some listedData) }
        "A" listedData 0 :=
    handleTelemetry_of_decodes broker_decodes
  obtain ⟨hcache, hpublished⟩ := reply_of_unanswerable
    { idle with
      telemetry :=
        Function.update idle.telemetry (.str "A") (some listedData) }
    0 hunanswerable
  refine ⟨broker_twoFiniteLogits, ?_⟩
  rw [hresult]
  rintro (⟨key, data, _, _, action, hcommand⟩ | ⟨hsame, _⟩)
  · rw [hpublished] at hcommand
    cases hcommand
  · rw [hcache] at hsame
    have hentry := congrFun hsame (.str "A")
    dsimp only at hentry
    rw [Function.update_self] at hentry
    cases hentry

end GreenWaveCoordinator

end Semaforo
