import Semaforo.TelemetryHandling
import Semaforo.TopicFilter
import Mathlib.Tactic

/-!
# What the coordinator publishes to the nodes

The subscriptions and the two message callbacks of the coordinator,
`_on_message` of `network/coordinator/src/coordinator.py` and `_on_emergency` of
`network/coordinator/src/emergency.py`, over the topics of
`network/schemas/topics.yaml`.  Both publish on the command topics; paho calls
`_on_message` only for what the callback of the emergency handler does not
admit.
-/

namespace Semaforo

open TopicFilter

/-- The topic of `publish_telemetry`. -/
def telemetryTopic (nodeId : String) : String := "semaforo/telemetry/" ++ nodeId

/-- A message that reaches the broker, and what its handler reads from the
clock. -/
structure Arrival where
  topic : String
  payload : List UInt8
  clock : ℕ → Reading

/-- What surrounds the coordinator: for the emergencies the graph manager, the
formatting of values and `str.upper`. -/
structure CoordinatorEnvironment extends TelemetryEnvironment where
  shortestPath : PyJson → PyJson → Except PyError (List PyJson)
  edgeDistance : String → String → Except PyError (FloatValue ℚ)
  edgeSpeedLimit : String → String → Except PyError (FloatValue ℚ)
  format : PyJson → String
  upper : String → String

/-- The emergency handler publishes through the same client. -/
def CoordinatorEnvironment.emergency (env : CoordinatorEnvironment) :
    EmergencyEnvironment where
  shortestPath := env.shortestPath
  edgeDistance := env.edgeDistance
  edgeSpeedLimit := env.edgeSpeedLimit
  format := env.format
  upper := env.upper
  rejects node := env.rejects (commandTopic node)

/-- A command of the emergency handler on the wire. -/
def Publication.message (p : Publication) : MqttMessage :=
  ⟨commandTopic p.node, p.payload⟩

/-- The coordinator and the active emergencies of its handler.  The history of
the client is that of the coordinator. -/
structure CoordinatorProcess where
  coordinator : GreenWaveCoordinator
  active : PyKey → Option (List String)

namespace CoordinatorProcess

/-- `TOPIC_TELEMETRY`. -/
def topicTelemetry : String := "semaforo/telemetry/+"

/-- `TOPIC_EMERGENCY`. -/
def topicEmergency : String := "semaforo/+/emergency"

/-- What `_on_connect` subscribes to. -/
def subscriptions : List String := [topicTelemetry, topicEmergency]

/-- `_on_message`: the node id under which a topic is handled as telemetry. -/
def onMessage (topic : String) : Option String :=
  match levels topic with
  | _ :: channel :: nodeId :: _ =>
      if channel = "telemetry" then some nodeId else none
  | _ => none

inductive Callback where
  | telemetry (nodeId : String)
  | emergency
  deriving DecidableEq, Repr

def dispatch (topic : String) : Option Callback :=
  if subscriptions.any fun filter => admits filter topic then
    if admits topicEmergency topic then some .emergency
    else (onMessage topic).map .telemetry
  else none

section

variable (env : CoordinatorEnvironment)

/-- `_on_emergency`, and what it publishes. -/
def handleEmergency (s : CoordinatorProcess) (a : Arrival) :
    CoordinatorProcess :=
  let handler := EmergencyHandler.onEmergency env.emergency ⟨s.active, []⟩
    (env.loads a.payload) a.clock
  { coordinator :=
      { s.coordinator with
        published := s.coordinator.published ++
          handler.published.map Publication.message }
    active := handler.active }

def receive (s : CoordinatorProcess) (a : Arrival) : CoordinatorProcess :=
  match dispatch a.topic with
  | some (.telemetry nodeId) =>
      { s with
        coordinator := s.coordinator.handleTelemetry env.toTelemetryEnvironment
          nodeId a.payload (a.clock 0).built }
  | some .emergency => s.handleEmergency env a
  | none => s

def run (s : CoordinatorProcess) (arrivals : List Arrival) :
    CoordinatorProcess :=
  arrivals.foldl (receive env) s

/-! ## What the nodes are owed -/

/-- The id of a node whose telemetry is handled as such. -/
structure Heard (nodeId : String) : Prop where
  single : '/' ∉ nodeId.toList
  not_emergency : nodeId ≠ "emergency"

/-- The payload decodes, and a command can be given on it. -/
def Answerable (nodeId : String) (payload : List UInt8) : Prop :=
  ∃ key data,
    GreenWaveCoordinator.Decodes env.toTelemetryEnvironment nodeId payload key data ∧
      ¬ GreenWaveCoordinator.Unanswerable env.toTelemetryEnvironment nodeId data

structure Answered (nodeId : String) (a : Arrival) : Prop where
  topic_eq : a.topic = telemetryTopic nodeId
  heard : Heard nodeId
  answerable : Answerable env nodeId a.payload

open Classical in
/-- The messages that a node is owed an answer to. -/
noncomputable def owed (nodeId : String) (arrivals : List Arrival) :
    List Arrival :=
  arrivals.filter fun a => Answered env nodeId a

/-- The nodes that a message overrides: those on the path of the emergency that
it announces, up to the first whose command cannot be built and sent. -/
def overridden (a : Arrival) : List String :=
  if admits topicEmergency a.topic then
    match EmergencyHandler.announce env.emergency (env.loads a.payload)
        a.clock with
    | .ok (some route) =>
        EmergencyHandler.commanded env.emergency route.direction none route.path
    | _ => []
  else []

end

/-- What the broker hands to the node, which subscribes to its own topic. -/
def delivered (nodeId : String) (published : List MqttMessage) :
    List MqttMessage :=
  published.filter fun m => admits (commandTopic nodeId) m.topic

/-- The action is the one that a node knows. -/
def IsPhaseCommand (m : MqttMessage) : Prop :=
  m.payload.lookup "action" = some (.str "CHANGE_PHASE")

instance (m : MqttMessage) : Decidable (IsPhaseCommand m) :=
  inferInstanceAs (Decidable (_ = _))

/-- An action that no node knows, without a number. -/
def IsOverride (m : MqttMessage) : Prop :=
  m.payload.lookup "action" = some (.str "override") ∧
    m.payload.lookup "sequence_number" = none

/-- The message is a phase command to the node, stamped as the answer was
built. -/
def Answers (nodeId : String) (a : Arrival) (m : MqttMessage) : Prop :=
  ∃ action n, m = ⟨commandTopic nodeId, phasePayload (phaseByAction action)
    (a.clock 0).builtMs n⟩

def Numbered (m : MqttMessage) (n : ℤ) : Prop :=
  m.payload.lookup "sequence_number" = some (.int n)

/-! ## Dispatch -/

theorem levels_telemetryTopic {nodeId : String} (h : '/' ∉ nodeId.toList) :
    levels (telemetryTopic nodeId) = ["semaforo", "telemetry", nodeId] := by
  have hstem : levels "semaforo/telemetry" = ["semaforo", "telemetry"] := by
    decide +kernel
  change levels ("semaforo/telemetry" ++ "/" ++ nodeId) = _
  rw [levels_append, hstem, levels_of_single h]
  rfl

theorem admits_topicTelemetry_iff (topic : String) :
    admits topicTelemetry topic = true ↔
      ∃ nodeId : String, '/' ∉ nodeId.toList ∧ topic = telemetryTopic nodeId := by
  have hstem : Plain "semaforo/telemetry" := by decide
  have htopic : topicTelemetry = "semaforo/telemetry" ++ "/" ++ "+" := by decide +kernel
  rw [htopic]
  exact admits_single_iff hstem (by decide)

theorem admits_topicEmergency_iff {nodeId : String} (h : '/' ∉ nodeId.toList) :
    admits topicEmergency (telemetryTopic nodeId) = true ↔
      nodeId = "emergency" := by
  have hlevels : levels topicEmergency = ["semaforo", "+", "emergency"] := by
    decide +kernel
  rw [admits_eq_admitsLevels (by decide) (by decide), hlevels,
    levels_telemetryTopic h]
  simp [admitsLevels, eq_comm]

/-- A message is handled as the telemetry of a node exactly if it is on the
topic of this node, whose id is a single level and not `emergency`. -/
theorem dispatch_eq_telemetry_iff (topic nodeId : String) :
    dispatch topic = some (.telemetry nodeId) ↔
      topic = telemetryTopic nodeId ∧ Heard nodeId := by
  unfold dispatch onMessage subscriptions
  constructor
  · intro h
    split_ifs at h with hadmits hemergency
    · cases h
    · obtain ⟨id, hsingle, rfl⟩ : ∃ id : String, '/' ∉ id.toList ∧
          topic = telemetryTopic id := by
        refine (admits_topicTelemetry_iff topic).mp ?_
        simpa [hemergency] using hadmits
      rw [levels_telemetryTopic hsingle] at h
      obtain rfl : id = nodeId := by simpa using h
      exact ⟨rfl, hsingle, fun hid =>
        hemergency ((admits_topicEmergency_iff hsingle).mpr hid)⟩
  · rintro ⟨rfl, hheard⟩
    have hadmits := (admits_topicTelemetry_iff (telemetryTopic nodeId)).mpr
      ⟨nodeId, hheard.single, rfl⟩
    have hemergency := mt (admits_topicEmergency_iff hheard.single).mp
      hheard.not_emergency
    rw [if_pos (by simp [hadmits]), if_neg hemergency,
      levels_telemetryTopic hheard.single]
    rfl

theorem dispatch_eq_emergency_iff (topic : String) :
    dispatch topic = some .emergency ↔ admits topicEmergency topic = true := by
  unfold dispatch
  split_ifs with hadmits hemergency
  · simp [hemergency]
  · simp [hemergency]
  · refine ⟨nofun, fun h => absurd ?_ hadmits⟩
    simp [subscriptions, h]

/-! ## One message -/

section

open GreenWaveCoordinator

variable {env : TelemetryEnvironment}

theorem publishJson_sequence (c : GreenWaveCoordinator) (topic : String)
    (payload : PyDict) :
    (c.publishJson env topic payload).coordinator.sequence =
      c.coordinator.sequence + 1 := by
  unfold GreenWaveCoordinator.publishJson
  cases env.rejects topic <;> rfl

theorem reply_cases (c : GreenWaveCoordinator) (nodeId : String)
    (data : TelemetryData) (clock : ℚ) :
    c.reply env nodeId data clock = c ∨ ∃ phase,
      c.reply env nodeId data clock = c.publishJson env (commandTopic nodeId)
        (buildPhaseCommand phase "HIGH" clock) := by
  unfold GreenWaveCoordinator.reply
  split
  · exact Or.inl rfl
  · split
    · exact Or.inl rfl
    · exact Or.inr ⟨_, rfl⟩

theorem reply_sequence_le (c : GreenWaveCoordinator) (nodeId : String)
    (data : TelemetryData) (clock : ℚ) :
    c.coordinator.sequence ≤
      (c.reply env nodeId data clock).coordinator.sequence := by
  rcases reply_cases c nodeId data clock with h | ⟨phase, h⟩
  · rw [h]
  · rw [h, publishJson_sequence]
    omega

theorem sequence_lt_of_commanded {c : GreenWaveCoordinator} {nodeId : String}
    {data : TelemetryData} {clock : ℚ}
    (h : c.Commanded (c.reply env nodeId data clock) nodeId clock) :
    c.coordinator.sequence <
      (c.reply env nodeId data clock).coordinator.sequence := by
  rcases reply_cases c nodeId data clock with hreply | ⟨phase, hreply⟩
  · obtain ⟨action, hpublished⟩ := h
    rw [hreply] at hpublished
    simp at hpublished
  · rw [hreply, publishJson_sequence]
    omega

/-- What a payload adds to the history: one command, numbered with the next
number, if it can be answered, and nothing otherwise. -/
theorem handleTelemetry_cases
    (hsession : AIPolicyWrapper.TwoFiniteLogits env.session)
    (c : GreenWaveCoordinator) (nodeId : String) (payload : List UInt8)
    (clock : ℚ) :
    ((∃ key data, Decodes env nodeId payload key data ∧
          ¬ Unanswerable env nodeId data) ∧
        c.Commanded (c.handleTelemetry env nodeId payload clock) nodeId clock ∧
        c.coordinator.sequence <
          (c.handleTelemetry env nodeId payload clock).coordinator.sequence) ∨
      (¬ ∃ key data, Decodes env nodeId payload key data ∧
          ¬ Unanswerable env nodeId data) ∧
        (c.handleTelemetry env nodeId payload clock).published = c.published ∧
        c.coordinator.sequence ≤
          (c.handleTelemetry env nodeId payload clock).coordinator.sequence := by
  by_cases hdecodes : ∃ key data, Decodes env nodeId payload key data
  · obtain ⟨key, data, hdata⟩ := hdecodes
    rw [handleTelemetry_of_decodes hdata]
    set cached : GreenWaveCoordinator :=
      { c with telemetry := Function.update c.telemetry key (some data) }
    by_cases hanswer : Unanswerable env nodeId data
    · refine Or.inr ⟨?_, (reply_of_unanswerable cached clock hanswer).2,
        reply_sequence_le cached nodeId data clock⟩
      rintro ⟨key', data', hdata', hanswer'⟩
      have hsame := hdata.1.symm.trans hdata'.1
      simp only [Option.some.injEq, Except.ok.injEq] at hsame
      exact hanswer' (hsame ▸ hanswer)
    · have hcommanded := (reply_of_answerable hsession cached clock hanswer).2
      exact Or.inl ⟨⟨key, data, hdata, hanswer⟩, hcommanded,
        sequence_lt_of_commanded hcommanded⟩
  · rw [handleTelemetry_of_not_decodes hdecodes]
    refine Or.inr ⟨?_, rfl, le_rfl⟩
    rintro ⟨key, data, hdata, _⟩
    exact hdecodes ⟨key, data, hdata⟩

end

variable {env : CoordinatorEnvironment}

theorem handleEmergency_published (s : CoordinatorProcess) {a : Arrival}
    (hadmits : admits topicEmergency a.topic = true) :
    ∃ overrides, (s.handleEmergency env a).coordinator.published =
        s.coordinator.published ++ overrides ∧
      overrides.map MqttMessage.topic = (overridden env a).map commandTopic ∧
      ∀ m ∈ overrides, IsOverride m := by
  unfold handleEmergency EmergencyHandler.onEmergency overridden
  rw [if_pos hadmits]
  cases EmergencyHandler.announce env.emergency (env.loads a.payload) a.clock with
  | error e => exact ⟨[], rfl, rfl, by simp⟩
  | ok announced =>
      cases announced with
      | none => exact ⟨[], rfl, rfl, by simp⟩
      | some route =>
          obtain ⟨hnodes, _⟩ := EmergencyHandler.clearPath_spec env.emergency
            route.emergencyId route.direction (fun i => a.clock (i + 1)) 0 none 0
            route.path
          refine ⟨_, rfl, ?_, ?_⟩
          · dsimp only
            rw [← hnodes, List.nil_append, List.map_map, List.map_map]
            rfl
          · intro m hm
            obtain ⟨p, hp, rfl⟩ := List.mem_map.mp hm
            dsimp only at hp
            rw [List.nil_append] at hp
            obtain ⟨formatted, named, stamp, delay, hpayload⟩ :=
              EmergencyHandler.clearPath_payload hp
            unfold IsOverride Publication.message
            rw [hpayload]
            exact ⟨rfl, rfl⟩

/-- What a message adds to the history: an answer to the node under whose id it
is handled, if there is one, and else the overrides that it causes. -/
theorem receive_published (hsession : AIPolicyWrapper.TwoFiniteLogits env.session)
    (s : CoordinatorProcess) (a : Arrival) :
    (∃ nodeId action, Answered env nodeId a ∧ overridden env a = [] ∧
        (s.receive env a).coordinator.published = s.coordinator.published ++
          [⟨commandTopic nodeId, phasePayload (phaseByAction action)
            (a.clock 0).builtMs s.coordinator.coordinator.sequence⟩] ∧
        s.coordinator.coordinator.sequence <
          (s.receive env a).coordinator.coordinator.sequence) ∨
      (∀ nodeId, ¬ Answered env nodeId a) ∧
        (∃ overrides, (s.receive env a).coordinator.published =
            s.coordinator.published ++ overrides ∧
          overrides.map MqttMessage.topic = (overridden env a).map commandTopic ∧
          ∀ m ∈ overrides, IsOverride m) ∧
        s.coordinator.coordinator.sequence ≤
          (s.receive env a).coordinator.coordinator.sequence := by
  have hheard : ∀ nodeId, Answered env nodeId a →
      dispatch a.topic = some (.telemetry nodeId) := fun nodeId h =>
    (dispatch_eq_telemetry_iff _ _).mpr ⟨h.topic_eq, h.heard⟩
  have hcalm : dispatch a.topic ≠ some .emergency → overridden env a = [] :=
    fun h => if_neg (mt (dispatch_eq_emergency_iff a.topic).mpr h)
  unfold receive
  cases hdispatch : dispatch a.topic with
  | none =>
      refine Or.inr ⟨fun nodeId h => ?_, ⟨[], by simp, ?_, by simp⟩, le_rfl⟩
      · rw [hheard nodeId h] at hdispatch
        cases hdispatch
      · rw [hcalm (by rw [hdispatch]; nofun)]
        rfl
  | some callback =>
      cases callback with
      | emergency =>
          refine Or.inr ⟨fun nodeId h => ?_, ?_, le_rfl⟩
          · rw [hheard nodeId h] at hdispatch
            cases hdispatch
          · exact s.handleEmergency_published
              ((dispatch_eq_emergency_iff a.topic).mp hdispatch)
      | telemetry nodeId =>
          have hnone : overridden env a = [] := hcalm (by rw [hdispatch]; nofun)
          obtain ⟨htopic, hid⟩ := (dispatch_eq_telemetry_iff _ _).mp hdispatch
          rcases handleTelemetry_cases hsession s.coordinator nodeId a.payload
              (a.clock 0).built with
            ⟨hanswerable, ⟨action, hpublished⟩, hless⟩ |
            ⟨hnot, hpublished, hle⟩
          · exact Or.inl ⟨nodeId, action, ⟨htopic, hid, hanswerable⟩, hnone,
              hpublished, hless⟩
          · refine Or.inr ⟨fun other h => ?_, ⟨[], ?_, ?_, by simp⟩, hle⟩
            · rw [hheard other h, Option.some.injEq, Callback.telemetry.injEq]
                at hdispatch
              exact hnot (hdispatch ▸ h.answerable)
            · rw [List.append_nil]
              exact hpublished
            · rw [hnone]
              rfl

/-! ## Runs -/

theorem commandTopic_injective : Function.Injective commandTopic := by
  intro s t h
  have hlist := congrArg String.toList h
  unfold commandTopic at hlist
  rw [String.toList_append, String.toList_append] at hlist
  exact String.toList_injective (List.append_cancel_left hlist)

theorem plain_commandTopic {nodeId : String} (h : Plain nodeId) :
    Plain (commandTopic nodeId) := by
  obtain ⟨hplus, hmany⟩ := h
  unfold commandTopic Plain
  rw [String.toList_append, List.mem_append, List.mem_append]
  exact ⟨not_or.mpr ⟨by decide, hplus⟩, not_or.mpr ⟨by decide, hmany⟩⟩

theorem admits_commandTopic_iff {nodeId : String} (h : Plain nodeId)
    (other : String) :
    admits (commandTopic nodeId) (commandTopic other) = true ↔ other = nodeId := by
  rw [admits_iff_eq (plain_commandTopic h), commandTopic_injective.eq_iff]

theorem Answered.unique {a : Arrival} {nodeId other : String}
    (h : Answered env nodeId a) (hother : Answered env other a) :
    nodeId = other := by
  have hid := (dispatch_eq_telemetry_iff a.topic nodeId).mpr ⟨h.topic_eq, h.heard⟩
  have hid' := (dispatch_eq_telemetry_iff a.topic other).mpr
    ⟨hother.topic_eq, hother.heard⟩
  rw [hid, Option.some.injEq, Callback.telemetry.injEq] at hid'
  exact hid'

theorem owed_snoc_of_answered {nodeId : String} {a : Arrival}
    (h : Answered env nodeId a) (arrivals : List Arrival) :
    owed env nodeId (arrivals ++ [a]) = owed env nodeId arrivals ++ [a] := by
  simp [owed, List.filter_append, h]

theorem owed_snoc_of_not_answered {nodeId : String} {a : Arrival}
    (h : ¬ Answered env nodeId a) (arrivals : List Arrival) :
    owed env nodeId (arrivals ++ [a]) = owed env nodeId arrivals := by
  simp [owed, List.filter_append, h]

theorem IsOverride.not_isPhaseCommand {m : MqttMessage} (h : IsOverride m) :
    ¬ IsPhaseCommand m := by
  unfold IsPhaseCommand
  rw [h.1]
  simp

theorem filter_overrides {overrides : List MqttMessage}
    (h : ∀ m ∈ overrides, IsOverride m) :
    overrides.filter (fun m => IsPhaseCommand m) = [] ∧
      overrides.filter (fun m => ¬ IsPhaseCommand m) = overrides := by
  refine ⟨List.filter_eq_nil_iff.mpr fun m hm => ?_,
    List.filter_eq_self.mpr fun m hm => ?_⟩
  · simpa using (h m hm).not_isPhaseCommand
  · simpa using (h m hm).not_isPhaseCommand

variable (env) in
/-- The commands that some arrivals have caused.  The phase commands among them
are numbered, and are the answers owed to the nodes; the others are the overrides
of the nodes on the paths of the emergencies. -/
structure Issued (arrivals : List Arrival) (commands : List MqttMessage)
    (numbers : List ℤ) (next : ℤ) : Prop where
  numbered : List.Forall₂ Numbered
    (commands.filter fun m => IsPhaseCommand m) numbers
  increasing : numbers.Pairwise (· < ·)
  below : ∀ n ∈ numbers, n < next
  answers : ∀ nodeId, Plain nodeId → List.Forall₂ (Answers nodeId)
    (owed env nodeId arrivals)
    ((delivered nodeId commands).filter fun m => IsPhaseCommand m)
  overrides : (commands.filter fun m => ¬ IsPhaseCommand m).map MqttMessage.topic =
    (arrivals.flatMap (overridden env)).map commandTopic
  others : ∀ m ∈ commands, IsPhaseCommand m ∨ IsOverride m

section

variable {arrivals : List Arrival} {commands overrides : List MqttMessage}
  {numbers : List ℤ} {next later : ℤ} {a : Arrival}

theorem Issued.override (h : Issued env arrivals commands numbers next)
    (hnone : ∀ nodeId, ¬ Answered env nodeId a)
    (htopics : overrides.map MqttMessage.topic = (overridden env a).map commandTopic)
    (hoverrides : ∀ m ∈ overrides, IsOverride m) (hle : next ≤ later) :
    Issued env (arrivals ++ [a]) (commands ++ overrides) numbers later := by
  obtain ⟨hphase, hother⟩ := filter_overrides hoverrides
  constructor
  · rw [List.filter_append, hphase, List.append_nil]
    exact h.numbered
  · exact h.increasing
  · exact fun n hn => (h.below n hn).trans_le hle
  · intro nodeId hplain
    have hdelivered : (delivered nodeId overrides).filter
        (fun m => IsPhaseCommand m) = [] :=
      (filter_overrides fun m hm => hoverrides m (List.mem_filter.mp hm).1).1
    rw [owed_snoc_of_not_answered (hnone nodeId), delivered, List.filter_append,
      List.filter_append]
    change List.Forall₂ _ _ (((delivered nodeId commands).filter _) ++
      ((delivered nodeId overrides).filter _))
    rw [hdelivered, List.append_nil]
    exact h.answers nodeId hplain
  · rw [List.filter_append, hother, List.map_append, h.overrides, htopics,
      List.flatMap_append, List.map_append, List.flatMap_singleton]
  · intro m hm
    rcases List.mem_append.mp hm with hold | hnew
    · exact h.others m hold
    · exact Or.inr (hoverrides m hnew)

theorem Issued.answer (h : Issued env arrivals commands numbers next)
    {nodeId : String} (hanswered : Answered env nodeId a)
    (hcalm : overridden env a = []) (action : Fin 2) (hless : next < later) :
    Issued env (arrivals ++ [a])
      (commands ++ [⟨commandTopic nodeId, phasePayload (phaseByAction action)
        (a.clock 0).builtMs next⟩])
      (numbers ++ [next]) later := by
  have hphase : IsPhaseCommand ⟨commandTopic nodeId, phasePayload
      (phaseByAction action) (a.clock 0).builtMs next⟩ := rfl
  constructor
  · rw [List.filter_append, List.filter_singleton, decide_eq_true hphase]
    exact List.rel_append h.numbered (.cons rfl .nil)
  · exact List.pairwise_append.mpr ⟨h.increasing, List.pairwise_singleton ..,
      fun x hx y hy => List.mem_singleton.mp hy ▸ h.below x hx⟩
  · intro n hn
    rcases List.mem_append.mp hn with hold | hnew
    · exact (h.below n hold).trans hless
    · exact List.mem_singleton.mp hnew ▸ hless
  · intro id hplain
    have hadmits := admits_commandTopic_iff hplain nodeId
    by_cases hsame : nodeId = id
    · subst hsame
      rw [owed_snoc_of_answered hanswered, delivered, List.filter_append,
        List.filter_singleton, hadmits.mpr rfl, Bool.cond_true, List.filter_append,
        List.filter_singleton, decide_eq_true hphase]
      exact List.rel_append (h.answers nodeId hplain)
        (.cons ⟨action, next, rfl⟩ .nil)
    · have hother : ¬ Answered env id a := fun hid => hsame (hanswered.unique hid)
      have hmissed := mt hadmits.mp hsame
      rw [owed_snoc_of_not_answered hother, delivered, List.filter_append,
        List.filter_singleton, Bool.eq_false_of_not_eq_true hmissed]
      simpa [delivered] using h.answers id hplain
  · have hnot : ¬ ¬ IsPhaseCommand ⟨commandTopic nodeId, phasePayload
        (phaseByAction action) (a.clock 0).builtMs next⟩ :=
      not_not.mpr hphase
    rw [List.filter_append, List.filter_singleton, decide_eq_false hnot,
      List.flatMap_append, List.flatMap_singleton, hcalm]
    simpa using h.overrides
  · intro m hm
    rcases List.mem_append.mp hm with hold | hnew
    · exact h.others m hold
    · exact Or.inl (List.mem_singleton.mp hnew ▸ hphase)

end

/-- The phase commands that a node is handed are exactly the answers to its own
telemetry, one for each message that can be answered and in the order of these;
those to all the nodes together carry increasing numbers.  All else that the
coordinator publishes to the nodes are the overrides of emergencies, without a
number, one for each node of the path that can be commanded. -/
theorem commands_of_run
    (hsession : AIPolicyWrapper.TwoFiniteLogits env.session)
    (s : CoordinatorProcess) (arrivals : List Arrival) :
    ∃ commands numbers,
      (s.run env arrivals).coordinator.published =
          s.coordinator.published ++ commands ∧
        Issued env arrivals commands numbers
          (s.run env arrivals).coordinator.coordinator.sequence := by
  induction arrivals using List.reverseRecOn with
  | nil =>
      exact ⟨[], [], (List.append_nil _).symm, .nil, .nil, by simp,
        fun _ _ => .nil, rfl, by simp⟩
  | append_singleton arrivals a ih =>
      obtain ⟨commands, numbers, hpublished, hissued⟩ := ih
      have hrun : s.run env (arrivals ++ [a]) =
          (s.run env arrivals).receive env a := by
        rw [run, run, List.foldl_append]
        rfl
      rw [hrun]
      rcases (s.run env arrivals).receive_published hsession a with
        ⟨nodeId, action, hanswered, hcalm, hsent, hless⟩ |
        ⟨hnone, ⟨overrides, hsent, htopics, hoverrides⟩, hle⟩
      · refine ⟨_, _, ?_, hissued.answer hanswered hcalm action hless⟩
        rw [hsent, hpublished, List.append_assoc]
      · refine ⟨_, numbers, ?_, hissued.override hnone htopics hoverrides hle⟩
        rw [hsent, hpublished, List.append_assoc]

/-- A road of two intersections. -/
def twoCrossings : CoordinatorEnvironment where
  toTelemetryEnvironment := GreenWaveCoordinator.broker
  shortestPath _ _ := .ok [.str "A", .str "B"]
  edgeDistance _ _ := .ok (.fin 100)
  edgeSpeedLimit _ _ := .ok (.fin 50)
  format _ := "em-1"
  upper := String.toUpper

/-- A node reports, an emergency is announced, and a node reports whose name is
that of the emergency channel. -/
def reportsAndEmergency : List Arrival :=
  [⟨telemetryTopic "A", encodeUtf8 "\x7b\x7d", fun _ => ⟨0, 0⟩⟩,
    ⟨"semaforo/A/emergency", encodeUtf8
      ("\x7b\"origin_intersection\": \"A\", " ++
        "\"destination_intersection\": \"B\"\x7d"),
      fun _ => ⟨1, 1⟩⟩,
    ⟨telemetryTopic "emergency", encodeUtf8 "\x7b\x7d", fun _ => ⟨2, 2⟩⟩]

theorem commands_of_run_emergency :
    ∃ commands numbers,
      (run twoCrossings ⟨GreenWaveCoordinator.idle, fun _ => none⟩
          reportsAndEmergency).coordinator.published =
          GreenWaveCoordinator.idle.published ++ commands ∧
        Issued twoCrossings reportsAndEmergency commands numbers
          (run twoCrossings ⟨GreenWaveCoordinator.idle, fun _ => none⟩
            reportsAndEmergency).coordinator.coordinator.sequence :=
  commands_of_run GreenWaveCoordinator.broker_twoFiniteLogits _ _

end CoordinatorProcess

end Semaforo
