import Semaforo.StatusAlerts
import Mathlib.Logic.Function.Basic
import Mathlib.Tactic

/-!
# The status that the broker retains

`edge/src/mqtt_client.cpp` around the alerts: the connection, the last will and
the broker that keeps the last retained message of a topic.  Paho reconnects on
its own, with the options of the first connection.
-/

namespace Semaforo

/-- `mqtt::message`. -/
structure Message where
  topic : String
  payload : String
  qos : ℕ
  retained : Bool
  deriving DecidableEq, Repr

structure SslOptions where
  trustStore : String
  /-- Certificate and private key. -/
  keyStore : Option (String × String)
  deriving DecidableEq, Repr

structure ConnectOptions where
  cleanSession : Bool := true
  automaticReconnect : Bool := true
  keepAliveIntervalS : ℕ := 20
  connectTimeoutS : ℕ := 10
  will : Option Message := none
  ssl : Option SslOptions := none
  deriving DecidableEq, Repr

def statusTopic (nodeId : String) : String := "semaforo/status/" ++ nodeId

def alertPayload (nodeId : String) (a : Alert) : String :=
  "\x7b\"status\":\"" ++ a.status.text ++ "\",\"reason\":\"" ++ a.reason ++
    "\",\"node_id\":\"" ++ nodeId ++ "\"\x7d"

/-- What the will and a graceful disconnection say. -/
def offlinePayload (nodeId : String) : String :=
  "\x7b\"status\":\"offline\",\"node_id\":\"" ++ nodeId ++ "\"\x7d"

def offlineMessage (nodeId : String) : Message where
  topic := statusTopic nodeId
  payload := offlinePayload nodeId
  qos := 1
  retained := true

def alertMessage (nodeId : String) (a : Alert) : Message where
  topic := statusTopic nodeId
  payload := alertPayload nodeId a
  qos := 1
  retained := true

/-- `MqttClient::Impl`, less the outbox and the command callback. -/
structure MqttClient where
  nodeId : String := ""
  /-- Server URI and client id, once there is a client. -/
  client : Option (String × String) := none
  connOpts : ConnectOptions := {}
  isConnected : Bool := false
  deriving DecidableEq, Repr

/-- The arguments of `connect`. -/
structure BrokerAddress where
  broker : String
  port : ℤ
  tlsCa : String := ""
  tlsCert : String := ""
  tlsKey : String := ""
  deriving DecidableEq, Repr

namespace MqttClient

def setLwt (c : MqttClient) (nodeId : String) : MqttClient :=
  { c with connOpts := { will := some (offlineMessage nodeId) } }

def sslOptions (a : BrokerAddress) : Option SslOptions :=
  if a.tlsCa ≠ "" then
    some
      { trustStore := a.tlsCa
        keyStore :=
          if a.tlsCert ≠ "" ∧ a.tlsKey ≠ "" then some (a.tlsCert, a.tlsKey)
          else none }
  else none

/-- `accepted`: the broker accepts the connection; otherwise Paho throws. -/
def connect (c : MqttClient) (a : BrokerAddress) (nodeId : String)
    (accepted : Bool) : MqttClient :=
  let c := { c with
    nodeId := nodeId
    client := some (a.broker ++ ":" ++ toString a.port, "semaforo_edge_" ++ nodeId)
    connOpts := { ssl := sslOptions a } }
  { c with isConnected := accepted }

end MqttClient

structure Broker where
  retained : String → Option String := fun _ => none
  /-- The will of the open session. -/
  will : Option Message := none

def Broker.accept (b : Broker) (m : Message) : Broker :=
  if m.retained then
    { b with retained := Function.update b.retained m.topic (some m.payload) }
  else b

/-- An edge node and its broker. -/
structure Station where
  node : Node
  mqtt : MqttClient
  broker : Broker

inductive StationEvent where
  /-- An iteration of the loop; `reaches` says of the alert of each switch by its
  position whether it reaches the broker once it is given. -/
  | iterate (k : Iteration) (reaches : ℕ → Bool)
  /-- The session ends without a disconnection. -/
  | connectionLost
  | connected

namespace Station

/-- The start of `main`: the will is set before the connection is made.  The
broker holds what earlier sessions have left, and nothing is published. -/
def start (retained : String → Option String) (address : BrokerAddress)
    (nodeId : String) (accepted : Bool) (major : MajorApproach) (armedMs : ℤ)
    (now : TimePoint) : Station :=
  let mqtt := (({} : MqttClient).setLwt nodeId).connect address nodeId accepted
  { node := .boot major (if accepted then some armedMs else none) now
    mqtt := mqtt
    broker :=
      { retained := retained
        will := if accepted then mqtt.connOpts.will else none } }

/-- The switches of an iteration, each with whether its alert is given and
reaches the broker. -/
def attempts (s : Station) (k : Iteration) (reaches : ℕ → Bool) :
    List (Switch × Bool) :=
  (s.node.loop.switches k).mapIdx fun i n => (n, n.connected && reaches i)

def publishAlerts (s : Station) (alerts : List (Switch × Bool)) : Broker :=
  alerts.foldl
    (fun b alert =>
      if alert.2 then b.accept (alertMessage s.mqtt.nodeId alert.1.alert)
      else b)
    s.broker

def apply (s : Station) : StationEvent → Station
  | .iterate k reaches =>
      { s with
        node := s.node.iterate k
        broker := s.publishAlerts (s.attempts k reaches) }
  | .connectionLost =>
      let broker :=
        match s.broker.will with
        | some m => s.broker.accept m
        | none => s.broker
      { s with
        mqtt := { s.mqtt with isConnected := false }
        broker := { broker with will := none } }
  | .connected =>
      { s with
        mqtt := { s.mqtt with isConnected := true }
        broker := { s.broker with will := s.mqtt.connOpts.will } }

def run (s : Station) (events : List StationEvent) : Station :=
  events.foldl apply s

/-- Every switch of a run, in order, with whether its alert reached the broker. -/
def alertsOf (s : Station) : List StationEvent → List (Switch × Bool)
  | [] => []
  | .iterate k reaches :: events =>
      s.attempts k reaches ++ (s.apply (.iterate k reaches)).alertsOf events
  | .connectionLost :: events => (s.apply .connectionLost).alertsOf events
  | .connected :: events => (s.apply .connected).alertsOf events

/-! ## Alerts of a run -/

/-- The payload that some delivered alerts leave on the status topic. -/
def statusAfter (nodeId : String) (before : Option String)
    (alerts : List (Switch × Bool)) : Option String :=
  ((alerts.filter Prod.snd).getLast?.map
    fun alert => alertPayload nodeId alert.1.alert).or before

theorem statusAfter_append (nodeId : String) (before : Option String)
    (first second : List (Switch × Bool)) :
    statusAfter nodeId before (first ++ second) =
      statusAfter nodeId (statusAfter nodeId before first) second := by
  unfold statusAfter
  rw [List.filter_append, List.getLast?_append]
  cases (second.filter Prod.snd).getLast? <;> simp

theorem publishAlerts_will (s : Station) (alerts : List (Switch × Bool)) :
    (s.publishAlerts alerts).will = s.broker.will := by
  unfold publishAlerts
  induction alerts using List.reverseRecOn with
  | nil => rfl
  | append_singleton alerts alert ih =>
      rw [List.foldl_append, List.foldl_cons, List.foldl_nil]
      split_ifs
      · exact ih
      · exact ih

theorem publishAlerts_retained (s : Station) (alerts : List (Switch × Bool)) :
    (s.publishAlerts alerts).retained (statusTopic s.mqtt.nodeId) =
      statusAfter s.mqtt.nodeId
        (s.broker.retained (statusTopic s.mqtt.nodeId)) alerts := by
  unfold publishAlerts
  induction alerts using List.reverseRecOn with
  | nil => rfl
  | append_singleton alerts alert ih =>
      rw [List.foldl_append, List.foldl_cons, List.foldl_nil,
        statusAfter_append, ← ih]
      cases hreach : alert.2 with
      | false => simp [statusAfter, hreach]
      | true => simp [statusAfter, hreach, Broker.accept, alertMessage]

/-! ## The will -/

/-- The options that `connect` builds have no will, and the reconnections use
them again. -/
structure NoWill (s : Station) : Prop where
  options : s.mqtt.connOpts.will = none
  session : s.broker.will = none

theorem start_noWill (retained : String → Option String) (address : BrokerAddress)
    (nodeId : String) (accepted : Bool) (major : MajorApproach) (armedMs : ℤ)
    (now : TimePoint) :
    (start retained address nodeId accepted major armedMs now).NoWill where
  options := rfl
  session := by cases accepted <;> rfl

theorem NoWill.apply {s : Station} (hs : s.NoWill) (event : StationEvent) :
    (s.apply event).NoWill := by
  cases event with
  | iterate k reaches =>
      exact ⟨hs.options, (publishAlerts_will s _).trans hs.session⟩
  | connectionLost => exact ⟨hs.options, rfl⟩
  | connected => exact ⟨hs.options, hs.options⟩

theorem NoWill.apply_connectionLost {s : Station} (hs : s.NoWill) :
    (s.apply .connectionLost).broker.retained = s.broker.retained := by
  simp only [Station.apply, hs.session]

theorem apply_nodeId (s : Station) (event : StationEvent) :
    (s.apply event).mqtt.nodeId = s.mqtt.nodeId := by
  cases event <;> rfl

/-! ## Whole runs -/

/-- The iterations of a run. -/
def iterations : List StationEvent → List Iteration :=
  List.filterMap fun event =>
    match event with
    | .iterate k _ => some k
    | .connectionLost => none
    | .connected => none

theorem run_node (s : Station) (events : List StationEvent) :
    (s.run events).node = Node.machine.run s.node (iterations events) := by
  induction events generalizing s with
  | nil => rfl
  | cons event events ih =>
      have hrest := ih (s.apply event)
      cases event with
      | iterate k reaches => exact hrest
      | connectionLost => exact hrest
      | connected => exact hrest

theorem map_fst_attempts (s : Station) (k : Iteration) (reaches : ℕ → Bool) :
    (s.attempts k reaches).map Prod.fst = s.node.loop.switches k := by
  refine List.ext_getElem? fun i => ?_
  rw [attempts, List.getElem?_map, List.getElem?_mapIdx, Option.map_map]
  cases (s.node.loop.switches k)[i]? <;> rfl

theorem map_fst_alertsOf (s : Station) (events : List StationEvent) :
    (s.alertsOf events).map Prod.fst = s.node.switchesOf (iterations events) := by
  induction events generalizing s with
  | nil => rfl
  | cons event events ih =>
      have hrest := ih (s.apply event)
      cases event with
      | iterate k reaches =>
          rw [alertsOf, List.map_append, map_fst_attempts, hrest]
          rfl
      | connectionLost => exact hrest
      | connected => exact hrest

theorem NoWill.run_retained {s : Station} (hs : s.NoWill)
    (events : List StationEvent) :
    (s.run events).broker.retained (statusTopic s.mqtt.nodeId) =
      statusAfter s.mqtt.nodeId
        (s.broker.retained (statusTopic s.mqtt.nodeId)) (s.alertsOf events) := by
  induction events generalizing s with
  | nil => rfl
  | cons event events ih =>
      have hrest := ih (hs.apply event)
      rw [apply_nodeId] at hrest
      cases event with
      | iterate k reaches =>
          rw [alertsOf, statusAfter_append, ← publishAlerts_retained]
          exact hrest
      | connectionLost =>
          rw [hs.apply_connectionLost] at hrest
          exact hrest
      | connected => exact hrest

/-- In every run, with the connection lost and made again at any point, the
status topic holds the last alert that reached the broker, or what it held at the
start; the will is never there to replace it.  So, if the last switch of the mode
was announced, the retained status is online exactly when the layer is not in
emergency mode; and without a switch the layer is not. -/
theorem retained_status (before : String → Option String) (address : BrokerAddress)
    (nodeId : String) (accepted : Bool) (major : MajorApproach) (armedMs : ℤ)
    (now : TimePoint) (events : List StationEvent) :
    let s := start before address nodeId accepted major armedMs now
    let retained := (s.run events).broker.retained (statusTopic nodeId)
    let inEmergency := (s.run events).node.safety.inEmergency
    retained = (((s.alertsOf events).filter Prod.snd).getLast?.map
        fun alert => alertPayload nodeId alert.1.alert).or
          (before (statusTopic nodeId)) ∧
      (∀ n, (s.alertsOf events).getLast? = some (n, true) →
        retained = some (alertPayload nodeId n.alert) ∧
          (n.alert.status = .online ↔ inEmergency = false)) ∧
      (s.alertsOf events = [] →
        retained = before (statusTopic nodeId) ∧ inEmergency = false) := by
  intro s retained inEmergency
  have hretained : retained = (((s.alertsOf events).filter Prod.snd).getLast?.map
      fun alert => alertPayload nodeId alert.1.alert).or
        (before (statusTopic nodeId)) :=
    (start_noWill before address nodeId accepted major armedMs
      now).run_retained events
  have hmode : inEmergency = ((s.alertsOf events).getLast?.map
      fun alert => alert.1.mode).getD false := by
    have hswitches := Node.run_inEmergency major
      (if accepted then some armedMs else none) now (iterations events)
    have halerts : (s.alertsOf events).map Prod.fst =
        s.node.switchesOf (iterations events) := s.map_fst_alertsOf events
    change (s.run events).node.safety.inEmergency = _
    rw [run_node]
    refine hswitches.trans ?_
    rw [show (Node.boot major (if accepted then some armedMs else none)
      now).switchesOf (iterations events) = _ from halerts.symm,
      List.getLast?_map, Option.map_map]
    rfl
  refine ⟨hretained, fun n hlast => ⟨?_, ?_⟩, fun hnone => ⟨?_, ?_⟩⟩
  · obtain ⟨earlier, hsplit⟩ := List.getLast?_eq_some_iff.mp hlast
    rw [hretained, hsplit, List.filter_append]
    simp
  · rw [hmode, hlast]
    simp [Switch.mode]
  · rw [hretained, hnone]
    rfl
  · rw [hmode, hnone]
    rfl

end Station

end Semaforo
