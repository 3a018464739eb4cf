import Semaforo.BoundedQueues
import Semaforo.CommandParser
import Semaforo.SilenceWatchdog
import Semaforo.StatusTopic
import Semaforo.TelemetryHandling
import Semaforo.TopicFilter
import Mathlib.Tactic

/-!
# The subscription of the node

The way of a command from the broker into the main loop: the subscription that
`edge/src/main.cpp` makes once, the callback of `edge/src/mqtt_client.cpp` and
the command queue.  A session of the broker holds the subscriptions, and Paho
reconnects with the options of the first connection.
-/

namespace Semaforo

open TopicFilter

structure CommandLink where
  node : Node
  mqtt : MqttClient
  /-- The filters of the client's session at the broker. -/
  subscriptions : List String
  cmdQueue : DropOldestQueue ParsedCommand 64

inductive LinkEvent where
  /-- A message reaches the broker. -/
  | publish (topic : String) (payload : List UInt8) (nowMs : ℤ)
  /-- An iteration of the loop; what it pops is in the queue, the times at which
  it acts on the commands are given. -/
  | iterate (k : Iteration) (popNow : ℕ → TimePoint)
  | connectionLost
  | reconnected

namespace CommandLink

/-- The start of `main`; `granted`: the subscription does not throw. -/
def start (address : BrokerAddress) (nodeId : String) (accepted granted : Bool)
    (major : MajorApproach) (armedMs : ℤ) (now : TimePoint) : CommandLink where
  node := .boot major (if accepted then some armedMs else none) now
  mqtt := (({} : MqttClient).setLwt nodeId).connect address nodeId accepted
  subscriptions := if accepted && granted then [commandTopic nodeId] else []
  cmdQueue := .empty

/-- The iteration with the commands that the queue holds. -/
def fetch (s : CommandLink) (k : Iteration) (popNow : ℕ → TimePoint) : Iteration :=
  { k with
    popped := s.cmdQueue.items.mapIdx fun i command =>
      { command := command, now := popNow i, connected := s.mqtt.isConnected } }

section

variable (parseJson : List UInt8 → Option Json)

/-- `message_arrived`: parsed and queued on the callback thread. -/
def arrive (s : CommandLink) (topic : String) (payload : List UInt8)
    (nowMs : ℤ) : CommandLink :=
  if s.mqtt.isConnected && s.subscriptions.any fun filter => admits filter topic
  then
    { s with
      cmdQueue :=
        s.cmdQueue.push (({} : CommandParser).parse parseJson payload nowMs) }
  else s

def apply (s : CommandLink) : LinkEvent → CommandLink
  | .publish topic payload nowMs => s.arrive parseJson topic payload nowMs
  | .iterate k popNow =>
      { s with
        node := s.node.iterate (s.fetch k popNow)
        cmdQueue := ⟨[], s.cmdQueue.dropped, Nat.zero_le 64⟩ }
  | .connectionLost => { s with mqtt := { s.mqtt with isConnected := false } }
  | .reconnected =>
      if s.mqtt.isConnected then s
      else
        { s with
          mqtt := { s.mqtt with isConnected := true }
          -- a clean session starts without subscriptions, and no one renews them
          subscriptions :=
            if s.mqtt.connOpts.cleanSession then [] else s.subscriptions }

def run (s : CommandLink) (events : List LinkEvent) : CommandLink :=
  events.foldl (apply parseJson) s

/-- The iterations of a run, with the commands that they pop. -/
def iterations (s : CommandLink) : List LinkEvent → List Iteration
  | [] => []
  | .iterate k popNow :: events =>
      s.fetch k popNow ::
        iterations (s.apply parseJson (.iterate k popNow)) events
  | .publish topic payload nowMs :: events =>
      iterations (s.apply parseJson (.publish topic payload nowMs)) events
  | .connectionLost :: events =>
      iterations (s.apply parseJson .connectionLost) events
  | .reconnected :: events =>
      iterations (s.apply parseJson .reconnected) events

/-! ## Runs -/

variable {parseJson}

theorem iterations_cons (s : CommandLink) (event : LinkEvent)
    (events : List LinkEvent) :
    s.iterations parseJson (event :: events) =
      s.iterations parseJson [event] ++
        (s.apply parseJson event).iterations parseJson events := by
  cases event <;> rfl

theorem apply_node (s : CommandLink) (event : LinkEvent) :
    (s.apply parseJson event).node =
      Node.ticks.run s.node (s.iterations parseJson [event]) := by
  cases event with
  | publish topic payload nowMs =>
      unfold apply arrive
      dsimp only
      split_ifs <;> rfl
  | iterate k popNow => rfl
  | connectionLost => rfl
  | reconnected =>
      unfold apply
      dsimp only
      split_ifs <;> rfl

theorem run_node (s : CommandLink) (events : List LinkEvent) :
    (s.run parseJson events).node =
      Node.ticks.run s.node (s.iterations parseJson events) := by
  induction events generalizing s with
  | nil => rfl
  | cons event events ih =>
      rw [iterations_cons, Machine.run_append, ← apply_node]
      exact ih (s.apply parseJson event)

theorem iterations_append (s : CommandLink) (first second : List LinkEvent) :
    s.iterations parseJson (first ++ second) =
      s.iterations parseJson first ++
        (s.run parseJson first).iterations parseJson second := by
  induction first generalizing s with
  | nil => rfl
  | cons event first ih =>
      rw [List.cons_append, iterations_cons, ih, iterations_cons s event first,
        List.append_assoc]
      rfl

/-! ## After the connection was lost -/

/-- The session is clean and no subscription of an open one is left. -/
structure Cut (s : CommandLink) : Prop where
  clean : s.mqtt.connOpts.cleanSession = true
  unsubscribed : s.mqtt.isConnected = true → s.subscriptions = []

theorem Cut.arrive_eq {s : CommandLink} (hs : s.Cut) (topic : String)
    (payload : List UInt8) (nowMs : ℤ) :
    s.arrive parseJson topic payload nowMs = s := by
  unfold arrive
  cases hconnected : s.mqtt.isConnected with
  | false => rfl
  | true => rw [hs.unsubscribed hconnected]; rfl

theorem Cut.apply {s : CommandLink} (hs : s.Cut) (event : LinkEvent) :
    (s.apply parseJson event).Cut := by
  cases event with
  | publish topic payload nowMs =>
      change (s.arrive parseJson topic payload nowMs).Cut
      rwa [hs.arrive_eq]
  | iterate k popNow => exact ⟨hs.clean, hs.unsubscribed⟩
  | connectionLost => exact ⟨hs.clean, fun hconnected => by cases hconnected⟩
  | reconnected =>
      unfold CommandLink.apply
      dsimp only
      split_ifs with hconnected hclean
      · exact hs
      · exact ⟨hs.clean, fun _ => rfl⟩
      · exact absurd hs.clean hclean

theorem apply_cleanSession (s : CommandLink) (event : LinkEvent) :
    (s.apply parseJson event).mqtt.connOpts.cleanSession =
      s.mqtt.connOpts.cleanSession := by
  cases event with
  | publish topic payload nowMs =>
      unfold apply arrive
      dsimp only
      split_ifs <;> rfl
  | iterate k popNow => rfl
  | connectionLost => rfl
  | reconnected =>
      unfold apply
      dsimp only
      split_ifs <;> rfl

theorem run_cleanSession (s : CommandLink) (events : List LinkEvent) :
    (s.run parseJson events).mqtt.connOpts.cleanSession =
      s.mqtt.connOpts.cleanSession := by
  induction events generalizing s with
  | nil => rfl
  | cons event events ih => exact (ih _).trans (s.apply_cleanSession event)

/-- Nothing is left in the queue either. -/
structure Deaf (s : CommandLink) : Prop extends Cut s where
  emptied : s.cmdQueue.items = []

theorem Deaf.apply {s : CommandLink} (hs : s.Deaf) (event : LinkEvent) :
    (s.apply parseJson event).Deaf := by
  refine ⟨hs.toCut.apply event, ?_⟩
  cases event with
  | publish topic payload nowMs =>
      change (s.arrive parseJson topic payload nowMs).cmdQueue.items = []
      rw [hs.toCut.arrive_eq]
      exact hs.emptied
  | iterate k popNow => rfl
  | connectionLost => exact hs.emptied
  | reconnected =>
      unfold CommandLink.apply
      dsimp only
      split_ifs <;> exact hs.emptied

theorem Deaf.unpopped {s : CommandLink} (hs : s.Deaf) (events : List LinkEvent) :
    ∀ k ∈ s.iterations parseJson events, k.popped = [] := by
  induction events generalizing s with
  | nil => exact fun k hk => absurd hk List.not_mem_nil
  | cons event events ih =>
      have hnext : (s.apply parseJson event).Deaf := hs.apply event
      have hrest := ih hnext
      cases event with
      | publish topic payload nowMs => exact hrest
      | iterate k popNow =>
          refine List.forall_mem_cons.mpr ⟨?_, hrest⟩
          rw [fetch, hs.emptied]
          rfl
      | connectionLost => exact hrest
      | reconnected => exact hrest

theorem fetch_commands (s : CommandLink) (k : Iteration) (popNow : ℕ → TimePoint) :
    (s.fetch k popNow).popped.map Popped.command = s.cmdQueue.items := by
  refine List.ext_getElem? fun i => ?_
  rw [fetch, List.getElem?_map, List.getElem?_mapIdx, Option.map_map]
  exact Option.map_id'

/-- The first iteration after the loss pops what was queued by then. -/
theorem Cut.first_popped {s : CommandLink} (hs : s.Cut) {events : List LinkEvent}
    {first : Iteration} {later : List Iteration}
    (h : s.iterations parseJson events = first :: later) :
    first.popped.map Popped.command = s.cmdQueue.items := by
  induction events generalizing s with
  | nil => cases h
  | cons event events ih =>
      have hnext : (s.apply parseJson event).Cut := hs.apply event
      cases event with
      | publish topic payload nowMs =>
          have hpopped := ih hnext h
          change _ = (s.arrive parseJson topic payload nowMs).cmdQueue.items at hpopped
          rwa [hs.arrive_eq] at hpopped
      | iterate k popNow =>
          obtain ⟨rfl, -⟩ := List.cons.inj h
          exact s.fetch_commands k popNow
      | connectionLost =>
          exact ih (s := s.apply parseJson .connectionLost) hnext h
      | reconnected =>
          have hpopped := ih hnext h
          unfold CommandLink.apply at hpopped
          dsimp only at hpopped
          split_ifs at hpopped <;> exact hpopped

/-- Only the first iteration after the loss can still pop commands. -/
theorem Cut.unpopped {s : CommandLink} (hs : s.Cut) {events : List LinkEvent}
    {first : Iteration} {later : List Iteration}
    (h : s.iterations parseJson events = first :: later) :
    ∀ k ∈ later, k.popped = [] := by
  induction events generalizing s with
  | nil => cases h
  | cons event events ih =>
      have hnext : (s.apply parseJson event).Cut := hs.apply event
      cases event with
      | publish topic payload nowMs => exact ih hnext h
      | iterate k popNow =>
          obtain ⟨-, rfl⟩ := List.cons.inj h
          exact Deaf.unpopped ⟨hnext, rfl⟩ events
      | connectionLost => exact ih hnext h
      | reconnected => exact ih hnext h

end

end CommandLink

/-! ## A guard that hears nothing -/

theorem Iteration.hears_of_unpopped {k : Iteration} (h : k.popped = []) :
    k.hears = false := by
  rw [Iteration.hears, h]
  rfl

theorem lastHeardMs_of_unpopped {iterations : List Iteration}
    (h : ∀ k ∈ iterations, k.popped = []) (heardMs : ℤ) :
    lastHeardMs heardMs iterations = heardMs := by
  induction iterations using List.reverseRecOn with
  | nil => rfl
  | append_singleton iterations k ih =>
      have hlast := h k (List.mem_append_right _ (List.mem_singleton_self k))
      rw [lastHeardMs_snoc, Iteration.hears_of_unpopped hlast]
      exact ih fun x hx => h x (List.mem_append_left _ hx)

namespace Node

theorem iterate_inFallback_of_unpopped {n : Node} {k : Iteration}
    (hk : k.popped = []) (h : n.loop.cmdGuard.inFallback = true) :
    (n.iterate k).loop.cmdGuard.inFallback = true := by
  rw [iterate_cmdGuard, Iteration.guardEvents, Iteration.drained, hk]
  split_ifs
  · change (n.loop.cmdGuard.tick k.tickNowMs).2.inFallback = true
    rwa [CommandGuard.tick, if_pos h]
  · exact h

theorem run_inFallback_of_unpopped {n : Node} {iterations : List Iteration}
    (hunpopped : ∀ k ∈ iterations, k.popped = [])
    (h : n.loop.cmdGuard.inFallback = true) :
    (ticks.run n iterations).loop.cmdGuard.inFallback = true := by
  induction iterations generalizing n with
  | nil => exact h
  | cons k iterations ih =>
      obtain ⟨hk, hrest⟩ := List.forall_mem_cons.mp hunpopped
      exact ih hrest (iterate_inFallback_of_unpopped hk h)

end Node

namespace CommandLink

variable {parseJson : List UInt8 → Option Json}

/-- A subscription does not outlive the first connection.  Once that is lost
the first iteration pops what was queued by then and no later one pops anything;
from the first connected iteration on that is later than the silence timeout the
node stays in the fixed cycle for good, whether or not Paho has reconnected. -/
theorem fixed_cycle_after_loss (address : BrokerAddress) (nodeId : String)
    (granted : Bool) (major : MajorApproach) (armedMs : ℤ) (harmed : 0 < armedMs)
    (now : TimePoint) (before after : List LinkEvent)
    (hclock : Node.ticks.Clocked (.boot major (some armedMs) now) armedMs
      ((start address nodeId true granted major armedMs now).iterations parseJson
        (before ++ .connectionLost :: after)))
    (first k : Iteration) (quiet later : List Iteration)
    (hafter : (((start address nodeId true granted major armedMs now).run parseJson
        before).apply parseJson .connectionLost).iterations parseJson after =
      first :: (quiet ++ k :: later))
    (hconnected : k.connected = true)
    (hlate : ({} : GuardConfig).silenceTimeoutMs < k.tickNowMs - first.tickNowMs) :
    first.popped.map Popped.command =
        ((start address nodeId true granted major armedMs now).run parseJson
          before).cmdQueue.items ∧
      (∀ j ∈ quiet ++ k :: later, j.popped = []) ∧
      ((start address nodeId true granted major armedMs now).run parseJson
        (before ++ .connectionLost :: after)).node.InFixedCycle := by
  set s := start address nodeId true granted major armedMs now with hstart
  set lost := (s.run parseJson before).apply parseJson .connectionLost with hlost
  have hcut : lost.Cut := by
    refine ⟨?_, fun hconnected => by cases hconnected⟩
    exact (s.run_cleanSession before).trans rfl
  have hunpopped := hcut.unpopped hafter
  obtain ⟨hquiet, hrest⟩ := List.forall_mem_append.mp hunpopped
  obtain ⟨hk, hlater⟩ := List.forall_mem_cons.mp hrest
  have hall : s.iterations parseJson (before ++ .connectionLost :: after) =
      (s.iterations parseJson before ++ [first]) ++ quiet ++ [k] ++ later := by
    rw [iterations_append, iterations_cons]
    change _ ++ ([] ++ lost.iterations parseJson after) = _
    rw [hafter]
    simp
  rw [hall] at hclock
  obtain ⟨hstretch, hclock⟩ := Node.ticks.admits_append.mp
    (Node.ticks.admits_append.mp hclock).1
  obtain ⟨hearly, hquietClock⟩ := Node.ticks.admits_append.mp hstretch
  have hheard := (Node.boot_listening major harmed now).run hearly
  have hend : Node.ticks.endTime armedMs
      (s.iterations parseJson before ++ [first]) = first.tickNowMs := by
    rw [Machine.endTime, List.foldl_append]
    rfl
  have hold : lastHeardMs armedMs (s.iterations parseJson before ++ [first]) ≤
      first.tickNowMs := by
    rw [← hheard.heard, ← hend]
    exact hheard.sane.heard_le
  have hwaiting := hheard.run hquietClock
  rw [lastHeardMs_of_unpopped hquiet] at hwaiting
  have harbitrated : ((s.run parseJson
      (before ++ .connectionLost :: after)).node).Arbitrated := by
    rw [run_node]
    exact Node.ticks.run_invariant (fun n k hn => hn.iterate k) _
      (Node.boot_arbitrated major (some armedMs) now)
  refine ⟨hcut.first_popped hafter, hunpopped,
    harbitrated.inFixedCycle_iff.mpr ?_⟩
  rw [run_node, hall, Machine.run_append, Machine.run_append, Machine.run_append]
  refine Node.run_inFallback_of_unpopped hlater ?_
  refine (hwaiting.inFallback_iff (Iteration.hears_of_unpopped hk) ?_).mpr
    (Or.inl hconnected)
  omega

/-- The text of a command and the decoder that knows it. -/
def greenText : List UInt8 :=
  CommandParser.commandText ⟨1, by decide⟩ ⟨1000, by decide⟩

def greenDecoder : List UInt8 → Option Json :=
  CommandParser.commandDecoder ⟨1, by decide⟩ ⟨1000, by decide⟩

def address : BrokerAddress where
  broker := "tcp://broker"
  port := 1883

/-- A connected iteration at the given time. -/
def iterateAt (nowMs : ℤ) : Iteration where
  tickNowMs := nowMs
  connected := true
  silenceNow := 0
  cameraNow := 0
  inferenceNow := 0
  policyPhase := .greenNS
  validateNow := 0

def commandArrives (nowMs : ℤ) : LinkEvent :=
  .publish (commandTopic "A") greenText nowMs

/-- One command is popped before the connection is lost and one is queued then;
those that come after the reconnection do not reach the node. -/
theorem fixed_cycle_after_loss_reconnected :
    let queued := CommandParser.parse {} greenDecoder greenText 1500
    let before := [commandArrives 1000, .iterate (iterateAt 1000) fun _ => 0,
      commandArrives 1500]
    let first := { iterateAt 2000 with popped := [⟨queued, 0, true⟩] }
    first.popped.map Popped.command =
        ((start address "A" true true .ns 1000 0).run greenDecoder
          before).cmdQueue.items ∧
      (∀ j ∈ [] ++ iterateAt 12001 :: [iterateAt 12002], j.popped = []) ∧
      ((start address "A" true true .ns 1000 0).run greenDecoder
        (before ++
          .connectionLost :: [.reconnected, .iterate (iterateAt 2000) fun _ => 0,
            commandArrives 2500, .iterate (iterateAt 12001) fun _ => 0,
            commandArrives 12002,
            .iterate (iterateAt 12002) fun _ => 0])).node.InFixedCycle :=
  fixed_cycle_after_loss address "A" true .ns 1000 (by decide) 0 _ _
    (by decide +kernel) _ (iterateAt 12001) [] [iterateAt 12002]
    (by decide +kernel) rfl (by decide)

end CommandLink

end Semaforo
