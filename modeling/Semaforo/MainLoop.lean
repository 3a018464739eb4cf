import Semaforo.Commands
import Semaforo.TerminalFlash
import Mathlib.Tactic

/-!
# The main loop

One iteration of the control loop of `edge/src/main.cpp`.  The loop owns the
command guard, the latch and the two fault flags, and it never reads the safety
layer; so one iteration is a function of the loop state that returns the calls
it makes on the layer, in program order.  What the environment decides (popped
commands, link state, camera, detector, policy, clock readings) is the input of
the iteration.  Tracking, telemetry and the heartbeat do not act on the
displayed phase and are left out.
-/

namespace Semaforo

structure Popped where
  command : ParsedCommand
  now : TimePoint
  /-- `mqtt.is_connected()`, if the command switches the mode. -/
  connected : Bool := false
  deriving DecidableEq, Repr

/-- What the environment contributes to one iteration. -/
structure Iteration where
  tickNowMs : ℤ
  popped : List Popped := []
  /-- `mqtt.is_connected()` at the silence watchdog. -/
  connected : Bool := false
  silenceNow : TimePoint
  haveFrame : Bool := true
  /-- `last_frame_timer.elapsed_s()`. -/
  sinceFrameS : ℚ := 0
  cameraNow : TimePoint
  /-- `mqtt.is_connected()`, if the camera switches the mode. -/
  cameraConnected : Bool := false
  /-- The result of `detector.detect`. -/
  inferenceOk : Bool := true
  inferenceNow : TimePoint
  /-- `mqtt.is_connected()`, if the detector switches the mode. -/
  inferenceConnected : Bool := false
  /-- The result of `policy.decide`. -/
  policyPhase : Phase
  validateNow : TimePoint
  deriving DecidableEq, Repr

/-- The instants at which the iteration may toggle the emergency mode. -/
def Iteration.readings (k : Iteration) : List TimePoint :=
  k.popped.map Popped.now ++ [k.silenceNow] ++ [k.cameraNow] ++
    [k.inferenceNow]

structure Loop where
  cmdGuard : CommandGuard
  directiveLatch : DirectiveLatch
  isCameraOnline : Bool
  inferenceOnline : Bool
  deriving DecidableEq, Repr

def toggle (on : Bool) (now : TimePoint) : Event := ⟨.setEmergencyMode on, now⟩

namespace Loop

/-- The loop as it is entered; the guard is armed if the broker accepted the
connection, at the given time. -/
def initial (armedMs : Option ℤ) : Loop where
  cmdGuard :=
    match armedMs with
    | some nowMs => CommandGuard.arm {} nowMs
    | none => {}
  directiveLatch := {}
  isCameraOnline := true
  inferenceOnline := true

def exitFallbackIfSafe (l : Loop) (now : TimePoint) : List Event :=
  if l.isCameraOnline ∧ l.inferenceOnline then [toggle false now] else []

/-- The calls that follow a decision of the guard on a popped command. -/
def act (l : Loop) (decision : GuardDecision) (now : TimePoint) : List Event :=
  match decision with
  | .enterFallback => [toggle true now]
  | .exitFallback => l.exitFallbackIfSafe now
  | .none => []

/-- The idempotency gate and the latch. -/
def latch (l : Loop) (parsed : ParsedCommand) (tickNowMs : ℤ) : Loop :=
  if parsed.isActionable then
    let (accepted, cmdGuard) := l.cmdGuard.acceptSequence parsed
    if accepted then
      { l with
        cmdGuard := cmdGuard
        directiveLatch := l.directiveLatch.update parsed.phase tickNowMs }
    else { l with cmdGuard := cmdGuard }
  else l

def pop (tickNowMs : ℤ) (l : Loop) (p : Popped) : Loop × List Event :=
  let (decision, cmdGuard) := l.cmdGuard.onCommand p.command tickNowMs
  let l := { l with cmdGuard := cmdGuard }
  (l.latch p.command tickNowMs, l.act decision p.now)

def drain (tickNowMs : ℤ) : Loop → List Popped → Loop × List Event
  | l, [] => (l, [])
  | l, p :: popped =>
      let (l, calls) := l.pop tickNowMs p
      let (l, later) := l.drain tickNowMs popped
      (l, calls ++ later)

def silenceWatchdog (l : Loop) (k : Iteration) : Loop × List Event :=
  if k.connected then
    let (decision, cmdGuard) := l.cmdGuard.tick k.tickNowMs
    let l := { l with cmdGuard := cmdGuard }
    (l, if decision = .enterFallback then [toggle true k.silenceNow] else [])
  else (l, [])

def acquireFrame (l : Loop) (k : Iteration) : Loop × List Event :=
  if ¬ k.haveFrame then
    if 3 < k.sinceFrameS ∧ l.isCameraOnline then
      ({ l with isCameraOnline := false }, [toggle true k.cameraNow])
    else (l, [])
  else if ¬ l.isCameraOnline then
    ({ l with isCameraOnline := true },
      if ¬ l.cmdGuard.inFallback ∧ l.inferenceOnline then
        [toggle false k.cameraNow]
      else [])
  else (l, [])

def runDetection (l : Loop) (k : Iteration) : Loop × List Event :=
  if l.isCameraOnline then
    if ¬ k.inferenceOk then
      if l.inferenceOnline then
        ({ l with inferenceOnline := false }, [toggle true k.inferenceNow])
      else (l, [])
    else if ¬ l.inferenceOnline then
      ({ l with inferenceOnline := true },
        if l.isCameraOnline ∧ ¬ l.cmdGuard.inFallback then
          [toggle false k.inferenceNow]
        else [])
    else (l, [])
  else (l, [])

/-- Everything an iteration does before it asks for a phase. -/
def handleFaults (l : Loop) (k : Iteration) : Loop × List Event :=
  let (l, drained) := l.drain k.tickNowMs k.popped
  let (l, silence) := l.silenceWatchdog k
  let (l, camera) := l.acquireFrame k
  let (l, inference) := l.runDetection k
  (l, drained ++ silence ++ camera ++ inference)

def directive (l : Loop) (k : Iteration) : Option Phase :=
  if l.isCameraOnline ∧ ¬ l.cmdGuard.inFallback then
    l.directiveLatch.get k.tickNowMs
  else none

def proposedPhase (l : Loop) (k : Iteration) : Phase :=
  if ¬ l.isCameraOnline then .greenNS
  else
    match l.directive k with
    | some phase => phase
    | none => k.policyPhase

end Loop

structure Node where
  loop : Loop
  safety : SafetyLayer
  deriving DecidableEq, Repr

namespace Node

/-- The node as it enters the loop at `now`, with the default timings. -/
def boot (major : MajorApproach) (armedMs : Option ℤ) (now : TimePoint) :
    Node where
  loop := Loop.initial armedMs
  safety := .boot {} major now

def atValidate (n : Node) (k : Iteration) : Node where
  loop := (n.loop.handleFaults k).1
  safety := SafetyLayer.machine.run n.safety (n.loop.handleFaults k).2

def iterate (n : Node) (k : Iteration) : Node :=
  let m := n.atValidate k
  { m with
    safety := (m.safety.validate (m.loop.proposedPhase k) k.validateNow).2 }

/-- The node as a timed machine: an iteration takes effect when its phase is
put on the signal heads. -/
def machine : Machine Node Iteration TimePoint where
  step := iterate
  time := Iteration.validateNow

/-- The phase on the signal heads: by `validate_phase` the one that the last
iteration put there. -/
def shown (n : Node) : Phase := n.safety.getCurrentPhase

end Node

end Semaforo
