import Semaforo.Phase
import Semaforo.SafetyClock

/-!
# The safety layer

A translation of `edge/src/safety_layer.cpp`.  The configured timings range over
all floating-point values, and `elapsed_s` and the arithmetic on its result are
rounded to `float` as in the code.  The mutex is dropped, every public call being
one atomic step, and so are the log lines.
-/

namespace Semaforo

def minGreenS : ℚ := 5

def yellowS : ℚ := 3

def allRedS : ℚ := 2

def maxGreenS : ℚ := 60

def emergencyGreenS : ℚ := 20

structure Timings where
  minGreen : FloatValue ℚ := .fin minGreenS
  yellow : FloatValue ℚ := .fin yellowS
  allRed : FloatValue ℚ := .fin allRedS
  maxGreen : FloatValue ℚ := .fin maxGreenS
  emergencyGreen : FloatValue ℚ := .fin emergencyGreenS
  deriving DecidableEq, Repr

/-- `SafetyLayer::State`. -/
inductive State where
  | green
  | yellow
  | allRed
  | emergency
  | flashClearance
  | flash
  deriving DecidableEq, Repr

structure ValidatedPhase where
  phase : Phase
  wasModified : Bool
  reason : String
  remainingS : FloatValue ℚ
  deriving DecidableEq, Repr

structure SafetyLayer where
  t : Timings
  major : MajorApproach
  state : State
  applied : Phase
  targetGreen : Phase
  targetValid : Bool
  phaseStart : TimePoint
  emergency : Bool
  ringIdx : ℕ
  stuckPhase : Phase
  deriving DecidableEq, Repr

/-- `kEmergencyRing`. -/
def emergencyRing : List Phase :=
  [.allRed, .greenNS, .yellowNS, .allRed, .greenEW, .yellowEW]

/-- `kEmergencyRing[i]`; the default is never read at an index below the size
of the ring. -/
def ringEntry (i : ℕ) : Phase := emergencyRing.getD i .allRed

def kRingSize : ℕ := emergencyRing.length

def kEmergencyScheduleSanityTimeoutMs : ℚ := 8000

def kEmergencyYellowSanityTimeoutMs : ℚ := 4000

def scheduleTrusted (sched : FloatValue ℚ) : Prop :=
  sched.IsFinite ∧ .fin 0 ≤ sched ∧ sched ≤ .fin maxGreenS

instance : DecidablePred scheduleTrusted := fun sched =>
  inferInstanceAs (Decidable
    (sched.IsFinite ∧ .fin 0 ≤ sched ∧ sched ≤ .fin maxGreenS))

namespace SafetyLayer

def boot (timings : Timings) (major : MajorApproach) (now : TimePoint) :
    SafetyLayer where
  t := timings
  major := major
  state := .allRed
  applied := .allRed
  targetGreen := .greenNS
  targetValid := false
  phaseStart := now
  emergency := false
  ringIdx := 0
  stuckPhase := .allRed

def elapsedS (s : SafetyLayer) (now : TimePoint) : ℚ :=
  floatSeconds (now - s.phaseStart)

def ringDuration (s : SafetyLayer) (p : Phase) : FloatValue ℚ :=
  if isGreen p then s.t.emergencyGreen
  else if isYellow p then s.t.yellow
  else s.t.allRed

def flashClearanceS (s : SafetyLayer) : FloatValue ℚ :=
  if s.t.allRed.IsFinite ∧ .fin 0 < s.t.allRed ∧ s.t.allRed ≤ .fin maxGreenS
  then s.t.allRed
  else .fin allRedS

def remaining (s : SafetyLayer) (sched : FloatValue ℚ) (now : TimePoint) :
    FloatValue ℚ :=
  .stdMax (.fin 0) ((sched - .fin (s.elapsedS now)).map float32)

def makeResult (s : SafetyLayer) (desired : Phase) (now : TimePoint)
    (reason : String) : ValidatedPhase where
  phase := s.applied
  wasModified := s.applied ≠ desired
  reason := reason
  remainingS :=
    match s.state with
    | .green =>
        if .fin (s.elapsedS now) < s.t.minGreen then
          (s.t.minGreen - .fin (s.elapsedS now)).map float32
        else s.remaining s.t.maxGreen now
    | .yellow => s.remaining s.t.yellow now
    | .allRed => s.remaining s.t.allRed now
    | .emergency => s.remaining (s.ringDuration s.applied) now
    | .flashClearance => s.remaining s.flashClearanceS now
    | .flash => .fin 0

def enterFlashClearance (s : SafetyLayer) (stuckPhase : Phase)
    (now : TimePoint) : SafetyLayer :=
  { s with
    stuckPhase := stuckPhase
    state := .flashClearance
    applied := .allRed
    phaseStart := now }

/-- The part of `step_flash` that may move the machine. -/
def flashAdvance (s : SafetyLayer) (now : TimePoint) : SafetyLayer :=
  if s.state = .flashClearance ∧ s.flashClearanceS ≤ .fin (s.elapsedS now) then
    let pattern := flashPhaseFor s.major
    { s with
      state := .flash
      applied := if isFlash pattern then pattern else .flashAllRed
      phaseStart := now }
  else s

def stepFlash (s : SafetyLayer) (now : TimePoint) :
    ValidatedPhase × SafetyLayer :=
  let s := s.flashAdvance now
  ({ phase := s.applied
     wasModified := true
     reason :=
      if s.state = .flash then "terminal FLASH (manual reset required)"
      else "all-red clearance before terminal FLASH"
     remainingS :=
      if s.state = .flash then .fin 0
      else s.remaining s.flashClearanceS now }, s)

def beginYellow (s : SafetyLayer) (targetGreen : Phase) (now : TimePoint) :
    SafetyLayer :=
  { s with
    targetGreen := targetGreen
    targetValid := true
    applied := yellowFor s.applied
    state := .yellow
    phaseStart := now }

/-- `step_normal`, case `State::GREEN`. -/
def stepGreen (s : SafetyLayer) (desired : Phase) (now : TimePoint) :
    ValidatedPhase × SafetyLayer :=
  let el := s.elapsedS now
  if ¬ scheduleTrusted s.t.maxGreen ∧ maxGreenS ≤ el then
    (s.enterFlashClearance s.applied now).stepFlash now
  else
    let want := if isGreen desired then desired else s.applied
    if s.t.maxGreen ≤ .fin el then
      let dest := if want ≠ s.applied then want else oppositeGreen s.applied
      let s := s.beginYellow dest now
      (s.makeResult desired now "max-green watchdog forced switch", s)
    else if want ≠ s.applied ∧ s.t.minGreen ≤ .fin el then
      let s := s.beginYellow want now
      (s.makeResult desired now "transition requested → YELLOW", s)
    else if want ≠ s.applied ∧ ¬ s.t.minGreen ≤ .fin el then
      (s.makeResult desired now "min-green not yet elapsed", s)
    else (s.makeResult desired now "steady green", s)

/-- `step_normal`, case `State::YELLOW`. -/
def stepYellow (s : SafetyLayer) (desired : Phase) (now : TimePoint) :
    ValidatedPhase × SafetyLayer :=
  let el := s.elapsedS now
  if ¬ scheduleTrusted s.t.yellow ∧
      kEmergencyYellowSanityTimeoutMs ≤ float32 (el * 1000) then
    (s.enterFlashClearance s.applied now).stepFlash now
  else if s.t.yellow ≤ .fin el then
    let s := { s with
      applied := .allRed
      state := .allRed
      phaseStart := now }
    (s.makeResult desired now "yellow complete → ALL_RED", s)
  else (s.makeResult desired now "amber interval active", s)

/-- The committed target after an all-red tick: a target is accepted only when
none is committed yet. -/
def commitTarget (s : SafetyLayer) (desired : Phase) : SafetyLayer :=
  if ¬ s.targetValid ∧ isGreen desired then
    { s with targetGreen := desired, targetValid := true }
  else s

/-- `step_normal`, case `State::ALL_RED`. -/
def stepAllRed (s : SafetyLayer) (desired : Phase) (now : TimePoint) :
    ValidatedPhase × SafetyLayer :=
  let el := s.elapsedS now
  if ¬ scheduleTrusted s.t.allRed ∧
      kEmergencyScheduleSanityTimeoutMs ≤ float32 (el * 1000) then
    (s.enterFlashClearance s.applied now).stepFlash now
  else
    let s := s.commitTarget desired
    if s.t.allRed ≤ .fin el ∧ s.targetValid then
      let s := { s with
        applied := s.targetGreen
        state := .green
        phaseStart := now }
      (s.makeResult desired now "clearance complete → green", s)
    else
      (s.makeResult desired now
        (if s.targetValid then "all-red clearance active"
          else "all-red steady (awaiting request)"), s)

/-- The result built at the end of `step_emergency`. -/
def emergencyResult (s : SafetyLayer) (now : TimePoint) :
    ValidatedPhase × SafetyLayer :=
  ({ phase := s.applied
     wasModified := true
     reason := "emergency fixed ring"
     remainingS := s.remaining (s.ringDuration s.applied) now }, s)

def stepEmergency (s : SafetyLayer) (now : TimePoint) :
    ValidatedPhase × SafetyLayer :=
  let current := ringEntry s.ringIdx
  let el := s.elapsedS now
  let sched := s.ringDuration current
  if sched ≤ .fin el then
    { s with
      ringIdx := (s.ringIdx + 1) % kRingSize
      applied := ringEntry ((s.ringIdx + 1) % kRingSize)
      phaseStart := now }.emergencyResult now
  else if ¬ scheduleTrusted sched ∧ isGreen current ∧
      kEmergencyScheduleSanityTimeoutMs ≤ float32 (el * 1000) then
    (s.enterFlashClearance current now).stepFlash now
  else if ¬ scheduleTrusted sched ∧ isYellow current ∧
      kEmergencyYellowSanityTimeoutMs ≤ float32 (el * 1000) then
    (s.enterFlashClearance current now).stepFlash now
  else if ¬ scheduleTrusted sched ∧
      kEmergencyScheduleSanityTimeoutMs ≤ float32 (el * 1000) then
    (s.enterFlashClearance current now).stepFlash now
  else s.emergencyResult now

def stepNormal (s : SafetyLayer) (desired : Phase) (now : TimePoint) :
    ValidatedPhase × SafetyLayer :=
  match s.state with
  | .green => s.stepGreen desired now
  | .yellow => s.stepYellow desired now
  | .allRed => s.stepAllRed desired now
  | .emergency => s.stepEmergency now
  | .flashClearance => s.stepFlash now
  | .flash => s.stepFlash now

/-- One tick: the phase to apply now, and the layer after the call. -/
def validate (s : SafetyLayer) (desired : Phase) (now : TimePoint) :
    ValidatedPhase × SafetyLayer :=
  if s.state = .flashClearance ∨ s.state = .flash then s.stepFlash now
  else if s.emergency then s.stepEmergency now
  else s.stepNormal desired now

def setEmergencyMode (s : SafetyLayer) (on : Bool) (now : TimePoint) :
    SafetyLayer :=
  if s.state = .flashClearance ∨ s.state = .flash then s
  else if on = s.emergency then s
  else if on then
    { s with
      emergency := on
      state := .emergency
      ringIdx := 0
      applied := ringEntry 0
      phaseStart := now }
  else
    { s with
      emergency := on
      state := .allRed
      applied := .allRed
      targetValid := false
      phaseStart := now }

def inEmergency (s : SafetyLayer) : Bool := s.emergency

def reset (s : SafetyLayer) (now : TimePoint) : SafetyLayer :=
  { s with
    state := .allRed
    applied := .allRed
    targetValid := false
    emergency := false
    ringIdx := 0
    stuckPhase := .allRed
    phaseStart := now }

def getCurrentPhase (s : SafetyLayer) : Phase := s.applied

end SafetyLayer

end Semaforo
