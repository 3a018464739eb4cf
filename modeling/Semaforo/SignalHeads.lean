import Semaforo.SafetyLayer
import Semaforo.TimedRun
import Mathlib.Algebra.Order.Archimedean.Basic
import Mathlib.Data.Rat.Floor
import Mathlib.Tactic

/-!
# The signal heads

A translation of `SimulationSignalController` from
`edge/src/signal_controller.cpp`.  The control loop puts the validated phase on
the heads again in every iteration, and a phase that is already there must
neither touch the lamps nor restart the flash; so what the heads show is decided
by the phase and by the instant at which it came on.
-/

namespace Semaforo

structure SignalHead where
  red : Bool := false
  yellow : Bool := false
  green : Bool := false
  leftArrow : Bool := false
  flashing : Bool := false
  deriving DecidableEq, Repr

structure SignalState where
  northSouth : SignalHead
  eastWest : SignalHead
  currentPhase : Phase
  phaseStart : TimePoint
  deriving DecidableEq, Repr

/-- `FLASH_HALF_PERIOD`, in milliseconds. -/
def flashHalfPeriod : ℤ := 500

/-- `flash_lamp_lit`, with the division and the remainder of C++. -/
def flashLampLit (sincePhaseStart : ℤ) : Bool :=
  (sincePhaseStart.tdiv flashHalfPeriod).tmod 2 = 0

/-- `duration_cast<milliseconds>` rounds towards zero. -/
def toMilliseconds (d : ℚ) : ℤ :=
  if 0 ≤ d then ⌊d * 1000⌋ else ⌈d * 1000⌉

inductive SignalCall where
  | setPhase (phase : Phase)
  | setEmergencyFlash
  deriving DecidableEq, Repr

structure SignalEvent where
  call : SignalCall
  now : TimePoint
  deriving DecidableEq, Repr

namespace SignalState

def setEmergencyFlash (_ : SignalState) (now : TimePoint) : SignalState where
  currentPhase := .flashAllRed
  phaseStart := now
  northSouth :=
    { red := true, yellow := false, green := false, leftArrow := false,
      flashing := true }
  eastWest :=
    { red := true, yellow := false, green := false, leftArrow := false,
      flashing := true }

/-- The constructor. -/
def boot (now : TimePoint) : SignalState :=
  { northSouth := {}
    eastWest := {}
    currentPhase := .allRed
    phaseStart := now : SignalState }.setEmergencyFlash now

def setPhase (s : SignalState) (phase : Phase) (now : TimePoint) :
    Bool × SignalState :=
  if phase = s.currentPhase then (true, s)
  else
    let s := { s with currentPhase := phase, phaseStart := now }
    let s := { s with northSouth := {}, eastWest := {} }
    match phase with
    | .greenNS =>
        (true, { s with northSouth.green := true, eastWest.red := true })
    | .yellowNS =>
        (true, { s with northSouth.yellow := true, eastWest.red := true })
    | .greenEW =>
        (true, { s with northSouth.red := true, eastWest.green := true })
    | .yellowEW =>
        (true, { s with northSouth.red := true, eastWest.yellow := true })
    | .greenNSLeft =>
        (true, { s with northSouth.leftArrow := true, eastWest.red := true })
    | .greenEWLeft =>
        (true, { s with northSouth.red := true, eastWest.leftArrow := true })
    | .allRed =>
        (true, { s with northSouth.red := true, eastWest.red := true })
    | .flashYellowNS =>
        (true, { s with
          northSouth.yellow := true, northSouth.flashing := true,
          eastWest.red := true, eastWest.flashing := true })
    | .flashYellowEW =>
        (true, { s with
          northSouth.red := true, northSouth.flashing := true,
          eastWest.yellow := true, eastWest.flashing := true })
    | .flashAllRed =>
        (true, { s with
          northSouth.red := true, northSouth.flashing := true,
          eastWest.red := true, eastWest.flashing := true })

def getCurrentPhase (s : SignalState) : Phase := s.currentPhase

end SignalState

/-- The dark half of a flashing head.  The arrow is not touched. -/
def SignalHead.darkened (h : SignalHead) : SignalHead :=
  { h with red := false, yellow := false, green := false }

namespace SignalState

def getSignalState (s : SignalState) (now : TimePoint) : SignalState :=
  if ¬ flashLampLit (toMilliseconds (now - s.phaseStart)) then
    { s with
      northSouth :=
        if s.northSouth.flashing then s.northSouth.darkened else s.northSouth
      eastWest :=
        if s.eastWest.flashing then s.eastWest.darkened else s.eastWest }
  else s

def apply (s : SignalState) (e : SignalEvent) : SignalState :=
  match e.call with
  | .setPhase phase => (s.setPhase phase e.now).2
  | .setEmergencyFlash => s.setEmergencyFlash e.now

def machine : Machine SignalState SignalEvent TimePoint where
  step := apply
  time := SignalEvent.now

def head (s : SignalState) : Axis → SignalHead
  | .ns => s.northSouth
  | .ew => s.eastWest

end SignalState

/-! ## What a phase means -/

inductive Aspect where
  | red
  | yellow
  | green
  | leftArrow
  deriving DecidableEq, Repr

/-- The one lamp that a phase lights on the head of an axis. -/
def Phase.aspect : Phase → Axis → Aspect
  | .greenNS, .ns => .green
  | .greenNSLeft, .ns => .leftArrow
  | .yellowNS, .ns => .yellow
  | .flashYellowNS, .ns => .yellow
  | .greenEW, .ew => .green
  | .greenEWLeft, .ew => .leftArrow
  | .yellowEW, .ew => .yellow
  | .flashYellowEW, .ew => .yellow
  | _, _ => .red

def Aspect.head (flashing : Bool) : Aspect → SignalHead
  | .red => { red := true, flashing := flashing }
  | .yellow => { yellow := true, flashing := flashing }
  | .green => { green := true, flashing := flashing }
  | .leftArrow => { leftArrow := true, flashing := flashing }

/-- The head of an axis when a phase has been on for `since` seconds: one lamp,
or none in the dark half-second of a flash. -/
def Phase.shownAfter (p : Phase) (a : Axis) (since : ℚ) : SignalHead :=
  if isFlash p = true ∧ ¬ Even ⌊2 * since⌋ then { flashing := true }
  else (p.aspect a).head (isFlash p)

/-! ## The square wave -/

theorem toMilliseconds_of_nonneg {d : ℚ} (hd : 0 ≤ d) :
    toMilliseconds d = ⌊d * 1000⌋ := if_pos hd

theorem toMilliseconds_ediv {d : ℚ} (hd : 0 ≤ d) :
    toMilliseconds d / flashHalfPeriod = ⌊2 * d⌋ := by
  rw [toMilliseconds_of_nonneg hd]
  have hfloor := Int.floor_div_natCast (d * 1000) 500
  have hhalf : d * 1000 / ((500 : ℕ) : ℚ) = 2 * d := by
    push_cast
    ring
  rw [hhalf] at hfloor
  exact hfloor.symm

/-- Half a second lit and half a second dark, from the start of the phase. -/
theorem flashLampLit_iff {d : ℚ} (hd : 0 ≤ d) :
    flashLampLit (toMilliseconds d) = true ↔ Even ⌊2 * d⌋ := by
  have hms : 0 ≤ toMilliseconds d := by
    rw [toMilliseconds_of_nonneg hd]
    exact Int.floor_nonneg.mpr (by positivity)
  have hhalf : 0 ≤ toMilliseconds d / flashHalfPeriod :=
    Int.ediv_nonneg hms (by decide)
  unfold flashLampLit
  rw [decide_eq_true_iff, Int.tdiv_eq_ediv_of_nonneg hms,
    Int.tmod_eq_emod_of_nonneg hhalf, toMilliseconds_ediv hd,
    Int.even_iff]

namespace SignalState

/-- The lamps are those of the phase in force. -/
def Indicates (s : SignalState) : Prop :=
  ∀ a, s.head a = (s.currentPhase.aspect a).head (isFlash s.currentPhase)

theorem setEmergencyFlash_indicates (s : SignalState) (now : TimePoint) :
    (s.setEmergencyFlash now).Indicates := by
  intro a
  cases a <;> rfl

theorem boot_indicates (now : TimePoint) : (boot now).Indicates :=
  setEmergencyFlash_indicates _ now

theorem setPhase_same {s : SignalState} {phase : Phase}
    (hsame : phase = s.currentPhase) (now : TimePoint) :
    s.setPhase phase now = (true, s) := if_pos hsame

/-- A phase other than the one in force comes on with a fresh timer and its own
lamps, whatever was lit before. -/
theorem setPhase_changes {s : SignalState} {phase : Phase}
    (hne : phase ≠ s.currentPhase) (now : TimePoint) :
    (s.setPhase phase now).2.currentPhase = phase ∧
      (s.setPhase phase now).2.phaseStart = now ∧
      (s.setPhase phase now).2.Indicates := by
  unfold setPhase
  rw [if_neg hne]
  cases phase <;> exact ⟨rfl, rfl, fun a => by cases a <;> rfl⟩

theorem setPhase_currentPhase (s : SignalState) (phase : Phase)
    (now : TimePoint) : (s.setPhase phase now).2.currentPhase = phase := by
  by_cases hsame : phase = s.currentPhase
  · rw [setPhase_same hsame, hsame]
  · exact (setPhase_changes hsame now).1

theorem Indicates.setPhase {s : SignalState} (hs : s.Indicates)
    (phase : Phase) (now : TimePoint) : (s.setPhase phase now).2.Indicates := by
  by_cases hsame : phase = s.currentPhase
  · rw [setPhase_same hsame]
    exact hs
  · exact (setPhase_changes hsame now).2.2

theorem Indicates.apply {s : SignalState} (hs : s.Indicates)
    (e : SignalEvent) : (s.apply e).Indicates := by
  obtain ⟨call, now⟩ := e
  cases call with
  | setPhase phase => exact hs.setPhase phase now
  | setEmergencyFlash => exact setEmergencyFlash_indicates s now

theorem run_indicates (b : TimePoint) (events : List SignalEvent) :
    (machine.run (boot b) events).Indicates :=
  machine.run_invariant (fun _ e hs => hs.apply e) events (boot_indicates b)

/-! ## Reading the heads -/

theorem getSignalState_head (s : SignalState) (now : TimePoint) (a : Axis) :
    (s.getSignalState now).head a =
      if (s.head a).flashing = true ∧
          flashLampLit (toMilliseconds (now - s.phaseStart)) = false then
        (s.head a).darkened
      else s.head a := by
  unfold getSignalState
  cases hlit : flashLampLit (toMilliseconds (now - s.phaseStart)) <;>
    cases a <;> simp [head]

theorem Indicates.getSignalState {s : SignalState} (hs : s.Indicates)
    {now : TimePoint} (hnow : s.phaseStart ≤ now) (a : Axis) :
    (s.getSignalState now).head a =
      s.currentPhase.shownAfter a (now - s.phaseStart) := by
  have hlit := flashLampLit_iff (sub_nonneg.mpr hnow)
  have hdark : flashLampLit (toMilliseconds (now - s.phaseStart)) = false ↔
      ¬ Even ⌊2 * (now - s.phaseStart)⌋ := by
    rw [← hlit, Bool.not_eq_true]
  have hflashing : ∀ x : Aspect, (x.head (isFlash s.currentPhase)).flashing =
      isFlash s.currentPhase := by
    intro x
    cases x <;> rfl
  rw [getSignalState_head, hs a]
  simp only [hflashing, hdark, Phase.shownAfter]
  split_ifs with h
  · rw [h.1]
    cases hphase : s.currentPhase <;> cases a <;>
      simp [hphase, isFlash, Phase.aspect, Aspect.head, SignalHead.darkened] at h ⊢
  · rfl

theorem run_reasserted {s : SignalState} {p : Phase}
    (hp : s.currentPhase = p) (instants : List TimePoint) :
    machine.run s (instants.map fun now => ⟨.setPhase p, now⟩) = s := by
  induction instants with
  | nil => rfl
  | cons now instants ih =>
      rw [List.map_cons, Machine.run_cons]
      change machine.run (s.setPhase p now).2 _ = s
      rw [setPhase_same hp.symm]
      exact ih

/-- After any calls, a phase that comes on at `entered` and is put on the heads
again at any instants shows one lamp on each axis, or flashes its two lamps half
a second on and half a second off, counted from `entered`. -/
theorem sustained_display (b : TimePoint) (before : List SignalEvent)
    (p : Phase) (entered : TimePoint) (reasserted : List TimePoint)
    (now : TimePoint) (a : Axis)
    (hcomes : (machine.run (boot b) before).currentPhase ≠ p)
    (hnow : entered ≤ now) :
    ((machine.run (boot b) (before ++ ⟨.setPhase p, entered⟩ ::
      reasserted.map fun again => ⟨.setPhase p, again⟩)).getSignalState
        now).head a = p.shownAfter a (now - entered) := by
  rw [Machine.run_append, Machine.run_cons]
  obtain ⟨hphase, hstart, hindicates⟩ := setPhase_changes hcomes.symm entered
  change ((machine.run ((machine.run (boot b) before).setPhase p entered).2
    _).getSignalState now).head a = _
  rw [run_reasserted hphase, hindicates.getSignalState (hstart.le.trans hnow),
    hphase, hstart]

theorem sustained_display_flash :
    ((machine.run (boot 0) ([⟨.setPhase .greenNS, 1⟩] ++
      ⟨.setPhase .flashYellowEW, 3⟩ ::
        [7 / 2, 19 / 5].map fun again => ⟨.setPhase .flashYellowEW, again⟩)
      ).getSignalState (37 / 10)).head .ew =
        Phase.flashYellowEW.shownAfter .ew (37 / 10 - 3) :=
  sustained_display 0 _ .flashYellowEW 3 _ (37 / 10) .ew (by decide)
    (by norm_num)

end SignalState

end Semaforo
