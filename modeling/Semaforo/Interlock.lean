import Semaforo.SafetyLayer
import Mathlib.Tactic

/-!
# The interlock as an abstract machine

What the safety layer is for, stated without its flags: at every moment the
intersection is in one sub-phase, and a sub-phase knows exactly the data it
needs.  A green, the target of an amber and the position in the emergency ring
are values of their own types, so a green that is not a green or a ring index
out of range cannot be written down.  `Interlock.Step` says which move a call
of the public interface may make; the timer restarts exactly when the
sub-phase changes, and is read through `floatSeconds`.
-/

namespace Semaforo

inductive Call where
  | validate (desired : Phase)
  | setEmergencyMode (on : Bool)
  | reset
  deriving DecidableEq, Repr

structure Event where
  call : Call
  now : TimePoint
  deriving DecidableEq, Repr

inductive SubPhase where
  | green (g : Green)
  | amber (outgoing : Axis) (target : Green)
  | clearance (target : Option Green)
  | ring (i : Fin 6)
  | flashClearance
  | flash
  deriving DecidableEq, Repr

/-- Who is in charge: the requests, the fixed ring, or nobody any more. -/
inductive Mode where
  | normal
  | ring
  | flashing
  deriving DecidableEq, Repr

namespace Timings

def ringSchedule (t : Timings) : Fin 6 → FloatValue ℚ
  | 0 => t.allRed
  | 1 => t.emergencyGreen
  | 2 => t.yellow
  | 3 => t.allRed
  | 4 => t.emergencyGreen
  | 5 => t.yellow

theorem ringSchedule_of {P : FloatValue ℚ → Prop} {t : Timings}
    (hred : P t.allRed) (hgreen : P t.emergencyGreen) (hamber : P t.yellow)
    (i : Fin 6) : P (t.ringSchedule i) := by
  fin_cases i
  · exact hred
  · exact hgreen
  · exact hamber
  · exact hred
  · exact hgreen
  · exact hamber

/-- The clearance before the terminal flash, in seconds: the configured
all-red when it is usable and the built-in one otherwise. -/
def flashClearance (t : Timings) : ℚ :=
  match t.allRed with
  | .fin a => if 0 < a ∧ a ≤ maxGreenS then a else allRedS
  | _ => allRedS

theorem flashClearance_pos (t : Timings) : 0 < t.flashClearance := by
  unfold flashClearance
  split
  · split_ifs with h
    · exact h.1
    · norm_num [allRedS]
  · norm_num [allRedS]

theorem flashClearance_le (t : Timings) : t.flashClearance ≤ maxGreenS := by
  unfold flashClearance
  split
  · split_ifs with h
    · exact h.2
    · norm_num [allRedS, maxGreenS]
  · norm_num [allRedS, maxGreenS]

end Timings

namespace SubPhase

def mode : SubPhase → Mode
  | green _ => .normal
  | amber _ _ => .normal
  | clearance _ => .normal
  | ring _ => .ring
  | flashClearance => .flashing
  | flash => .flashing

def target? : SubPhase → Option Green
  | green g => some g
  | amber _ h => some h
  | clearance c => c
  | ring _ => none
  | flashClearance => none
  | flash => none

def display (major : MajorApproach) : SubPhase → Phase
  | green g => g.phase
  | amber a _ => a.amber
  | clearance _ => .allRed
  | ring i => ringEntry i
  | flashClearance => .allRed
  | flash => flashPhaseFor major

def schedule (t : Timings) : SubPhase → FloatValue ℚ
  | green _ => t.maxGreen
  | amber _ _ => t.yellow
  | clearance _ => t.allRed
  | ring i => t.ringSchedule i
  | flashClearance => .fin t.flashClearance
  | flash => .posInf

/-- A reading of `el` seconds is past the timeout after which a sub-phase with an
untrusted schedule is given up. -/
def TimedOut (el : ℚ) : SubPhase → Prop
  | green _ => maxGreenS ≤ el
  | amber _ _ => kEmergencyYellowSanityTimeoutMs ≤ float32 (el * 1000)
  | clearance _ => kEmergencyScheduleSanityTimeoutMs ≤ float32 (el * 1000)
  | ring i =>
      if isYellow (ringEntry i) then
        kEmergencyYellowSanityTimeoutMs ≤ float32 (el * 1000)
      else kEmergencyScheduleSanityTimeoutMs ≤ float32 (el * 1000)
  | flashClearance => 0 ≤ el
  | flash => 0 ≤ el

theorem timedOut_of_maxGreenS_le {el : ℚ} (hel : maxGreenS ≤ el) (p : SubPhase) :
    p.TimedOut el := by
  have hms : float32 (maxGreenS * 1000) ≤ float32 (el * 1000) :=
    float32_mono (by linarith)
  have hyellow : kEmergencyYellowSanityTimeoutMs ≤ float32 (maxGreenS * 1000) := by
    decide +kernel
  have hred : kEmergencyScheduleSanityTimeoutMs ≤ float32 (maxGreenS * 1000) := by
    decide +kernel
  have hpos : (0 : ℚ) ≤ maxGreenS := by norm_num [maxGreenS]
  cases p with
  | green g => exact hel
  | amber o h => exact hyellow.trans hms
  | clearance c => exact hred.trans hms
  | ring i =>
      simp only [TimedOut]
      split_ifs
      · exact hyellow.trans hms
      · exact hred.trans hms
  | flashClearance => exact hpos.trans hel
  | flash => exact hpos.trans hel

/-- The watchdog fires: the schedule is corrupt and its timeout has passed. -/
def Overdue (t : Timings) (el : ℚ) (p : SubPhase) : Prop :=
  ¬ scheduleTrusted (p.schedule t) ∧ p.TimedOut el

end SubPhase

/-- The target committed after a clearance tick: the first green request. -/
def commit (target : Option Green) (desired : Phase) : Option Green :=
  target.or (Green.ofPhase? desired)

def Green.forced (g : Green) (desired : Phase) : Green :=
  match Green.ofPhase? desired with
  | some h => if h = g then g.opposite else h
  | none => g.opposite

/-- A green held for a reading of `el` seconds gives way to the target `h`. -/
inductive Green.Yields (t : Timings) (desired : Phase) (el : ℚ) (g : Green) :
    Green → Prop where
  | forced (hmax : t.maxGreen ≤ .fin el) :
      Yields t desired el g (g.forced desired)
  | requested {h : Green} (hmax : ¬ t.maxGreen ≤ .fin el)
      (hmin : t.minGreen ≤ .fin el)
      (hdesired : desired = h.phase) (hne : h ≠ g) :
      Yields t desired el g h

namespace SubPhase

/-- The moves that end a sub-phase held for a reading of `el` seconds. -/
inductive Leaves (t : Timings) (desired : Phase) (el : ℚ) :
    SubPhase → SubPhase → Prop where
  | greenOver {g h : Green} (hlive : ¬ Overdue t el (green g))
      (hyields : g.Yields t desired el h) :
      Leaves t desired el (green g) (amber g.axis h)
  | amberOver {a : Axis} {h : Green} (hlive : ¬ Overdue t el (amber a h))
      (hdue : t.yellow ≤ .fin el) :
      Leaves t desired el (amber a h) (clearance (some h))
  | clearanceOver {c : Option Green} {h : Green}
      (hlive : ¬ Overdue t el (clearance c)) (hdue : t.allRed ≤ .fin el)
      (hcommit : commit c desired = some h) :
      Leaves t desired el (clearance c) (green h)
  | ringOver {i : Fin 6} (hdue : t.ringSchedule i ≤ .fin el) :
      Leaves t desired el (ring i) (ring (i + 1))
  | escalate {p : SubPhase} (hmode : p.mode ≠ .flashing)
      (hover : Overdue t el p)
      (hring : p.mode = .ring → ¬ p.schedule t ≤ .fin el) :
      Leaves t desired el p flashClearance
  | flashOver (hdue : t.flashClearance ≤ el) :
      Leaves t desired el flashClearance flash

/-- The ticks that leave the sub-phase and its timer running; only the target
of a clearance may be filled in. -/
inductive Stays (t : Timings) (desired : Phase) (el : ℚ) :
    SubPhase → SubPhase → Prop where
  | green {g : Green} (hlive : ¬ Overdue t el (green g))
      (hmax : ¬ t.maxGreen ≤ .fin el)
      (hwait : ∀ h : Green, desired = h.phase → h ≠ g →
        ¬ t.minGreen ≤ .fin el) :
      Stays t desired el (green g) (green g)
  | amber {a : Axis} {h : Green} (hlive : ¬ Overdue t el (amber a h))
      (hnot : ¬ t.yellow ≤ .fin el) :
      Stays t desired el (amber a h) (amber a h)
  | clearance {c : Option Green} (hlive : ¬ Overdue t el (clearance c))
      (hnot : t.allRed ≤ .fin el → commit c desired = none) :
      Stays t desired el (clearance c) (clearance (commit c desired))
  | ring {i : Fin 6} (hlive : ¬ Overdue t el (ring i))
      (hnot : ¬ t.ringSchedule i ≤ .fin el) :
      Stays t desired el (ring i) (ring i)
  | flashClearance (hnot : ¬ t.flashClearance ≤ el) :
      Stays t desired el flashClearance flashClearance
  | flash : Stays t desired el flash flash

def Ignores (on : Bool) (p : SubPhase) : Prop :=
  p.mode = .flashing ∨ (p.mode = .normal ∧ on = false) ∨
    (p.mode = .ring ∧ on = true)

end SubPhase

structure Interlock where
  sub : SubPhase
  since : TimePoint
  deriving DecidableEq, Repr

inductive Interlock.Step (t : Timings) :
    Interlock → Event → Interlock → Prop where
  | leave {p q : SubPhase} {b now : TimePoint} {desired : Phase}
      (hleaves : p.Leaves t desired (floatSeconds (now - b)) q) :
      Step t ⟨p, b⟩ ⟨.validate desired, now⟩ ⟨q, now⟩
  | stay {p q : SubPhase} {b now : TimePoint} {desired : Phase}
      (hstays : p.Stays t desired (floatSeconds (now - b)) q) :
      Step t ⟨p, b⟩ ⟨.validate desired, now⟩ ⟨q, b⟩
  | engage {p : SubPhase} {b now : TimePoint} (hmode : p.mode = .normal) :
      Step t ⟨p, b⟩ ⟨.setEmergencyMode true, now⟩ ⟨.ring 0, now⟩
  | release {i : Fin 6} {b now : TimePoint} :
      Step t ⟨.ring i, b⟩ ⟨.setEmergencyMode false, now⟩
        ⟨.clearance none, now⟩
  | ignore {p : SubPhase} {b now : TimePoint} {on : Bool}
      (hignores : p.Ignores on) :
      Step t ⟨p, b⟩ ⟨.setEmergencyMode on, now⟩ ⟨p, b⟩
  | reset {a : Interlock} {now : TimePoint} :
      Step t a ⟨.reset, now⟩ ⟨.clearance none, now⟩

end Semaforo
