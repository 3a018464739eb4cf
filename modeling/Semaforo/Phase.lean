import Mathlib.Data.Int.Notation
import Mathlib.Tactic.Common

/-!
# Signal phases

The phases of a four-way intersection, the classification helpers of the
safety layer, and the terminal flash pattern of each major approach.  The
second half names the four green movements as a type of their own, so that
"a green" can be carried as data instead of as a phase with a side condition.
-/

namespace Semaforo

/-- `enum class Phase`, in the order of the source. -/
inductive Phase where
  | allRed
  | greenNS
  | yellowNS
  | greenEW
  | yellowEW
  | greenNSLeft
  | greenEWLeft
  | flashYellowNS
  | flashYellowEW
  | flashAllRed
  deriving DecidableEq, Repr

/-- `enum class MajorApproach`; `outOfRange` stands for a value of the
underlying integer type that is none of the three enumerators. -/
inductive MajorApproach where
  | ns
  | ew
  | unknown
  | outOfRange (raw : ℤ)
  deriving DecidableEq, Repr

def isGreen (p : Phase) : Bool :=
  p = .greenNS ∨ p = .greenEW ∨ p = .greenNSLeft ∨ p = .greenEWLeft

def isYellow (p : Phase) : Bool :=
  p = .yellowNS ∨ p = .yellowEW

def isNS (p : Phase) : Bool :=
  p = .greenNS ∨ p = .greenNSLeft ∨ p = .yellowNS

def yellowFor (green : Phase) : Phase :=
  if isNS green then .yellowNS else .yellowEW

def oppositeGreen (green : Phase) : Phase :=
  if isNS green then .greenEW else .greenNS

def isFlash (p : Phase) : Bool :=
  p = .flashYellowNS ∨ p = .flashYellowEW ∨ p = .flashAllRed

/-- `SafetyLayer::flash_phase_for`: the only producer of flash phases. -/
def flashPhaseFor : MajorApproach → Phase
  | .ns => .flashYellowNS
  | .ew => .flashYellowEW
  | .unknown => .flashAllRed
  | .outOfRange _ => .flashAllRed

@[simp] theorem isFlash_flashPhaseFor (m : MajorApproach) :
    isFlash (flashPhaseFor m) = true := by
  cases m <;> rfl

@[simp] theorem isGreen_flashPhaseFor (m : MajorApproach) :
    isGreen (flashPhaseFor m) = false := by
  cases m <;> rfl

/-! ## Movements -/

inductive Axis where
  | ns
  | ew
  deriving DecidableEq, Repr

def Axis.amber : Axis → Phase
  | .ns => .yellowNS
  | .ew => .yellowEW

/-- The green movements.  A value of this type is a green by construction. -/
inductive Green where
  | ns
  | ew
  | nsLeft
  | ewLeft
  deriving DecidableEq, Repr

namespace Green

def phase : Green → Phase
  | .ns => .greenNS
  | .ew => .greenEW
  | .nsLeft => .greenNSLeft
  | .ewLeft => .greenEWLeft

def axis : Green → Axis
  | .ns => .ns
  | .ew => .ew
  | .nsLeft => .ns
  | .ewLeft => .ew

def opposite (g : Green) : Green :=
  match g.axis with
  | .ns => .ew
  | .ew => .ns

def ofPhase? : Phase → Option Green
  | .greenNS => some .ns
  | .greenEW => some .ew
  | .greenNSLeft => some .nsLeft
  | .greenEWLeft => some .ewLeft
  | _ => none

@[simp] theorem isGreen_phase (g : Green) : isGreen g.phase = true := by
  cases g <;> rfl

@[simp] theorem phase_ne_allRed (g : Green) : g.phase ≠ .allRed := by
  cases g <;> simp [phase]

@[simp] theorem yellowFor_phase (g : Green) :
    yellowFor g.phase = g.axis.amber := by
  cases g <;> rfl

@[simp] theorem oppositeGreen_phase (g : Green) :
    oppositeGreen g.phase = g.opposite.phase := by
  cases g <;> rfl

theorem phase_injective : Function.Injective phase := by
  intro g h hphase
  cases g <;> cases h <;> simp [phase] at hphase ⊢

@[simp] theorem phase_inj {g h : Green} : g.phase = h.phase ↔ g = h :=
  phase_injective.eq_iff

theorem ofPhase?_eq_some_iff {p : Phase} {g : Green} :
    ofPhase? p = some g ↔ p = g.phase := by
  cases p <;> cases g <;> simp [ofPhase?, phase]

theorem ofPhase?_eq_none_iff {p : Phase} :
    ofPhase? p = none ↔ isGreen p = false := by
  cases p <;> simp [ofPhase?, isGreen]

theorem exists_of_isGreen {p : Phase} (hp : isGreen p = true) :
    ∃ g : Green, p = g.phase := by
  cases hg : ofPhase? p with
  | none =>
      rw [ofPhase?_eq_none_iff.mp hg] at hp
      contradiction
  | some g => exact ⟨g, ofPhase?_eq_some_iff.mp hg⟩

end Green

namespace Axis

@[simp] theorem isYellow_amber (a : Axis) : isYellow a.amber = true := by
  cases a <;> rfl

@[simp] theorem isGreen_amber (a : Axis) : isGreen a.amber = false := by
  cases a <;> rfl

@[simp] theorem amber_ne_allRed (a : Axis) : a.amber ≠ .allRed := by
  cases a <;> simp [amber]

@[simp] theorem amber_ne_phase (a : Axis) (g : Green) :
    a.amber ≠ g.phase := by
  cases a <;> cases g <;> simp [amber, Green.phase]

end Axis

end Semaforo
