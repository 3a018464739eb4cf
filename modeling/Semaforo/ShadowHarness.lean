import Semaforo.SignalReading
import Mathlib.Tactic

/-!
# The harness in shadow mode

`Canonical17ObservationFunction` of `brain/src/environments/multi_intersection.py`,
on which the actor is trained, and the loop of `brain/scripts/yolo_inference.py`,
which feeds the actor from cameras through `ObservationBuilder`.  In training the
queues and densities are the shares of `sumo_rl`, with the cameras they are
vehicles counted.  The actor is a parameter and the arithmetic is exact; the
detector, the log file and the drawing are left out.
-/

namespace Semaforo

open Numpy

/-! ## The vector of the training environment -/

structure DirCounts where
  north : ℕ
  east : ℕ
  south : ℕ
  west : ℕ
  deriving DecidableEq, Repr

structure ObservationBuilder where
  currentPhase : ℕ
  phaseStartTime : ℚ
  deriving DecidableEq, Repr

namespace ObservationBuilder

def maxVehiclesPerCamera : ℚ := 20

/-- `_MAX_GREEN_S + _YELLOW_TIME_S`. -/
def phaseElapsedWindowS : ℚ := 60 + 3

def setPhase (b : ObservationBuilder) (phase : ℕ) (now : ℚ) :
    ObservationBuilder :=
  if phase ≠ b.currentPhase then ⟨phase, now⟩ else b

/-- A count against a camera full of vehicles. -/
def share (count : ℕ) : ℚ := min (count / maxVehiclesPerCamera) 1

def shares (counts : DirCounts) : List ℚ :=
  [share counts.north, share counts.east, share counts.south, share counts.west]

def build (b : ObservationBuilder) (counts : DirCounts) (now : ℚ) : List ℚ :=
  let obs := setSlice (List.replicate 17 0) 0 (shares counts)
  let obs := setSlice obs 4 (shares counts)
  let obs := setSlice obs (8 + b.currentPhase % 4) [1]
  let obs := setSlice obs 12
    [clip ((now - b.phaseStartTime) / phaseElapsedWindowS) 0 1]
  let obs := setSlice obs 13 (List.replicate 4 0)
  obs.map fun x => clip x 0 1

end ObservationBuilder

/-! ## The loop -/

/-- The letters of `--directions`; anything else is skipped. -/
def facesNorth (direction : String) : Bool :=
  direction.toUpper = "N" || direction.toUpper = "NS"

def facesEast (direction : String) : Bool :=
  direction.toUpper = "E" || direction.toUpper = "EW"

def facesSouth (direction : String) : Bool :=
  direction.toUpper = "S" || direction.toUpper = "NS"

def facesWest (direction : String) : Bool :=
  direction.toUpper = "W" || direction.toUpper = "EW"

/-- The greatest count of the cameras that face one direction. -/
def dirCount (faces : String → Bool) (directions : List String)
    (camCounts : List ℕ) : ℕ :=
  ((directions.zip camCounts).filter fun x => faces x.1).foldl
    (fun count x => max count x.2) 0

def dirCounts (directions : List String) (camCounts : List ℕ) : DirCounts where
  north := dirCount facesNorth directions camCounts
  east := dirCount facesEast directions camCounts
  south := dirCount facesSouth directions camCounts
  west := dirCount facesWest directions camCounts

/-- One round of the loop: the detections of every camera, and the instants at
which a decision reads and sets the phase. -/
structure FrameRound where
  camCounts : List ℕ
  builtAt : ℚ
  setAt : ℚ

/-- A decision as it goes to the log. -/
structure Decision where
  counts : DirCounts
  builtAt : ℚ
  obs : List ℚ
  action : ℕ
  setAt : ℚ
  deriving DecidableEq, Repr

structure ShadowHarness where
  directions : List String
  decisionInterval : ℕ
  frameIdx : ℕ := 0
  currentPhase : ℕ := 0
  obsBuilder : ObservationBuilder
  decisions : List Decision := []
  deriving DecidableEq, Repr

namespace ShadowHarness

/-- `obs_builder` is made at `now`. -/
def start (directions : List String) (decisionInterval : ℕ) (now : ℚ) :
    ShadowHarness where
  directions := directions
  decisionInterval := decisionInterval
  obsBuilder := ⟨0, now⟩

variable (argmax : List ℚ → ℕ)

/-- `OnnxPolicy.decide`. -/
def decide (obs : List ℚ) : ℕ := min (argmax obs) 1

def decision (h : ShadowHarness) (frame : FrameRound) : Decision :=
  let counts := dirCounts h.directions frame.camCounts
  let obs := h.obsBuilder.build counts frame.builtAt
  ⟨counts, frame.builtAt, obs, decide argmax obs, frame.setAt⟩

def step (h : ShadowHarness) (frame : FrameRound) : ShadowHarness :=
  if h.frameIdx % h.decisionInterval = 0 then
    let d := h.decision argmax frame
    if d.action ≠ h.currentPhase then
      { h with
        frameIdx := h.frameIdx + 1
        currentPhase := d.action
        obsBuilder := h.obsBuilder.setPhase d.action frame.setAt
        decisions := h.decisions ++ [d] }
    else
      { h with
        frameIdx := h.frameIdx + 1
        decisions := h.decisions ++ [d] }
  else { h with frameIdx := h.frameIdx + 1 }

def run (h : ShadowHarness) (frames : List FrameRound) : ShadowHarness :=
  frames.foldl (step argmax) h

end ShadowHarness

/-! ## The signal that the actor drives -/

/-- After the decisions of a log the phase has been on since an instant: since
the start, if no decision was for another phase, or since the first of the last
decisions for it. -/
inductive OnSince (start : ℚ) : List Decision → ℕ → ℚ → Prop where
  | first (log : List Decision) (h : ∀ d ∈ log, d.action = 0) :
      OnSince start log 0 start
  | later (before : List Decision) (d : Decision) (after : List Decision)
      (hbefore : (before.getLast?.map Decision.action).getD 0 ≠ d.action)
      (hafter : ∀ x ∈ after, x.action = d.action) :
      OnSince start (before ++ d :: after) d.action d.setAt

def DirCounts.toList (counts : DirCounts) : List ℕ :=
  [counts.north, counts.east, counts.south, counts.west]

theorem OnSince.lastAction {start : ℚ} {log : List Decision} {phase : ℕ} {t : ℚ}
    (h : OnSince start log phase t) :
    (log.getLast?.map Decision.action).getD 0 = phase := by
  cases h with
  | first log h =>
      cases hlast : log.getLast? with
      | none => rfl
      | some d => exact h d (List.mem_of_getLast? hlast)
  | later before d after hbefore hafter =>
      rw [List.getLast?_append, List.getLast?_cons]
      cases hlast : after.getLast? with
      | none => rfl
      | some x => exact hafter x (List.mem_of_getLast? hlast)

theorem OnSince.kept {start : ℚ} {log : List Decision} {phase : ℕ} {t : ℚ}
    (h : OnSince start log phase t) {d : Decision} (hd : d.action = phase) :
    OnSince start (log ++ [d]) phase t := by
  cases h with
  | first log h =>
      refine .first _ fun x hx => ?_
      rcases List.mem_append.mp hx with hx | hx
      · exact h x hx
      · rw [List.mem_singleton.mp hx, hd]
  | later before c after hbefore hafter =>
      rw [List.append_assoc, List.cons_append]
      refine .later before c (after ++ [d]) hbefore fun x hx => ?_
      rcases List.mem_append.mp hx with hx | hx
      · exact hafter x hx
      · rw [List.mem_singleton.mp hx, hd]

namespace ShadowHarness

/-- The builder holds the phase that the decisions have driven the signal to. -/
structure Tracks (start : ℚ) (h : ShadowHarness) : Prop where
  phase : h.obsBuilder.currentPhase = h.currentPhase
  since : OnSince start h.decisions h.currentPhase h.obsBuilder.phaseStartTime

variable (argmax : List ℚ → ℕ)

end ShadowHarness

end Semaforo
