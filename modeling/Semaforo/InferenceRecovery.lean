import Semaforo.Detector
import Semaforo.LoopGuard
import Mathlib.Tactic

/-!
# Recovery of inference

The main loop over the camera and the detector themselves.  `detect` returns
true for an empty buffer, and the camera flag stays up for three seconds
without a frame; so the inference flag can come back in an iteration that had
nothing to infer from.
-/

namespace Semaforo

/-- What the environment contributes to one iteration, with the camera and the
session in place of their results. -/
structure Observation (α : Type) where
  capture : Capture
  run : SessionRun α
  rest : Iteration
  deriving DecidableEq, Repr

structure CameraNode where
  node : Node
  /-- The recycled capture buffer. -/
  frame : Mat := {}
  deriving DecidableEq, Repr

structure Perception (α : Type) where
  pipeline : VideoPipeline
  detector : Detector α
  deriving DecidableEq, Repr

namespace Perception

variable {α : Type} [IntCast α] [Sub α] [Mul α] [Div α] [LT α] [LE α]
  [DecidableLT α] [DecidableLE α]

def frameAfter (p : Perception α) (e : CameraNode) (o : Observation α) : Mat :=
  (p.pipeline.readFrame e.frame o.capture).2

def iteration (p : Perception α) (e : CameraNode) (o : Observation α) : Iteration :=
  { o.rest with
    haveFrame := (p.pipeline.readFrame e.frame o.capture).1
    inferenceOk := (p.detector.detect (p.frameAfter e o) o.run).isSome }

def machine (p : Perception α) : Machine CameraNode (Observation α) TimePoint where
  step e o := ⟨e.node.iterate (p.iteration e o), p.frameAfter e o⟩
  time o := o.rest.validateNow

/-- The inference flag comes back in this iteration. -/
def Recovers (p : Perception α) (e : CameraNode) (o : Observation α) : Prop :=
  e.node.loop.inferenceOnline = false ∧
    (p.machine.step e o).node.loop.inferenceOnline = true

instance (p : Perception α) (e : CameraNode) (o : Observation α) :
    Decidable (p.Recovers e o) :=
  inferInstanceAs (Decidable (e.node.loop.inferenceOnline = false ∧
    (p.machine.step e o).node.loop.inferenceOnline = true))

/-- In this iteration the session ran on a non-empty frame and its output was
accepted. -/
structure Inferred (p : Perception α) (e : CameraNode) (o : Observation α) :
    Prop where
  called : (p.machine.step e o).node.loop.isCameraOnline = true
  ran : p.detector.RunsSession (p.frameAfter e o)
  accepted : p.detector.Accepts (p.frameAfter e o) o.run

/-- There is a frame to infer from: one was read in this iteration, or the
closed capture has left an earlier one in the buffer. -/
def FrameAtHand (e : CameraNode) (o : Observation α) : Prop :=
  match o.capture with
  | .grabbed _ => True
  | .failed => False
  | .closed => e.frame.empty = false

omit [IntCast α] [Sub α] [Mul α] [Div α] [LT α] [LE α] [DecidableLT α]
  [DecidableLE α] in
theorem frameAfter_nonempty_iff (p : Perception α) (e : CameraNode)
    (o : Observation α) :
    (p.frameAfter e o).empty = false ↔ FrameAtHand e o := by
  unfold frameAfter FrameAtHand
  cases o.capture with
  | closed => exact Iff.rfl
  | failed => simp [VideoPipeline.readFrame, Mat.empty]
  | grabbed image => simp [VideoPipeline.readFrame, p.pipeline.resize_empty]

theorem Recovers.detected {p : Perception α} {e : CameraNode} {o : Observation α}
    (hrecovers : p.Recovers e o) :
    (p.machine.step e o).node.loop.isCameraOnline = true ∧
      (p.detector.detect (p.frameAfter e o) o.run).isSome = true := by
  obtain ⟨hbefore, hafter⟩ := hrecovers
  have hflag := e.node.loop.handleFaults_inferenceOnline (p.iteration e o)
  change (e.node.loop.handleFaults (p.iteration e o)).1.inferenceOnline =
    true at hafter
  rw [hafter, hbefore] at hflag
  split_ifs at hflag with hcamera
  exact ⟨hcamera, hflag.symm⟩

theorem Recovers.inferred_iff {p : Perception α} (hloaded : p.detector.Loaded)
    {e : CameraNode} {o : Observation α} (hrecovers : p.Recovers e o) :
    p.Inferred e o ↔ FrameAtHand e o := by
  obtain ⟨hcamera, hdetect⟩ := hrecovers.detected
  rw [← p.frameAfter_nonempty_iff]
  constructor
  · intro hinferred
    exact (hloaded.runsSession_iff _).mp hinferred.ran
  · intro hframe
    refine ⟨hcamera, (hloaded.runsSession_iff _).mpr hframe, ?_⟩
    rcases (hloaded.detect_iff _ o.run).mp hdetect with hempty | haccepts
    · rw [hframe] at hempty
      contradiction
    · exact haccepts

end Perception

/-- In every run with a loaded model, an iteration in which the inference flag
comes back has inferred something exactly if it had a frame at hand. -/
theorem recovery_from_evidence_iff {α : Type} [IntCast α] [Sub α] [Mul α]
    [Div α] [LT α] [LE α] [DecidableLT α] [DecidableLE α] (p : Perception α)
    (hloaded : p.detector.Loaded) (major : MajorApproach)
    (armedMs : Option ℤ) (now : TimePoint) (before : List (Observation α))
    (o : Observation α)
    (hrecovers : p.Recovers
      (p.machine.run { node := .boot major armedMs now } before) o) :
    p.Inferred (p.machine.run { node := .boot major armedMs now } before) o ↔
      Perception.FrameAtHand
        (p.machine.run { node := .boot major armedMs now } before) o :=
  hrecovers.inferred_iff hloaded

namespace Perception

/-- A loaded model with one class, five values for its one anchor. -/
def smallModel : Perception ℚ where
  pipeline := {}
  detector :=
    { initialized := true
      stubMode := false
      session := true
      inputWidth := 640
      inputHeight := 640
      confThreshold := 1 / 2 }

def still : Capture := .grabbed ⟨⟨640, 480⟩, rfl⟩

def goodOutput : SessionRun ℚ :=
  .returned [⟨.float, [1, 5, 1], some [320, 240, 10, 10, 1 / 4]⟩]

/-- The other inputs of a quiet iteration. -/
def quiet : Iteration where
  tickNowMs := 1000
  silenceNow := 1
  cameraNow := 1
  inferenceNow := 1
  policyPhase := .greenNS
  validateNow := 1

theorem recovery_from_evidence_iff_second_frame :
    smallModel.Inferred
        (smallModel.machine.run { node := .boot .ns none 0 }
          [⟨still, .threw, quiet⟩]) ⟨still, goodOutput, quiet⟩ ↔
      FrameAtHand
        (smallModel.machine.run { node := .boot .ns none 0 }
          [⟨still, .threw, quiet⟩]) ⟨still, goodOutput, quiet⟩ :=
  recovery_from_evidence_iff smallModel ⟨rfl, rfl, rfl⟩ .ns none 0
    [⟨still, .threw, quiet⟩] ⟨still, goodOutput, quiet⟩ (by decide +kernel)

/-- After a fault of the session, a failed read brings the flag back. -/
theorem inferred_broken_by_glitch :
    ¬ ∀ (p : Perception ℚ) (major : MajorApproach) (armedMs : Option ℤ)
        (now : TimePoint) (before : List (Observation ℚ)) (o : Observation ℚ),
      p.detector.Loaded →
        p.Recovers
          (p.machine.run { node := .boot major armedMs now } before) o →
          p.Inferred
            (p.machine.run { node := .boot major armedMs now } before) o := by
  intro hall
  have hinferred := hall smallModel .ns none 0 [⟨still, .threw, quiet⟩]
    ⟨.failed, .threw, quiet⟩ ⟨rfl, rfl, rfl⟩ (by decide +kernel)
  exact absurd hinferred.ran.2.1 (by decide +kernel)

end Perception

end Semaforo
