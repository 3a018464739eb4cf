import Semaforo.MainLoop
import Mathlib.Tactic

/-!
# What the loop asks for

The proposed phase is the latched directive, the answer of the local policy, or
the placeholder of an offline camera.  If the Brain and the policy keep to a set
of phases, so does the loop.
-/

namespace Semaforo

namespace Iteration

/-- The iteration reads the clock in order and ticks at most `d` seconds after
the iteration before it. -/
def Timed (d : ℚ) (t : TimePoint) (k : Iteration) : Prop :=
  t ≤ k.validateNow ∧ k.validateNow - t ≤ d ∧
    ∀ now ∈ k.readings, t ≤ now ∧ now ≤ k.validateNow

instance (d : ℚ) (t : TimePoint) (k : Iteration) : Decidable (k.Timed d t) :=
  inferInstanceAs (Decidable (t ≤ k.validateNow ∧ k.validateNow - t ≤ d ∧
    ∀ now ∈ k.readings, t ≤ now ∧ now ≤ k.validateNow))

def Asks (P : Phase → Prop) (k : Iteration) : Prop :=
  P k.policyPhase ∧
    ∀ p ∈ k.popped, p.command.isActionable = true → P p.command.phase

instance (P : Phase → Prop) [DecidablePred P] (k : Iteration) :
    Decidable (k.Asks P) :=
  inferInstanceAs (Decidable (P k.policyPhase ∧
    ∀ p ∈ k.popped, p.command.isActionable = true → P p.command.phase))

end Iteration

namespace Loop

/-! ### What each part of the iteration leaves alone -/

@[simp] theorem silenceWatchdog_isCameraOnline (l : Loop) (k : Iteration) :
    (l.silenceWatchdog k).1.isCameraOnline = l.isCameraOnline := by
  unfold silenceWatchdog
  split_ifs <;> rfl

@[simp] theorem silenceWatchdog_inferenceOnline (l : Loop) (k : Iteration) :
    (l.silenceWatchdog k).1.inferenceOnline = l.inferenceOnline := by
  unfold silenceWatchdog
  split_ifs <;> rfl

@[simp] theorem acquireFrame_cmdGuard (l : Loop) (k : Iteration) :
    (l.acquireFrame k).1.cmdGuard = l.cmdGuard := by
  unfold acquireFrame
  split_ifs <;> rfl

@[simp] theorem runDetection_cmdGuard (l : Loop) (k : Iteration) :
    (l.runDetection k).1.cmdGuard = l.cmdGuard := by
  unfold runDetection
  split_ifs <;> rfl

@[simp] theorem acquireFrame_inferenceOnline (l : Loop) (k : Iteration) :
    (l.acquireFrame k).1.inferenceOnline = l.inferenceOnline := by
  unfold acquireFrame
  split_ifs <;> rfl

@[simp] theorem runDetection_isCameraOnline (l : Loop) (k : Iteration) :
    (l.runDetection k).1.isCameraOnline = l.isCameraOnline := by
  unfold runDetection
  split_ifs <;> rfl

theorem silenceWatchdog_latch (l : Loop) (k : Iteration) :
    (l.silenceWatchdog k).1.directiveLatch = l.directiveLatch := by
  unfold silenceWatchdog
  split_ifs <;> rfl

theorem acquireFrame_latch (l : Loop) (k : Iteration) :
    (l.acquireFrame k).1.directiveLatch = l.directiveLatch := by
  unfold acquireFrame
  split_ifs <;> rfl

theorem runDetection_latch (l : Loop) (k : Iteration) :
    (l.runDetection k).1.directiveLatch = l.directiveLatch := by
  unfold runDetection
  split_ifs <;> rfl

/-! ### The latched directive -/

variable {P : Phase → Prop}

def Directed (P : Phase → Prop) (l : Loop) : Prop :=
  l.directiveLatch.valid = true → P l.directiveLatch.phase

theorem pop_directed {l : Loop} (hl : l.Directed P) {p : Popped}
    (hp : p.command.isActionable = true → P p.command.phase)
    (tickNowMs : ℤ) : (l.pop tickNowMs p).1.Directed P := by
  unfold pop latch
  dsimp only
  split_ifs with haction haccept
  · exact fun _ => hp haction
  · exact hl
  · exact hl

theorem drain_directed {l : Loop} (hl : l.Directed P) {popped : List Popped}
    (hpopped : ∀ p ∈ popped, p.command.isActionable = true →
      P p.command.phase)
    (tickNowMs : ℤ) : (l.drain tickNowMs popped).1.Directed P := by
  induction popped generalizing l with
  | nil => exact hl
  | cons p popped ih =>
      have hnext := pop_directed hl (hpopped p (List.mem_cons_self ..)) tickNowMs
      exact ih hnext (fun q hq => hpopped q (List.mem_cons_of_mem p hq))

theorem handleFaults_latch (l : Loop) (k : Iteration) :
    (l.handleFaults k).1.directiveLatch =
      (l.drain k.tickNowMs k.popped).1.directiveLatch := by
  simp only [handleFaults]
  rw [runDetection_latch, acquireFrame_latch, silenceWatchdog_latch]

theorem handleFaults_directed {l : Loop} (hl : l.Directed P) {k : Iteration}
    (hk : k.Asks P) : (l.handleFaults k).1.Directed P := by
  unfold Directed
  rw [handleFaults_latch]
  exact drain_directed hl hk.2 k.tickNowMs

theorem Directed.proposedPhase {l : Loop} (hl : l.Directed P) {k : Iteration}
    (hk : k.Asks P) (hcamera : l.isCameraOnline = true ∨ P .greenNS) :
    P (l.proposedPhase k) := by
  unfold Loop.proposedPhase
  by_cases honline : l.isCameraOnline = true
  · rw [if_neg (by simpa using honline)]
    cases hdirective : l.directive k with
    | none => exact hk.1
    | some phase =>
        unfold directive at hdirective
        split_ifs at hdirective
        obtain ⟨hvalid, rfl⟩ := DirectiveLatch.mem_get hdirective
        exact hl hvalid
  · rw [if_pos honline]
    exact hcamera.resolve_left honline

end Loop

end Semaforo
