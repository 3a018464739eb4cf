import Semaforo.GuardReplays
import Semaforo.LoopRequests
import Mathlib.Tactic

/-!
# The guard inside the main loop

An iteration feeds every popped command to the guard and, while the client is
connected, asks it about silence.  The guard of a run of the loop is therefore
the guard of one stream of events, and what is known about streams carries over
to runs of the loop.
-/

namespace Semaforo

namespace Iteration

def drained (k : Iteration) : List GuardEvent :=
  k.popped.map fun p => ⟨.onCommand p.command, k.tickNowMs⟩

/-- What the guard sees of an iteration. -/
def guardEvents (k : Iteration) : List GuardEvent :=
  k.drained ++ if k.connected then [⟨.tick, k.tickNowMs⟩] else []

theorem nowMs_of_mem_guardEvents {k : Iteration} {e : GuardEvent}
    (he : e ∈ k.guardEvents) : e.nowMs = k.tickNowMs := by
  rcases List.mem_append.mp he with h | h
  · obtain ⟨p, _, rfl⟩ := List.mem_map.mp h
    rfl
  · split_ifs at h
    · rw [List.mem_singleton.mp h]
    · simp at h

end Iteration

namespace CommandGuard

variable {g : CommandGuard} {t nowMs : ℤ} {events : List GuardEvent}

theorem Sane.later {cfg : GuardConfig} (hsane : Sane cfg g t)
    (htime : t ≤ nowMs) : Sane cfg g nowMs :=
  { hsane with
    now_pos := hsane.now_pos.trans_le htime
    heard_le := hsane.heard_le.trans htime }

/-- A batch of events of one instant. -/
theorem run_sane_batch {cfg : GuardConfig} (hfailure : 1 ≤ cfg.failureThreshold)
    (hrecovery : 1 ≤ cfg.recoveryStreak) (hsane : Sane cfg g t)
    (htime : t ≤ nowMs) (hevents : ∀ e ∈ events, e.nowMs = nowMs) :
    Sane cfg (link.run g events) nowMs := by
  induction events generalizing g t with
  | nil => exact hsane.later htime
  | cons e events ih =>
      have hfirst : e.nowMs = nowMs := hevents e (List.mem_cons_self ..)
      have hnext := hsane.process hfailure hrecovery (htime.trans hfirst.ge)
      exact ih hnext hfirst.le fun e' he' =>
        hevents e' (List.mem_cons_of_mem e he')

end CommandGuard

namespace Loop

/-- The drain loop feeds a popped command to the guard in this way. -/
theorem pop_cmdGuard (l : Loop) (tickNowMs : ℤ) (p : Popped) :
    (l.pop tickNowMs p).1.cmdGuard =
      (l.cmdGuard.process ⟨.onCommand p.command, tickNowMs⟩).2 := by
  unfold pop latch CommandGuard.process
  by_cases hok : p.command.isActionable = true
  · simp only [if_pos hok, CommandGuard.answer]
    split_ifs <;> rfl
  · simp [if_neg hok, CommandGuard.answer]

theorem drain_cmdGuard (l : Loop) (tickNowMs : ℤ) (popped : List Popped) :
    (l.drain tickNowMs popped).1.cmdGuard =
      CommandGuard.link.run l.cmdGuard
        (popped.map fun p => ⟨.onCommand p.command, tickNowMs⟩) := by
  induction popped generalizing l with
  | nil => rfl
  | cons p popped ih =>
      have hrest := ih (l.pop tickNowMs p).1
      rw [pop_cmdGuard] at hrest
      exact hrest

theorem silenceWatchdog_cmdGuard (l : Loop) (k : Iteration) :
    (l.silenceWatchdog k).1.cmdGuard =
      CommandGuard.link.run l.cmdGuard
        (if k.connected then [⟨.tick, k.tickNowMs⟩] else []) := by
  unfold silenceWatchdog
  split_ifs
  · rfl
  · rfl

theorem handleFaults_cmdGuard (l : Loop) (k : Iteration) :
    (l.handleFaults k).1.cmdGuard =
      CommandGuard.link.run l.cmdGuard k.guardEvents := by
  simp only [handleFaults]
  rw [runDetection_cmdGuard, acquireFrame_cmdGuard, silenceWatchdog_cmdGuard,
    drain_cmdGuard, ← CommandGuard.link.run_append]
  rfl

/-! ### The fault flags -/

theorem pop_flags (l : Loop) (tickNowMs : ℤ) (p : Popped) :
    (l.pop tickNowMs p).1.isCameraOnline = l.isCameraOnline ∧
      (l.pop tickNowMs p).1.inferenceOnline = l.inferenceOnline := by
  unfold pop latch
  dsimp only
  split_ifs <;> exact ⟨rfl, rfl⟩

theorem drain_flags (l : Loop) (tickNowMs : ℤ) (popped : List Popped) :
    (l.drain tickNowMs popped).1.isCameraOnline = l.isCameraOnline ∧
      (l.drain tickNowMs popped).1.inferenceOnline = l.inferenceOnline := by
  induction popped generalizing l with
  | nil => exact ⟨rfl, rfl⟩
  | cons p popped ih =>
      obtain ⟨hcamera, hinference⟩ := l.pop_flags tickNowMs p
      obtain ⟨hcamera', hinference'⟩ := ih (l.pop tickNowMs p).1
      exact ⟨hcamera'.trans hcamera, hinference'.trans hinference⟩

theorem acquireFrame_isCameraOnline (l : Loop) (k : Iteration) :
    (l.acquireFrame k).1.isCameraOnline =
      (k.haveFrame || (l.isCameraOnline && !decide (3 < k.sinceFrameS))) := by
  unfold acquireFrame
  cases hframe : k.haveFrame <;> cases hcamera : l.isCameraOnline <;>
    by_cases hlost : 3 < k.sinceFrameS <;> simp [hcamera, hlost]

theorem runDetection_inferenceOnline (l : Loop) (k : Iteration) :
    (l.runDetection k).1.inferenceOnline =
      if l.isCameraOnline then k.inferenceOk else l.inferenceOnline := by
  unfold runDetection
  cases hcamera : l.isCameraOnline <;> cases hok : k.inferenceOk <;>
    cases honline : l.inferenceOnline <;> simp [honline]

/-- The camera flag goes down only after three seconds without a frame and
comes back with the next one. -/
theorem handleFaults_isCameraOnline (l : Loop) (k : Iteration) :
    (l.handleFaults k).1.isCameraOnline =
      (k.haveFrame || (l.isCameraOnline && !decide (3 < k.sinceFrameS))) := by
  simp only [handleFaults]
  rw [runDetection_isCameraOnline, acquireFrame_isCameraOnline,
    silenceWatchdog_isCameraOnline, (drain_flags l _ _).1]

/-- The inference flag repeats the detector while the camera is online. -/
theorem handleFaults_inferenceOnline (l : Loop) (k : Iteration) :
    (l.handleFaults k).1.inferenceOnline =
      if (l.handleFaults k).1.isCameraOnline then k.inferenceOk
      else l.inferenceOnline := by
  simp only [handleFaults, runDetection_inferenceOnline,
    runDetection_isCameraOnline, acquireFrame_inferenceOnline,
    silenceWatchdog_inferenceOnline, (drain_flags l _ _).2]

end Loop

namespace Node

/-- The node on the clock that the guard reads. -/
def ticks : Machine Node Iteration ℤ where
  step := iterate
  time := Iteration.tickNowMs

theorem iterate_cmdGuard (n : Node) (k : Iteration) :
    (n.iterate k).loop.cmdGuard =
      CommandGuard.link.run n.loop.cmdGuard k.guardEvents :=
  n.loop.handleFaults_cmdGuard k

theorem iterate_sane {cfg : GuardConfig} (hfailure : 1 ≤ cfg.failureThreshold)
    (hrecovery : 1 ≤ cfg.recoveryStreak) {n : Node} {k : Iteration} {t : ℤ}
    (hsane : CommandGuard.Sane cfg n.loop.cmdGuard t) (htime : t ≤ k.tickNowMs) :
    CommandGuard.Sane cfg (n.iterate k).loop.cmdGuard k.tickNowMs := by
  rw [iterate_cmdGuard]
  exact CommandGuard.run_sane_batch hfailure hrecovery hsane htime
    fun e he => Iteration.nowMs_of_mem_guardEvents he

end Node

end Semaforo
