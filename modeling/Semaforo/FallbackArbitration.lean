import Semaforo.MainLoop
import Mathlib.Tactic

/-!
# Arbitration between the fault sources

Three sources enter and leave the emergency mode from different places of an
iteration.  `Arbitrates` is what each of these places owes the others: after
its calls the mode is on exactly if some source is faulty, provided it was so
before them.
-/

namespace Semaforo

def modeAfter (on : Bool) (calls : List Event) : Bool :=
  calls.foldl
    (fun on e =>
      match e.call with
      | .setEmergencyMode on' => on'
      | _ => on)
    on

@[simp] theorem modeAfter_nil (on : Bool) : modeAfter on [] = on := rfl

@[simp] theorem modeAfter_toggle (on on' : Bool) (now : TimePoint) :
    modeAfter on [toggle on' now] = on' := rfl

theorem modeAfter_append (on : Bool) (first second : List Event) :
    modeAfter on (first ++ second) = modeAfter (modeAfter on first) second := by
  simp [modeAfter]

def AllToggles (times : List TimePoint) (calls : List Event) : Prop :=
  ∀ e ∈ calls, ∃ on, ∃ now ∈ times, e = toggle on now

theorem allToggles_nil (times : List TimePoint) : AllToggles times [] := by
  intro e he
  cases he

theorem allToggles_singleton (on : Bool) (now : TimePoint) :
    AllToggles [now] [toggle on now] := by
  intro e he
  rw [List.mem_singleton] at he
  exact ⟨on, now, List.mem_singleton_self now, he⟩

theorem AllToggles.append {times times' : List TimePoint}
    {first second : List Event} (hfirst : AllToggles times first)
    (hsecond : AllToggles times' second) :
    AllToggles (times ++ times') (first ++ second) := by
  intro e he
  rcases List.mem_append.mp he with h | h
  · obtain ⟨on, now, hnow, heq⟩ := hfirst e h
    exact ⟨on, now, List.mem_append_left _ hnow, heq⟩
  · obtain ⟨on, now, hnow, heq⟩ := hsecond e h
    exact ⟨on, now, List.mem_append_right _ hnow, heq⟩

namespace Loop

def faulty (l : Loop) : Bool :=
  l.cmdGuard.inFallback || !l.isCameraOnline || !l.inferenceOnline

/-- A part of the iteration that turns `l` into `r.1` with the calls `r.2`, made
at some of `times`, keeps the mode in step with the faults. -/
def Arbitrates (times : List TimePoint) (l : Loop) (r : Loop × List Event) :
    Prop :=
  AllToggles times r.2 ∧ modeAfter l.faulty r.2 = r.1.faulty

theorem Arbitrates.refl (times : List TimePoint) (l : Loop) :
    Arbitrates times l (l, []) :=
  ⟨allToggles_nil times, rfl⟩

theorem Arbitrates.trans {times times' : List TimePoint} {l : Loop}
    {r r' : Loop × List Event} (hfirst : Arbitrates times l r)
    (hsecond : Arbitrates times' r.1 r') :
    Arbitrates (times ++ times') l (r'.1, r.2 ++ r'.2) := by
  refine ⟨hfirst.1.append hsecond.1, ?_⟩
  rw [modeAfter_append, hfirst.2, hsecond.2]

theorem latch_faulty (l : Loop) (parsed : ParsedCommand) (tickNowMs : ℤ) :
    (l.latch parsed tickNowMs).faulty = l.faulty := by
  unfold latch
  dsimp only
  split_ifs <;> simp [faulty]

theorem pop_arbitrates (l : Loop) (tickNowMs : ℤ) (p : Popped) :
    Arbitrates [p.now] l (l.pop tickNowMs p) := by
  have hdecided := l.cmdGuard.onCommand_decided p.command tickNowMs
  simp only [pop, Arbitrates, latch_faulty]
  generalize l.cmdGuard.onCommand p.command tickNowMs = r at hdecided
  obtain ⟨decision, g⟩ := r
  cases hdecided with
  | none hsame =>
      refine ⟨allToggles_nil _, ?_⟩
      simp only at hsame
      simp [act, faulty, hsame]
  | enter hbefore hafter =>
      refine ⟨allToggles_singleton true p.now, ?_⟩
      simp only at hafter
      simp [act, faulty, hafter]
  | exit hbefore hafter =>
      simp only at hafter
      simp only [act, exitFallbackIfSafe]
      by_cases honline : l.isCameraOnline = true ∧ l.inferenceOnline = true
      · rw [if_pos honline]
        refine ⟨allToggles_singleton false p.now, ?_⟩
        simp [faulty, hafter, honline.1, honline.2]
      · rw [if_neg honline]
        refine ⟨allToggles_nil _, ?_⟩
        cases hcamera : l.isCameraOnline <;>
          cases hinference : l.inferenceOnline <;>
          simp [faulty, hbefore, hafter, hcamera, hinference] at honline ⊢

theorem drain_arbitrates (tickNowMs : ℤ) (l : Loop) (popped : List Popped) :
    Arbitrates (popped.map Popped.now) l (l.drain tickNowMs popped) := by
  induction popped generalizing l with
  | nil => exact .refl _ l
  | cons p popped ih => exact (l.pop_arbitrates tickNowMs p).trans (ih _)

theorem silenceWatchdog_arbitrates (l : Loop) (k : Iteration) :
    Arbitrates [k.silenceNow] l (l.silenceWatchdog k) := by
  have hdecided := l.cmdGuard.tick_decided k.tickNowMs
  have hexit := l.cmdGuard.tick_decision_ne_exit k.tickNowMs
  unfold silenceWatchdog
  split_ifs with hconnected
  · generalize l.cmdGuard.tick k.tickNowMs = r at hdecided hexit
    obtain ⟨decision, g⟩ := r
    cases hdecided with
    | none hsame =>
        refine ⟨allToggles_nil _, ?_⟩
        simp only at hsame
        simp [faulty, hsame]
    | enter hbefore hafter =>
        refine ⟨allToggles_singleton true k.silenceNow, ?_⟩
        simp only at hafter
        simp [faulty, hafter]
    | exit _ _ => exact absurd rfl hexit
  · exact .refl _ l

theorem acquireFrame_arbitrates (l : Loop) (k : Iteration) :
    Arbitrates [k.cameraNow] l (l.acquireFrame k) := by
  unfold acquireFrame
  by_cases hframe : k.haveFrame = true
  · rw [if_neg (by simpa using hframe)]
    by_cases hcamera : l.isCameraOnline = true
    · rw [if_neg (by simpa using hcamera)]
      exact .refl _ l
    · rw [if_pos hcamera]
      simp only [Bool.not_eq_true] at hcamera
      by_cases hsafe : ¬ l.cmdGuard.inFallback = true ∧ l.inferenceOnline = true
      · rw [if_pos hsafe]
        refine ⟨allToggles_singleton false k.cameraNow, ?_⟩
        simp [faulty, hsafe.1, hsafe.2]
      · rw [if_neg hsafe]
        refine ⟨allToggles_nil _, ?_⟩
        cases hfallback : l.cmdGuard.inFallback <;>
          cases hinference : l.inferenceOnline <;>
          simp [faulty, hcamera, hfallback, hinference] at hsafe ⊢
  · rw [if_pos hframe]
    split_ifs with hlost
    · refine ⟨allToggles_singleton true k.cameraNow, ?_⟩
      simp [faulty]
    · exact .refl _ l

theorem runDetection_arbitrates (l : Loop) (k : Iteration) :
    Arbitrates [k.inferenceNow] l (l.runDetection k) := by
  unfold runDetection
  by_cases hcamera : l.isCameraOnline = true
  · rw [if_pos hcamera]
    by_cases hok : k.inferenceOk = true
    · rw [if_neg (by simpa using hok)]
      by_cases honline : l.inferenceOnline = true
      · rw [if_neg (by simpa using honline)]
        exact .refl _ l
      · rw [if_pos honline]
        simp only [Bool.not_eq_true] at honline
        cases hfallback : l.cmdGuard.inFallback with
        | true =>
            refine ⟨by simpa [hcamera] using allToggles_nil _, ?_⟩
            simp [faulty, hcamera, hfallback, honline]
        | false =>
            refine ⟨by simpa [hcamera] using
              allToggles_singleton false k.inferenceNow, ?_⟩
            simp [faulty, hcamera, hfallback]
    · rw [if_pos hok]
      split_ifs with honline
      · refine ⟨allToggles_singleton true k.inferenceNow, ?_⟩
        simp [faulty]
      · exact .refl _ l
  · rw [if_neg hcamera]
    exact .refl _ l

theorem handleFaults_arbitrates (l : Loop) (k : Iteration) :
    Arbitrates k.readings l (l.handleFaults k) :=
  (((l.drain_arbitrates k.tickNowMs k.popped).trans
    (silenceWatchdog_arbitrates _ k)).trans
      (acquireFrame_arbitrates _ k)).trans (runDetection_arbitrates _ k)

end Loop

theorem default_trusted : ({} : Timings).Trusted :=
  ⟨by decide +kernel, by decide +kernel, by decide +kernel, by decide +kernel⟩

namespace SafetyLayer

/-- A layer that some calls have reached from construction with the default
timings.  It is never on the flash path. -/
def Healthy (s : SafetyLayer) : Prop :=
  ∃ major b events, s = machine.run (boot {} major b) events

theorem Healthy.run {s : SafetyLayer} (hs : s.Healthy) (events : List Event) :
    (machine.run s events).Healthy := by
  obtain ⟨major, b, earlier, rfl⟩ := hs
  exact ⟨major, b, earlier ++ events, (machine.run_append _ _ _).symm⟩

theorem Healthy.not_flashing {s : SafetyLayer} (hs : s.Healthy) :
    ¬ s.Flashing := by
  obtain ⟨major, b, events, rfl⟩ := hs
  exact not_flashing_of_trusted default_trusted major b events

theorem setEmergencyMode_emergency {s : SafetyLayer} (hlive : ¬ s.Flashing)
    (on : Bool) (now : TimePoint) :
    (s.setEmergencyMode on now).emergency = on := by
  have hstate : ¬ (s.state = .flashClearance ∨ s.state = .flash) := hlive
  unfold setEmergencyMode
  rw [if_neg hstate]
  split_ifs with hsame hon
  · exact hsame.symm
  · rfl
  · rfl

theorem Healthy.run_toggles {s : SafetyLayer} (hs : s.Healthy)
    {times : List TimePoint} {calls : List Event}
    (hcalls : AllToggles times calls) :
    (machine.run s calls).inEmergency = modeAfter s.inEmergency calls := by
  induction calls generalizing s with
  | nil => rfl
  | cons e calls ih =>
      obtain ⟨on, now, _, rfl⟩ := hcalls e (List.mem_cons_self ..)
      have hrest : AllToggles times calls :=
        fun e' he' => hcalls e' (List.mem_cons_of_mem _ he')
      have hnext : (s.apply (toggle on now)).inEmergency = on :=
        setEmergencyMode_emergency hs.not_flashing on now
      have hrun := ih (hs.run [toggle on now]) hrest
      rw [Machine.run_cons]
      exact hrun.trans (congrArg (modeAfter · calls) hnext)

end SafetyLayer

namespace Node

/-- The mode of the safety layer agrees with the fault flags of the loop. -/
structure Arbitrated (n : Node) : Prop where
  healthy : n.safety.Healthy
  mode : n.safety.inEmergency = n.loop.faulty

theorem boot_arbitrated (major : MajorApproach) (armedMs : Option ℤ)
    (now : TimePoint) : (boot major armedMs now).Arbitrated where
  healthy := ⟨major, now, [], rfl⟩
  mode := by cases armedMs <;> rfl

theorem Arbitrated.atValidate {n : Node} (hn : n.Arbitrated) (k : Iteration) :
    (n.atValidate k).Arbitrated where
  healthy := hn.healthy.run _
  mode := by
    obtain ⟨htoggles, hmode⟩ := n.loop.handleFaults_arbitrates k
    change (SafetyLayer.machine.run n.safety _).inEmergency = _
    rw [hn.healthy.run_toggles htoggles, hn.mode]
    exact hmode

theorem Arbitrated.iterate {n : Node} (hn : n.Arbitrated) (k : Iteration) :
    (n.iterate k).Arbitrated where
  healthy := (hn.atValidate k).healthy.run
    [⟨.validate ((n.atValidate k).loop.proposedPhase k), k.validateNow⟩]
  mode :=
    (SafetyLayer.validate_emergency _ _ _).trans (hn.atValidate k).mode

end Node

/-- At every call of `safety.validate`, after any iterations `before` and the
fault handlers of the next iteration `k`, the layer is in emergency mode exactly
if the guard is in fallback, the camera is offline or inference is offline. -/
theorem emergency_iff_fault (major : MajorApproach) (armedMs : Option ℤ)
    (now : TimePoint) (before : List Iteration) (k : Iteration) :
    (((Node.machine.run (.boot major armedMs now) before).atValidate
        k).safety.inEmergency = true) ↔
      (((Node.machine.run (.boot major armedMs now) before).atValidate
          k).loop.cmdGuard.inFallback = true ∨
        ((Node.machine.run (.boot major armedMs now) before).atValidate
          k).loop.isCameraOnline = false ∨
        ((Node.machine.run (.boot major armedMs now) before).atValidate
          k).loop.inferenceOnline = false) := by
  have hrun : (Node.machine.run (.boot major armedMs now) before).Arbitrated :=
    Node.machine.run_invariant (fun n k hn => hn.iterate k) before
      (Node.boot_arbitrated major armedMs now)
  rw [(hrun.atValidate k).mode]
  simp [Loop.faulty, or_assoc]

end Semaforo
