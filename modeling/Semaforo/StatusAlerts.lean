import Semaforo.FallbackArbitration
import Mathlib.Data.List.Induction
import Mathlib.Tactic

/-!
# The status topic

Beside each call that switches the emergency mode the loop of
`edge/src/main.cpp` publishes an alert, retained by the broker under
`semaforo/status/<node_id>`, if `mqtt.is_connected()` says there that the link is
up.  The switches are returned next to the calls of `MainLoop`, each with its
alert, the loop that makes it and the link; the alerts are those of the switches
that find the link up.
-/

namespace Semaforo

inductive NodeStatus where
  | online
  | degraded
  | offline
  deriving DecidableEq, Repr

def NodeStatus.text : NodeStatus → String
  | .online => "online"
  | .degraded => "degraded"
  | .offline => "offline"

structure Alert where
  status : NodeStatus
  reason : String
  deriving DecidableEq, Repr

namespace Alert

def aiBlocked : Alert := ⟨.degraded, "ai_blocked_fixed_cycle"⟩

def aiRestored : Alert := ⟨.online, "ai_restored"⟩

def silenceTimeout : Alert := ⟨.degraded, "command_silence_timeout"⟩

def cameraTimeout : Alert := ⟨.offline, "camera_timeout"⟩

def cameraRecovered : Alert := ⟨.online, "camera_recovered"⟩

def inferenceFault : Alert := ⟨.degraded, "inference_fault"⟩

def inferenceRestored : Alert := ⟨.online, "inference_restored"⟩

end Alert

/-- A call on the mode with the alert that goes with it, the loop at that moment
and whether the link is up. -/
structure Switch where
  alert : Alert
  loop : Loop
  connected : Bool
  deriving DecidableEq, Repr

namespace Loop

def exitFallbackSwitches (l : Loop) (connected : Bool) : List Switch :=
  if l.isCameraOnline ∧ l.inferenceOnline then [⟨.aiRestored, l, connected⟩] else []

def actSwitches (l : Loop) (decision : GuardDecision) (connected : Bool) :
    List Switch :=
  match decision with
  | .enterFallback => [⟨.aiBlocked, l, connected⟩]
  | .exitFallback => l.exitFallbackSwitches connected
  | .none => []

def popSwitches (tickNowMs : ℤ) (l : Loop) (p : Popped) : List Switch :=
  let (decision, cmdGuard) := l.cmdGuard.onCommand p.command tickNowMs
  { l with cmdGuard := cmdGuard }.actSwitches decision p.connected

def drainSwitches (tickNowMs : ℤ) : Loop → List Popped → List Switch
  | _, [] => []
  | l, p :: popped =>
      l.popSwitches tickNowMs p ++
        (l.pop tickNowMs p).1.drainSwitches tickNowMs popped

/-- The alert of the silence watchdog has no guard besides that of the watchdog. -/
def silenceSwitches (l : Loop) (k : Iteration) : List Switch :=
  if k.connected then
    let (decision, cmdGuard) := l.cmdGuard.tick k.tickNowMs
    if decision = .enterFallback then
      [⟨.silenceTimeout, { l with cmdGuard := cmdGuard }, k.connected⟩]
    else []
  else []

def cameraSwitches (l : Loop) (k : Iteration) : List Switch :=
  if ¬ k.haveFrame then
    if 3 < k.sinceFrameS ∧ l.isCameraOnline then
      [⟨.cameraTimeout, { l with isCameraOnline := false }, k.cameraConnected⟩]
    else []
  else if ¬ l.isCameraOnline then
    if ¬ l.cmdGuard.inFallback ∧ l.inferenceOnline then
      [⟨.cameraRecovered, { l with isCameraOnline := true }, k.cameraConnected⟩]
    else []
  else []

def inferenceSwitches (l : Loop) (k : Iteration) : List Switch :=
  if l.isCameraOnline then
    if ¬ k.inferenceOk then
      if l.inferenceOnline then
        [⟨.inferenceFault, { l with inferenceOnline := false },
          k.inferenceConnected⟩]
      else []
    else if ¬ l.inferenceOnline then
      if l.isCameraOnline ∧ ¬ l.cmdGuard.inFallback then
        [⟨.inferenceRestored, { l with inferenceOnline := true },
          k.inferenceConnected⟩]
      else []
    else []
  else []

/-- The switches of one iteration, in the order of `handleFaults`. -/
def switches (l : Loop) (k : Iteration) : List Switch :=
  let drained := l.drainSwitches k.tickNowMs k.popped
  let l := (l.drain k.tickNowMs k.popped).1
  let silence := l.silenceSwitches k
  let l := (l.silenceWatchdog k).1
  let camera := l.cameraSwitches k
  let l := (l.acquireFrame k).1
  drained ++ silence ++ camera ++ l.inferenceSwitches k

/-- `if (mqtt.is_connected()) mqtt.publish_alert(...)` at each switch. -/
def notices (l : Loop) (k : Iteration) : List Switch :=
  (l.switches k).filter Switch.connected

end Loop

/-! ## Alerts and calls -/

namespace Switch

/-- The mode that the alert announces. -/
def mode (n : Switch) : Bool := n.alert.status ≠ .online

/-- The alert says of its loop what is so. -/
inductive Truthful : Switch → Prop where
  | aiBlocked {l : Loop} {connected : Bool}
      (hfallback : l.cmdGuard.inFallback = true) :
      Truthful ⟨.aiBlocked, l, connected⟩
  | silenceTimeout {l : Loop} {connected : Bool}
      (hfallback : l.cmdGuard.inFallback = true) :
      Truthful ⟨.silenceTimeout, l, connected⟩
  | cameraTimeout {l : Loop} {connected : Bool}
      (hcamera : l.isCameraOnline = false) :
      Truthful ⟨.cameraTimeout, l, connected⟩
  | inferenceFault {l : Loop} {connected : Bool}
      (hinference : l.inferenceOnline = false) :
      Truthful ⟨.inferenceFault, l, connected⟩
  | online {a : Alert} {l : Loop} {connected : Bool} (hstatus : a.status = .online)
      (hfaulty : l.faulty = false) : Truthful ⟨a, l, connected⟩

theorem Truthful.mode_eq {n : Switch} (hn : n.Truthful) :
    n.mode = n.loop.faulty := by
  cases hn with
  | aiBlocked hfallback => simp [mode, Alert.aiBlocked, Loop.faulty, hfallback]
  | silenceTimeout hfallback =>
      simp [mode, Alert.silenceTimeout, Loop.faulty, hfallback]
  | cameraTimeout hcamera =>
      simp [mode, Alert.cameraTimeout, Loop.faulty, hcamera]
  | inferenceFault hinference =>
      simp [mode, Alert.inferenceFault, Loop.faulty, hinference]
  | online hstatus hfaulty => simp [mode, hstatus, hfaulty]

end Switch

/-- The modes that a list of calls asks for. -/
def togglesOf (calls : List Event) : List Bool :=
  calls.filterMap fun e =>
    match e.call with
    | .setEmergencyMode on => some on
    | _ => none

@[simp] theorem togglesOf_nil : togglesOf [] = [] := rfl

@[simp] theorem togglesOf_toggle (on : Bool) (now : TimePoint) :
    togglesOf [toggle on now] = [on] := rfl

theorem togglesOf_append (first second : List Event) :
    togglesOf (first ++ second) = togglesOf first ++ togglesOf second :=
  List.filterMap_append

theorem modeAfter_eq_getLast? (on : Bool) (calls : List Event) :
    modeAfter on calls = (togglesOf calls).getLast?.getD on := by
  induction calls using List.reverseRecOn with
  | nil => rfl
  | append_singleton calls e ih =>
      rw [modeAfter_append, togglesOf_append, List.getLast?_append, ih]
      obtain ⟨call, now⟩ := e
      cases call with
      | setEmergencyMode on' => rfl
      | validate desired => rfl
      | reset => rfl

namespace Loop

/-- The calls and the switches of a part of the iteration go together one by one,
and their alerts are truthful. -/
def Announces (calls : List Event) (switches : List Switch) : Prop :=
  togglesOf calls = switches.map Switch.mode ∧ ∀ n ∈ switches, n.Truthful

theorem announces_nil : Announces [] [] :=
  ⟨rfl, fun _ hn => absurd hn List.not_mem_nil⟩

theorem announces_singleton {n : Switch} (hn : n.Truthful) (now : TimePoint) :
    Announces [toggle n.mode now] [n] := by
  refine ⟨rfl, ?_⟩
  intro n' hn'
  rw [List.mem_singleton.mp hn']
  exact hn

/-- The alert that follows the end of the last fault. -/
theorem announces_online {a : Alert} {l : Loop} (hfaulty : l.faulty = false)
    (hstatus : a.status = .online) (now : TimePoint) (connected : Bool) :
    Announces [toggle false now] [⟨a, l, connected⟩] := by
  have hmode : (⟨a, l, connected⟩ : Switch).mode = false := by
    simp [Switch.mode, hstatus]
  rw [← hmode]
  exact announces_singleton (.online hstatus hfaulty) now

theorem Announces.append {calls calls' : List Event}
    {switches switches' : List Switch} (hfirst : Announces calls switches)
    (hsecond : Announces calls' switches') :
    Announces (calls ++ calls') (switches ++ switches') := by
  refine ⟨?_, List.forall_mem_append.mpr ⟨hfirst.2, hsecond.2⟩⟩
  rw [togglesOf_append, List.map_append, hfirst.1, hsecond.1]

theorem pop_announces (tickNowMs : ℤ) (l : Loop) (p : Popped) :
    Announces (l.pop tickNowMs p).2 (l.popSwitches tickNowMs p) := by
  have hdecided := l.cmdGuard.onCommand_decided p.command tickNowMs
  simp only [pop, popSwitches]
  generalize l.cmdGuard.onCommand p.command tickNowMs = r at hdecided
  obtain ⟨decision, g⟩ := r
  cases hdecided with
  | none hsame => exact announces_nil
  | enter hbefore hafter =>
      exact announces_singleton (.aiBlocked hafter) p.now
  | exit hbefore hafter =>
      simp only at hafter
      simp only [act, actSwitches, exitFallbackIfSafe, exitFallbackSwitches]
      split_ifs with honline
      · have hfaulty : { l with cmdGuard := g }.faulty = false := by
          simp [faulty, hafter, honline.1, honline.2]
        exact announces_online hfaulty rfl p.now _
      · exact announces_nil

theorem drain_announces (tickNowMs : ℤ) (l : Loop) (popped : List Popped) :
    Announces (l.drain tickNowMs popped).2 (l.drainSwitches tickNowMs popped) := by
  induction popped generalizing l with
  | nil => exact announces_nil
  | cons p popped ih => exact (l.pop_announces tickNowMs p).append (ih _)

theorem silenceWatchdog_announces (l : Loop) (k : Iteration) :
    Announces (l.silenceWatchdog k).2 (l.silenceSwitches k) := by
  have hdecided := l.cmdGuard.tick_decided k.tickNowMs
  unfold silenceWatchdog silenceSwitches
  split_ifs with hconnected
  · dsimp only
    split_ifs with henter
    · have hfallback : (l.cmdGuard.tick k.tickNowMs).2.inFallback = true := by
        rw [henter] at hdecided
        cases hdecided with
        | enter hbefore hafter => exact hafter
      exact announces_singleton (.silenceTimeout hfallback) k.silenceNow
    · exact announces_nil
  · exact announces_nil

theorem acquireFrame_announces (l : Loop) (k : Iteration) :
    Announces (l.acquireFrame k).2 (l.cameraSwitches k) := by
  unfold acquireFrame cameraSwitches
  by_cases hframe : k.haveFrame = true
  · rw [if_neg (not_not.mpr hframe), if_neg (not_not.mpr hframe)]
    by_cases hcamera : l.isCameraOnline = true
    · rw [if_neg (not_not.mpr hcamera), if_neg (not_not.mpr hcamera)]
      exact announces_nil
    · rw [if_pos hcamera, if_pos hcamera]
      by_cases hsafe : ¬ l.cmdGuard.inFallback = true ∧ l.inferenceOnline = true
      · rw [if_pos hsafe, if_pos hsafe]
        have hfaulty : { l with isCameraOnline := true }.faulty = false := by
          simp [faulty, hsafe.1, hsafe.2]
        exact announces_online hfaulty rfl k.cameraNow _
      · rw [if_neg hsafe, if_neg hsafe]
        exact announces_nil
  · rw [if_pos hframe, if_pos hframe]
    by_cases hlost : 3 < k.sinceFrameS ∧ l.isCameraOnline = true
    · rw [if_pos hlost, if_pos hlost]
      have hdown : Switch.Truthful ⟨.cameraTimeout,
          { l with isCameraOnline := false }, k.cameraConnected⟩ := .cameraTimeout rfl
      exact announces_singleton hdown k.cameraNow
    · rw [if_neg hlost, if_neg hlost]
      exact announces_nil

theorem runDetection_announces (l : Loop) (k : Iteration) :
    Announces (l.runDetection k).2 (l.inferenceSwitches k) := by
  unfold runDetection inferenceSwitches
  by_cases hcamera : l.isCameraOnline = true
  · rw [if_pos hcamera, if_pos hcamera]
    by_cases hok : k.inferenceOk = true
    · rw [if_neg (not_not.mpr hok), if_neg (not_not.mpr hok)]
      by_cases honline : l.inferenceOnline = true
      · rw [if_neg (not_not.mpr honline), if_neg (not_not.mpr honline)]
        exact announces_nil
      · rw [if_pos honline, if_pos honline]
        dsimp only
        split_ifs with hsafe
        · have hfaulty : { l with inferenceOnline := true }.faulty = false := by
            simp [faulty, hsafe.1, hsafe.2]
          exact announces_online hfaulty rfl k.inferenceNow _
        · exact announces_nil
    · rw [if_pos hok, if_pos hok]
      by_cases honline : l.inferenceOnline = true
      · rw [if_pos honline, if_pos honline]
        have hfault : Switch.Truthful ⟨.inferenceFault,
            { l with inferenceOnline := false }, k.inferenceConnected⟩ := .inferenceFault rfl
        exact announces_singleton hfault k.inferenceNow
      · rw [if_neg honline, if_neg honline]
        exact announces_nil
  · rw [if_neg hcamera, if_neg hcamera]
    exact announces_nil

theorem handleFaults_announces (l : Loop) (k : Iteration) :
    Announces (l.handleFaults k).2 (l.switches k) :=
  (((l.drain_announces k.tickNowMs k.popped).append
    (silenceWatchdog_announces _ k)).append
      (acquireFrame_announces _ k)).append (runDetection_announces _ k)

end Loop

/-! ## Runs of the node -/

namespace Node

/-- The switches of a run, in order. -/
def switchesOf (n : Node) : List Iteration → List Switch
  | [] => []
  | k :: ks => n.loop.switches k ++ (n.iterate k).switchesOf ks

theorem iterate_faulty (n : Node) (k : Iteration) :
    (n.iterate k).loop.faulty =
      ((n.loop.switches k).getLast?.map Switch.mode).getD n.loop.faulty := by
  have hmode := (n.loop.handleFaults_arbitrates k).2
  have hcalls := (n.loop.handleFaults_announces k).1
  rw [modeAfter_eq_getLast?, hcalls, List.getLast?_map] at hmode
  exact hmode.symm

theorem run_faulty (n : Node) (ks : List Iteration) :
    (machine.run n ks).loop.faulty =
      ((n.switchesOf ks).getLast?.map Switch.mode).getD n.loop.faulty := by
  induction ks generalizing n with
  | nil => rfl
  | cons k ks ih =>
      have hrest := ih (n.iterate k)
      rw [switchesOf, List.getLast?_append]
      change (machine.run (n.iterate k) ks).loop.faulty = _
      rw [hrest, iterate_faulty]
      cases ((n.iterate k).switchesOf ks).getLast? <;> rfl

theorem truthful_of_mem_switchesOf {n : Node} {ks : List Iteration}
    {x : Switch} (hx : x ∈ n.switchesOf ks) : x.Truthful := by
  induction ks generalizing n with
  | nil => exact absurd hx List.not_mem_nil
  | cons k ks ih =>
      rcases List.mem_append.mp hx with hfirst | hrest
      · exact (n.loop.handleFaults_announces k).2 x hfirst
      · exact ih hrest

/-- The mode of the layer is that of the last switch. -/
theorem run_inEmergency (major : MajorApproach) (armedMs : Option ℤ)
    (now : TimePoint) (ks : List Iteration) :
    (machine.run (boot major armedMs now) ks).safety.inEmergency =
      (((boot major armedMs now).switchesOf ks).getLast?.map
        Switch.mode).getD false := by
  have hboot := boot_arbitrated major armedMs now
  have hrun : (machine.run (boot major armedMs now) ks).Arbitrated :=
    machine.run_invariant (fun n k hn => hn.iterate k) ks hboot
  have hfaulty : (boot major armedMs now).loop.faulty = false :=
    hboot.mode.symm
  rw [hrun.mode, run_faulty, hfaulty]

/-- The calls on the mode that a run makes on the safety layer. -/
def togglesOfRun (n : Node) : List Iteration → List Bool
  | [] => []
  | k :: ks =>
      togglesOf (n.loop.handleFaults k).2 ++ (n.iterate k).togglesOfRun ks

theorem togglesOfRun_eq (n : Node) (ks : List Iteration) :
    n.togglesOfRun ks = (n.switchesOf ks).map Switch.mode := by
  induction ks generalizing n with
  | nil => rfl
  | cons k ks ih =>
      rw [togglesOfRun, switchesOf, List.map_append, ih,
        (n.loop.handleFaults_announces k).1]

/-- The alerts of a run, in order. -/
def noticesOf (n : Node) : List Iteration → List Switch
  | [] => []
  | k :: ks => n.loop.notices k ++ (n.iterate k).noticesOf ks

theorem noticesOf_eq (n : Node) (ks : List Iteration) :
    n.noticesOf ks = (n.switchesOf ks).filter Switch.connected := by
  induction ks generalizing n with
  | nil => rfl
  | cons k ks ih =>
      rw [noticesOf, switchesOf, List.filter_append, ih]
      rfl

/-- In every run of the node the alerts are those of the switches of the emergency
mode that find the link up, one for each, in order and of the same direction; each
alert says what is so of the guard, the camera and the detector at the moment it
is given; and if the last switch has found the link up, the mode of the layer is
the one that the last alert announces. -/
theorem alerts_of_run (major : MajorApproach) (armedMs : Option ℤ)
    (now : TimePoint) (ks : List Iteration) :
    let n := boot major armedMs now
    n.togglesOfRun ks = (n.switchesOf ks).map Switch.mode ∧
      n.noticesOf ks = (n.switchesOf ks).filter Switch.connected ∧
      (∀ x ∈ n.noticesOf ks, x.Truthful ∧ x.mode = x.loop.faulty) ∧
      ((∀ x ∈ (n.switchesOf ks).getLast?, x.connected = true) →
        (machine.run n ks).safety.inEmergency =
          ((n.noticesOf ks).getLast?.map Switch.mode).getD false) := by
  intro n
  refine ⟨togglesOfRun_eq n ks, noticesOf_eq n ks, fun x hx => ?_, fun hlast => ?_⟩
  · rw [noticesOf_eq] at hx
    have htrue := truthful_of_mem_switchesOf (List.mem_filter.mp hx).1
    exact ⟨htrue, htrue.mode_eq⟩
  · rw [run_inEmergency major armedMs now ks, noticesOf_eq]
    cases hswitches : (n.switchesOf ks).getLast? with
    | none =>
        rw [List.getLast?_eq_none_iff] at hswitches
        rw [hswitches]
        rfl
    | some x =>
        have hconnected := hlast x hswitches
        obtain ⟨before, hsplit⟩ := List.getLast?_eq_some_iff.mp hswitches
        rw [hsplit, List.filter_append]
        simp [hconnected]

end Node

end Semaforo
