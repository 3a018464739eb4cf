import Semaforo.Interlock
import Semaforo.TimedRun
import Mathlib.Tactic

/-!
# The safety layer refines the interlock

`Represents` reads the flags of the safety layer as one abstract sub-phase.
Every public call of the layer is matched by one move of the abstract machine
(`apply_refines`); the step functions are unfolded in this file only, and every
later result about the layer is derived from the moves.
-/

namespace Semaforo

def SubPhase.state : SubPhase → State
  | green _ => .green
  | amber _ _ => .yellow
  | clearance _ => .allRed
  | ring _ => .emergency
  | flashClearance => .flashClearance
  | flash => .flash

namespace SafetyLayer

def apply (s : SafetyLayer) (e : Event) : SafetyLayer :=
  match e.call with
  | .validate desired => (s.validate desired e.now).2
  | .setEmergencyMode on => s.setEmergencyMode on e.now
  | .reset => s.reset e.now

def machine : Machine SafetyLayer Event TimePoint where
  step := apply
  time := Event.now

/-- The flags that a sub-phase of the normal interlock fixes: the emergency
mode is off and the committed target is the given one. -/
structure Committed (s : SafetyLayer) (target : Option Green) : Prop where
  emergency : s.emergency = false
  valid : s.targetValid = target.isSome
  target : ∀ h ∈ target, s.targetGreen = h.phase

def Agrees (s : SafetyLayer) : SubPhase → Prop
  | .green g => s.Committed (some g)
  | .amber _ h => s.Committed (some h)
  | .clearance c => s.Committed c
  | .ring i => s.emergency = true ∧ s.ringIdx = i
  | .flashClearance => True
  | .flash => True

/-- The concrete layer `s` is in the abstract sub-phase `a.sub` since
`a.since`. -/
structure Represents (s : SafetyLayer) (a : Interlock) : Prop where
  since : s.phaseStart = a.since
  state : s.state = a.sub.state
  applied : s.applied = a.sub.display s.major
  agrees : s.Agrees a.sub

theorem boot_represents (t : Timings) (major : MajorApproach)
    (now : TimePoint) :
    (boot t major now).Represents ⟨.clearance none, now⟩ := by
  refine ⟨rfl, rfl, rfl, rfl, rfl, ?_⟩
  simp

theorem flashClearanceS_eq (s : SafetyLayer) :
    s.flashClearanceS = .fin s.t.flashClearance := by
  unfold flashClearanceS Timings.flashClearance
  cases s.t.allRed with
  | fin a =>
      simp only [FloatValue.isFinite_fin, FloatValue.fin_lt_fin,
        FloatValue.fin_le_fin, true_and]
      split_ifs <;> rfl
  | nan => simp
  | negInf => simp
  | posInf => simp

theorem ringDuration_ringEntry (s : SafetyLayer) (i : Fin 6) :
    s.ringDuration (ringEntry i) = s.t.ringSchedule i := by
  fin_cases i <;> rfl

theorem ringEntry_succ (i : Fin 6) :
    ringEntry ((i + 1 : Fin 6) : ℕ) = ringEntry ((i.val + 1) % kRingSize) := by
  fin_cases i <;> rfl

/-! ## The flash path -/

theorem enterFlashClearance_represents (s : SafetyLayer) (stuck : Phase)
    (now : TimePoint) :
    (s.enterFlashClearance stuck now).Represents ⟨.flashClearance, now⟩ :=
  ⟨rfl, rfl, rfl, trivial⟩

theorem stepFlash_enterFlashClearance (s : SafetyLayer) (stuck : Phase)
    (now : TimePoint) :
    ((s.enterFlashClearance stuck now).stepFlash now).2 =
      s.enterFlashClearance stuck now := by
  have hnot : ¬ (s.enterFlashClearance stuck now).flashClearanceS ≤
      .fin ((s.enterFlashClearance stuck now).elapsedS now) := by
    rw [flashClearanceS_eq, FloatValue.fin_le_fin]
    simp only [elapsedS, enterFlashClearance, sub_self, floatSeconds_zero, not_le]
    exact s.t.flashClearance_pos
  simp only [stepFlash, flashAdvance]
  rw [if_neg (fun h => hnot h.2)]

/-- A phase held past its bound is left for the flash clearance. -/
theorem escalation_refines {s : SafetyLayer} {p : SubPhase} {b : TimePoint}
    {now : TimePoint} (hmode : p.mode ≠ .flashing)
    (hover : p.Overdue s.t (floatSeconds (now - b)))
    (hring : p.mode = .ring → ¬ p.schedule s.t ≤ .fin (floatSeconds (now - b)))
    (stuck desired : Phase) :
    ∃ a, Interlock.Step s.t ⟨p, b⟩ ⟨.validate desired, now⟩ a ∧
      ((s.enterFlashClearance stuck now).stepFlash now).2.Represents a := by
  rw [stepFlash_enterFlashClearance]
  exact ⟨⟨.flashClearance, now⟩, .leave (.escalate hmode hover hring),
    enterFlashClearance_represents _ _ _⟩

theorem stepFlash_refines_of_clearance {s : SafetyLayer} {b : TimePoint}
    (hrep : s.Represents ⟨.flashClearance, b⟩) (desired : Phase)
    (now : TimePoint) :
    ∃ a, Interlock.Step s.t ⟨.flashClearance, b⟩ ⟨.validate desired, now⟩ a ∧
      (s.stepFlash now).2.Represents a := by
  have hstate : s.state = .flashClearance := hrep.state
  have hsince : s.phaseStart = b := hrep.since
  simp only [stepFlash, flashAdvance, flashClearanceS_eq,
    FloatValue.fin_le_fin, elapsedS, hstate, hsince, true_and,
    isFlash_flashPhaseFor, if_true]
  by_cases hdue : s.t.flashClearance ≤ floatSeconds (now - b)
  · rw [if_pos hdue]
    exact ⟨⟨.flash, now⟩, .leave (.flashOver hdue), rfl, rfl, rfl, trivial⟩
  · rw [if_neg hdue]
    exact ⟨⟨.flashClearance, b⟩, .stay (.flashClearance hdue), hrep⟩

theorem stepFlash_refines_of_flash {s : SafetyLayer} {b : TimePoint}
    (hrep : s.Represents ⟨.flash, b⟩) (desired : Phase) (now : TimePoint) :
    ∃ a, Interlock.Step s.t ⟨.flash, b⟩ ⟨.validate desired, now⟩ a ∧
      (s.stepFlash now).2.Represents a := by
  have hstate : s.state = .flash := hrep.state
  have hstep : (s.stepFlash now).2 = s := by
    simp [stepFlash, flashAdvance, hstate]
  rw [hstep]
  exact ⟨⟨.flash, b⟩, .stay .flash, hrep⟩

/-! ## The normal interlock -/

theorem stepGreen_refines {s : SafetyLayer} {g : Green} {b : TimePoint}
    (hrep : s.Represents ⟨.green g, b⟩) (desired : Phase) (now : TimePoint) :
    ∃ a, Interlock.Step s.t ⟨.green g, b⟩ ⟨.validate desired, now⟩ a ∧
      (s.stepGreen desired now).2.Represents a := by
  have hsince : s.phaseStart = b := hrep.since
  have happlied : s.applied = g.phase := hrep.applied
  have hcommitted : s.Committed (some g) := hrep.agrees
  unfold stepGreen
  simp only [elapsedS, hsince]
  by_cases hover : ¬ scheduleTrusted s.t.maxGreen ∧ maxGreenS ≤ floatSeconds (now - b)
  · rw [if_pos hover]
    have hoverdue : SubPhase.Overdue s.t (floatSeconds (now - b)) (.green g) := hover
    refine escalation_refines ?_ hoverdue ?_ s.applied desired
    · simp [SubPhase.mode]
    · simp [SubPhase.mode]
  rw [if_neg hover]
  have hlive : ¬ SubPhase.Overdue s.t (floatSeconds (now - b)) (.green g) := hover
  have hyellow : ∀ h : Green, (s.beginYellow h.phase now).Represents
      ⟨.amber g.axis h, now⟩ := by
    intro h
    refine ⟨rfl, rfl, ?_, hcommitted.emergency, rfl, ?_⟩
    · simp [beginYellow, happlied, SubPhase.display]
    · simp [beginYellow]
  by_cases hmax : s.t.maxGreen ≤ .fin (floatSeconds (now - b))
  · simp only [if_pos hmax]
    have hdest : (if (if isGreen desired = true then desired else s.applied) ≠
        s.applied then (if isGreen desired = true then desired else s.applied)
        else oppositeGreen s.applied) = (g.forced desired).phase := by
      rw [happlied]
      cases hgreen : Green.ofPhase? desired with
      | none =>
          have := Green.ofPhase?_eq_none_iff.mp hgreen
          simp [this, Green.forced, hgreen]
      | some h =>
          have hphase := Green.ofPhase?_eq_some_iff.mp hgreen
          by_cases hgh : h = g
          · simp [hphase, hgh, Green.forced, Green.ofPhase?_eq_some_iff.mpr]
          · simp [hphase, hgh, Green.forced, Green.ofPhase?_eq_some_iff.mpr]
    rw [hdest]
    exact ⟨⟨.amber g.axis (g.forced desired), now⟩,
      .leave (.greenOver hlive (.forced hmax)), hyellow _⟩
  rw [if_neg hmax]
  by_cases hwants : ∃ h : Green, desired = h.phase ∧ h ≠ g
  · obtain ⟨h, rfl, hne⟩ := hwants
    have hchange : h.phase ≠ s.applied := by
      rw [happlied]
      simpa using hne
    simp only [Green.isGreen_phase, if_true]
    by_cases hmin : s.t.minGreen ≤ .fin (floatSeconds (now - b))
    · rw [if_pos ⟨hchange, hmin⟩]
      exact ⟨⟨.amber g.axis h, now⟩,
        .leave (.greenOver hlive (.requested hmax hmin rfl hne)), hyellow _⟩
    · rw [if_neg (fun hand => hmin hand.2), if_pos ⟨hchange, hmin⟩]
      exact ⟨⟨.green g, b⟩,
        .stay (.green hlive hmax (fun _ _ _ => hmin)), hrep⟩
  · have hsame : (if isGreen desired = true then desired else s.applied) =
        s.applied := by
      by_cases hgreen : isGreen desired = true
      · obtain ⟨h, rfl⟩ := Green.exists_of_isGreen hgreen
        have hgh : h = g := by
          by_contra hne
          exact hwants ⟨h, rfl, hne⟩
        simp [hgh, happlied]
      · rw [if_neg hgreen]
    simp only [hsame, ne_eq, not_true_eq_false, false_and, if_false]
    refine ⟨⟨.green g, b⟩, .stay (.green hlive hmax ?_), hrep⟩
    intro h hdesired hne
    exact absurd ⟨h, hdesired, hne⟩ hwants

theorem stepYellow_refines {s : SafetyLayer} {o : Axis} {h : Green}
    {b : TimePoint} (hrep : s.Represents ⟨.amber o h, b⟩) (desired : Phase)
    (now : TimePoint) :
    ∃ a, Interlock.Step s.t ⟨.amber o h, b⟩ ⟨.validate desired, now⟩ a ∧
      (s.stepYellow desired now).2.Represents a := by
  have hsince : s.phaseStart = b := hrep.since
  have hcommitted : s.Committed (some h) := hrep.agrees
  unfold stepYellow
  simp only [elapsedS, hsince]
  by_cases hover : ¬ scheduleTrusted s.t.yellow ∧
      kEmergencyYellowSanityTimeoutMs ≤ float32 (floatSeconds (now - b) * 1000)
  · rw [if_pos hover]
    have hoverdue : SubPhase.Overdue s.t (floatSeconds (now - b)) (.amber o h) := hover
    refine escalation_refines ?_ hoverdue ?_ s.applied desired
    · simp [SubPhase.mode]
    · simp [SubPhase.mode]
  rw [if_neg hover]
  by_cases hdue : s.t.yellow ≤ .fin (floatSeconds (now - b))
  · rw [if_pos hdue]
    refine ⟨⟨.clearance (some h), now⟩, .leave (.amberOver hover hdue),
      rfl, rfl, rfl, ?_⟩
    exact ⟨hcommitted.emergency, hcommitted.valid, hcommitted.target⟩
  · rw [if_neg hdue]
    exact ⟨⟨.amber o h, b⟩, .stay (.amber hover hdue), hrep⟩

theorem commitTarget_represents {s : SafetyLayer} {c : Option Green}
    {b : TimePoint} (hrep : s.Represents ⟨.clearance c, b⟩)
    (desired : Phase) :
    (s.commitTarget desired).Represents ⟨.clearance (commit c desired), b⟩ := by
  have hcommitted : s.Committed c := hrep.agrees
  unfold commitTarget
  cases c with
  | some h =>
      have hvalid : s.targetValid = true := hcommitted.valid
      simpa [hvalid, commit] using hrep
  | none =>
      have hvalid : s.targetValid = false := hcommitted.valid
      cases hgreen : Green.ofPhase? desired with
      | none =>
          have hnot := Green.ofPhase?_eq_none_iff.mp hgreen
          simpa [hnot, commit, hgreen] using hrep
      | some h =>
          have hphase := Green.ofPhase?_eq_some_iff.mp hgreen
          subst hphase
          simp only [hvalid, Bool.false_eq_true, not_false_eq_true,
            Green.isGreen_phase, and_self, if_true, commit, hgreen,
            Option.none_or]
          refine ⟨hrep.since, hrep.state, hrep.applied,
            hcommitted.emergency, rfl, ?_⟩
          simp

@[simp] theorem commitTarget_t (s : SafetyLayer) (desired : Phase) :
    (s.commitTarget desired).t = s.t := by
  unfold commitTarget
  split_ifs <;> rfl

theorem stepAllRed_refines {s : SafetyLayer} {c : Option Green}
    {b : TimePoint} (hrep : s.Represents ⟨.clearance c, b⟩) (desired : Phase)
    (now : TimePoint) :
    ∃ a, Interlock.Step s.t ⟨.clearance c, b⟩ ⟨.validate desired, now⟩ a ∧
      (s.stepAllRed desired now).2.Represents a := by
  have hsince : s.phaseStart = b := hrep.since
  unfold stepAllRed
  simp only [elapsedS, hsince]
  by_cases hover : ¬ scheduleTrusted s.t.allRed ∧
      kEmergencyScheduleSanityTimeoutMs ≤ float32 (floatSeconds (now - b) * 1000)
  · rw [if_pos hover]
    have hoverdue : SubPhase.Overdue s.t (floatSeconds (now - b)) (.clearance c) := hover
    refine escalation_refines ?_ hoverdue ?_ s.applied desired
    · simp [SubPhase.mode]
    · simp [SubPhase.mode]
  rw [if_neg hover]
  have hnext := commitTarget_represents hrep desired
  have hcommitted : (s.commitTarget desired).Committed (commit c desired) :=
    hnext.agrees
  simp only [commitTarget_t]
  by_cases hdue : s.t.allRed ≤ .fin (floatSeconds (now - b)) ∧
      (s.commitTarget desired).targetValid = true
  · rw [if_pos hdue]
    have hsome : (commit c desired).isSome = true :=
      hcommitted.valid ▸ hdue.2
    obtain ⟨h, hcommit⟩ := Option.isSome_iff_exists.mp hsome
    have htarget : (s.commitTarget desired).targetGreen = h.phase :=
      hcommitted.target h hcommit
    refine ⟨⟨.green h, now⟩, .leave (.clearanceOver hover hdue.1 hcommit),
      rfl, rfl, htarget, hcommitted.emergency, hdue.2, ?_⟩
    simpa using htarget
  · rw [if_neg hdue]
    refine ⟨⟨.clearance (commit c desired), b⟩,
      .stay (.clearance hover ?_), hnext⟩
    intro hred
    cases hcommit : commit c desired with
    | none => rfl
    | some h =>
        have hvalid := hcommitted.valid
        rw [hcommit] at hvalid
        exact absurd ⟨hred, hvalid⟩ hdue

/-! ## The emergency ring -/

/-- The three watchdog legs of the ring are one: the schedule of the current
entry is corrupt and the timeout of that entry has passed. -/
theorem overdue_ring_iff (s : SafetyLayer) (i : Fin 6) (el : ℚ) :
    SubPhase.Overdue s.t el (.ring i) ↔
      (¬ scheduleTrusted (s.t.ringSchedule i) ∧ isGreen (ringEntry i) ∧
          kEmergencyScheduleSanityTimeoutMs ≤ float32 (el * 1000)) ∨
        (¬ scheduleTrusted (s.t.ringSchedule i) ∧ isYellow (ringEntry i) ∧
          kEmergencyYellowSanityTimeoutMs ≤ float32 (el * 1000)) ∨
        (¬ scheduleTrusted (s.t.ringSchedule i) ∧
          kEmergencyScheduleSanityTimeoutMs ≤ float32 (el * 1000)) := by
  have hms : kEmergencyScheduleSanityTimeoutMs ≤ float32 (el * 1000) →
      kEmergencyYellowSanityTimeoutMs ≤ float32 (el * 1000) := by
    intro h
    refine le_trans ?_ h
    norm_num [kEmergencyScheduleSanityTimeoutMs,
      kEmergencyYellowSanityTimeoutMs]
  simp only [SubPhase.Overdue, SubPhase.schedule, SubPhase.TimedOut]
  by_cases hyellow : isYellow (ringEntry i) = true
  · simp only [hyellow, if_true]
    tauto
  · simp only [if_neg hyellow]
    tauto

theorem stepEmergency_refines {s : SafetyLayer} {i : Fin 6} {b : TimePoint}
    (hrep : s.Represents ⟨.ring i, b⟩) (desired : Phase) (now : TimePoint) :
    ∃ a, Interlock.Step s.t ⟨.ring i, b⟩ ⟨.validate desired, now⟩ a ∧
      (s.stepEmergency now).2.Represents a := by
  have hsince : s.phaseStart = b := hrep.since
  obtain ⟨hemergency, hidx⟩ : s.emergency = true ∧ s.ringIdx = i := hrep.agrees
  have hwatchdog := overdue_ring_iff s i (floatSeconds (now - b))
  unfold stepEmergency
  simp only [elapsedS, hsince, hidx, ringDuration_ringEntry]
  by_cases hdue : s.t.ringSchedule i ≤ .fin (floatSeconds (now - b))
  · rw [if_pos hdue]
    refine ⟨⟨.ring (i + 1), now⟩, .leave (.ringOver hdue),
      rfl, hrep.state, (ringEntry_succ i).symm, hemergency, ?_⟩
    simp only [emergencyResult, Fin.val_add, kRingSize]
    rfl
  rw [if_neg hdue]
  have hescalate : SubPhase.Overdue s.t (floatSeconds (now - b)) (.ring i) →
      ∃ a, Interlock.Step s.t ⟨.ring i, b⟩ ⟨.validate desired, now⟩ a ∧
        ((s.enterFlashClearance (ringEntry i) now).stepFlash now).2.Represents
          a := by
    intro hover
    refine escalation_refines ?_ hover (fun _ => hdue) (ringEntry i) desired
    simp [SubPhase.mode]
  split_ifs with hgreen hyellow hred
  · exact hescalate (hwatchdog.mpr (Or.inl hgreen))
  · exact hescalate (hwatchdog.mpr (Or.inr (Or.inl hyellow)))
  · exact hescalate (hwatchdog.mpr (Or.inr (Or.inr hred)))
  · refine ⟨⟨.ring i, b⟩, .stay (.ring ?_ hdue), hrep⟩
    intro hover
    rcases hwatchdog.mp hover with h | h | h
    · exact hgreen h
    · exact hyellow h
    · exact hred h

/-! ## The public calls -/

theorem validate_refines {s : SafetyLayer} {a : Interlock}
    (hrep : s.Represents a) (desired : Phase) (now : TimePoint) :
    ∃ a', Interlock.Step s.t a ⟨.validate desired, now⟩ a' ∧
      (s.validate desired now).2.Represents a' := by
  obtain ⟨p, b⟩ := a
  unfold validate
  have hstate : s.state = p.state := hrep.state
  cases p with
  | green g =>
      have hcommitted : s.Committed (some g) := hrep.agrees
      simp only [hstate, SubPhase.state, hcommitted.emergency, stepNormal]
      simpa using stepGreen_refines hrep desired now
  | amber o h =>
      have hcommitted : s.Committed (some h) := hrep.agrees
      simp only [hstate, SubPhase.state, hcommitted.emergency, stepNormal]
      simpa using stepYellow_refines hrep desired now
  | clearance c =>
      have hcommitted : s.Committed c := hrep.agrees
      simp only [hstate, SubPhase.state, hcommitted.emergency, stepNormal]
      simpa using stepAllRed_refines hrep desired now
  | ring i =>
      obtain ⟨hemergency, _⟩ : s.emergency = true ∧ s.ringIdx = i :=
        hrep.agrees
      simp only [hstate, SubPhase.state, hemergency]
      simpa using stepEmergency_refines hrep desired now
  | flashClearance =>
      simp only [hstate, SubPhase.state, true_or, if_true]
      exact stepFlash_refines_of_clearance hrep desired now
  | flash =>
      simp only [hstate, SubPhase.state, or_true, if_true]
      exact stepFlash_refines_of_flash hrep desired now

theorem Represents.committed {s : SafetyLayer} {a : Interlock}
    (hrep : s.Represents a) (hmode : a.sub.mode = .normal) :
    s.Committed a.sub.target? := by
  obtain ⟨p, b⟩ := a
  cases p with
  | green g => exact hrep.agrees
  | amber o h => exact hrep.agrees
  | clearance c => exact hrep.agrees
  | ring i => simp [SubPhase.mode] at hmode
  | flashClearance => simp [SubPhase.mode] at hmode
  | flash => simp [SubPhase.mode] at hmode

theorem Represents.emergency_of_normal {s : SafetyLayer} {a : Interlock}
    (hrep : s.Represents a) (hmode : a.sub.mode = .normal) :
    s.emergency = false :=
  (hrep.committed hmode).emergency

theorem Represents.emergency_of_ring {s : SafetyLayer} {a : Interlock}
    (hrep : s.Represents a) (hmode : a.sub.mode = .ring) :
    s.emergency = true := by
  obtain ⟨p, b⟩ := a
  cases p with
  | ring i =>
      obtain ⟨hemergency, _⟩ : s.emergency = true ∧ s.ringIdx = i :=
        hrep.agrees
      exact hemergency
  | green g => simp [SubPhase.mode] at hmode
  | amber o h => simp [SubPhase.mode] at hmode
  | clearance c => simp [SubPhase.mode] at hmode
  | flashClearance => simp [SubPhase.mode] at hmode
  | flash => simp [SubPhase.mode] at hmode

theorem Represents.flashing_iff {s : SafetyLayer} {a : Interlock}
    (hrep : s.Represents a) :
    (s.state = .flashClearance ∨ s.state = .flash) ↔
      a.sub.mode = .flashing := by
  rw [hrep.state]
  cases a.sub <;> simp [SubPhase.state, SubPhase.mode]

theorem setEmergencyMode_refines {s : SafetyLayer} {a : Interlock}
    (hrep : s.Represents a) (on : Bool) (now : TimePoint) :
    ∃ a', Interlock.Step s.t a ⟨.setEmergencyMode on, now⟩ a' ∧
      (s.setEmergencyMode on now).Represents a' := by
  obtain ⟨p, b⟩ := a
  unfold setEmergencyMode
  have hflashing := hrep.flashing_iff
  cases hmode : p.mode with
  | flashing =>
      rw [if_pos (hflashing.mpr hmode)]
      exact ⟨⟨p, b⟩, .ignore (Or.inl hmode), hrep⟩
  | normal =>
      have hoff : s.emergency = false := hrep.emergency_of_normal hmode
      rw [if_neg (fun h => by simp [hflashing.mp h] at hmode), hoff]
      cases on with
      | false =>
          simp only [if_true]
          exact ⟨⟨p, b⟩, .ignore (Or.inr (Or.inl ⟨hmode, rfl⟩)), hrep⟩
      | true =>
          simp only [Bool.true_eq_false, if_false, if_true]
          exact ⟨⟨.ring 0, now⟩, .engage hmode, rfl, rfl, rfl, rfl, rfl⟩
  | ring =>
      have hon : s.emergency = true := hrep.emergency_of_ring hmode
      rw [if_neg (fun h => by simp [hflashing.mp h] at hmode), hon]
      cases on with
      | true =>
          simp only [if_true]
          exact ⟨⟨p, b⟩, .ignore (Or.inr (Or.inr ⟨hmode, rfl⟩)), hrep⟩
      | false =>
          cases p with
          | ring i =>
              simp only [Bool.false_eq_true, if_false]
              refine ⟨⟨.clearance none, now⟩, .release,
                rfl, rfl, rfl, rfl, rfl, ?_⟩
              simp
          | green g => simp [SubPhase.mode] at hmode
          | amber o h => simp [SubPhase.mode] at hmode
          | clearance c => simp [SubPhase.mode] at hmode
          | flashClearance => simp [SubPhase.mode] at hmode
          | flash => simp [SubPhase.mode] at hmode

theorem reset_represents (s : SafetyLayer) (now : TimePoint) :
    (s.reset now).Represents ⟨.clearance none, now⟩ := by
  refine ⟨rfl, rfl, rfl, rfl, rfl, ?_⟩
  simp

/-- Forward simulation: every public call is one move of the interlock. -/
theorem apply_refines {s : SafetyLayer} {a : Interlock}
    (hrep : s.Represents a) (e : Event) :
    ∃ a', Interlock.Step s.t a e a' ∧ (s.apply e).Represents a' := by
  obtain ⟨call, now⟩ := e
  cases call with
  | validate desired => exact validate_refines hrep desired now
  | setEmergencyMode on => exact setEmergencyMode_refines hrep on now
  | reset =>
      exact ⟨⟨.clearance none, now⟩, .reset, s.reset_represents now⟩

/-! ## What no call changes -/

def frame (s : SafetyLayer) : Timings × MajorApproach × Bool :=
  (s.t, s.major, s.emergency)

@[simp] theorem stepFlash_frame (s : SafetyLayer) (now : TimePoint) :
    (s.stepFlash now).2.frame = s.frame := by
  simp only [stepFlash, flashAdvance]
  split_ifs <;> rfl

@[simp] theorem enterFlashClearance_frame (s : SafetyLayer) (stuck : Phase)
    (now : TimePoint) :
    (s.enterFlashClearance stuck now).frame = s.frame := rfl

@[simp] theorem stepGreen_frame (s : SafetyLayer) (desired : Phase)
    (now : TimePoint) : (s.stepGreen desired now).2.frame = s.frame := by
  unfold stepGreen
  dsimp only
  split_ifs <;> first | rfl | simp

@[simp] theorem stepYellow_frame (s : SafetyLayer) (desired : Phase)
    (now : TimePoint) : (s.stepYellow desired now).2.frame = s.frame := by
  unfold stepYellow
  dsimp only
  split_ifs <;> first | rfl | simp

@[simp] theorem commitTarget_frame (s : SafetyLayer) (desired : Phase) :
    (s.commitTarget desired).frame = s.frame := by
  unfold commitTarget
  split_ifs <;> rfl

@[simp] theorem stepAllRed_frame (s : SafetyLayer) (desired : Phase)
    (now : TimePoint) : (s.stepAllRed desired now).2.frame = s.frame := by
  unfold stepAllRed
  dsimp only
  split_ifs
  · simp
  · exact commitTarget_frame s desired
  · exact commitTarget_frame s desired
  · exact commitTarget_frame s desired

@[simp] theorem stepEmergency_frame (s : SafetyLayer) (now : TimePoint) :
    (s.stepEmergency now).2.frame = s.frame := by
  unfold stepEmergency
  dsimp only
  split_ifs <;> first | rfl | simp

theorem validate_frame (s : SafetyLayer) (desired : Phase)
    (now : TimePoint) : (s.validate desired now).2.frame = s.frame := by
  unfold validate stepNormal
  split_ifs
  · simp
  · simp
  · cases s.state <;> simp

theorem validate_emergency (s : SafetyLayer) (desired : Phase)
    (now : TimePoint) :
    (s.validate desired now).2.emergency = s.emergency :=
  congrArg (fun x => x.2.2) (validate_frame s desired now)

theorem apply_t (s : SafetyLayer) (e : Event) : (s.apply e).t = s.t := by
  obtain ⟨call, now⟩ := e
  cases call with
  | validate desired =>
      exact congrArg Prod.fst (validate_frame s desired now)
  | setEmergencyMode on =>
      simp only [apply, setEmergencyMode]
      split_ifs <;> rfl
  | reset => rfl

theorem apply_major (s : SafetyLayer) (e : Event) :
    (s.apply e).major = s.major := by
  obtain ⟨call, now⟩ := e
  cases call with
  | validate desired =>
      exact congrArg (fun x => x.2.1) (validate_frame s desired now)
  | setEmergencyMode on =>
      simp only [apply, setEmergencyMode]
      split_ifs <;> rfl
  | reset => rfl

theorem run_t (s : SafetyLayer) (events : List Event) :
    (machine.run s events).t = s.t :=
  machine.run_invariant
    (fun x e (h : x.t = s.t) => (apply_t x e).trans h) events rfl

theorem run_major (s : SafetyLayer) (events : List Event) :
    (machine.run s events).major = s.major :=
  machine.run_invariant
    (fun x e (h : x.major = s.major) => (apply_major x e).trans h) events rfl

theorem run_represents (t : Timings) (major : MajorApproach)
    (b : TimePoint) (events : List Event) :
    ∃ a, (machine.run (boot t major b) events).Represents a :=
  machine.run_invariant
    (fun x e (h : ∃ a, x.Represents a) => by
      obtain ⟨a, hrep⟩ := h
      obtain ⟨a', _, hrep'⟩ := apply_refines hrep e
      exact ⟨a', hrep'⟩)
    events ⟨_, boot_represents t major b⟩

/-! ## The returned phase -/

@[simp] theorem stepFlash_phase (s : SafetyLayer) (now : TimePoint) :
    (s.stepFlash now).1.phase = (s.stepFlash now).2.applied := rfl

@[simp] theorem stepEmergency_phase (s : SafetyLayer) (now : TimePoint) :
    (s.stepEmergency now).1.phase = (s.stepEmergency now).2.applied := by
  unfold stepEmergency
  dsimp only
  split_ifs <;> rfl

theorem stepNormal_phase (s : SafetyLayer) (desired : Phase)
    (now : TimePoint) :
    (s.stepNormal desired now).1.phase =
      (s.stepNormal desired now).2.applied := by
  unfold stepNormal
  cases s.state with
  | green =>
      unfold stepGreen
      dsimp only
      split_ifs <;> rfl
  | yellow =>
      unfold stepYellow
      dsimp only
      split_ifs <;> rfl
  | allRed =>
      unfold stepAllRed
      dsimp only
      split_ifs <;> rfl
  | emergency => simp
  | flashClearance => simp
  | flash => simp

/-- `validate` returns the phase that is on display after the call. -/
theorem validate_phase (s : SafetyLayer) (desired : Phase)
    (now : TimePoint) :
    (s.validate desired now).1.phase =
      (s.validate desired now).2.getCurrentPhase := by
  unfold validate getCurrentPhase
  split_ifs
  · rfl
  · exact stepEmergency_phase s now
  · exact stepNormal_phase s desired now

end SafetyLayer

end Semaforo
