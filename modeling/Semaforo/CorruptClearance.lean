import Semaforo.ConflictClearance
import Semaforo.InterlockTicks
import Mathlib.Tactic

/-!
# Corrupt clearance schedules

A corrupt amber or all-red should end in the terminal flash and feed no green
before the next reset.  The layer tests "schedule over" and "watchdog fires" in
different orders in the two modes, and a corrupt schedule that compares below the
elapsed time is simply over: the layer moves on.  `Overtakes` names the ticks that
do so.  A switch of the mode ends a sub-phase too, and leads to an all-red; after
a corrupt amber this all-red may be sound, and then serves a green (`Abandons`).
No other step leads from a corrupt clearance to a green.
-/

namespace Semaforo

namespace SubPhase

def IsClearance : SubPhase → Prop
  | amber _ _ => True
  | clearance _ => True
  | ring i => isGreen (ringEntry i) = false
  | _ => False

def Corrupt (t : Timings) (p : SubPhase) : Prop :=
  p.IsClearance ∧ ¬ scheduleTrusted (p.schedule t)

/-- The schedule is over before the watchdog is asked. -/
def Overtaken (t : Timings) (desired : Phase) (el : ℚ) : SubPhase → Prop
  | amber _ _ => t.yellow ≤ .fin el ∧
      float32 (el * 1000) < kEmergencyYellowSanityTimeoutMs
  | clearance c => t.allRed ≤ .fin el ∧
      float32 (el * 1000) < kEmergencyScheduleSanityTimeoutMs ∧
      commit c desired ≠ none
  | ring i => t.ringSchedule i ≤ .fin el
  | _ => False

theorem Corrupt.eq_flashClearance {t : Timings} {desired : Phase} {el : ℚ}
    {p q : SubPhase} (hcorrupt : p.Corrupt t)
    (hnot : ¬ p.Overtaken t desired el) (hleaves : p.Leaves t desired el q) :
    q = .flashClearance := by
  cases hleaves with
  | greenOver _ _ => exact absurd hcorrupt.1 id
  | amberOver hlive hdue =>
      refine absurd ⟨hdue, not_le.mp fun hel => ?_⟩ hnot
      exact hlive ⟨hcorrupt.2, hel⟩
  | clearanceOver hlive hdue hcommit =>
      refine absurd ⟨hdue, not_le.mp fun hel => ?_, ?_⟩ hnot
      · exact hlive ⟨hcorrupt.2, hel⟩
      · rw [hcommit]
        simp
  | ringOver hdue => exact absurd hdue hnot
  | escalate _ _ _ => rfl
  | flashOver _ => exact absurd hcorrupt.1 id

theorem Corrupt.of_stays {t : Timings} {desired : Phase} {el : ℚ}
    {p q : SubPhase} (hcorrupt : p.Corrupt t)
    (hstays : p.Stays t desired el q) : q.Corrupt t := by
  cases hstays <;> exact hcorrupt

theorem Overtaken.moves {t : Timings} {desired : Phase} {el : ℚ}
    {p q : SubPhase} (hover : p.Overtaken t desired el)
    (hleaves : p.Leaves t desired el q) (major : MajorApproach) :
    q.mode ≠ .flashing ∧ q.display major ≠ p.display major := by
  cases hleaves with
  | greenOver _ _ => exact absurd hover id
  | @amberOver o h _ _ =>
      refine ⟨by simp [mode], ?_⟩
      simpa [display] using (Axis.amber_ne_allRed o).symm
  | @clearanceOver c h _ _ _ =>
      exact ⟨by simp [mode], by simp [display]⟩
  | @ringOver i _ =>
      refine ⟨by simp [mode], ?_⟩
      fin_cases i <;> simp [display, ringEntry, emergencyRing]
  | escalate hmode hlate hring =>
      cases p with
      | amber o h => exact absurd hlate.2 (not_le.mpr hover.2)
      | clearance c => exact absurd hlate.2 (not_le.mpr hover.2.1)
      | ring i => exact absurd hover (hring rfl)
      | green g => exact absurd hover id
      | flashClearance => exact absurd hover id
      | flash => exact absurd hover id
  | flashOver _ => exact absurd hover id

theorem Overtaken.not_stays {t : Timings} {desired : Phase} {el : ℚ}
    {p q : SubPhase} (hover : p.Overtaken t desired el) :
    ¬ p.Stays t desired el q := by
  intro hstays
  cases hstays with
  | green _ _ _ => exact hover
  | amber _ hnot => exact hnot hover.1
  | clearance _ hnot => exact hover.2.2 (hnot hover.1)
  | ring _ hnot => exact hnot hover
  | flashClearance _ => exact hover
  | flash => exact hover

end SubPhase

namespace SafetyLayer

def clearanceSchedule? (s : SafetyLayer) : Option (FloatValue ℚ) :=
  match s.state with
  | .yellow => some s.t.yellow
  | .allRed => some s.t.allRed
  | .emergency =>
      if isGreen (ringEntry s.ringIdx) then none
      else some (s.ringDuration (ringEntry s.ringIdx))
  | _ => none

def InCorruptClearance (s : SafetyLayer) : Prop :=
  ∃ sched ∈ s.clearanceSchedule?, ¬ scheduleTrusted sched

/-- The corrupt sub-phase counts as over although its watchdog has not fired:
the elapsed time compares above the corrupt duration. -/
def Overtakes (s : SafetyLayer) (e : Event) : Prop :=
  s.InCorruptClearance ∧
    match e.call, s.state with
    | .validate _, .yellow =>
        s.t.yellow ≤ .fin (s.elapsedS e.now) ∧
          float32 (s.elapsedS e.now * 1000) < kEmergencyYellowSanityTimeoutMs
    | .validate desired, .allRed =>
        s.t.allRed ≤ .fin (s.elapsedS e.now) ∧
          float32 (s.elapsedS e.now * 1000) < kEmergencyScheduleSanityTimeoutMs ∧
          (s.targetValid = true ∨ isGreen desired = true)
    | .validate _, .emergency =>
        s.ringDuration (ringEntry s.ringIdx) ≤ .fin (s.elapsedS e.now)
    | _, _ => False

theorem inCorruptClearance_iff {s : SafetyLayer} {a : Interlock}
    (hrep : s.Represents a) : s.InCorruptClearance ↔ a.sub.Corrupt s.t := by
  obtain ⟨p, b⟩ := a
  have hstate : s.state = p.state := hrep.state
  unfold InCorruptClearance clearanceSchedule?
  rw [hstate]
  cases p with
  | green g => simp [SubPhase.state, SubPhase.Corrupt, SubPhase.IsClearance]
  | amber o h =>
      simp [SubPhase.state, SubPhase.Corrupt, SubPhase.IsClearance,
        SubPhase.schedule]
  | clearance c =>
      simp [SubPhase.state, SubPhase.Corrupt, SubPhase.IsClearance,
        SubPhase.schedule]
  | ring i =>
      have hidx : s.ringIdx = i := hrep.agrees.2
      simp only [SubPhase.state, hidx, ringDuration_ringEntry,
        SubPhase.Corrupt, SubPhase.IsClearance, SubPhase.schedule]
      cases isGreen (ringEntry i) <;> simp
  | flashClearance =>
      simp [SubPhase.state, SubPhase.Corrupt, SubPhase.IsClearance]
  | flash => simp [SubPhase.state, SubPhase.Corrupt, SubPhase.IsClearance]

theorem overtakes_iff {s : SafetyLayer} {a : Interlock} {desired : Phase}
    {now : TimePoint} (hrep : s.Represents a) :
    s.Overtakes ⟨.validate desired, now⟩ ↔
      a.sub.Corrupt s.t ∧
        a.sub.Overtaken s.t desired (floatSeconds (now - a.since)) := by
  obtain ⟨p, b⟩ := a
  have hstate : s.state = p.state := hrep.state
  have hsince : s.phaseStart = b := hrep.since
  unfold Overtakes
  rw [inCorruptClearance_iff hrep]
  refine and_congr_right fun hcorrupt => ?_
  simp only [hstate, elapsedS, hsince]
  cases p with
  | green g => exact absurd hcorrupt.1 id
  | amber o h => rfl
  | clearance c =>
      have hvalid : s.targetValid = c.isSome := hrep.agrees.valid
      simp only [SubPhase.state, SubPhase.Overtaken, hvalid]
      refine and_congr_right fun _ => and_congr_right fun _ => ?_
      cases c with
      | some h => simp [commit]
      | none =>
          simp [commit, Green.ofPhase?_eq_none_iff]
  | ring i =>
      have hidx : s.ringIdx = i := hrep.agrees.2
      simp only [SubPhase.state, SubPhase.Overtaken, hidx,
        ringDuration_ringEntry]
  | flashClearance => exact absurd hcorrupt.1 id
  | flash => exact absurd hcorrupt.1 id

/-- The mode is switched under a corrupt amber, and the all-red that follows is
not corrupt. -/
def Abandons (s : SafetyLayer) (e : Event) : Prop :=
  s.InCorruptClearance ∧ scheduleTrusted s.t.allRed ∧
    match e.call with
    | .setEmergencyMode on => on ≠ s.emergency
    | _ => False

def Escapes (s : SafetyLayer) (e : Event) : Prop :=
  s.Overtakes e ∨ s.Abandons e

def Unswitched (s : SafetyLayer) (_ : TimePoint) (e : Event) : Prop :=
  e.call ≠ .reset ∧ (s.apply e).inEmergency = s.inEmergency

/-- Seen from a corrupt sub-phase `s`: still there, or on the flash path. -/
def Lingers (s s' : SafetyLayer) : Prop :=
  (s'.state = s.state ∧ s'.applied = s.applied ∧
      s'.phaseStart = s.phaseStart) ∨
    s'.state = .flashClearance ∨ s'.state = .flash

/-- The layer is in a corrupt clearance or on the flash path. -/
structure Confined (t : Timings) (s : SafetyLayer) (a : Interlock) : Prop where
  represents : s.Represents a
  timings : s.t = t
  confined : a.sub.mode = .flashing ∨ a.sub.Corrupt t

theorem not_isGreen_display_of_corrupt {t : Timings} {p : SubPhase}
    (major : MajorApproach) (hcorrupt : p.Corrupt t) :
    isGreen (p.display major) = false := by
  cases p with
  | green g => exact absurd hcorrupt.1 id
  | amber o h => simp [SubPhase.display]
  | clearance c => rfl
  | ring i => exact hcorrupt.1
  | flashClearance => rfl
  | flash => simp [SubPhase.display]

theorem not_isGreen_display_of_flashing {p : SubPhase}
    (major : MajorApproach) (hmode : p.mode = .flashing) :
    isGreen (p.display major) = false := by
  cases p with
  | flashClearance => rfl
  | flash => simp [SubPhase.display]
  | _ => cases hmode

theorem Confined.not_green {t : Timings} {s : SafetyLayer} {a : Interlock}
    (hconfined : Confined t s a) : isGreen s.getCurrentPhase = false := by
  have hshown : s.getCurrentPhase = a.sub.display s.major :=
    hconfined.represents.applied
  rw [hshown]
  rcases hconfined.confined with hmode | hcorrupt
  · exact not_isGreen_display_of_flashing s.major hmode
  · exact not_isGreen_display_of_corrupt s.major hcorrupt

theorem Confined.step {t : Timings} {s : SafetyLayer} {a : Interlock} {e : Event}
    (hconfined : Confined t s a) (hcall : e.call ≠ .reset)
    (hescape : ¬ s.Escapes e) : ∃ a', Confined t (s.apply e) a' := by
  obtain ⟨hover, habandon⟩ := not_or.mp hescape
  obtain ⟨a', hstep, hrep⟩ := apply_refines hconfined.represents e
  refine ⟨a', hrep, (apply_t s e).trans hconfined.timings, ?_⟩
  rcases hconfined.confined with hmode | hcorrupt
  · exact Or.inl (hstep.flashing hcall hmode)
  have hin : s.InCorruptClearance := by
    rw [inCorruptClearance_iff hconfined.represents, hconfined.timings]
    exact hcorrupt
  -- a switch leads to an all-red of the other mode, which is corrupt as well
  have hred : ∀ on, e.call = .setEmergencyMode on → on ≠ s.emergency →
      ¬ scheduleTrusted t.allRed := by
    intro on he hon htrusted
    refine habandon ⟨hin, hconfined.timings ▸ htrusted, ?_⟩
    rw [he]
    exact hon
  rw [hconfined.timings] at hstep
  cases hstep with
  | @leave p q since now desired hleaves =>
      rw [overtakes_iff hconfined.represents, hconfined.timings] at hover
      have hnot := fun h => hover ⟨hcorrupt, h⟩
      rw [hcorrupt.eq_flashClearance hnot hleaves]
      exact Or.inl rfl
  | stay hstays => exact Or.inr (hcorrupt.of_stays hstays)
  | engage hmode =>
      refine Or.inr ⟨rfl, hred true rfl ?_⟩
      rw [hconfined.represents.emergency_of_normal hmode]
      exact Bool.true_eq_false_eq_False
  | release =>
      refine Or.inr ⟨trivial, hred false rfl ?_⟩
      rw [hconfined.represents.emergency_of_ring rfl]
      exact Bool.false_ne_true
  | ignore _ => exact Or.inr hcorrupt
  | reset => exact absurd rfl hcall

/-- What is known of `s'` while the layer has not left the corrupt sub-phase
`s` except for the flash path. -/
structure Kept (s s' : SafetyLayer) (a : Interlock) : Prop where
  represents : s'.Represents a
  timings : s'.t = s.t
  held : a.sub.mode = .flashing ∨
    (a.sub.Corrupt s.t ∧ s'.state = s.state ∧ s'.applied = s.applied ∧
      s'.phaseStart = s.phaseStart)

theorem Kept.lingers {s s' : SafetyLayer} {a : Interlock} (hkept : Kept s s' a) :
    Lingers s s' := by
  rcases hkept.held with hmode | ⟨_, hstate, happlied, hstart⟩
  · exact Or.inr (hkept.represents.flashing_iff.mpr hmode)
  · exact Or.inl ⟨hstate, happlied, hstart⟩

theorem Kept.step {s s' : SafetyLayer} {a : Interlock} {e : Event}
    (hkept : Kept s s' a) (hcall : Unswitched s' e.now e)
    (hover : ¬ s'.Overtakes e) : ∃ a', Kept s (s'.apply e) a' := by
  obtain ⟨a', hstep, hrep⟩ := apply_refines hkept.represents e
  have htimings : (s'.apply e).t = s.t := (apply_t s' e).trans hkept.timings
  refine ⟨a', hrep, htimings, ?_⟩
  rcases hkept.held with hmode | ⟨hcorrupt, hstate, happlied, hstart⟩
  · exact Or.inl (hstep.flashing hcall.1 hmode)
  have hswitch : ¬ Interlock.Switched a a' := fun hswitch =>
    hkept.represents.emergency_ne_of_switched hrep hswitch hcall.2
  rw [hkept.timings] at hstep
  cases hstep with
  | @leave p q since now desired hleaves =>
      rw [overtakes_iff hkept.represents, hkept.timings] at hover
      have hnot := fun h => hover ⟨hcorrupt, h⟩
      rw [hcorrupt.eq_flashClearance hnot hleaves]
      exact Or.inl rfl
  | @stay p q since now desired hstays =>
      refine Or.inr ⟨hcorrupt.of_stays hstays, ?_, ?_, ?_⟩
      · rw [← hstate, hrep.state, hkept.represents.state]
        cases hstays <;> rfl
      · rw [← happlied, hrep.applied, hkept.represents.applied, apply_major]
        exact Interlock.display_of_stays hstays
      · rw [← hstart, hrep.since, hkept.represents.since]
  | engage hmode => exact absurd (Or.inl ⟨hmode, rfl⟩) hswitch
  | release => exact absurd (Or.inr ⟨rfl, rfl⟩) hswitch
  | @ignore p since now on hignores =>
      refine Or.inr ⟨hcorrupt, ?_, ?_, ?_⟩
      · rw [← hstate, hrep.state, hkept.represents.state]
      · rw [← happlied, hrep.applied, hkept.represents.applied, apply_major]
      · rw [← hstart, hrep.since, hkept.represents.since]
  | reset => exact absurd rfl hcall.1

theorem not_lingers_of_overtakes {s : SafetyLayer} {a : Interlock}
    {e : Event} (hrep : s.Represents a) (hover : s.Overtakes e) :
    ¬ Lingers s (s.apply e) := by
  intro hlingers
  obtain ⟨call, now⟩ := e
  cases call with
  | setEmergencyMode on => exact hover.2
  | reset => exact hover.2
  | validate desired =>
      obtain ⟨_, hovertaken⟩ := (overtakes_iff hrep).mp hover
      obtain ⟨a', hstep, hrep'⟩ := apply_refines hrep ⟨.validate desired, now⟩
      cases hstep with
      | stay hstays => exact hovertaken.not_stays hstays
      | @leave p q since _ _ hleaves =>
          obtain ⟨hlive, hne⟩ := hovertaken.moves hleaves s.major
          rcases hlingers with ⟨_, happlied, _⟩ | hflash
          · rw [hrep'.applied, hrep.applied, apply_major] at happlied
            exact hne happlied
          · exact hlive (hrep'.flashing_iff.mp hflash)

theorem Overtakes.unswitched {s : SafetyLayer} {e : Event}
    (hover : s.Overtakes e) (t : TimePoint) : s.Unswitched t e := by
  obtain ⟨call, now⟩ := e
  cases call with
  | validate desired => exact ⟨nofun, validate_emergency s desired now⟩
  | setEmergencyMode on => exact absurd hover.2 id
  | reset => exact absurd hover.2 id

/-- After the switch, one tick at the end of the sound all-red serves a green. -/
theorem Abandons.serves {s : SafetyLayer} {a : Interlock} {e : Event}
    (hrep : s.Represents a) (habandon : s.Abandons e) :
    ∃ later, e.now ≤ later ∧
      isGreen ((s.apply e).apply ⟨.validate .greenNS, later⟩).getCurrentPhase =
        true := by
  obtain ⟨hin, htrusted, hswitch⟩ := habandon
  obtain ⟨r, hr, hr0, _⟩ := scheduleTrusted_iff.mp htrusted
  have hpause : 0 ≤ clockSlack * r := mul_nonneg clockSlack_pos.le hr0
  have hdue : s.t.allRed ≤
      .fin (floatSeconds (e.now + clockSlack * r - e.now)) := by
    rw [hr, add_sub_cancel_left, FloatValue.fin_le_fin]
    exact le_floatSeconds_slack hr0
  refine ⟨e.now + clockSlack * r, by linarith, ?_⟩
  obtain ⟨call, now⟩ := e
  obtain ⟨a', hstep, hrep'⟩ := apply_refines hrep ⟨call, now⟩
  obtain ⟨a'', hstep', hrep''⟩ :=
    apply_refines hrep' ⟨.validate .greenNS, now + clockSlack * r⟩
  rw [apply_t] at hstep'
  rw [getCurrentPhase, hrep''.applied]
  cases hstep with
  | engage _ =>
      have hring : s.t.ringSchedule 0 ≤ _ := hdue
      rw [hstep'.ring_over hring]
      rfl
  | release =>
      rw [hstep'.clearance_over htrusted (h := .ns) rfl hdue]
      rfl
  | @ignore p since now on hignores =>
      -- a switch that is ignored in a corrupt clearance changes no mode
      have hcorrupt := (inCorruptClearance_iff hrep).mp hin
      rcases hignores with hmode | ⟨hmode, rfl⟩ | ⟨hmode, rfl⟩
      · cases p <;> first | exact absurd hcorrupt.1 id | cases hmode
      · exact absurd (hrep.emergency_of_normal hmode).symm hswitch
      · exact absurd (hrep.emergency_of_ring hmode).symm hswitch
  | leave _ => exact absurd hswitch id
  | stay _ => exact absurd hswitch id
  | reset => exact absurd hswitch id

end SafetyLayer

/-- The promise about corrupt clearances, for the run of `events` from `s` at
`b`: from every corrupt amber or all-red no green is displayed before the next
reset, and while the mode is not switched only the flash path follows. -/
def CorruptClearanceContained (s : SafetyLayer) (b : TimePoint)
    (events : List Event) : Prop :=
  ∀ before between after, events = before ++ (between ++ after) →
    (SafetyLayer.machine.run s before).InCorruptClearance →
    (∀ e ∈ between, e.call ≠ .reset) →
    isGreen (SafetyLayer.machine.run s (before ++ between)).getCurrentPhase =
        false ∧
      (SafetyLayer.machine.Admits SafetyLayer.Unswitched
          (SafetyLayer.machine.run s before)
          (SafetyLayer.machine.endTime b before) between →
        SafetyLayer.Lingers (SafetyLayer.machine.run s before)
          (SafetyLayer.machine.run s (before ++ between)))

/-- A negative all-red is over as soon as it begins: the first tick after boot
serves a green. -/
theorem corruptClearance_negative_allRed :
    ¬ CorruptClearanceContained (.boot { allRed := .fin (-1) } .unknown 0) 0
      [⟨.validate .greenNS, 1⟩] := by
  intro hcontained
  obtain ⟨hgreen, _⟩ := hcontained [] [⟨.validate .greenNS, 1⟩] [] rfl
    ⟨.fin (-1), by decide +kernel, by decide +kernel⟩ (by simp)
  revert hgreen
  decide +kernel

section Runs

variable {t : Timings} {major : MajorApproach} {b : TimePoint}

theorem corruptClearanceContained_of_admits {events : List Event}
    (hnot : SafetyLayer.machine.Admits (fun s _ e => ¬ s.Escapes e)
      (.boot t major b) b events) :
    CorruptClearanceContained (.boot t major b) b events := by
  rintro before between after rfl hcorrupt hcalls
  obtain ⟨a, hrep⟩ := SafetyLayer.run_represents t major b before
  have htimings : (SafetyLayer.machine.run (.boot t major b) before).t = t :=
    SafetyLayer.run_t _ before
  have hfree := (SafetyLayer.machine.admits_append.mp
    (SafetyLayer.machine.admits_append.mp hnot).2).1
  have hsub := (SafetyLayer.inCorruptClearance_iff hrep).mp hcorrupt
  rw [Machine.run_append]
  constructor
  · obtain ⟨a', hconfined⟩ := (hfree.and_forall hcalls).invariant
      (I := fun s' _ => ∃ a', SafetyLayer.Confined t s' a')
      (by
        rintro s' now e ⟨a', hconfined⟩ ⟨hescape, hcall⟩
        exact hconfined.step hcall hescape)
      ⟨a, hrep, htimings, Or.inr (htimings ▸ hsub)⟩
    exact hconfined.not_green
  · intro hbetween
    obtain ⟨a', hkept⟩ := (hbetween.and hfree).invariant
      (I := fun s' _ => ∃ a', SafetyLayer.Kept
        (SafetyLayer.machine.run (.boot t major b) before) s' a')
      (by
        rintro s' now e ⟨a', hkept⟩ ⟨hcall, hescape⟩
        exact hkept.step hcall fun hover => hescape (Or.inl hover))
      ⟨a, hrep, rfl, Or.inr ⟨hsub, rfl, rfl, rfl⟩⟩
    exact hkept.lingers

theorem not_contained_of_overtakes {before : List Event} {e : Event}
    (hover : (SafetyLayer.machine.run (.boot t major b) before).Overtakes e) :
    ¬ CorruptClearanceContained (.boot t major b) b (before ++ [e]) := by
  intro hcontained
  obtain ⟨a, hrep⟩ := SafetyLayer.run_represents t major b before
  have hunswitched := hover.unswitched (SafetyLayer.machine.endTime b before)
  refine SafetyLayer.not_lingers_of_overtakes hrep hover ?_
  have hnext := hcontained before [e] [] (by simp) hover.1
    (fun e' he' => List.mem_singleton.mp he' ▸ hunswitched.1)
  rw [Machine.run_append] at hnext
  exact hnext.2 ⟨hunswitched, trivial⟩

theorem not_contained_of_abandons {before : List Event} {e : Event}
    (habandon : (SafetyLayer.machine.run (.boot t major b) before).Abandons e) :
    ∃ later, e.now ≤ later ∧
      ¬ CorruptClearanceContained (.boot t major b) b
        (before ++ [e, ⟨.validate .greenNS, later⟩]) := by
  obtain ⟨a, hrep⟩ := SafetyLayer.run_represents t major b before
  obtain ⟨later, hle, hgreen⟩ := habandon.serves hrep
  refine ⟨later, hle, fun hcontained => ?_⟩
  have hcall : e.call ≠ .reset := by
    intro hreset
    have hswitch := habandon.2.2
    rw [hreset] at hswitch
    exact hswitch
  have hnext := hcontained before [e, ⟨.validate .greenNS, later⟩] [] (by simp)
    habandon.1 (by
      intro e' he'
      rcases List.mem_pair.mp he' with rfl | rfl
      · exact hcall
      · exact nofun)
  rw [Machine.run_append] at hnext
  exact Bool.false_ne_true (hnext.1.symm.trans hgreen)

end Runs

/-- Runs in which no step escapes from a corrupt clearance keep the promise, and
no other step could be allowed: ticks that follow it in time break the promise. -/
theorem corrupt_clearance_contained (t : Timings) (major : MajorApproach)
    (b : TimePoint) :
    (∀ events, SafetyLayer.machine.Admits (fun s _ e => ¬ s.Escapes e)
        (.boot t major b) b events →
      CorruptClearanceContained (.boot t major b) b events) ∧
    ∀ before e, (SafetyLayer.machine.run (.boot t major b) before).Escapes e →
      ∃ later, (∀ e' ∈ later, e'.isTick = true ∧ e.now ≤ e'.now) ∧
        ¬ CorruptClearanceContained (.boot t major b) b
          (before ++ e :: later) := by
  refine ⟨fun events => corruptClearanceContained_of_admits, ?_⟩
  rintro before e (hover | habandon)
  · exact ⟨[], by simp, not_contained_of_overtakes hover⟩
  · obtain ⟨later, hle, hnot⟩ := not_contained_of_abandons habandon
    refine ⟨[⟨.validate .greenNS, later⟩], ?_, hnot⟩
    intro e' he'
    obtain rfl := List.mem_singleton.mp he'
    exact ⟨rfl, hle⟩

/-- A corrupt duration that no elapsed time can reach. -/
def Unreachable (sched : FloatValue ℚ) : Prop :=
  sched = .nan ∨ sched = .posInf

theorem not_le_of_unreachable {sched : FloatValue ℚ} {el : ℚ}
    (hsched : Unreachable sched) : ¬ sched ≤ .fin el := by
  rcases hsched with rfl | rfl
  · exact FloatValue.not_nan_le _
  · exact FloatValue.not_posInf_le_fin el

namespace SafetyLayer

theorem Overtakes.exists_le {s : SafetyLayer} {e : Event}
    (hover : s.Overtakes e) :
    ∃ sched, (sched = s.t.yellow ∨ sched = s.t.allRed) ∧
      ¬ scheduleTrusted sched ∧ sched ≤ .fin (s.elapsedS e.now) := by
  obtain ⟨⟨sched, hmem, hcorrupt⟩, hdue⟩ := hover
  obtain ⟨call, now⟩ := e
  cases call with
  | setEmergencyMode on => exact absurd hdue id
  | reset => exact absurd hdue id
  | validate desired =>
      refine ⟨sched, ?_⟩
      unfold clearanceSchedule? at hmem
      cases hstate : s.state with
      | yellow =>
          simp only [hstate] at hmem hdue
          obtain rfl : s.t.yellow = sched := by simpa using hmem
          exact ⟨Or.inl rfl, hcorrupt, hdue.1⟩
      | allRed =>
          simp only [hstate] at hmem hdue
          obtain rfl : s.t.allRed = sched := by simpa using hmem
          exact ⟨Or.inr rfl, hcorrupt, hdue.1⟩
      | emergency =>
          simp only [hstate] at hmem hdue
          by_cases hgreen : isGreen (ringEntry s.ringIdx) = true
          · simp [hgreen] at hmem
          · rw [if_neg hgreen, Option.mem_some_iff] at hmem
            subst hmem
            refine ⟨?_, hcorrupt, hdue⟩
            unfold ringDuration
            rw [if_neg hgreen]
            split_ifs
            · exact Or.inl rfl
            · exact Or.inr rfl
      | green => simp [hstate] at hmem
      | flashClearance => simp [hstate] at hmem
      | flash => simp [hstate] at hmem

end SafetyLayer

/-- With durations that are sound or cannot be reached, only a switch of the mode
under a corrupt amber escapes. -/
theorem corruptClearanceContained_of_unreachable {t : Timings}
    (hyellow : scheduleTrusted t.yellow ∨ Unreachable t.yellow)
    (hred : scheduleTrusted t.allRed ∨ Unreachable t.allRed)
    (major : MajorApproach) (b : TimePoint) (events : List Event)
    (hswitch : SafetyLayer.machine.Admits (fun s _ e => ¬ s.Abandons e)
      (.boot t major b) b events) :
    CorruptClearanceContained (.boot t major b) b events := by
  refine corruptClearanceContained_of_admits ?_
  rw [Machine.admits_iff_forall_split] at hswitch ⊢
  rintro before e after hsplit (hover | habandon)
  case inr => exact hswitch before e after hsplit habandon
  obtain ⟨sched, hwhich, hcorrupt, hdue⟩ := hover.exists_le
  rw [SafetyLayer.run_t] at hwhich
  have hsched : scheduleTrusted sched ∨ Unreachable sched := by
    rcases hwhich with rfl | rfl
    · exact hyellow
    · exact hred
  rcases hsched with htrusted | hunreachable
  · exact hcorrupt htrusted
  · exact not_le_of_unreachable hunreachable hdue

end Semaforo
