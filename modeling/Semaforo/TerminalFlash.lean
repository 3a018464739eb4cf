import Semaforo.ConflictClearance
import Semaforo.InterlockTicks
import Mathlib.Tactic

/-!
# The terminal flash (F-1)

The flash path is entered for cause only, clears the box first, and is
absorbing: until a reset it advances by its own clock, and neither requests nor
emergency toggles have any effect on it.
-/

namespace Semaforo

structure Timings.Trusted (t : Timings) : Prop where
  maxGreen : scheduleTrusted t.maxGreen
  yellow : scheduleTrusted t.yellow
  allRed : scheduleTrusted t.allRed
  emergencyGreen : scheduleTrusted t.emergencyGreen

theorem Timings.Trusted.ringSchedule {t : Timings} (ht : t.Trusted)
    (i : Fin 6) : scheduleTrusted (t.ringSchedule i) :=
  ringSchedule_of ht.allRed ht.emergencyGreen ht.yellow i

theorem Timings.Trusted.schedule {t : Timings} (ht : t.Trusted)
    {p : SubPhase} (hmode : p.mode ≠ .flashing) :
    scheduleTrusted (p.schedule t) := by
  cases p with
  | green g => exact ht.maxGreen
  | amber o h => exact ht.yellow
  | clearance c => exact ht.allRed
  | ring i => exact ht.ringSchedule i
  | flashClearance => exact absurd rfl hmode
  | flash => exact absurd rfl hmode

namespace Interlock

theorem Step.not_trusted {t : Timings} {a a' : Interlock} {e : Event}
    (hstep : Step t a e a') (hbefore : a.sub ≠ .flashClearance)
    (hafter : a'.sub = .flashClearance) : ¬ t.Trusted := by
  intro ht
  cases hstep with
  | leave hleaves =>
      cases hleaves with
      | escalate hmode hover _ => exact hover.1 (ht.schedule hmode)
      | _ => cases hafter
  | stay hstays =>
      cases hstays with
      | flashClearance _ => exact hbefore rfl
      | _ => cases hafter
  | engage _ => cases hafter
  | release => cases hafter
  | ignore _ => exact hbefore hafter
  | reset => cases hafter

theorem Step.of_flash {t : Timings} {a a' : Interlock} {e : Event}
    (hstep : Step t a e a') (hbefore : a.sub ≠ .flash)
    (hafter : a'.sub = .flash) :
    a.sub = .flashClearance ∧
      t.flashClearance ≤ floatSeconds (e.now - a.since) := by
  cases hstep with
  | leave hleaves =>
      cases hleaves with
      | flashOver hdue => exact ⟨rfl, hdue⟩
      | _ => cases hafter
  | stay hstays =>
      cases hstays with
      | flash => exact absurd rfl hbefore
      | _ => cases hafter
  | engage _ => cases hafter
  | release => cases hafter
  | ignore _ => exact absurd hafter hbefore
  | reset => cases hafter

theorem Step.flash {t : Timings} {a a' : Interlock} {e : Event}
    (hstep : Step t a e a') (hcall : e.call ≠ .reset)
    (hflash : a.sub = .flash) : a'.sub = .flash := by
  cases hstep with
  | leave hleaves =>
      cases hleaves with
      | escalate hmode _ _ =>
          simp only at hflash
          rw [hflash] at hmode
          exact absurd rfl hmode
      | _ => cases hflash
  | stay hstays =>
      cases hstays with
      | flash => rfl
      | _ => cases hflash
  | engage hmode =>
      simp only at hflash
      rw [hflash] at hmode
      cases hmode
  | release => cases hflash
  | ignore _ => exact hflash
  | reset => exact absurd rfl hcall

end Interlock

namespace SafetyLayer

def Flashing (s : SafetyLayer) : Prop :=
  s.state = .flashClearance ∨ s.state = .flash

instance : DecidablePred Flashing := fun s =>
  inferInstanceAs (Decidable (s.state = .flashClearance ∨ s.state = .flash))

def Enters (st : State) (s : SafetyLayer) (e : Event) : Prop :=
  s.state ≠ st ∧ (s.apply e).state = st

theorem Represents.state_eq_flashClearance_iff {s : SafetyLayer}
    {a : Interlock} (hrep : s.Represents a) :
    s.state = .flashClearance ↔ a.sub = .flashClearance := by
  rw [hrep.state]
  cases a.sub <;> simp [SubPhase.state]

theorem Represents.state_eq_flash_iff {s : SafetyLayer} {a : Interlock}
    (hrep : s.Represents a) : s.state = .flash ↔ a.sub = .flash := by
  rw [hrep.state]
  cases a.sub <;> simp [SubPhase.state]

theorem apply_of_flashing {s : SafetyLayer} {e : Event}
    (hflashing : s.Flashing) (hcall : e.call ≠ .reset) :
    s.apply e = if e.isTick then s.flashAdvance e.now else s := by
  have hstate : s.state = .flashClearance ∨ s.state = .flash := hflashing
  obtain ⟨call, now⟩ := e
  cases call with
  | validate desired =>
      change (s.validate desired now).2 = s.flashAdvance now
      unfold validate
      rw [if_pos hstate]
      rfl
  | setEmergencyMode on =>
      change s.setEmergencyMode on now = s
      unfold setEmergencyMode
      rw [if_pos hstate]
  | reset => exact absurd rfl hcall

theorem flashAdvance_flashing {s : SafetyLayer} (hflashing : s.Flashing)
    (now : TimePoint) : (s.flashAdvance now).Flashing := by
  unfold flashAdvance
  split_ifs
  · exact Or.inr rfl
  · exact hflashing

def ticks (events : List Event) : List TimePoint :=
  (events.filter Event.isTick).map Event.now

/-- The flash path, driven by a list of instants. -/
def flashRun (s : SafetyLayer) (instants : List TimePoint) : SafetyLayer :=
  instants.foldl flashAdvance s

theorem run_eq_flashRun {s : SafetyLayer} {events : List Event}
    (hflashing : s.Flashing) (hcalls : ∀ e ∈ events, e.call ≠ .reset) :
    machine.run s events = s.flashRun (ticks events) := by
  induction events generalizing s with
  | nil => rfl
  | cons e events ih =>
      have hstep := apply_of_flashing hflashing
        (hcalls e (List.mem_cons_self ..))
      have hrest : ∀ e' ∈ events, e'.call ≠ .reset :=
        fun e' he' => hcalls e' (List.mem_cons_of_mem e he')
      rw [Machine.run_cons]
      change machine.run (s.apply e) events = _
      cases htick : e.isTick with
      | true =>
          rw [htick, if_pos rfl] at hstep
          rw [hstep, ih (flashAdvance_flashing hflashing e.now) hrest]
          simp [ticks, htick, flashRun]
      | false =>
          rw [htick, if_neg Bool.false_ne_true] at hstep
          rw [hstep, ih hflashing hrest]
          simp [ticks, htick]

theorem Represents.display_of_flashing {s : SafetyLayer} {a : Interlock}
    (hrep : s.Represents a) (hflashing : s.Flashing) :
    (s.state = .flashClearance ∧ s.getCurrentPhase = .allRed) ∨
      (s.state = .flash ∧ s.getCurrentPhase = flashPhaseFor s.major) := by
  have hshown : s.getCurrentPhase = a.sub.display s.major := hrep.applied
  rcases hflashing with hstate | hstate
  · refine Or.inl ⟨hstate, ?_⟩
    rw [hshown, hrep.state_eq_flashClearance_iff.mp hstate]
    rfl
  · refine Or.inr ⟨hstate, ?_⟩
    rw [hshown, hrep.state_eq_flash_iff.mp hstate]
    rfl

theorem run_flashing {s : SafetyLayer} {events : List Event}
    (hflashing : s.Flashing) (hcalls : ∀ e ∈ events, e.call ≠ .reset) :
    (machine.run s events).Flashing := by
  rw [run_eq_flashRun hflashing hcalls]
  induction ticks events generalizing s with
  | nil => exact hflashing
  | cons now instants ih => exact ih (flashAdvance_flashing hflashing now)

theorem run_flash {s : SafetyLayer} {a : Interlock} {events : List Event}
    (hrep : s.Represents a) (hflash : s.state = .flash)
    (hcalls : ∀ e ∈ events, e.call ≠ .reset) :
    (machine.run s events).state = .flash := by
  induction events generalizing s a with
  | nil => exact hflash
  | cons e events ih =>
      obtain ⟨a', hstep, hrep'⟩ := apply_refines hrep e
      have hsub := hstep.flash (hcalls e (List.mem_cons_self ..))
        (hrep.state_eq_flash_iff.mp hflash)
      exact ih hrep' (hrep'.state_eq_flash_iff.mpr hsub)
        (fun e' he' => hcalls e' (List.mem_cons_of_mem e he'))

theorem Held.into_flash {t : Timings} {f s : SafetyLayer} {b now : TimePoint}
    {a a' : Interlock} {e : Event} (hheld : Held t f b s now a)
    (hclock : now ≤ e.now) (hstep : Interlock.Step s.t a e a')
    (hrep : (s.apply e).Represents a')
    (hkey : (s.apply e).applied ≠ f.applied)
    (hflash : (s.apply e).state = .flash) :
    f.applied = .allRed ∧
      Stopwatch.float.reaches (.fin t.flashClearance) (e.now - b) := by
  have hafter : a'.sub = .flash := hrep.state_eq_flash_iff.mp hflash
  have hbefore : a.sub ≠ .flash := by
    intro hsub
    apply hkey
    rw [hheld.shown, hheld.represents.applied, hrep.applied, apply_major,
      hafter, hsub]
  obtain ⟨hsub, hdue⟩ := hstep.of_flash hbefore hafter
  constructor
  · rw [hheld.shown, hheld.represents.applied, hsub]
    rfl
  · rw [hheld.timings] at hdue
    exact hheld.reaches hclock (FloatValue.fin_le_fin.mpr hdue)

theorem not_trusted_of_enters {s : SafetyLayer} {a : Interlock} {e : Event}
    (hrep : s.Represents a) (henters : s.Enters .flashClearance e) :
    ¬ s.t.Trusted := by
  obtain ⟨a', hstep, hrep'⟩ := apply_refines hrep e
  refine hstep.not_trusted ?_ ?_
  · exact fun hsub =>
      henters.1 (hrep.state_eq_flashClearance_iff.mpr hsub)
  · exact hrep'.state_eq_flashClearance_iff.mp henters.2

theorem clearance_of_enters_flash {s : SafetyLayer} {a : Interlock}
    {e : Event} (hrep : s.Represents a) (henters : s.Enters .flash e) :
    s.state = .flashClearance ∧ s.getCurrentPhase = .allRed ∧
      s.flashClearanceS ≤ .fin (s.elapsedS e.now) := by
  obtain ⟨a', hstep, hrep'⟩ := apply_refines hrep e
  have hbefore : a.sub ≠ .flash :=
    fun hsub => henters.1 (hrep.state_eq_flash_iff.mpr hsub)
  have hafter := hrep'.state_eq_flash_iff.mp henters.2
  obtain ⟨hsub, hdue⟩ := hstep.of_flash hbefore hafter
  refine ⟨hrep.state_eq_flashClearance_iff.mpr hsub, ?_, ?_⟩
  · rw [getCurrentPhase, hrep.applied, hsub]
    rfl
  · rw [flashClearanceS_eq, elapsedS, hrep.since]
    exact FloatValue.fin_le_fin.mpr hdue

theorem not_flashing_of_trusted {t : Timings} (ht : t.Trusted)
    (major : MajorApproach) (b : TimePoint) (events : List Event) :
    ¬ (machine.run (boot t major b) events).Flashing := by
  have hinv := machine.run_invariant
    (I := fun s => s.t = t ∧ (∃ a, s.Represents a) ∧ ¬ s.Flashing)
    (by
      rintro s e ⟨htimings, ⟨a, hrep⟩, hnot⟩
      obtain ⟨a', hstep, hrep'⟩ := apply_refines hrep e
      refine ⟨(apply_t s e).trans htimings, ⟨a', hrep'⟩, ?_⟩
      rintro (hclearance | hflash)
      · have henters : s.Enters .flashClearance e :=
          ⟨fun h => hnot (Or.inl h), hclearance⟩
        exact not_trusted_of_enters hrep henters (htimings ▸ ht)
      · have henters : s.Enters .flash e := ⟨fun h => hnot (Or.inr h), hflash⟩
        exact hnot (Or.inl (clearance_of_enters_flash hrep henters).1))
    events ⟨rfl, ⟨_, boot_represents t major b⟩, by simp [Flashing, boot]⟩
  exact hinv.2.2

theorem flash_cleared (t : Timings) (major : MajorApproach) (b : TimePoint)
    (events : List Event) (hclock : machine.Clocked (boot t major b) b events) :
    ((boot t major b).displayed b events).IsChain (fun x y =>
      y.first.state = .flash →
        x.phase = .allRed ∧
          Stopwatch.float.reaches (.fin t.flashClearance) x.duration) := by
  refine (held_stretchInvariant t).isChain
    (R := fun f start stop f' => f'.state = .flash →
      f.applied = .allRed ∧
        Stopwatch.float.reaches (.fin t.flashClearance) (stop - start))
    ?_ ⟨_, boot_held t major b⟩ hclock
  rintro f start s now e ⟨a, hheld⟩ hclock hkey hflash
  obtain ⟨a', hstep, hrep⟩ := apply_refines hheld.represents e
  exact hheld.into_flash hclock hstep hrep hkey hflash

end SafetyLayer

/-- The law of the terminal flash over one run of calls from `s` at `b`, with the
clearance before it as `watch` measures it. -/
structure TerminalFlash (watch : Stopwatch) (s : SafetyLayer) (b : TimePoint)
    (events : List Event) : Prop where
  cause : ∀ before e after, events = before ++ e :: after →
    (SafetyLayer.machine.run s before).Enters .flashClearance e →
      ¬ s.t.Trusted
  unreachable : s.t.Trusted → ∀ before after, events = before ++ after →
    ¬ (SafetyLayer.machine.run s before).Flashing
  entry : ∀ before e after, events = before ++ e :: after →
    (SafetyLayer.machine.run s before).Enters .flash e →
      (SafetyLayer.machine.run s before).state = .flashClearance ∧
        (SafetyLayer.machine.run s before).getCurrentPhase = .allRed ∧
        (SafetyLayer.machine.run s before).flashClearanceS ≤
          .fin ((SafetyLayer.machine.run s before).elapsedS e.now)
  cleared : ∀ before x y after,
    s.displayed b events = before ++ x :: y :: after →
      y.first.state = .flash →
        x.phase = .allRed ∧ watch.reaches s.flashClearanceS x.duration
  bounded : ∃ c, s.flashClearanceS = .fin c ∧ 0 < c ∧ c ≤ maxGreenS
  absorbing : ∀ before between after, events = before ++ (between ++ after) →
    (SafetyLayer.machine.run s before).Flashing →
      (∀ e ∈ between, e.call ≠ .reset) →
        SafetyLayer.machine.run s (before ++ between) =
          (SafetyLayer.machine.run s before).flashRun
            (SafetyLayer.ticks between)
  shown : ∀ before between after, events = before ++ (between ++ after) →
    (SafetyLayer.machine.run s before).Flashing →
      (∀ e ∈ between, e.call ≠ .reset) →
        ((SafetyLayer.machine.run s before).state = .flashClearance ∧
            (SafetyLayer.machine.run s (before ++ between)).state =
              .flashClearance ∧
            (SafetyLayer.machine.run s (before ++ between)).getCurrentPhase =
              .allRed) ∨
          ((SafetyLayer.machine.run s (before ++ between)).state = .flash ∧
            (SafetyLayer.machine.run s (before ++ between)).getCurrentPhase =
              flashPhaseFor s.major)

/-- The last nanosecond of the clearance before the flash is rounded away. -/
theorem terminalFlash_broken_by_rounding :
    ¬ ∀ (t : Timings) (major : MajorApproach) (b : TimePoint) (events : List Event),
      SafetyLayer.machine.Clocked (.boot t major b) b events →
        TerminalFlash .exact (.boot t major b) b events := by
  intro hall
  have hlaw := hall { yellow := .nan } .ns 0
    [⟨.validate .greenEW, 2⟩, ⟨.validate .greenNS, 8⟩,
      ⟨.validate .greenNS, 12⟩, ⟨.validate .greenNS, 14 - 1 / 10 ^ 9⟩]
    (by decide +kernel)
  let boot := SafetyLayer.boot { yellow := .nan } .ns 0
  let green := boot.apply ⟨.validate .greenEW, 2⟩
  let amber := green.apply ⟨.validate .greenNS, 8⟩
  let clearance := amber.apply ⟨.validate .greenNS, 12⟩
  let flash := clearance.apply ⟨.validate .greenNS, 14 - 1 / 10 ^ 9⟩
  obtain ⟨_, hheld⟩ := hlaw.cleared [⟨boot, 0, 2⟩, ⟨green, 2, 8⟩, ⟨amber, 8, 12⟩]
    ⟨clearance, 12, 14 - 1 / 10 ^ 9⟩ ⟨flash, 14 - 1 / 10 ^ 9, 14 - 1 / 10 ^ 9⟩ []
    (by decide +kernel) (by decide +kernel)
  have hclearance : boot.flashClearanceS = .fin allRedS := by decide +kernel
  simp only [Stopwatch.exact] at hheld
  rw [hclearance, FloatValue.fin_le_fin] at hheld
  norm_num [Period.duration, allRedS] at hheld

/-- For all timings, major approaches and calls, the terminal flash obeys its
law. -/
theorem terminal_flash (t : Timings) (major : MajorApproach) (b : TimePoint)
    (events : List Event)
    (hclock : SafetyLayer.machine.Clocked (.boot t major b) b events) :
    TerminalFlash .float (.boot t major b) b events where
  cause := by
    intro before e after _ henters
    obtain ⟨a, hrep⟩ := SafetyLayer.run_represents t major b before
    have hnot := SafetyLayer.not_trusted_of_enters hrep henters
    rwa [SafetyLayer.run_t] at hnot
  unreachable := fun ht before _ _ =>
    SafetyLayer.not_flashing_of_trusted ht major b before
  entry := by
    intro before e after _ henters
    obtain ⟨a, hrep⟩ := SafetyLayer.run_represents t major b before
    exact SafetyLayer.clearance_of_enters_flash hrep henters
  cleared := by
    intro before x y after hsplit hflash
    have hchain := SafetyLayer.flash_cleared t major b events hclock
    obtain ⟨hred, hheld⟩ := timeline_isChain_split hchain hsplit hflash
    refine ⟨hred, ?_⟩
    rw [SafetyLayer.flashClearanceS_eq]
    exact hheld
  bounded := ⟨t.flashClearance, SafetyLayer.flashClearanceS_eq _,
    t.flashClearance_pos, t.flashClearance_le⟩
  absorbing := by
    intro before between after _ hflashing hcalls
    rw [Machine.run_append]
    exact SafetyLayer.run_eq_flashRun hflashing hcalls
  shown := by
    intro before between after _ hflashing hcalls
    obtain ⟨a, hrep⟩ := SafetyLayer.run_represents t major b before
    obtain ⟨a', hrep'⟩ :=
      SafetyLayer.run_represents t major b (before ++ between)
    have hsplit := SafetyLayer.machine.run_append (.boot t major b) before
      between
    have hflashing' := SafetyLayer.run_flashing hflashing hcalls
    rw [← hsplit] at hflashing'
    rcases hrep'.display_of_flashing hflashing' with
      ⟨hclearance, hred⟩ | ⟨hflash, hpattern⟩
    · refine Or.inl ⟨?_, hclearance, hred⟩
      rcases hflashing with hbefore | hbefore
      · exact hbefore
      · have := SafetyLayer.run_flash hrep hbefore hcalls
        rw [← hsplit, hclearance] at this
        cases this
    · refine Or.inr ⟨hflash, ?_⟩
      rw [hpattern, SafetyLayer.run_major]

/-- The clock hypothesis holds of a run that flashes and is reset. -/
theorem terminal_flash_reset :
    TerminalFlash .float (.boot { yellow := .nan } .ew 0) 0
      [⟨.validate .greenEW, 2⟩, ⟨.validate .greenNS, 8⟩,
        ⟨.validate .greenNS, 12⟩, ⟨.setEmergencyMode true, 13⟩,
        ⟨.validate .greenNS, 14⟩, ⟨.reset, 20⟩] :=
  terminal_flash { yellow := .nan } .ew 0 _ (by decide +kernel)

end Semaforo
