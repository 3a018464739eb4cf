import Semaforo.InterlockDisplay
import Semaforo.InterlockRefinement
import Mathlib.Tactic

/-!
# Conflict clearance (C-3)

The displayed timeline of the safety layer over every run of its public calls.
Each change of the display is classified by `Link`, which is the concrete
reading of `Interlock.Change`; the laws about greens are then read off the chain
of neighbouring stretches.
-/

namespace Semaforo

abbrev Period := Machine.Stretch SafetyLayer TimePoint

def Period.phase (x : Period) : Phase := x.first.getCurrentPhase

def Period.duration (x : Period) : ℚ := x.stop - x.start

theorem timeline_isChain_split {R : Period → Period → Prop}
    {timeline before after : List Period} {x y : Period}
    (hchain : timeline.IsChain R)
    (hsplit : timeline = before ++ x :: y :: after) : R x y := by
  subst hsplit
  exact (List.isChain_cons_cons.mp (List.isChain_append.mp hchain).2.1).1

namespace SafetyLayer

/-- The displayed timeline of a run from state `s` at the instant `b`. -/
def displayed (s : SafetyLayer) (b : TimePoint) (events : List Event) :
    List Period :=
  machine.timeline getCurrentPhase s b events

/-- What is known while one phase is on display: the layer represents `a`, its
timer started no earlier than the period, and the period began with the phase
still shown. -/
structure Held (t : Timings) (f : SafetyLayer) (b : TimePoint)
    (s : SafetyLayer) (now : TimePoint) (a : Interlock) : Prop where
  represents : s.Represents a
  timings : s.t = t
  shown : f.applied = s.applied
  since : b ≤ a.since
  started : b ≤ now

theorem boot_held (t : Timings) (major : MajorApproach) (b : TimePoint) :
    Held t (boot t major b) b (boot t major b) b ⟨.clearance none, b⟩ where
  represents := boot_represents t major b
  timings := rfl
  shown := rfl
  since := le_refl b
  started := le_refl b

theorem Represents.applied_eq {s : SafetyLayer} {a : Interlock}
    (hrep : s.Represents a) : s.applied = a.display s.major :=
  hrep.applied

theorem Held.keep {t : Timings} {f s : SafetyLayer} {b now : TimePoint}
    {a a' : Interlock} {e : Event} (hheld : Held t f b s now a)
    (hclock : now ≤ e.now) (hstep : Interlock.Step s.t a e a')
    (hrep : (s.apply e).Represents a')
    (hkey : (s.apply e).applied = f.applied) :
    Held t f b (s.apply e) e.now a' where
  represents := hrep
  timings := (apply_t s e).trans hheld.timings
  shown := hkey.symm
  since := by
    rcases hstep.since_eq with hsame | hnow
    · rw [hsame]
      exact hheld.since
    · rw [hnow]
      exact le_trans hheld.started hclock
  started := le_trans hheld.started hclock

theorem Held.turn {t : Timings} {f s : SafetyLayer} {b now : TimePoint}
    {a a' : Interlock} {e : Event} (hheld : Held t f b s now a)
    (hrep : (s.apply e).Represents a') (hsince : a'.since = e.now) :
    Held t (s.apply e) e.now (s.apply e) e.now a' where
  represents := hrep
  timings := (apply_t s e).trans hheld.timings
  shown := rfl
  since := hsince.ge
  started := le_refl e.now

theorem Held.change {t : Timings} {f s : SafetyLayer} {b now : TimePoint}
    {a a' : Interlock} {e : Event} (hheld : Held t f b s now a)
    (hstep : Interlock.Step s.t a e a')
    (hrep : (s.apply e).Represents a') (hcall : e.call ≠ .reset)
    (hkey : (s.apply e).applied ≠ f.applied) :
    Interlock.Change t s.major a a' (floatSeconds (e.now - a.since)) ∧
      a'.since = e.now := by
  rw [← hheld.timings]
  refine hstep.change hcall ?_
  rw [hheld.shown, hheld.represents.applied_eq, hrep.applied_eq,
    apply_major] at hkey
  exact hkey

/-- The timer has not run longer than the period. -/
theorem Held.reaches {t : Timings} {f s : SafetyLayer} {b now next : TimePoint}
    {a : Interlock} (hheld : Held t f b s now a) (hclock : now ≤ next)
    {sched : FloatValue ℚ} (hdue : sched ≤ .fin (floatSeconds (next - a.since))) :
    Stopwatch.float.reaches sched (next - b) := by
  have hsince := hheld.since
  have hstarted := hheld.started
  refine Stopwatch.float_reaches (by linarith) ?_
  exact FloatValue.le_fin_of_le hdue (floatSeconds_mono (by linarith))

end SafetyLayer

/-! ## Red clearance before every green -/

namespace SafetyLayer

theorem Held.into_green {t : Timings} {f s : SafetyLayer} {b now : TimePoint}
    {a a' : Interlock} {e : Event} (hheld : Held t f b s now a)
    (hclock : now ≤ e.now) (hstep : Interlock.Step s.t a e a')
    (hrep : (s.apply e).Represents a')
    (hkey : (s.apply e).applied ≠ f.applied)
    (hgreen : isGreen (s.apply e).applied = true) :
    f.applied = .allRed ∧ Stopwatch.float.reaches t.allRed (e.now - b) := by
  have happlied : (s.apply e).applied = a'.display s.major := by
    rw [hrep.applied_eq, apply_major]
  by_cases hcall : e.call = .reset
  · obtain ⟨call, at'⟩ := e
    subst hcall
    simp [apply, reset, isGreen] at hgreen
  · obtain ⟨hchange, _⟩ := hheld.change hstep hrep hcall hkey
    rw [happlied] at hgreen
    rw [hheld.shown, hheld.represents.applied_eq]
    cases hchange with
    | toGreen hred _ _ hdue => exact ⟨hred, hheld.reaches hclock hdue⟩
    | toAmber hout hamber _ _ =>
        obtain ⟨g, hg⟩ := Green.exists_of_isGreen hout
        rw [hamber, hg, Green.yellowFor_phase] at hgreen
        simp at hgreen
    | greenCut _ hred _ =>
        rw [hred] at hgreen
        simp [isGreen] at hgreen
    | amberEnds _ hred _ =>
        rw [hred] at hgreen
        simp [isGreen] at hgreen
    | toFlash _ hflash =>
        rw [Interlock.display, hflash] at hgreen
        simp [SubPhase.display] at hgreen

theorem Held.since_of_change {t : Timings} {f s : SafetyLayer}
    {b now : TimePoint} {a a' : Interlock} {e : Event}
    (hheld : Held t f b s now a) (hstep : Interlock.Step s.t a e a')
    (hrep : (s.apply e).Represents a')
    (hkey : (s.apply e).applied ≠ f.applied) : a'.since = e.now := by
  by_cases hcall : e.call = .reset
  · cases hstep with
    | reset => rfl
    | _ => cases hcall
  · exact (hheld.change hstep hrep hcall hkey).2

theorem held_stretchInvariant (t : Timings) :
    machine.StretchInvariant getCurrentPhase
      (fun _ now e => now ≤ e.now)
      (fun f b s now => ∃ a, Held t f b s now a) where
  keep := by
    rintro f b s now e ⟨a, hheld⟩ hclock hkey
    obtain ⟨a', hstep, hrep⟩ := apply_refines hheld.represents e
    exact ⟨a', hheld.keep hclock hstep hrep hkey⟩
  turn := by
    rintro f b s now e ⟨a, hheld⟩ hclock hkey
    obtain ⟨a', hstep, hrep⟩ := apply_refines hheld.represents e
    exact ⟨a', hheld.turn hrep (hheld.since_of_change hstep hrep hkey)⟩

end SafetyLayer

/-- A green comes on display only after all-red has been displayed without
interruption for at least `t.allRed`, as `watch` measures it. -/
def RedClearance (watch : Stopwatch) (t : Timings) (timeline : List Period) :
    Prop :=
  ∀ before y after, timeline = before ++ y :: after →
    isGreen y.phase = true →
    ∃ earlier x, before = earlier ++ [x] ∧ x.phase = .allRed ∧
      watch.reaches t.allRed x.duration

/-- The last nanosecond of the first clearance is rounded away. -/
theorem redClearance_broken_by_rounding :
    ¬ ∀ (t : Timings) (major : MajorApproach) (b : TimePoint) (events : List Event),
      SafetyLayer.machine.Clocked (.boot t major b) b events →
        RedClearance .exact t ((SafetyLayer.boot t major b).displayed b events) := by
  intro hall
  have hlaw := hall {} .ns 0 [⟨.validate .greenNS, 2 - 1 / 10 ^ 9⟩]
    (by decide +kernel)
  let green := SafetyLayer.apply (.boot {} .ns 0) ⟨.validate .greenNS, 2 - 1 / 10 ^ 9⟩
  obtain ⟨earlier, x, hbefore, _, hheld⟩ := hlaw
    [⟨.boot {} .ns 0, 0, 2 - 1 / 10 ^ 9⟩]
    ⟨green, 2 - 1 / 10 ^ 9, 2 - 1 / 10 ^ 9⟩ [] (by decide +kernel)
    (by decide +kernel)
  obtain rfl : _ = x := by simpa using congrArg List.getLast? hbefore
  norm_num [Stopwatch.exact, Period.duration, allRedS] at hheld

theorem red_clearance_before_green (t : Timings) (major : MajorApproach)
    (b : TimePoint) (events : List Event)
    (hclock : SafetyLayer.machine.Clocked (.boot t major b) b events) :
    RedClearance .float t ((SafetyLayer.boot t major b).displayed b events) := by
  intro before y after hsplit hgreen
  have hchain := (SafetyLayer.held_stretchInvariant t).isChain
    (R := fun f start stop f' => isGreen f'.getCurrentPhase = true →
      f.getCurrentPhase = .allRed ∧
        Stopwatch.float.reaches t.allRed (stop - start))
    (by
      rintro f b s now e ⟨a, hheld⟩ hclock hkey hgreen
      obtain ⟨a', hstep, hrep⟩ :=
        SafetyLayer.apply_refines hheld.represents e
      exact hheld.into_green hclock hstep hrep hkey hgreen)
    ⟨_, SafetyLayer.boot_held t major b⟩ hclock
  change List.IsChain _
    ((SafetyLayer.boot t major b).displayed b events) at hchain
  rw [hsplit] at hchain
  rcases List.eq_nil_or_concat' before with hnil | ⟨earlier, x, hlast⟩
  · obtain ⟨stop, hhead⟩ := Machine.head?_timelineFrom SafetyLayer.machine
      SafetyLayer.getCurrentPhase (.boot t major b) (.boot t major b) b b
      events
    change ((SafetyLayer.boot t major b).displayed b events).head? = _ at hhead
    rw [hsplit, hnil] at hhead
    simp only [List.nil_append, List.head?_cons, Option.some.injEq] at hhead
    rw [hhead] at hgreen
    simp [Period.phase, SafetyLayer.getCurrentPhase, SafetyLayer.boot,
      isGreen] at hgreen
  · rw [hlast, List.append_assoc, List.isChain_append] at hchain
    have hlink := (List.isChain_cons_cons.mp hchain.2.1).1
    obtain ⟨hred, hheld⟩ := hlink hgreen
    exact ⟨earlier, x, hlast, hred, hheld⟩

theorem red_clearance_before_green_switching :
    RedClearance .float {} ((SafetyLayer.boot {} .ns 0).displayed 0
      [⟨.validate .greenEW, 2⟩, ⟨.setEmergencyMode true, 4⟩,
        ⟨.validate .greenEW, 6⟩, ⟨.reset, 7⟩, ⟨.validate .greenNS, 9⟩]) :=
  red_clearance_before_green {} .ns 0 _ (by decide +kernel)

/-! ## Between two greens -/

/-- The conflict clearance law of the interface: between two different greens
with no green in between, the display shows exactly the amber of the first one
for its interval and then all-red for its own. -/
def ConflictClearance (watch : Stopwatch) (t : Timings) (timeline : List Period) :
    Prop :=
  ∀ (before : List Period) (g : Period) (mid : List Period) (h : Period)
    (after : List Period), timeline = before ++ g :: (mid ++ h :: after) →
    isGreen g.phase = true → isGreen h.phase = true → g.phase ≠ h.phase →
    (∀ x ∈ mid, isGreen x.phase = false) →
    ∃ y r, mid = [y, r] ∧
      y.phase = yellowFor g.phase ∧ watch.reaches t.yellow y.duration ∧
      r.phase = .allRed ∧ watch.reaches t.allRed r.duration

/-- What the layer does between two greens.  All-red is always held in full;
the amber is shown unless the mode was switched while the green was still on
display, and it is held in full unless the mode was switched during it. -/
def SwitchedClearance (watch : Stopwatch) (t : Timings) (timeline : List Period) :
    Prop :=
  ∀ (before : List Period) (g : Period) (mid : List Period) (h : Period)
    (after : List Period), timeline = before ++ g :: (mid ++ h :: after) →
    isGreen g.phase = true → isGreen h.phase = true →
    (∀ x ∈ mid, isGreen x.phase = false) →
    (∃ y r, mid = [y, r] ∧
      y.phase = yellowFor g.phase ∧
      y.first.inEmergency = g.first.inEmergency ∧
      (r.first.inEmergency = g.first.inEmergency →
        watch.reaches t.yellow y.duration) ∧
      r.phase = .allRed ∧ watch.reaches t.allRed r.duration) ∨
    (∃ r, mid = [r] ∧
      r.first.inEmergency ≠ g.first.inEmergency ∧
      r.phase = .allRed ∧ watch.reaches t.allRed r.duration)

/-- Engaging the ring while a green is on display drops it to all-red without
an amber, and the ring then serves the other axis. -/
theorem conflictClearance_broken_by_switch :
    ¬ ConflictClearance .exact {} ((SafetyLayer.boot {} .unknown 0).displayed 0
      [⟨.validate .greenEW, 2⟩, ⟨.setEmergencyMode true, 4⟩,
        ⟨.validate .greenEW, 6⟩]) := by
  intro hlaw
  let green := SafetyLayer.apply (.boot {} .unknown 0) ⟨.validate .greenEW, 2⟩
  let cut := green.apply ⟨.setEmergencyMode true, 4⟩
  let ring := cut.apply ⟨.validate .greenEW, 6⟩
  obtain ⟨y, r, hmid, _⟩ := hlaw [⟨.boot {} .unknown 0, 0, 2⟩] ⟨green, 2, 4⟩
    [⟨cut, 4, 6⟩] ⟨ring, 6, 6⟩ [] (by decide +kernel) (by decide +kernel)
    (by decide +kernel) (by decide +kernel) (by decide +kernel)
  simp at hmid

namespace SafetyLayer

/-- The ways in which the displayed phase of a run without resets changes at
the instant `stop`, from the period begun in `f` at `b` to one begun in `f'`. -/
inductive Link (t : Timings) (f : SafetyLayer) (b stop : TimePoint)
    (f' : SafetyLayer) : Prop where
  | toAmber (hgreen : isGreen f.applied = true)
      (hamber : f'.applied = yellowFor f.applied)
      (hmode : f'.emergency = f.emergency)
  | greenCut (hgreen : isGreen f.applied = true) (hred : f'.applied = .allRed)
      (hcause : f'.emergency ≠ f.emergency ∨ f'.state = .flashClearance)
  | amberEnds (hamber : isYellow f.applied = true)
      (hred : f'.applied = .allRed)
      (hcause : f'.emergency ≠ f.emergency ∨ f'.state = .flashClearance ∨
        Stopwatch.float.reaches t.yellow (stop - b))
  | toGreen (hred : f.applied = .allRed) (hgreen : isGreen f'.applied = true)
      (hlive : f.state ≠ .flashClearance)
      (hheld : Stopwatch.float.reaches t.allRed (stop - b))
  | toFlash (hred : f.applied = .allRed) (hflash : isFlash f'.applied = true)

/-- `Held`, with what a run without resets adds: the mode has not changed under
a green or an amber, and a period begun in the flash clearance is on the flash
path. -/
structure Coloured (t : Timings) (f : SafetyLayer) (b : TimePoint)
    (s : SafetyLayer) (now : TimePoint) (a : Interlock) : Prop extends
    Held t f b s now a where
  mode : f.applied ≠ .allRed → a.sub.mode ≠ .flashing →
    f.emergency = s.emergency
  flashing : f.state = .flashClearance → a.sub.mode = .flashing

theorem Represents.emergency_ne_of_switched {s s' : SafetyLayer}
    {a a' : Interlock} (hrep : s.Represents a) (hrep' : s'.Represents a')
    (hswitch : Interlock.Switched a a') : s'.emergency ≠ s.emergency := by
  rcases hswitch with ⟨hnormal, hring⟩ | ⟨hring, hnormal⟩
  · rw [hrep.emergency_of_normal hnormal, hrep'.emergency_of_ring hring]
    simp
  · rw [hrep.emergency_of_ring hring, hrep'.emergency_of_normal hnormal]
    simp

theorem Represents.emergency_eq_of_mode {s s' : SafetyLayer}
    {a a' : Interlock} (hrep : s.Represents a) (hrep' : s'.Represents a')
    (hlive : a.sub.mode ≠ .flashing) (hmode : a'.sub.mode = a.sub.mode) :
    s'.emergency = s.emergency := by
  cases h : a.sub.mode with
  | normal =>
      rw [hrep.emergency_of_normal h,
        hrep'.emergency_of_normal (hmode.trans h)]
  | ring =>
      rw [hrep.emergency_of_ring h, hrep'.emergency_of_ring (hmode.trans h)]
  | flashing => exact absurd h hlive

theorem Represents.mode_of_flashClearance {s : SafetyLayer} {a : Interlock}
    (hrep : s.Represents a) (hstate : s.state = .flashClearance) :
    a.sub.mode = .flashing :=
  hrep.flashing_iff.mp (Or.inl hstate)

theorem Coloured.keep {t : Timings} {f s : SafetyLayer} {b now : TimePoint}
    {a a' : Interlock} {e : Event} (hcoloured : Coloured t f b s now a)
    (hclock : now ≤ e.now) (hcall : e.call ≠ .reset)
    (hstep : Interlock.Step s.t a e a')
    (hrep : (s.apply e).Represents a')
    (hkey : (s.apply e).applied = f.applied) :
    Coloured t f b (s.apply e) e.now a' where
  toHeld := hcoloured.toHeld.keep hclock hstep hrep hkey
  mode := by
    intro hred hlive
    have hshown : a'.display s.major ≠ .allRed := by
      rw [← apply_major s e, ← hrep.applied_eq, hkey]
      exact hred
    have hmode : a'.sub.mode = a.sub.mode := hstep.mode_eq hshown
    have hlive' : a.sub.mode ≠ .flashing := hmode ▸ hlive
    rw [hcoloured.mode hred hlive']
    exact (hcoloured.represents.emergency_eq_of_mode hrep hlive' hmode).symm
  flashing := fun hstate => hstep.flashing hcall (hcoloured.flashing hstate)

theorem Coloured.turn {t : Timings} {f s : SafetyLayer} {b now : TimePoint}
    {a a' : Interlock} {e : Event} (hcoloured : Coloured t f b s now a)
    (hrep : (s.apply e).Represents a') (hsince : a'.since = e.now) :
    Coloured t (s.apply e) e.now (s.apply e) e.now a' where
  toHeld := hcoloured.toHeld.turn hrep hsince
  mode := fun _ _ => rfl
  flashing := hrep.mode_of_flashClearance

theorem Coloured.link {t : Timings} {f s : SafetyLayer} {b now : TimePoint}
    {a a' : Interlock} {e : Event} (hcoloured : Coloured t f b s now a)
    (hclock : now ≤ e.now) (hcall : e.call ≠ .reset)
    (hstep : Interlock.Step s.t a e a')
    (hrep : (s.apply e).Represents a')
    (hkey : (s.apply e).applied ≠ f.applied) :
    Link t f b e.now (s.apply e) := by
  have hshown : f.applied = a.display s.major := by
    rw [hcoloured.shown, hcoloured.represents.applied_eq]
  have hshown' : (s.apply e).applied = a'.display s.major := by
    rw [hrep.applied_eq, apply_major]
  have hswitched : Interlock.Switched a a' → f.applied ≠ .allRed →
      (s.apply e).emergency ≠ f.emergency := by
    intro hswitch hred
    have hlive : a.sub.mode ≠ .flashing := by
      rcases hswitch with ⟨h, _⟩ | ⟨h, _⟩ <;> rw [h] <;> simp
    rw [hcoloured.mode hred hlive]
    exact hcoloured.represents.emergency_ne_of_switched hrep hswitch
  have hstate : a'.sub = .flashClearance →
      (s.apply e).state = .flashClearance := by
    intro hsub
    rw [hrep.state, hsub]
    rfl
  obtain ⟨hchange, _⟩ := hcoloured.toHeld.change hstep hrep hcall hkey
  cases hchange with
  | toAmber hgreen hamber hmode hlive =>
      rw [← hshown] at hgreen hamber
      have hred : f.applied ≠ .allRed := by
        intro hred
        simp [hred, isGreen] at hgreen
      refine .toAmber hgreen (hshown'.trans hamber) ?_
      rw [hcoloured.mode hred hlive]
      exact hcoloured.represents.emergency_eq_of_mode hrep hlive hmode
  | greenCut hgreen hred hcause =>
      rw [← hshown] at hgreen
      refine .greenCut hgreen (hshown'.trans hred) ?_
      refine hcause.imp (fun hswitch => hswitched hswitch ?_) hstate
      intro hf
      simp [hf, isGreen] at hgreen
  | amberEnds hamber hred hcause =>
      rw [← hshown] at hamber
      refine .amberEnds hamber (hshown'.trans hred) ?_
      refine hcause.imp (fun hswitch => hswitched hswitch ?_)
        (fun h => h.imp hstate
          (fun hdue => hcoloured.toHeld.reaches hclock hdue))
      intro hf
      simp [hf, isYellow] at hamber
  | toGreen hred hgreen hlive hheld =>
      refine .toGreen (hshown.trans hred) (hshown' ▸ hgreen) ?_
        (hcoloured.toHeld.reaches hclock hheld)
      exact fun hf => hlive (hcoloured.flashing hf)
  | toFlash hclearance hflash =>
      refine .toFlash ?_ ?_
      · rw [hshown, Interlock.display, hclearance]
        rfl
      · rw [hshown', Interlock.display, hflash]
        simp [SubPhase.display]

def Unreset (_ : SafetyLayer) (now : TimePoint) (e : Event) : Prop :=
  now ≤ e.now ∧ e.call ≠ .reset

instance (s : SafetyLayer) (now : TimePoint) (e : Event) :
    Decidable (Unreset s now e) :=
  inferInstanceAs (Decidable (now ≤ e.now ∧ e.call ≠ .reset))

theorem coloured_stretchInvariant (t : Timings) :
    machine.StretchInvariant getCurrentPhase Unreset
      (fun f b s now => ∃ a, Coloured t f b s now a) where
  keep := by
    rintro f b s now e ⟨a, hcoloured⟩ ⟨hclock, hcall⟩ hkey
    obtain ⟨a', hstep, hrep⟩ := apply_refines hcoloured.represents e
    exact ⟨a', hcoloured.keep hclock hcall hstep hrep hkey⟩
  turn := by
    rintro f b s now e ⟨a, hcoloured⟩ _ hkey
    obtain ⟨a', hstep, hrep⟩ := apply_refines hcoloured.represents e
    exact ⟨a', hcoloured.turn hrep
      (hcoloured.since_of_change hstep hrep hkey)⟩

theorem displayed_isChain_link (t : Timings) (major : MajorApproach)
    (b : TimePoint) (events : List Event)
    (hrun : machine.Admits Unreset (boot t major b) b events) :
    ((boot t major b).displayed b events).IsChain
      (fun x y => Link t x.first x.start x.stop y.first) := by
  refine (coloured_stretchInvariant t).isChain ?_ ?_ hrun
  · rintro f b s now e ⟨a, hcoloured⟩ ⟨hclock, hcall⟩ hkey
    obtain ⟨a', hstep, hrep⟩ := apply_refines hcoloured.represents e
    exact hcoloured.link hclock hcall hstep hrep hkey
  · exact ⟨_, boot_held t major b, fun hred _ => absurd rfl hred,
      fun hstate => by cases hstate⟩

end SafetyLayer

theorem not_isGreen_of_isYellow {p : Phase} (hp : isYellow p = true) :
    isGreen p = false := by
  cases p <;> simp [isYellow, isGreen] at hp ⊢

theorem not_isYellow_of_isGreen {p : Phase} (hp : isGreen p = true) :
    isYellow p = false := by
  cases p <;> simp [isYellow, isGreen] at hp ⊢

theorem isYellow_yellowFor (p : Phase) : isYellow (yellowFor p) = true := by
  unfold yellowFor
  split_ifs <;> rfl

def Linked (t : Timings) (x y : Period) : Prop :=
  SafetyLayer.Link t x.first x.start x.stop y.first

namespace Linked

variable {t : Timings} {x y z : Period}

theorem from_green (hxy : Linked t x y) (hgreen : isGreen x.phase = true) :
    (y.phase = yellowFor x.phase ∧
        y.first.inEmergency = x.first.inEmergency) ∨
      (y.phase = .allRed ∧
        (y.first.inEmergency ≠ x.first.inEmergency ∨
          y.first.state = .flashClearance)) := by
  change isGreen x.first.applied = true at hgreen
  cases hxy with
  | toAmber _ hamber hmode => exact Or.inl ⟨hamber, hmode⟩
  | greenCut _ hred hcause => exact Or.inr ⟨hred, hcause⟩
  | amberEnds hamber _ _ =>
      rw [not_isGreen_of_isYellow hamber] at hgreen
      contradiction
  | toGreen hred _ _ _ => simp [hred, isGreen] at hgreen
  | toFlash hred _ => simp [hred, isGreen] at hgreen

theorem from_yellow (hxy : Linked t x y) (hamber : isYellow x.phase = true) :
    y.phase = .allRed ∧
      (y.first.inEmergency ≠ x.first.inEmergency ∨
        y.first.state = .flashClearance ∨
          Stopwatch.float.reaches t.yellow x.duration) := by
  change isYellow x.first.applied = true at hamber
  cases hxy with
  | amberEnds _ hred hcause => exact ⟨hred, hcause⟩
  | toAmber hgreen _ _ =>
      rw [not_isYellow_of_isGreen hgreen] at hamber
      contradiction
  | greenCut hgreen _ _ =>
      rw [not_isYellow_of_isGreen hgreen] at hamber
      contradiction
  | toGreen hred _ _ _ => simp [hred, isYellow] at hamber
  | toFlash hred _ => simp [hred, isYellow] at hamber

theorem to_green (hxy : Linked t x y) (hgreen : isGreen y.phase = true) :
    x.phase = .allRed ∧ x.first.state ≠ .flashClearance ∧
      Stopwatch.float.reaches t.allRed x.duration := by
  change isGreen y.first.applied = true at hgreen
  cases hxy with
  | toGreen hred _ hlive hheld => exact ⟨hred, hlive, hheld⟩
  | toAmber _ hamber _ =>
      rw [hamber, not_isGreen_of_isYellow (isYellow_yellowFor _)] at hgreen
      contradiction
  | greenCut _ hred _ => simp [hred, isGreen] at hgreen
  | amberEnds _ hred _ => simp [hred, isGreen] at hgreen
  | toFlash _ hflash =>
      cases hphase : y.first.applied <;>
        simp [hphase, isGreen, isFlash] at hgreen hflash

theorem from_red (hxy : Linked t x y) (hred : x.phase = .allRed) :
    isGreen y.phase = true ∨ isFlash y.phase = true := by
  change x.first.applied = .allRed at hred
  cases hxy with
  | toGreen _ hgreen _ _ => exact Or.inl hgreen
  | toFlash _ hflash => exact Or.inr hflash
  | toAmber hgreen _ _ => simp [hred, isGreen] at hgreen
  | greenCut hgreen _ _ => simp [hred, isGreen] at hgreen
  | amberEnds hamber _ _ => simp [hred, isYellow] at hamber

theorem not_from_flash (hxy : Linked t x y) : isFlash x.phase = false := by
  change isFlash x.first.applied = false
  cases hxy with
  | toAmber h _ _ => cases hx : x.first.applied <;> simp_all [isGreen, isFlash]
  | greenCut h _ _ => cases hx : x.first.applied <;> simp_all [isGreen, isFlash]
  | amberEnds h _ _ =>
      cases hx : x.first.applied <;> simp_all [isYellow, isFlash]
  | toGreen h _ _ _ => rw [h]; rfl
  | toFlash h _ => rw [h]; rfl

theorem green_after_red (hxy : Linked t x y) (hyz : Linked t y z)
    (hred : x.phase = .allRed) : isGreen y.phase = true := by
  rcases hxy.from_red hred with hgreen | hflash
  · exact hgreen
  · rw [hyz.not_from_flash] at hflash
    contradiction

end Linked

theorem head_linked {t : Timings} {x h : Period} {rest after : List Period}
    (hchain : (x :: (rest ++ h :: after)).IsChain (Linked t)) :
    ∃ y, Linked t x y := by
  cases rest with
  | nil => exact ⟨h, (List.isChain_cons_cons.mp hchain).1⟩
  | cons y rest => exact ⟨y, (List.isChain_cons_cons.mp hchain).1⟩

theorem switchedClearance_of_isChain {t : Timings} {timeline : List Period}
    (hchain : timeline.IsChain (Linked t)) :
    SwitchedClearance .float t timeline := by
  rintro before g mid h after rfl hgreen hgreen' hmid
  have htail : (g :: (mid ++ h :: after)).IsChain (Linked t) :=
    (List.isChain_append.mp hchain).2.1
  -- an all-red inside `mid` is its last period
  have hlast : ∀ (r : Period) (rest : List Period), r.phase = .allRed →
      (∀ x ∈ rest, isGreen x.phase = false) →
      (r :: (rest ++ h :: after)).IsChain (Linked t) → rest = [] := by
    intro r rest hred hrest hr
    cases rest with
    | nil => rfl
    | cons y rest =>
        obtain ⟨hry, hy⟩ := List.isChain_cons_cons.mp hr
        obtain ⟨z, hyz⟩ := head_linked hy
        have := hry.green_after_red hyz hred
        rw [hrest y (List.mem_cons_self ..)] at this
        contradiction
  cases mid with
  | nil =>
      have hgh := (List.isChain_cons_cons.mp htail).1
      have hred := (hgh.to_green hgreen').1
      rw [hred] at hgreen
      simp [isGreen] at hgreen
  | cons m rest =>
      obtain ⟨hgm, hm⟩ := List.isChain_cons_cons.mp htail
      have hrest : ∀ x ∈ rest, isGreen x.phase = false :=
        fun x hx => hmid x (List.mem_cons_of_mem m hx)
      rcases hgm.from_green hgreen with ⟨hamber, hmode⟩ | ⟨hred, hcause⟩
      · -- the amber of `g`
        have hyellow : isYellow m.phase = true :=
          hamber ▸ isYellow_yellowFor g.phase
        cases rest with
        | nil =>
            have hmh := (List.isChain_cons_cons.mp hm).1
            have hred := (hmh.to_green hgreen').1
            rw [hred] at hyellow
            simp [isYellow] at hyellow
        | cons r rest =>
            obtain ⟨hmr, hr⟩ := List.isChain_cons_cons.mp hm
            obtain ⟨hred, hcause⟩ := hmr.from_yellow hyellow
            have hnil : rest = [] := hlast r rest hred
              (fun x hx => hrest x (List.mem_cons_of_mem r hx)) hr
            subst hnil
            obtain ⟨_, hlive, hheld⟩ :=
              (List.isChain_cons_cons.mp hr).1.to_green hgreen'
            refine Or.inl ⟨m, r, rfl, hamber, hmode, ?_, hred, hheld⟩
            intro hsame
            rcases hcause with hswitch | hflash | hdue
            · exact absurd (hsame.trans hmode.symm) hswitch
            · exact absurd hflash hlive
            · exact hdue
      · -- cut to all-red
        have hnil : rest = [] := hlast m rest hred hrest hm
        subst hnil
        obtain ⟨_, hlive, hheld⟩ :=
          (List.isChain_cons_cons.mp hm).1.to_green hgreen'
        refine Or.inr ⟨m, rfl, ?_, hred, hheld⟩
        exact hcause.resolve_right hlive

/-- For all timings and every run of ticks and emergency toggles, the display
between two greens obeys `SwitchedClearance`. -/
theorem clearance_between_greens (t : Timings) (major : MajorApproach)
    (b : TimePoint) (events : List Event)
    (hrun : SafetyLayer.machine.Admits SafetyLayer.Unreset
      (.boot t major b) b events) :
    SwitchedClearance .float t
      ((SafetyLayer.boot t major b).displayed b events) :=
  switchedClearance_of_isChain
    (SafetyLayer.displayed_isChain_link t major b events hrun)

theorem clearance_between_greens_switching :
    SwitchedClearance .float {} ((SafetyLayer.boot {} .unknown 0).displayed 0
      [⟨.validate .greenEW, 2⟩, ⟨.setEmergencyMode true, 4⟩,
        ⟨.validate .greenEW, 6⟩, ⟨.setEmergencyMode false, 7⟩,
        ⟨.validate .greenEW, 9⟩, ⟨.validate .greenNS, 14⟩,
        ⟨.validate .greenNS, 17⟩, ⟨.validate .greenNS, 19⟩]) :=
  clearance_between_greens {} .unknown 0 _ (by decide +kernel)

end Semaforo
