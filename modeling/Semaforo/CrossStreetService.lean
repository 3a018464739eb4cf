import Semaforo.MaxGreenWatchdog
import Mathlib.Tactic

/-!
# Whether the cross street is served

Under regular polling every green comes to an end, and with it the amber and the
clearance that follow.  Which axis is next depends only on the ticks that end a
green: as long as each of them lets the axis change, the two axes take turns, and
neither waits longer than one green and two clearances.  A run in which each of
them asks for the other green of the same axis never leaves that axis, whether the
green ended because of the watchdog or before it.
-/

namespace Semaforo

/-- The axis has a green. -/
def Axis.Lit : Axis → Phase → Prop
  | .ns, p => isGreen p = true ∧ isNS p = true
  | .ew, p => isGreen p = true ∧ isNS p = false

instance : ∀ (x : Axis) (p : Phase), Decidable (x.Lit p)
  | .ns, p => inferInstanceAs (Decidable (isGreen p = true ∧ isNS p = true))
  | .ew, p => inferInstanceAs (Decidable (isGreen p = true ∧ isNS p = false))

theorem Axis.lit_phase_iff (x : Axis) (g : Green) :
    x.Lit g.phase ↔ g.axis = x := by
  cases x <;> cases g <;> decide

theorem Axis.Lit.isGreen {x : Axis} {p : Phase} (hlit : x.Lit p) :
    isGreen p = true := by
  cases x with
  | ns => exact hlit.1
  | ew => exact hlit.1

/-- The schedules of the normal cycle can be relied on. -/
structure Timings.Cycles (t : Timings) : Prop where
  maxGreen : scheduleTrusted t.maxGreen
  yellow : scheduleTrusted t.yellow
  allRed : scheduleTrusted t.allRed

/-- Times that the clock reads as the schedules of a cycle, and the longest time
between two ticks. -/
structure Timings.Pace (t : Timings) where
  green : ℚ
  amber : ℚ
  clearance : ℚ
  gap : ℚ
  green_pos : 0 < green
  amber_pos : 0 < amber
  clearance_pos : 0 < clearance
  gap_nonneg : 0 ≤ gap
  green_read : t.maxGreen ≤ .fin (floatSeconds green)
  amber_read : t.yellow ≤ .fin (floatSeconds amber)
  clearance_read : t.allRed ≤ .fin (floatSeconds clearance)

/-- The longest time between two greens of one axis. -/
def Timings.Pace.turnaround {t : Timings} (pace : t.Pace) : ℚ :=
  pace.green + 2 * pace.amber + 2 * pace.clearance + 5 * pace.gap

namespace SubPhase

/-- Where a tick may lead from a sub-phase that has a target, when the ends of
greens relate one green to the next by `R`. -/
inductive Follows (R : Green → Green → Prop) : SubPhase → SubPhase → Prop
  | amber {g h : Green} (hnext : R g h) : Follows R (.green g) (.amber g.axis h)
  | clearance {o : Axis} {h : Green} :
      Follows R (.amber o h) (.clearance (some h))
  | green {h : Green} : Follows R (.clearance (some h)) (.green h)

theorem Follows.target {R : Green → Green → Prop} {p q : SubPhase}
    (hfollows : Follows R p q) : ∃ h, q.target? = some h := by
  cases hfollows with
  | amber _ => exact ⟨_, rfl⟩
  | clearance => exact ⟨_, rfl⟩
  | green => exact ⟨_, rfl⟩

theorem Follows.axis_eq {p q : SubPhase} {x : Axis}
    (hfollows : Follows (fun g h => h.axis = g.axis) p q)
    (hp : ∃ g, p.target? = some g ∧ g.axis = x) :
    ∃ h, q.target? = some h ∧ h.axis = x := by
  obtain ⟨g, htarget, haxis⟩ := hp
  cases hfollows with
  | @amber g' h hnext =>
      obtain rfl : g' = g := Option.some.inj htarget
      exact ⟨h, rfl, hnext.trans haxis⟩
  | clearance => exact ⟨g, htarget, haxis⟩
  | green => exact ⟨g, htarget, haxis⟩

theorem lit_display_iff {p : SubPhase} {h : Green} (htarget : p.target? = some h)
    (major : MajorApproach) (x : Axis) :
    x.Lit (p.display major) ↔ ∃ g : Green, p = .green g ∧ g.axis = x := by
  cases p with
  | green g => simp [display, x.lit_phase_iff]
  | amber o h => cases x <;> cases o <;> simp [display, Axis.Lit, Axis.amber, isGreen]
  | clearance c => cases x <;> simp [display, Axis.Lit, isGreen]
  | ring i => cases htarget
  | flashClearance => cases htarget
  | flash => cases htarget

/-- What a sub-phase is held for. -/
def hold {t : Timings} (pace : t.Pace) : SubPhase → ℚ
  | green _ => pace.green
  | amber _ _ => pace.amber
  | clearance _ => pace.clearance
  | _ => 0

/-- How long after the last green of the axis `x` a sub-phase begins at the
latest. -/
def lag {t : Timings} (pace : t.Pace) (x : Axis) : SubPhase → ℚ
  | green _ => pace.amber + pace.clearance + 2 * pace.gap
  | amber _ h =>
      if h.axis = x then
        pace.green + pace.amber + pace.clearance + 3 * pace.gap
      else 0
  | clearance (some h) =>
      if h.axis = x then
        pace.green + 2 * pace.amber + pace.clearance + 4 * pace.gap
      else pace.amber + pace.gap
  | _ => 0

section Pace

variable {t : Timings} {pace : t.Pace} {x : Axis} {p q : SubPhase} {h : Green}

theorem hold_pos (htarget : p.target? = some h) : 0 < p.hold pace := by
  cases p with
  | green g => exact pace.green_pos
  | amber o h => exact pace.amber_pos
  | clearance c => exact pace.clearance_pos
  | ring i => cases htarget
  | flashClearance => cases htarget
  | flash => cases htarget

theorem schedule_le_hold (htarget : p.target? = some h) :
    p.schedule t ≤ .fin (floatSeconds (p.hold pace)) := by
  cases p with
  | green g => exact pace.green_read
  | amber o h => exact pace.amber_read
  | clearance c => exact pace.clearance_read
  | ring i => cases htarget
  | flashClearance => cases htarget
  | flash => cases htarget

theorem lag_nonneg (htarget : p.target? = some h) : 0 ≤ p.lag pace x := by
  have hgreen := pace.green_pos
  have hamber := pace.amber_pos
  have hclearance := pace.clearance_pos
  have hgap := pace.gap_nonneg
  cases p with
  | green g =>
      simp only [lag]
      positivity
  | amber o h =>
      simp only [lag]
      split_ifs <;> positivity
  | clearance c =>
      cases c with
      | none => cases htarget
      | some h =>
          simp only [lag]
          split_ifs <;> positivity
  | ring i => cases htarget
  | flashClearance => cases htarget
  | flash => cases htarget

theorem lag_of_follows (hfollows : Follows (fun g h => h.axis ≠ g.axis) p q)
    (hp : ∀ g, p = .green g → g.axis ≠ x) (hq : ∀ g, q = .green g → g.axis ≠ x) :
    p.lag pace x + p.hold pace + pace.gap ≤ q.lag pace x := by
  cases hfollows with
  | @amber g h haxis =>
      have hback : h.axis = x := by
        have hg := hp g rfl
        revert haxis hg
        cases g.axis <;> cases h.axis <;> cases x <;> simp
      simp only [lag, hold, if_pos hback]
      linarith
  | @clearance o h =>
      simp only [lag, hold]
      split_ifs
      · linarith
      · linarith
  | @green h =>
      simp only [lag, hold, if_neg (hq h rfl)]
      linarith

theorem lag_add_hold_le (htarget : p.target? = some h) :
    p.lag pace x + p.hold pace + pace.gap ≤ pace.turnaround := by
  have hgreen := pace.green_pos
  have hamber := pace.amber_pos
  have hclearance := pace.clearance_pos
  have hgap := pace.gap_nonneg
  unfold Timings.Pace.turnaround
  cases p with
  | green g =>
      simp only [lag, hold]
      linarith
  | amber o h =>
      simp only [lag, hold]
      split_ifs
      · linarith
      · linarith
  | clearance c =>
      cases c with
      | none => cases htarget
      | some h =>
          simp only [lag, hold]
          split_ifs
          · linarith
          · linarith
  | ring i => cases htarget
  | flashClearance => cases htarget
  | flash => cases htarget

end Pace

end SubPhase

namespace Interlock

/-- With trusted schedules a tick leaves a sub-phase that has a target in place,
unripe, or it goes on to the next one. -/
theorem Step.follows {t : Timings} (ht : t.Cycles) {R : Green → Green → Prop}
    {a a' : Interlock} {desired : Phase} {now : TimePoint}
    (hstep : Step t a ⟨.validate desired, now⟩ a')
    (htarget : ∃ h, a.sub.target? = some h)
    (hnext : ∀ g, a.sub = .green g → g.Ends t desired (floatSeconds (now - a.since)) →
      R g (g.forced desired)) :
    (a' = a ∧ ¬ a.sub.Ripe t (floatSeconds (now - a.since))) ∨
      (SubPhase.Follows R a.sub a'.sub ∧ a'.since = now) := by
  obtain ⟨hmax, hyellow, hred⟩ := ht
  obtain ⟨h, htarget⟩ := htarget
  obtain ⟨p, b⟩ := a
  cases p with
  | green g =>
      rcases hstep.of_green hmax with ⟨hends, rfl⟩ | ⟨hends, rfl⟩
      · exact Or.inr ⟨.amber (hnext g rfl hends), rfl⟩
      · refine Or.inl ⟨rfl, not_or.mpr ⟨fun hdue => hends (Or.inl hdue), ?_⟩⟩
        exact SubPhase.not_overdue_of_trusted hmax
  | amber o h =>
      by_cases hdue : t.yellow ≤ .fin (floatSeconds (now - b))
      · rw [hstep.amber_over hyellow hdue]
        exact Or.inr ⟨.clearance, rfl⟩
      · cases hstep with
        | leave hleaves =>
            cases hleaves with
            | amberOver _ hover => exact absurd hover hdue
            | escalate _ hover _ => exact absurd hyellow hover.1
        | stay hstays =>
            cases hstays with
            | amber hlive hnot => exact Or.inl ⟨rfl, not_or.mpr ⟨hnot, hlive⟩⟩
  | clearance c =>
      obtain rfl : c = some h := htarget
      by_cases hdue : t.allRed ≤ .fin (floatSeconds (now - b))
      · rw [hstep.clearance_over hred (h := h) rfl hdue]
        exact Or.inr ⟨.green, rfl⟩
      · cases hstep with
        | leave hleaves =>
            cases hleaves with
            | clearanceOver _ hover _ => exact absurd hover hdue
            | escalate _ hover _ => exact absurd hred hover.1
        | stay hstays =>
            cases hstays with
            | clearance hlive _ => exact Or.inl ⟨rfl, not_or.mpr ⟨hdue, hlive⟩⟩
  | ring i => cases htarget
  | flashClearance => cases htarget
  | flash => cases htarget

end Interlock

namespace SafetyLayer

/-- The tick does not end a green with a request for the other green of the same
axis. -/
def LetsCross (s : SafetyLayer) (_ : TimePoint) (e : Event) : Prop :=
  match e.call with
  | .validate desired =>
      s.EndsGreen desired e.now → ¬ StaysOnAxis s.getCurrentPhase desired
  | _ => True

/-- If the tick ends a green, it asks for the other green of the same axis. -/
def KeepsAxis (s : SafetyLayer) (_ : TimePoint) (e : Event) : Prop :=
  match e.call with
  | .validate desired =>
      s.EndsGreen desired e.now → StaysOnAxis s.getCurrentPhase desired
  | _ => True

instance (s : SafetyLayer) (desired : Phase) (now : TimePoint) :
    Decidable (s.EndsGreen desired now) :=
  inferInstanceAs (Decidable (_ ∧ (_ ∨ (_ ∧ _ ∧ _))))

instance (s : SafetyLayer) (t : TimePoint) :
    ∀ e : Event, Decidable (s.LetsCross t e)
  | ⟨.validate desired, now⟩ => inferInstanceAs (Decidable
      (s.EndsGreen desired now → ¬ StaysOnAxis s.getCurrentPhase desired))
  | ⟨.setEmergencyMode _, _⟩ => isTrue trivial
  | ⟨.reset, _⟩ => isTrue trivial

instance (s : SafetyLayer) (t : TimePoint) :
    ∀ e : Event, Decidable (s.KeepsAxis t e)
  | ⟨.validate desired, now⟩ => inferInstanceAs (Decidable
      (s.EndsGreen desired now → StaysOnAxis s.getCurrentPhase desired))
  | ⟨.setEmergencyMode _, _⟩ => isTrue trivial
  | ⟨.reset, _⟩ => isTrue trivial

/-- The layer has a target, and the axis `x` had its last green at `lit`. -/
structure Circulates {t : Timings} (pace : t.Pace) (x : Axis) (s : SafetyLayer)
    (now lit : TimePoint) (a : Interlock) : Prop where
  represents : s.Represents a
  timings : s.t = t
  target : ∃ h, a.sub.target? = some h
  since : ¬ x.Lit s.getCurrentPhase → a.since ≤ lit + a.sub.lag pace x
  onTime : ¬ x.Lit s.getCurrentPhase → now ≤ lit + a.sub.lag pace x ∨
    ¬ a.sub.Ripe t (floatSeconds (now - a.since))

section Circulates

variable {t : Timings} {pace : t.Pace} {x : Axis} {s : SafetyLayer}
  {now lit : TimePoint} {a : Interlock} {e : Event}

theorem Represents.lit_iff (hrep : s.Represents a)
    (htarget : ∃ h, a.sub.target? = some h) :
    x.Lit s.getCurrentPhase ↔ ∃ g : Green, a.sub = .green g ∧ g.axis = x := by
  obtain ⟨h, htarget⟩ := htarget
  have happlied : s.getCurrentPhase = a.sub.display s.major := hrep.applied
  rw [happlied]
  exact SubPhase.lit_display_iff htarget s.major x

theorem Circulates.next_lt (hcirc : Circulates pace x s now lit a)
    {next : TimePoint} (hgap : next - now ≤ pace.gap)
    (hdark : ¬ x.Lit s.getCurrentPhase) :
    next < lit + (a.sub.lag pace x + a.sub.hold pace + pace.gap) := by
  obtain ⟨h, htarget⟩ := hcirc.target
  have hhold : 0 < a.sub.hold pace := SubPhase.hold_pos htarget
  have hsince := hcirc.since hdark
  rcases hcirc.onTime hdark with hnow | hripe
  · linarith
  · have hdue : a.sub.schedule t ≤ .fin (floatSeconds (a.sub.hold pace)) :=
      SubPhase.schedule_le_hold htarget
    have := SubPhase.lt_of_not_ripe hripe hdue
    linarith

theorem Circulates.next_lt_turnaround (hcirc : Circulates pace x s now lit a)
    {next : TimePoint} (hgap : next - now ≤ pace.gap)
    (hdark : ¬ x.Lit s.getCurrentPhase) : next < lit + pace.turnaround := by
  obtain ⟨h, htarget⟩ := hcirc.target
  have hnext := hcirc.next_lt hgap hdark
  have hround : a.sub.lag pace x + a.sub.hold pace + pace.gap ≤ pace.turnaround :=
    SubPhase.lag_add_hold_le htarget
  linarith

theorem staysOnAxis_iff {g : Green} {b : TimePoint} {desired : Phase}
    (hrep : s.Represents ⟨.green g, b⟩) :
    StaysOnAxis s.getCurrentPhase desired ↔ (g.forced desired).axis = g.axis := by
  have happlied : s.getCurrentPhase = g.phase := hrep.applied
  rw [happlied, ← not_iff_not, ← g.isNS_forced_ne_iff]
  cases g.forced desired <;> cases g <;> decide

/-- A tick of the layer, as a move of the interlock. -/
theorem Represents.follows (hrep : s.Represents a) (ht : s.t.Cycles)
    (htarget : ∃ h, a.sub.target? = some h) {R : Green → Green → Prop}
    (htick : e.isTick = true)
    (hnext : ∀ desired g, e.call = .validate desired → a.sub = .green g →
      s.EndsGreen desired e.now → R g (g.forced desired)) :
    ∃ a', (s.apply e).Represents a' ∧
      ((a' = a ∧ ¬ a.sub.Ripe s.t (floatSeconds (e.now - a.since))) ∨
        (SubPhase.Follows R a.sub a'.sub ∧ a'.since = e.now)) := by
  obtain ⟨desired, he⟩ := Event.eq_validate_of_isTick htick
  obtain ⟨a', hstep, hrep'⟩ := apply_refines hrep e
  refine ⟨a', hrep', ?_⟩
  rw [he] at hstep
  refine hstep.follows ht htarget ?_
  intro g hsub hends
  have hgreen : s.Represents ⟨.green g, a.since⟩ := hsub ▸ hrep
  exact hnext desired g (by rw [he]) hsub ((endsGreen_iff hgreen desired e.now).mpr hends)

theorem LetsCross.axis_ne (hcross : s.LetsCross now e) (hrep : s.Represents a)
    {desired : Phase} {g : Green} (he : e.call = .validate desired)
    (hsub : a.sub = .green g) (hends : s.EndsGreen desired e.now) :
    (g.forced desired).axis ≠ g.axis := by
  have hgreen : s.Represents ⟨.green g, a.since⟩ := hsub ▸ hrep
  unfold LetsCross at hcross
  rw [he] at hcross
  exact fun hsame => hcross hends ((staysOnAxis_iff hgreen).mpr hsame)

theorem KeepsAxis.axis_eq (hkeep : s.KeepsAxis now e) (hrep : s.Represents a)
    {desired : Phase} {g : Green} (he : e.call = .validate desired)
    (hsub : a.sub = .green g) (hends : s.EndsGreen desired e.now) :
    (g.forced desired).axis = g.axis := by
  have hgreen : s.Represents ⟨.green g, a.since⟩ := hsub ▸ hrep
  unfold KeepsAxis at hkeep
  rw [he] at hkeep
  exact (staysOnAxis_iff hgreen).mp (hkeep hends)

theorem Circulates.tick (hcirc : Circulates pace x s now lit a) (ht : t.Cycles)
    (hpolled : Polled pace.gap s now e) (hcross : s.LetsCross now e) :
    ∃ a', Circulates pace x (s.apply e) e.now
      (if x.Lit s.getCurrentPhase then e.now else lit) a' := by
  obtain ⟨hnow, hgap, htick⟩ := hpolled
  obtain ⟨a', hrep', hmove⟩ := hcirc.represents.follows
    (R := fun g h => h.axis ≠ g.axis) (hcirc.timings ▸ ht) hcirc.target htick
    fun _ _ he hsub hends => hcross.axis_ne hcirc.represents he hsub hends
  rw [hcirc.timings] at hmove
  have htimings : (s.apply e).t = t := (apply_t s e).trans hcirc.timings
  rcases hmove with ⟨rfl, hripe⟩ | ⟨hfollows, hsince⟩
  · have hkept : x.Lit (s.apply e).getCurrentPhase ↔ x.Lit s.getCurrentPhase :=
      (hrep'.lit_iff hcirc.target).trans
        (hcirc.represents.lit_iff hcirc.target).symm
    refine ⟨a', hrep', htimings, hcirc.target, ?_, fun _ => Or.inr hripe⟩
    intro hdark
    rw [hkept] at hdark
    rw [if_neg hdark]
    exact hcirc.since hdark
  · have hbegun : ¬ x.Lit (s.apply e).getCurrentPhase →
        e.now ≤ (if x.Lit s.getCurrentPhase then e.now else lit) +
          a'.sub.lag pace x := by
      intro hdark
      split_ifs with hlit
      · obtain ⟨h, htarget⟩ := hfollows.target
        have : 0 ≤ a'.sub.lag pace x := SubPhase.lag_nonneg htarget
        linarith
      · rw [hcirc.represents.lit_iff hcirc.target] at hlit
        rw [hrep'.lit_iff hfollows.target] at hdark
        have hlag : a.sub.lag pace x + a.sub.hold pace + pace.gap ≤
            a'.sub.lag pace x :=
          SubPhase.lag_of_follows hfollows (fun g hg hx => hlit ⟨g, hg, hx⟩)
            (fun g hg hx => hdark ⟨g, hg, hx⟩)
        have hnext := hcirc.next_lt hgap (by
          rwa [hcirc.represents.lit_iff hcirc.target])
        linarith
    refine ⟨a', hrep', htimings, hfollows.target, ?_, ?_⟩
    · rw [hsince]
      exact hbegun
    · exact fun hdark => Or.inl (hbegun hdark)

/-- The layer has a target on the axis `x`. -/
def Keeps (x : Axis) (s : SafetyLayer) : Prop :=
  s.t.Cycles ∧ ∃ a, s.Represents a ∧ ∃ h, a.sub.target? = some h ∧ h.axis = x

theorem Keeps.tick (hkeeps : s.Keeps x) (htick : e.isTick = true)
    (hkeep : s.KeepsAxis now e) : (s.apply e).Keeps x := by
  obtain ⟨ht, a, hrep, h, htarget, haxis⟩ := hkeeps
  refine ⟨(apply_t s e).symm ▸ ht, ?_⟩
  obtain ⟨a', hrep', hmove⟩ := hrep.follows (R := fun g h => h.axis = g.axis) ht
    ⟨h, htarget⟩ htick fun _ _ he hsub hends => hkeep.axis_eq hrep he hsub hends
  refine ⟨a', hrep', ?_⟩
  rcases hmove with ⟨rfl, _⟩ | ⟨hfollows, _⟩
  · exact ⟨h, htarget, haxis⟩
  · exact hfollows.axis_eq ⟨h, htarget, haxis⟩

theorem Keeps.of_lit {y : Axis} (hkeeps : s.Keeps x)
    (hlit : y.Lit s.getCurrentPhase) : y = x := by
  obtain ⟨_, a, hrep, h, htarget, haxis⟩ := hkeeps
  obtain ⟨g, hsub, hg⟩ := (hrep.lit_iff ⟨h, htarget⟩).mp hlit
  rw [hsub] at htarget
  obtain rfl : g = h := Option.some.inj htarget
  exact hg.symm.trans haxis

end Circulates

/-- Each axis has a green in every window of `width` seconds of the run. -/
def ServesBoth (width : ℚ) (s : SafetyLayer) (start : TimePoint)
    (events : List Event) : Prop :=
  ∀ (x : Axis) a, start ≤ a → a + width ≤ machine.endTime start events →
    machine.Shows (fun s => x.Lit s.getCurrentPhase) a (a + width) s start events

/-- No call of the run brings a green on another axis than the one at its
start. -/
def ServesOne (s : SafetyLayer) (events : List Event) : Prop :=
  ∀ earlier later, events = earlier ++ later → ∀ x : Axis,
    x.Lit (machine.run s earlier).getCurrentPhase → x.Lit s.getCurrentPhase

section Runs

variable {s : SafetyLayer} {g : Green} {b start : TimePoint} {events : List Event}

theorem servesBoth_of_letsCross {t : Timings} (ht : t.Cycles) (pace : t.Pace)
    (htimings : s.t = t) (hrep : s.Represents ⟨.green g, b⟩) (hb : b ≤ start)
    (hpolled : machine.Admits (Polled pace.gap) s start events)
    (hcross : machine.Admits LetsCross s start events) :
    ServesBoth pace.turnaround s start events := by
  intro x a ha hend
  have hlag : 0 ≤ (SubPhase.green g).lag pace x := SubPhase.lag_nonneg rfl
  have hwidth : 0 ≤ pace.turnaround := by
    have hround : (SubPhase.green g).lag pace x + (SubPhase.green g).hold pace +
        pace.gap ≤ pace.turnaround := SubPhase.lag_add_hold_le rfl
    have hhold : 0 < (SubPhase.green g).hold pace := SubPhase.hold_pos rfl
    linarith [pace.gap_nonneg]
  have hinit : Circulates pace x s start start ⟨.green g, b⟩ := by
    refine ⟨hrep, htimings, ⟨g, rfl⟩, fun _ => ?_, fun _ => Or.inl ?_⟩
    · simp only
      linarith
    · simp only
      linarith
  refine Machine.Admits.shows
    (I := fun s now lit => ∃ a, Circulates pace x s now lit a)
    ?_ ?_ ?_ ⟨_, hinit⟩ (hpolled.and hcross) (Or.inl ha)
    (ha.trans (by linarith)) hend (by linarith)
  · rintro s now lit e ⟨a, hcirc⟩ ⟨hpolled, hcross⟩
    exact hcirc.tick ht hpolled hcross
  · rintro s now lit ⟨a, hcirc⟩ hdark
    exact hcirc.next_lt_turnaround (by simpa using pace.gap_nonneg) hdark
  · rintro s now lit e ⟨a, hcirc⟩ ⟨hpolled, _⟩ hdark
    exact hcirc.next_lt_turnaround hpolled.2.1 hdark

theorem servesOne_of_keepsAxis (ht : s.t.Cycles)
    (hrep : s.Represents ⟨.green g, b⟩) {d : ℚ}
    (hpolled : machine.Admits (Polled d) s start events)
    (hkeep : machine.Admits KeepsAxis s start events) : ServesOne s events := by
  rintro earlier later rfl x hlit
  have hinit : s.Keeps g.axis := ⟨ht, _, hrep, g, rfl, rfl⟩
  have hkeeps := Machine.Admits.invariant (I := fun s _ => s.Keeps g.axis)
    (fun s t e hkeeps hok => hkeeps.tick hok.1.2.2 hok.2)
    (machine.admits_append.mp (hpolled.and hkeep)).1 hinit
  have hx : x = g.axis := Keeps.of_lit hkeeps hlit
  exact (hrep.lit_iff ⟨g, rfl⟩).mpr ⟨g, rfl, hx.symm⟩

end Runs

/-- The cross street after a green that any calls may have led to.  A tick that
ends the green leads to it unless it asks for the other green of the same axis;
polled ticks of which none does so serve both axes again and again, and if every
one that ends a green does, no other axis is ever served. -/
theorem cross_street_served (t : Timings) (ht : t.Cycles) (major : MajorApproach)
    (b : TimePoint) (before : List Event)
    (hbefore : machine.Clocked (.boot t major b) b before)
    (hgreen : (machine.run (.boot t major b) before).state = .green) :
    (∀ desired now,
      (machine.run (.boot t major b) before).EndsGreen desired now →
        ((machine.run (.boot t major b) before).Opposes desired now ↔
          ¬ StaysOnAxis
            (machine.run (.boot t major b) before).getCurrentPhase desired)) ∧
      ∀ start, machine.endTime b before ≤ start → ∀ (pace : t.Pace) events,
        machine.Admits (Polled pace.gap) (machine.run (.boot t major b) before)
          start events →
        (machine.Admits LetsCross (machine.run (.boot t major b) before) start
            events →
          ServesBoth pace.turnaround (machine.run (.boot t major b) before) start
            events) ∧
        (machine.Admits KeepsAxis (machine.run (.boot t major b) before) start
            events →
          ServesOne (machine.run (.boot t major b) before) events) := by
  have htimings : (machine.run (.boot t major b) before).t = t := run_t _ before
  have hsince := Clocked.phaseStart_le hbefore
  obtain ⟨⟨p, since⟩, hrep⟩ := run_represents t major b before
  obtain ⟨g, hsub⟩ := hrep.eq_green hgreen
  obtain rfl : p = .green g := hsub
  have hcycles : (machine.run (.boot t major b) before).t.Cycles :=
    htimings.symm ▸ ht
  refine ⟨fun desired now hends => ?_, fun start hstart pace events hpolled =>
    ⟨fun hcross => ?_, fun hkeep => ?_⟩⟩
  · exact opposes_iff hrep hcycles.maxGreen hcycles.yellow hcycles.allRed hends
  · rw [hrep.since] at hsince
    exact servesBoth_of_letsCross ht pace htimings hrep (hsince.trans hstart)
      hpolled hcross
  · exact servesOne_of_keepsAxis hcycles hrep hpolled hkeep

/-- A minute of the north-south green and three minutes more of requests for it,
at most half a minute apart. -/
def northSouthAsked : List Event :=
  [62, 65, 67, 97, 100, 102, 132, 162, 165, 167, 197, 200, 202, 232, 262, 281].map
    fun now => ⟨.validate .greenNS, now⟩

def halfMinutePace : Timings.Pace {} where
  green := maxGreenS
  amber := yellowS
  clearance := allRedS
  gap := 30
  green_pos := by decide +kernel
  amber_pos := by decide +kernel
  clearance_pos := by decide +kernel
  gap_nonneg := by decide +kernel
  green_read := by decide +kernel
  amber_read := by decide +kernel
  clearance_read := by decide +kernel

theorem cross_street_served_polled :
    ServesBoth halfMinutePace.turnaround
      (machine.run (.boot {} .ns 0) minuteOfGreen) 61 northSouthAsked :=
  ((cross_street_served {} ⟨by decide +kernel, by decide +kernel,
    by decide +kernel⟩ .ns 0 minuteOfGreen (by decide +kernel)
    (by decide +kernel)).2 61 (by decide +kernel) halfMinutePace northSouthAsked
    (by decide +kernel)).1 (by decide +kernel)

/-- Alternating between the two greens of one axis ends each of them before the
watchdog does, and never brings the other axis. -/
example : machine.Admits KeepsAxis (.boot {} .ns 0) 0
    [⟨.validate .greenNS, 2⟩, ⟨.validate .greenNSLeft, 7⟩,
      ⟨.validate .greenNSLeft, 10⟩, ⟨.validate .greenNSLeft, 12⟩,
      ⟨.validate .greenNS, 17⟩, ⟨.validate .greenNS, 20⟩,
      ⟨.validate .greenNS, 22⟩, ⟨.validate .greenNSLeft, 27⟩] := by
  decide +kernel

end SafetyLayer

end Semaforo
