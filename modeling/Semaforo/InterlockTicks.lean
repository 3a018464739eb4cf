import Semaforo.InterlockDisplay
import Semaforo.InterlockRefinement
import Mathlib.Tactic

/-!
# When a tick ends a sub-phase

A sub-phase is ripe when its schedule has run out or its watchdog fires.  A
tick that leaves a sub-phase in place found it unripe, with two exceptions: a
clearance that waits for its first green request, and the terminal flash.  The
bounds at the end turn "not ripe at the last tick" into a bound on the instant
of the next one.
-/

namespace Semaforo

theorem scheduleTrusted_iff {x : FloatValue ℚ} :
    scheduleTrusted x ↔ ∃ q, x = .fin q ∧ 0 ≤ q ∧ q ≤ maxGreenS :=
  FloatValue.withinRange_iff

theorem scheduleTrusted_flashClearance (t : Timings) :
    scheduleTrusted (.fin t.flashClearance) :=
  scheduleTrusted_iff.mpr
    ⟨_, rfl, t.flashClearance_pos.le, t.flashClearance_le⟩

namespace SubPhase

def Ripe (t : Timings) (el : ℚ) (p : SubPhase) : Prop :=
  p.schedule t ≤ .fin el ∨ Overdue t el p

theorem lt_maxGreenS_of_not_ripe {t : Timings} {x : ℚ} {p : SubPhase}
    (hripe : ¬ p.Ripe t (floatSeconds x)) : x < maxGreenS := by
  by_contra hx
  have hread : maxGreenS ≤ floatSeconds x := by
    refine le_trans ?_ (floatSeconds_mono (not_lt.mp hx))
    decide +kernel
  by_cases htrusted : scheduleTrusted (p.schedule t)
  · exact hripe (Or.inl (FloatValue.le_fin_of_le htrusted.2.2 hread))
  · exact hripe (Or.inr ⟨htrusted, timedOut_of_maxGreenS_le hread p⟩)

/-- A time at which the schedule has run out is past all those found unripe. -/
theorem lt_of_not_ripe {t : Timings} {x c : ℚ} {p : SubPhase}
    (hripe : ¬ p.Ripe t (floatSeconds x))
    (hdue : p.schedule t ≤ .fin (floatSeconds c)) : x < c := by
  by_contra hx
  exact hripe (Or.inl (FloatValue.le_fin_of_le hdue (floatSeconds_mono (not_lt.mp hx))))

theorem not_overdue_of_trusted {t : Timings} {el : ℚ} {p : SubPhase}
    (htrusted : scheduleTrusted (p.schedule t)) : ¬ Overdue t el p :=
  fun hover => hover.1 htrusted

/-- The sub-phases that a tick may leave in place although they are ripe. -/
def Rests : SubPhase → Prop
  | clearance none => True
  | flash => True
  | _ => False

theorem Stays.not_ripe {t : Timings} {desired : Phase} {el : ℚ}
    {p q : SubPhase} (hstays : p.Stays t desired el q) (hrests : ¬ q.Rests) :
    ¬ q.Ripe t el := by
  cases hstays with
  | green hlive hmax _ => exact not_or.mpr ⟨hmax, hlive⟩
  | amber hlive hnot => exact not_or.mpr ⟨hnot, hlive⟩
  | @clearance c hlive hnot =>
      refine not_or.mpr ⟨fun hdue => ?_, hlive⟩
      rw [hnot hdue] at hrests
      exact hrests trivial
  | ring hlive hnot => exact not_or.mpr ⟨hnot, hlive⟩
  | flashClearance hnot =>
      refine not_or.mpr ⟨fun hdue => hnot (FloatValue.fin_le_fin.mp hdue), ?_⟩
      exact not_overdue_of_trusted (scheduleTrusted_flashClearance t)
  | flash => exact absurd trivial hrests

theorem Stays.not_rests {t : Timings} {el : ℚ} {p q : SubPhase} {g : Green}
    (hstays : p.Stays t g.phase el q) (hflash : q ≠ .flash) : ¬ q.Rests := by
  cases hstays with
  | @clearance c _ _ =>
      have hsome : Green.ofPhase? g.phase = some g :=
        Green.ofPhase?_eq_some_iff.mpr rfl
      cases c <;> simp [commit, hsome, Rests]
  | flash => exact absurd rfl hflash
  | green _ _ _ => exact id
  | amber _ _ => exact id
  | ring _ _ => exact id
  | flashClearance _ => exact id

theorem Leaves.ripe {t : Timings} {desired : Phase} {el : ℚ}
    {p q : SubPhase} (hleaves : p.Leaves t desired el q)
    (hgreen : ∀ g, p ≠ .green g) : p.Ripe t el := by
  cases hleaves with
  | greenOver _ _ => exact absurd rfl (hgreen _)
  | amberOver _ hdue => exact Or.inl hdue
  | clearanceOver _ hdue _ => exact Or.inl hdue
  | ringOver hdue => exact Or.inl hdue
  | escalate _ hover _ => exact Or.inr hover
  | flashOver hdue => exact Or.inl (FloatValue.fin_le_fin.mpr hdue)

theorem Stays.mode_eq {t : Timings} {desired : Phase} {el : ℚ}
    {p q : SubPhase} (hstays : p.Stays t desired el q) : q.mode = p.mode := by
  cases hstays <;> rfl

end SubPhase

namespace Interlock

/-- At the instant `now` of the last call, the sub-phase has only just begun
or was found unripe. -/
def OnTime (t : Timings) (a : Interlock) (now : TimePoint) : Prop :=
  now = a.since ∨ ¬ a.sub.Ripe t (floatSeconds (now - a.since))

theorem OnTime.le_schedule {t : Timings} {a : Interlock}
    {now next : TimePoint} {d c : ℚ} (hontime : a.OnTime t now)
    (hgap : next - now ≤ d) (hc : 0 ≤ c)
    (hdue : a.sub.schedule t ≤ .fin (floatSeconds c)) :
    next - a.since ≤ c + d := by
  rcases hontime with hnow | hripe
  · rw [← hnow]
    linarith
  · have := SubPhase.lt_of_not_ripe hripe hdue
    linarith

theorem OnTime.lt_schedule {t : Timings} {a : Interlock}
    {now next : TimePoint} {d c : ℚ} (hontime : a.OnTime t now)
    (hgap : next - now ≤ d) (hc : 0 < c)
    (hdue : a.sub.schedule t ≤ .fin (floatSeconds c)) :
    next < a.since + (c + d) := by
  rcases hontime with hnow | hripe
  · rw [← hnow]
    linarith
  · have := SubPhase.lt_of_not_ripe hripe hdue
    linarith

theorem Step.amber_over {t : Timings} (hyellow : scheduleTrusted t.yellow)
    {o : Axis} {h : Green} {b now : TimePoint} {desired : Phase} {a : Interlock}
    (hdue : t.yellow ≤ .fin (floatSeconds (now - b)))
    (hstep : Step t ⟨.amber o h, b⟩ ⟨.validate desired, now⟩ a) :
    a = ⟨.clearance (some h), now⟩ := by
  cases hstep with
  | leave hleaves =>
      cases hleaves with
      | amberOver _ _ => rfl
      | escalate _ hover _ => exact absurd hyellow hover.1
  | stay hstays =>
      cases hstays with
      | amber _ hnot => exact absurd hdue hnot

theorem Step.clearance_over {t : Timings} (hred : scheduleTrusted t.allRed)
    {c : Option Green} {h : Green} {b now : TimePoint} {desired : Phase}
    {a : Interlock} (hcommit : commit c desired = some h)
    (hdue : t.allRed ≤ .fin (floatSeconds (now - b)))
    (hstep : Step t ⟨.clearance c, b⟩ ⟨.validate desired, now⟩ a) :
    a = ⟨.green h, now⟩ := by
  cases hstep with
  | leave hleaves =>
      cases hleaves with
      | clearanceOver _ _ htarget =>
          rw [hcommit, Option.some.injEq] at htarget
          rw [htarget]
      | escalate _ hover _ => exact absurd hred hover.1
  | stay hstays =>
      cases hstays with
      | clearance _ hnot =>
          rw [hnot hdue] at hcommit
          cases hcommit

theorem Step.ring_over {t : Timings} {i : Fin 6} {b now : TimePoint}
    {desired : Phase} {a : Interlock}
    (hdue : t.ringSchedule i ≤ .fin (floatSeconds (now - b)))
    (hstep : Step t ⟨.ring i, b⟩ ⟨.validate desired, now⟩ a) :
    a = ⟨.ring (i + 1), now⟩ := by
  cases hstep with
  | leave hleaves =>
      cases hleaves with
      | ringOver _ => rfl
      | escalate _ _ hnot => exact absurd hdue (hnot rfl)
  | stay hstays =>
      cases hstays with
      | ring _ hnot => exact absurd hdue hnot

theorem Step.onTime {t : Timings} {a a' : Interlock} {desired : Phase}
    {now : TimePoint} (hstep : Step t a ⟨.validate desired, now⟩ a')
    (hrests : ¬ a'.sub.Rests) : a'.OnTime t now := by
  cases hstep with
  | leave _ => exact Or.inl rfl
  | stay hstays => exact Or.inr (hstays.not_ripe hrests)

end Interlock

def Event.isTick (e : Event) : Bool :=
  match e.call with
  | .validate _ => true
  | _ => false

theorem Event.eq_validate_of_isTick {e : Event} (htick : e.isTick = true) :
    ∃ desired, e = ⟨.validate desired, e.now⟩ := by
  obtain ⟨call, now⟩ := e
  cases call with
  | validate desired => exact ⟨desired, rfl⟩
  | setEmergencyMode on => simp [isTick] at htick
  | reset => simp [isTick] at htick

namespace SafetyLayer

theorem Clocked.phaseStart_le {t : Timings} {major : MajorApproach}
    {b : TimePoint} {events : List Event}
    (hclock : machine.Clocked (boot t major b) b events) :
    (machine.run (boot t major b) events).phaseStart ≤
      machine.endTime b events := by
  have hinv := Machine.Admits.invariant
    (I := fun s now => s.phaseStart ≤ now ∧ ∃ a, s.Represents a)
    (by
      rintro s now e ⟨hle, a, hrep⟩ hnow
      obtain ⟨a', hstep, hrep'⟩ := apply_refines hrep e
      refine ⟨?_, a', hrep'⟩
      change (s.apply e).phaseStart ≤ e.now
      rcases hstep.since_eq with hsame | hrestart
      · rw [hrep'.since, hsame, ← hrep.since]
        exact le_trans hle hnow
      · rw [hrep'.since, hrestart])
    hclock ⟨le_refl b, _, boot_represents t major b⟩
  exact hinv.1

/-- A tick no later than `d` seconds after the call before it. -/
def Polled (d : ℚ) (_ : SafetyLayer) (now : TimePoint) (e : Event) : Prop :=
  now ≤ e.now ∧ e.now - now ≤ d ∧ e.isTick = true

instance (d : ℚ) (s : SafetyLayer) (now : TimePoint) (e : Event) :
    Decidable (Polled d s now e) :=
  inferInstanceAs (Decidable
    (now ≤ e.now ∧ e.now - now ≤ d ∧ e.isTick = true))

end SafetyLayer

end Semaforo
