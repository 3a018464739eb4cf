import Semaforo.InterlockRefinement
import Mathlib.Tactic

/-!
# The representation invariant of the safety layer

Which combinations of the flags, the applied phase and the ring index can
occur.  Everything is read off the sub-phase that the layer represents, so no
assumption on the timings or on the clock is needed.
-/

namespace Semaforo

namespace SafetyLayer

/-- What each state says about the other fields. -/
structure Consistent (s : SafetyLayer) : Prop where
  green : s.state = .green →
    isGreen s.applied = true ∧ s.applied = s.targetGreen ∧
      s.targetValid = true ∧ s.emergency = false
  yellow : s.state = .yellow →
    (s.applied = .yellowNS ∨ s.applied = .yellowEW) ∧
      s.targetValid = true ∧ isGreen s.targetGreen = true ∧
      s.emergency = false
  allRed : s.state = .allRed → s.applied = .allRed ∧ s.emergency = false
  ring : s.state = .emergency →
    s.emergency = true ∧ s.ringIdx < kRingSize ∧
      s.applied = ringEntry s.ringIdx
  engaged : s.emergency = true →
    s.state = .emergency ∨ s.state = .flashClearance ∨ s.state = .flash
  flashClearance : s.state = .flashClearance → s.applied = .allRed
  flash : s.state = .flash → s.applied = flashPhaseFor s.major

/-- The dispatch of a tick without the branches that the source marks as
unreachable: `none` where `step_normal` would find one of the three states that
`validate` routes elsewhere.  Each of the three remaining cases returns, so the
tail behind the `switch` is not reached either. -/
def liveDispatch (s : SafetyLayer) (desired : Phase) (now : TimePoint) :
    Option (ValidatedPhase × SafetyLayer) :=
  if s.state = .flashClearance ∨ s.state = .flash then some (s.stepFlash now)
  else if s.emergency then some (s.stepEmergency now)
  else
    match s.state with
    | .green => some (s.stepGreen desired now)
    | .yellow => some (s.stepYellow desired now)
    | .allRed => some (s.stepAllRed desired now)
    | .emergency => none
    | .flashClearance => none
    | .flash => none

/-- `step_flash` takes the pattern of the major approach as it is: its guard
never has to replace it. -/
def GuardIdle (s : SafetyLayer) : Prop := isFlash (flashPhaseFor s.major) = true

theorem Represents.consistent {s : SafetyLayer} {a : Interlock}
    (hrep : s.Represents a) : s.Consistent := by
  obtain ⟨p, b⟩ := a
  have hstate : s.state = p.state := hrep.state
  have happlied : s.applied = p.display s.major := hrep.applied
  cases p with
  | green g =>
      have hcommitted : s.Committed (some g) := hrep.agrees
      have htarget : s.targetGreen = g.phase := hcommitted.target g rfl
      constructor <;> intro h
      · refine ⟨?_, happlied.trans htarget.symm, hcommitted.valid,
          hcommitted.emergency⟩
        rw [happlied]
        exact g.isGreen_phase
      all_goals simp [hstate, SubPhase.state, hcommitted.emergency] at h
  | amber o g =>
      have hcommitted : s.Committed (some g) := hrep.agrees
      have htarget : s.targetGreen = g.phase := hcommitted.target g rfl
      have hamber : s.applied = .yellowNS ∨ s.applied = .yellowEW := by
        rw [happlied]
        cases o
        · exact Or.inl rfl
        · exact Or.inr rfl
      constructor <;> intro h
      case yellow =>
        refine ⟨hamber, hcommitted.valid, ?_, hcommitted.emergency⟩
        rw [htarget]
        exact g.isGreen_phase
      all_goals simp [hstate, SubPhase.state, hcommitted.emergency] at h
  | clearance c =>
      have hcommitted : s.Committed c := hrep.agrees
      constructor <;> intro h
      case allRed => exact ⟨happlied, hcommitted.emergency⟩
      all_goals simp [hstate, SubPhase.state, hcommitted.emergency] at h
  | ring i =>
      obtain ⟨hemergency, hidx⟩ : s.emergency = true ∧ s.ringIdx = i :=
        hrep.agrees
      constructor <;> intro h
      case ring =>
        refine ⟨hemergency, ?_, ?_⟩
        · rw [hidx]
          exact i.isLt
        · rw [happlied, hidx]
          rfl
      case engaged => exact Or.inl hstate
      all_goals simp [hstate, SubPhase.state] at h
  | flashClearance =>
      constructor <;> intro h
      case engaged => exact Or.inr (Or.inl hstate)
      case flashClearance => exact happlied
      all_goals simp [hstate, SubPhase.state] at h
  | flash =>
      constructor <;> intro h
      case engaged => exact Or.inr (Or.inr hstate)
      case flash => exact happlied
      all_goals simp [hstate, SubPhase.state] at h

theorem Consistent.liveDispatch_eq {s : SafetyLayer} (hs : s.Consistent)
    (desired : Phase) (now : TimePoint) :
    s.liveDispatch desired now = some (s.validate desired now) := by
  unfold liveDispatch validate
  by_cases hflashing : s.state = .flashClearance ∨ s.state = .flash
  · rw [if_pos hflashing, if_pos hflashing]
  rw [if_neg hflashing, if_neg hflashing]
  by_cases hemergency : s.emergency = true
  · rw [if_pos hemergency, if_pos hemergency]
  rw [if_neg hemergency, if_neg hemergency]
  unfold stepNormal
  cases hstate : s.state with
  | green => rfl
  | yellow => rfl
  | allRed => rfl
  | emergency => exact absurd (hs.ring hstate).1 hemergency
  | flashClearance => exact absurd (Or.inl hstate) hflashing
  | flash => exact absurd (Or.inr hstate) hflashing

/-- The invariant holds after every sequence of public calls, whatever the
timings and the instants are. -/
theorem representation_invariant (t : Timings) (major : MajorApproach)
    (b : TimePoint) (events : List Event) :
    (machine.run (boot t major b) events).Consistent ∧
      (machine.run (boot t major b) events).GuardIdle ∧
      ∀ (desired : Phase) (now : TimePoint),
        ((machine.run (boot t major b) events).validate desired now).1.phase =
            ((machine.run (boot t major b) events).validate desired
              now).2.getCurrentPhase ∧
          (machine.run (boot t major b) events).liveDispatch desired now =
            some ((machine.run (boot t major b) events).validate desired
              now) := by
  obtain ⟨a, hrep⟩ := run_represents t major b events
  refine ⟨hrep.consistent, isFlash_flashPhaseFor _, ?_⟩
  intro desired now
  exact ⟨validate_phase _ desired now,
    hrep.consistent.liveDispatch_eq desired now⟩

end SafetyLayer

end Semaforo
