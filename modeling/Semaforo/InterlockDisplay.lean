import Semaforo.Interlock
import Mathlib.Tactic

/-!
# How the displayed phase of the interlock changes

Every change of the displayed phase, short of a reset, is one of five: a green
turns to its own amber, a green is cut to all-red, an amber ends in all-red, an
all-red releases a green, or the clearance before the terminal flash ends.  A
cut or an early end has a cause that can be seen on the two sub-phases: the
mode was switched, or the schedule proved corrupt.
-/

namespace Semaforo

namespace Interlock

def display (major : MajorApproach) (a : Interlock) : Phase :=
  a.sub.display major

/-- The emergency mode was switched on or off between the two states. -/
def Switched (a a' : Interlock) : Prop :=
  (a.sub.mode = .normal ∧ a'.sub.mode = .ring) ∨
    (a.sub.mode = .ring ∧ a'.sub.mode = .normal)

/-- The ways in which the displayed phase of a state held for a reading of `el`
seconds can change. -/
inductive Change (t : Timings) (major : MajorApproach) (a a' : Interlock)
    (el : ℚ) : Prop where
  | toAmber (hgreen : isGreen (a.display major) = true)
      (hamber : a'.display major = yellowFor (a.display major))
      (hmode : a'.sub.mode = a.sub.mode) (hlive : a.sub.mode ≠ .flashing)
  | greenCut (hgreen : isGreen (a.display major) = true)
      (hred : a'.display major = .allRed)
      (hcause : Switched a a' ∨ a'.sub = .flashClearance)
  | amberEnds (hamber : isYellow (a.display major) = true)
      (hred : a'.display major = .allRed)
      (hcause : Switched a a' ∨ a'.sub = .flashClearance ∨
        t.yellow ≤ .fin el)
  | toGreen (hred : a.display major = .allRed)
      (hgreen : isGreen (a'.display major) = true)
      (hlive : a.sub.mode ≠ .flashing) (hheld : t.allRed ≤ .fin el)
  | toFlash (hclearance : a.sub = .flashClearance) (hflash : a'.sub = .flash)

theorem ringEntry_cases (t : Timings) (i : Fin 6) :
    (ringEntry i = .allRed ∧ t.ringSchedule i = t.allRed ∧
        isGreen (ringEntry (i + 1 : Fin 6)) = true) ∨
      (isGreen (ringEntry i) = true ∧
        t.ringSchedule i = t.emergencyGreen ∧
        ringEntry (i + 1 : Fin 6) = yellowFor (ringEntry i)) ∨
      (isYellow (ringEntry i) = true ∧ t.ringSchedule i = t.yellow ∧
        ringEntry (i + 1 : Fin 6) = .allRed) := by
  fin_cases i
  · exact Or.inl ⟨rfl, rfl, rfl⟩
  · exact Or.inr (Or.inl ⟨rfl, rfl, rfl⟩)
  · exact Or.inr (Or.inr ⟨rfl, rfl, rfl⟩)
  · exact Or.inl ⟨rfl, rfl, rfl⟩
  · exact Or.inr (Or.inl ⟨rfl, rfl, rfl⟩)
  · exact Or.inr (Or.inr ⟨rfl, rfl, rfl⟩)

theorem change_of_leaves {t : Timings} {major : MajorApproach}
    {desired : Phase} {el : ℚ} {p q : SubPhase} {b now : TimePoint}
    (hleaves : p.Leaves t desired el q)
    (hne : q.display major ≠ p.display major) :
    Change t major ⟨p, b⟩ ⟨q, now⟩ el := by
  cases hleaves with
  | @greenOver g h hlive hyields =>
      refine .toAmber ?_ ?_ rfl ?_
      · simp [display, SubPhase.display]
      · simp [display, SubPhase.display]
      · simp [SubPhase.mode]
  | @amberOver o h hlive hdue =>
      refine .amberEnds ?_ rfl (Or.inr (Or.inr hdue))
      simp [display, SubPhase.display]
  | @clearanceOver c h hlive hdue hcommit =>
      refine .toGreen rfl ?_ ?_ hdue
      · simp [display, SubPhase.display]
      · simp [SubPhase.mode]
  | @ringOver i hdue =>
      rcases ringEntry_cases t i with
        ⟨hred, hsched, hgreen⟩ | ⟨hgreen, _, hamber⟩ | ⟨hyellow, hsched, hred⟩
      · exact .toGreen hred hgreen (by simp [SubPhase.mode]) (hsched ▸ hdue)
      · exact .toAmber hgreen hamber rfl (by simp [SubPhase.mode])
      · exact .amberEnds hyellow hred (Or.inr (Or.inr (hsched ▸ hdue)))
  | escalate hmode hover hring =>
      cases p with
      | green g =>
          refine .greenCut ?_ rfl (Or.inr rfl)
          simp [display, SubPhase.display]
      | amber o h =>
          refine .amberEnds ?_ rfl (Or.inr (Or.inl rfl))
          simp [display, SubPhase.display]
      | clearance c => exact absurd rfl hne
      | ring i =>
          rcases ringEntry_cases t i with ⟨hred, _⟩ | ⟨hgreen, _⟩ | ⟨hyellow, _⟩
          · exact absurd hred.symm hne
          · exact .greenCut hgreen rfl (Or.inr rfl)
          · exact .amberEnds hyellow rfl (Or.inr (Or.inl rfl))
      | flashClearance => exact absurd rfl hmode
      | flash => exact absurd rfl hmode
  | flashOver hdue => exact .toFlash rfl rfl

theorem change_of_switch {t : Timings} {major : MajorApproach} {el : ℚ}
    {p q : SubPhase} {b now : TimePoint}
    (hswitch : Switched ⟨p, b⟩ ⟨q, now⟩)
    (hred : q.display major = .allRed)
    (hne : q.display major ≠ p.display major) :
    Change t major ⟨p, b⟩ ⟨q, now⟩ el := by
  rw [hred] at hne
  cases p with
  | green g =>
      refine .greenCut ?_ hred (Or.inl hswitch)
      simp [display, SubPhase.display]
  | amber o h =>
      refine .amberEnds ?_ hred (Or.inl hswitch)
      simp [display, SubPhase.display]
  | clearance c => exact absurd rfl hne
  | ring i =>
      rcases ringEntry_cases t i with ⟨hentry, _⟩ | ⟨hgreen, _⟩ | ⟨hyellow, _⟩
      · exact absurd hentry.symm hne
      · exact .greenCut hgreen hred (Or.inl hswitch)
      · exact .amberEnds hyellow hred (Or.inl hswitch)
  | flashClearance => simp [Switched, SubPhase.mode] at hswitch
  | flash => simp [Switched, SubPhase.mode] at hswitch

theorem display_of_stays {t : Timings} {major : MajorApproach}
    {desired : Phase} {el : ℚ} {p q : SubPhase}
    (hstays : p.Stays t desired el q) :
    q.display major = p.display major := by
  cases hstays <;> rfl

/-- Every change of the displayed phase restarts the timer, and is one of the
five. -/
theorem Step.change {t : Timings} {major : MajorApproach}
    {a a' : Interlock} {e : Event} (hstep : Step t a e a')
    (hcall : e.call ≠ .reset)
    (hne : a'.display major ≠ a.display major) :
    Change t major a a' (floatSeconds (e.now - a.since)) ∧ a'.since = e.now := by
  cases hstep with
  | leave hleaves => exact ⟨change_of_leaves hleaves hne, rfl⟩
  | stay hstays => exact absurd (display_of_stays hstays) hne
  | engage hmode =>
      exact ⟨change_of_switch (Or.inl ⟨hmode, rfl⟩) rfl hne, rfl⟩
  | release =>
      exact ⟨change_of_switch (Or.inr ⟨rfl, rfl⟩) rfl hne, rfl⟩
  | ignore hignores => exact absurd rfl hne
  | reset => exact absurd rfl hcall

theorem Step.since_eq {t : Timings} {a a' : Interlock} {e : Event}
    (hstep : Step t a e a') : a'.since = a.since ∨ a'.since = e.now := by
  cases hstep with
  | leave _ => exact Or.inr rfl
  | stay _ => exact Or.inl rfl
  | engage _ => exact Or.inr rfl
  | release => exact Or.inr rfl
  | ignore _ => exact Or.inl rfl
  | reset => exact Or.inr rfl

theorem Step.mode_eq {t : Timings} {major : MajorApproach}
    {a a' : Interlock} {e : Event} (hstep : Step t a e a')
    (hred : a'.display major ≠ .allRed) : a'.sub.mode = a.sub.mode := by
  cases hstep with
  | leave hleaves =>
      cases hleaves with
      | escalate _ _ _ => exact absurd rfl hred
      | greenOver _ _ => rfl
      | amberOver _ _ => rfl
      | clearanceOver _ _ _ => rfl
      | ringOver _ => rfl
      | flashOver _ => rfl
  | stay hstays => cases hstays <;> rfl
  | engage _ => exact absurd rfl hred
  | release => exact absurd rfl hred
  | ignore _ => rfl
  | reset => exact absurd rfl hred

theorem Step.flashing {t : Timings} {a a' : Interlock} {e : Event}
    (hstep : Step t a e a') (hcall : e.call ≠ .reset)
    (hmode : a.sub.mode = .flashing) : a'.sub.mode = .flashing := by
  cases hstep with
  | leave hleaves =>
      cases hleaves with
      | flashOver _ => rfl
      | escalate hnot _ _ => exact absurd hmode hnot
      | greenOver _ _ => simp [SubPhase.mode] at hmode
      | amberOver _ _ => simp [SubPhase.mode] at hmode
      | clearanceOver _ _ _ => simp [SubPhase.mode] at hmode
      | ringOver _ => simp [SubPhase.mode] at hmode
  | stay hstays => cases hstays <;> exact hmode
  | engage hnormal => rw [hnormal] at hmode; contradiction
  | release => simp [SubPhase.mode] at hmode
  | ignore _ => exact hmode
  | reset => exact absurd rfl hcall

end Interlock

end Semaforo
