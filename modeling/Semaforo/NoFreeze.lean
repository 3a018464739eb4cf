import Semaforo.ConflictClearance
import Semaforo.InterlockTicks
import Mathlib.Tactic

/-!
# No freeze under any configuration

While greens are requested at least every `d` seconds, no sub-phase short of the
terminal flash outlives `maxGreenS` by more than `d`, whatever the five
configured timings are.  A sub-phase that a tick leaves in place was not ripe,
and every sub-phase is ripe by `maxGreenS`, which the layer's clock does not read as
less: a trusted schedule has run out by then and an untrusted one has met its
watchdog.
-/

namespace Semaforo

def Event.requestsGreen (e : Event) : Bool :=
  match e.call with
  | .validate desired => isGreen desired
  | _ => false

theorem Event.exists_of_requestsGreen {e : Event}
    (hgreen : e.requestsGreen = true) :
    ∃ g : Green, e = ⟨.validate g.phase, e.now⟩ := by
  obtain ⟨call, now⟩ := e
  cases call with
  | validate desired =>
      obtain ⟨g, rfl⟩ := Green.exists_of_isGreen hgreen
      exact ⟨g, rfl⟩
  | setEmergencyMode on => simp [requestsGreen] at hgreen
  | reset => simp [requestsGreen] at hgreen

namespace SafetyLayer

def subPhaseKey (s : SafetyLayer) : State × Phase × ℕ :=
  (s.state, s.applied, s.ringIdx)

def Requested (d : ℚ) (_ : SafetyLayer) (now : TimePoint) (e : Event) :
    Prop :=
  now ≤ e.now ∧ e.now - now ≤ d ∧ e.requestsGreen = true

instance (d : ℚ) (s : SafetyLayer) (now : TimePoint) (e : Event) :
    Decidable (Requested d s now e) :=
  inferInstanceAs (Decidable
    (now ≤ e.now ∧ e.now - now ≤ d ∧ e.requestsGreen = true))

theorem subPhaseKey_ne_of_leaves {s s' : SafetyLayer} {p q : SubPhase}
    {b b' : TimePoint} {t : Timings} {desired : Phase} {el : ℚ}
    (hrep : s.Represents ⟨p, b⟩) (hrep' : s'.Represents ⟨q, b'⟩)
    (hleaves : p.Leaves t desired el q) :
    s'.subPhaseKey ≠ s.subPhaseKey := by
  intro hkey
  have hstate : q.state = p.state := by
    have : s'.state = s.state := congrArg Prod.fst hkey
    rw [← hrep.state, ← hrep'.state, this]
  cases hleaves with
  | @ringOver i hdue =>
      have hidx : s.ringIdx = i := hrep.agrees.2
      have hidx' : s'.ringIdx = (i + 1 : Fin 6) := hrep'.agrees.2
      have hsame : s'.ringIdx = s.ringIdx := congrArg (fun k => k.2.2) hkey
      rw [hidx, hidx'] at hsame
      have := Fin.val_injective hsame
      simp at this
  | escalate hmode _ _ =>
      cases p with
      | flashClearance => exact hmode rfl
      | flash => exact hmode rfl
      | _ => cases hstate
  | greenOver _ _ => cases hstate
  | amberOver _ _ => cases hstate
  | clearanceOver _ _ _ => cases hstate
  | flashOver _ => cases hstate

/-- The open sub-phase `f`, in place at `b`, has only just been met or was found
unripe by the last tick. -/
structure Watched (t : Timings) (f : SafetyLayer) (b : TimePoint)
    (s : SafetyLayer) (now : TimePoint) (a : Interlock) : Prop where
  represents : s.Represents a
  timings : s.t = t
  key : s.subPhaseKey = f.subPhaseKey
  since : a.since = f.phaseStart
  since_le : a.since ≤ b
  started : b ≤ now
  onTime : a.sub ≠ .flash → now = b ∨
    ¬ a.sub.Ripe t (floatSeconds (now - a.since))

theorem Watched.open {t : Timings} {s : SafetyLayer} {now : TimePoint}
    {a : Interlock} (hrep : s.Represents a) (htimings : s.t = t)
    (hsince : a.since ≤ now) : Watched t s now s now a where
  represents := hrep
  timings := htimings
  key := rfl
  since := hrep.since.symm
  since_le := hsince
  started := le_refl now
  onTime := fun _ => Or.inl rfl

theorem Watched.le_max {t : Timings} {f s : SafetyLayer}
    {b now next : TimePoint} {a : Interlock} {d : ℚ}
    (hwatched : Watched t f b s now a) (hgap : next - now ≤ d)
    (hstate : f.state ≠ .flash) :
    next ≤ max b (f.phaseStart + maxGreenS) + d := by
  have hsub : a.sub ≠ .flash := by
    intro hsub
    have hkey : s.state = f.state := congrArg Prod.fst hwatched.key
    rw [hwatched.represents.state, hsub] at hkey
    exact hstate hkey.symm
  have hb := le_max_left b (f.phaseStart + maxGreenS)
  have hlong := le_max_right b (f.phaseStart + maxGreenS)
  rcases hwatched.onTime hsub with hnow | hripe
  · linarith
  · have := SubPhase.lt_maxGreenS_of_not_ripe hripe
    rw [hwatched.since] at this
    linarith

theorem Watched.le_maxGreenS {t : Timings} {f s : SafetyLayer}
    {b now next : TimePoint} {a : Interlock} {d : ℚ}
    (hwatched : Watched t f b s now a) (hgap : next - now ≤ d)
    (hstate : f.state ≠ .flash) : next - b ≤ maxGreenS + d := by
  have hmax := hwatched.le_max hgap hstate
  have hb : max b (f.phaseStart + maxGreenS) ≤ b + maxGreenS := by
    have hsince := hwatched.since_le
    rw [hwatched.since] at hsince
    refine max_le ?_ ?_
    · norm_num [maxGreenS]
    · linarith
  linarith

theorem Watched.tick {t : Timings} {f s : SafetyLayer} {b now : TimePoint}
    {a : Interlock} {d : ℚ} {e : Event} (hwatched : Watched t f b s now a)
    (hrequest : Requested d s now e) :
    ∃ a', ((s.apply e).subPhaseKey = f.subPhaseKey →
        Watched t f b (s.apply e) e.now a') ∧
      Watched t (s.apply e) e.now (s.apply e) e.now a' := by
  obtain ⟨g, he⟩ := Event.exists_of_requestsGreen hrequest.2.2
  obtain ⟨a', hstep, hrep⟩ := apply_refines hwatched.represents e
  have htimings : (s.apply e).t = t := (apply_t s e).trans hwatched.timings
  rw [he, hwatched.timings] at hstep
  refine ⟨a', ?_⟩
  cases hstep with
  | @leave p q since now desired hleaves =>
      refine ⟨fun hkey => ?_, .open hrep htimings (le_refl e.now)⟩
      have hne := subPhaseKey_ne_of_leaves hwatched.represents hrep hleaves
      exact absurd (hkey.trans hwatched.key.symm) hne
  | @stay p q since now desired hstays =>
      have hsince : since ≤ e.now :=
        (hwatched.since_le.trans hwatched.started).trans hrequest.1
      refine ⟨fun hkey => ?_, .open hrep htimings hsince⟩
      exact {
        represents := hrep
        timings := htimings
        key := hkey
        since := hwatched.since
        since_le := hwatched.since_le
        started := hwatched.started.trans hrequest.1
        onTime := fun hflash =>
          Or.inr (hstays.not_ripe (hstays.not_rests hflash)) }

theorem watched_stretchInvariant (t : Timings) (d : ℚ) :
    machine.StretchInvariant subPhaseKey (Requested d)
      (fun f b s now => ∃ a, Watched t f b s now a) where
  keep := by
    rintro f b s now e ⟨a, hwatched⟩ hrequest hkey
    obtain ⟨a', hkeep, _⟩ := hwatched.tick hrequest
    exact ⟨a', hkeep hkey⟩
  turn := by
    rintro f b s now e ⟨a, hwatched⟩ hrequest _
    obtain ⟨a', _, hopen⟩ := hwatched.tick hrequest
    exact ⟨a', hopen⟩

end SafetyLayer

/-- Every sub-phase of the timeline other than the terminal flash is left no
later than `maxGreenS + d` after it began; the first one may have begun before
the timeline does. -/
def NoFreeze (d : ℚ) (timeline : List Period) : Prop :=
  ∀ x ∈ timeline, x.first.state ≠ .flash →
    x.stop ≤ max x.start (x.first.phaseStart + maxGreenS) + d ∧
      x.stop - x.start ≤ maxGreenS + d

/-- Whatever the timings are and whatever was called before, a run of green
requests at most `d` apart never freezes. -/
theorem no_freeze (t : Timings) (major : MajorApproach) (b : TimePoint)
    (before : List Event)
    (hbefore : SafetyLayer.machine.Clocked (.boot t major b) b before)
    (start : TimePoint)
    (hstart : SafetyLayer.machine.endTime b before ≤ start)
    (d : ℚ) (hd : 0 ≤ d) (events : List Event)
    (hrun : SafetyLayer.machine.Admits (SafetyLayer.Requested d)
      (SafetyLayer.machine.run (.boot t major b) before) start events) :
    NoFreeze d (SafetyLayer.machine.timeline SafetyLayer.subPhaseKey
      (SafetyLayer.machine.run (.boot t major b) before) start events) := by
  obtain ⟨a, hrep⟩ := SafetyLayer.run_represents t major b before
  have htimings := SafetyLayer.run_t (.boot t major b) before
  have hsince : a.since ≤ start := by
    rw [← hrep.since]
    exact (SafetyLayer.Clocked.phaseStart_le hbefore).trans hstart
  refine (SafetyLayer.watched_stretchInvariant t d).forall_mem
    (Q := fun f start stop => f.state ≠ .flash →
      stop ≤ max start (f.phaseStart + maxGreenS) + d ∧
        stop - start ≤ maxGreenS + d)
    ?_ ?_ ⟨a, .open hrep htimings hsince⟩ hrun
  · rintro f b s now ⟨a, hwatched⟩ hstate
    have hgap : now - now ≤ d := by simpa using hd
    exact ⟨hwatched.le_max hgap hstate, hwatched.le_maxGreenS hgap hstate⟩
  · rintro f b s now e ⟨a, hwatched⟩ hrequest _ hstate
    exact ⟨hwatched.le_max hrequest.2.1 hstate,
      hwatched.le_maxGreenS hrequest.2.1 hstate⟩

/-- The hypotheses hold of a corrupt ring that is polled every four seconds
after an idle spell in all-red. -/
theorem no_freeze_corrupt_ring :
    NoFreeze 4 (SafetyLayer.machine.timeline SafetyLayer.subPhaseKey
      (SafetyLayer.machine.run
        (.boot { yellow := .nan, emergencyGreen := .posInf } .ns 0)
        [⟨.validate .allRed, 90⟩, ⟨.setEmergencyMode true, 100⟩]) 100
      [⟨.validate .greenEW, 104⟩, ⟨.validate .greenEW, 108⟩,
        ⟨.validate .greenNS, 112⟩, ⟨.validate .greenNS, 116⟩]) :=
  no_freeze { yellow := .nan, emergencyGreen := .posInf } .ns 0 _
    (by decide +kernel) 100 (by decide +kernel) 4 (by decide +kernel) _
    (by decide +kernel)

end Semaforo
