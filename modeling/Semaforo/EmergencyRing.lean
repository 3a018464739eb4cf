import Semaforo.TerminalFlash
import Mathlib.Tactic

/-!
# The emergency ring never starves an approach (C-4)

Once the ring is engaged and its three timings are trusted, every polled tick
either keeps the current entry or moves to the next one, at the latest `d`
seconds after the layer's clock has read its schedule.  Each green therefore
comes back within one lap.
-/

namespace Semaforo

structure Timings.RingTrusted (t : Timings) : Prop where
  emergencyGreen : scheduleTrusted t.emergencyGreen
  yellow : scheduleTrusted t.yellow
  allRed : scheduleTrusted t.allRed

theorem Timings.RingTrusted.ringSchedule {t : Timings} (ht : t.RingTrusted)
    (i : Fin 6) : scheduleTrusted (t.ringSchedule i) :=
  ringSchedule_of ht.allRed ht.emergencyGreen ht.yellow i

theorem ringEntry_succ_ne (i : Fin 6) :
    ringEntry (i + 1 : Fin 6) ≠ ringEntry i := by
  fin_cases i <;> simp [ringEntry, emergencyRing]

namespace SafetyLayer

/-- The ring is at entry `i` since `since`, on time at the last call. -/
structure Ringing (t : Timings) (s : SafetyLayer) (now : TimePoint)
    (i : Fin 6) (since : TimePoint) : Prop where
  represents : s.Represents ⟨.ring i, since⟩
  timings : s.t = t
  onTime : Interlock.OnTime t ⟨.ring i, since⟩ now

theorem Ringing.tick {t : Timings} (ht : t.RingTrusted) {d : ℚ}
    {s : SafetyLayer} {now since : TimePoint} {i : Fin 6} {e : Event}
    (hringing : Ringing t s now i since) (hpoll : Polled d s now e) :
    Ringing t (s.apply e) e.now i since ∨
      (t.ringSchedule i ≤ .fin (floatSeconds (e.now - since)) ∧
        Ringing t (s.apply e) e.now (i + 1) e.now) := by
  obtain ⟨desired, he⟩ := Event.eq_validate_of_isTick hpoll.2.2
  obtain ⟨a', hstep, hrep⟩ := apply_refines hringing.represents e
  have htimings : (s.apply e).t = t := (apply_t s e).trans hringing.timings
  rw [he, hringing.timings] at hstep
  cases hstep with
  | leave hleaves =>
      right
      cases hleaves with
      | ringOver hdue => exact ⟨hdue, hrep, htimings, Or.inl rfl⟩
      | escalate _ hover _ => exact absurd (ht.ringSchedule i) hover.1
  | stay hstays =>
      left
      cases hstays with
      | ring hlive hnot =>
          exact ⟨hrep, htimings, Or.inr (not_or.mpr ⟨hnot, hlive⟩)⟩

theorem Represents.mode_eq_normal {s : SafetyLayer} {a : Interlock}
    (hrep : s.Represents a) (hlive : ¬ s.Flashing)
    (hoff : s.inEmergency = false) : a.sub.mode = .normal := by
  cases hmode : a.sub.mode with
  | normal => rfl
  | ring =>
      have hon : s.inEmergency = true := hrep.emergency_of_ring hmode
      rw [hoff] at hon
      contradiction
  | flashing => exact absurd (hrep.flashing_iff.mpr hmode) hlive

theorem setEmergencyMode_ringing {s : SafetyLayer} {a : Interlock}
    (hrep : s.Represents a) (hlive : ¬ s.Flashing)
    (hoff : s.inEmergency = false) (now : TimePoint) :
    Ringing s.t (s.setEmergencyMode true now) now 0 now := by
  have hmode := hrep.mode_eq_normal hlive hoff
  obtain ⟨a', hstep, hrep'⟩ := setEmergencyMode_refines hrep true now
  cases hstep with
  | engage _ =>
      refine ⟨hrep', ?_, Or.inl rfl⟩
      exact apply_t s ⟨.setEmergencyMode true, now⟩
  | ignore hignores =>
      rcases hignores with h | ⟨_, h⟩ | ⟨h, _⟩
      · rw [hmode] at h
        cases h
      · cases h
      · rw [hmode] at h
        cases h

/-! ## The cycle -/

def RingPeriod (t : Timings) (f : SafetyLayer) (b : TimePoint)
    (s : SafetyLayer) (now : TimePoint) : Prop :=
  ∃ i : Fin 6, Ringing t s now i b ∧ b ≤ now ∧ f.ringIdx = i ∧
    f.applied = ringEntry i ∧ f.t = t

theorem Ringing.period {t : Timings} {s : SafetyLayer} {now : TimePoint}
    {i : Fin 6} (hringing : Ringing t s now i now) :
    RingPeriod t s now s now :=
  ⟨i, hringing, le_refl now, hringing.represents.agrees.2,
    hringing.represents.applied, hringing.timings⟩

theorem RingPeriod.tick {t : Timings} (ht : t.RingTrusted) {d : ℚ}
    {f s : SafetyLayer} {b now : TimePoint} {e : Event}
    (hperiod : RingPeriod t f b s now) (hpoll : Polled d s now e) :
    ((s.apply e).applied = f.applied ∧ RingPeriod t f b (s.apply e) e.now) ∨
      ((s.apply e).applied ≠ f.applied ∧
        (s.apply e).ringIdx = (f.ringIdx + 1) % kRingSize ∧
        Stopwatch.float.reaches (f.ringDuration f.applied) (e.now - b) ∧
        RingPeriod t (s.apply e) e.now (s.apply e) e.now) := by
  obtain ⟨i, hringing, hstarted, hidx, happlied, htimings⟩ := hperiod
  have hlasted : b ≤ e.now := hstarted.trans hpoll.1
  rcases hringing.tick ht hpoll with hstay | ⟨hdue, hnext⟩
  · refine Or.inl ⟨?_, i, hstay, hlasted, hidx, happlied, htimings⟩
    exact hstay.represents.applied.trans happlied.symm
  · refine Or.inr ⟨?_, ?_, ?_, hnext.period⟩
    · rw [hnext.represents.applied, happlied]
      exact ringEntry_succ_ne i
    · rw [hnext.represents.agrees.2, hidx, Fin.val_add]
      rfl
    · rw [happlied, ringDuration_ringEntry, htimings]
      exact Stopwatch.float_reaches (sub_nonneg.mpr hlasted) hdue

theorem RingPeriod.within_ringDuration {t : Timings} (ht : t.RingTrusted) {d : ℚ}
    {f s : SafetyLayer} {b now next : TimePoint}
    (hperiod : RingPeriod t f b s now) (hgap : next - now ≤ d) :
    Stopwatch.float.within (f.ringDuration f.applied) (next - b - d) := by
  obtain ⟨i, hringing, _, hidx, happlied, htimings⟩ := hperiod
  obtain ⟨q, hq, hnonneg, _⟩ :=
    scheduleTrusted_iff.mp (ht.ringSchedule i)
  rw [happlied, ringDuration_ringEntry, htimings, hq]
  refine Stopwatch.float_within hnonneg fun c hc hread => ?_
  have hdue : t.ringSchedule i ≤ .fin (floatSeconds c) :=
    hq ▸ FloatValue.fin_le_fin.mpr hread
  have hlate := hringing.onTime.le_schedule hgap hc hdue
  simp only at hlate
  linarith

theorem ringPeriod_stretchInvariant {t : Timings} (ht : t.RingTrusted)
    (d : ℚ) :
    machine.StretchInvariant getCurrentPhase (Polled d) (RingPeriod t) where
  keep := by
    intro f b s now e hperiod hpoll hkey
    rcases hperiod.tick ht hpoll with ⟨_, hnext⟩ | ⟨hne, _⟩
    · exact hnext
    · exact absurd hkey hne
  turn := by
    intro f b s now e hperiod hpoll hkey
    rcases hperiod.tick ht hpoll with ⟨heq, _⟩ | ⟨_, _, _, hnext⟩
    · exact absurd heq hkey
    · exact hnext

end SafetyLayer

/-! ## The service window -/

/-- Times in which the three schedules of the ring run out. -/
structure RingLengths (watch : Stopwatch) (t : Timings) where
  red : ℚ
  green : ℚ
  amber : ℚ
  red_nonneg : 0 ≤ red
  green_nonneg : 0 ≤ green
  amber_nonneg : 0 ≤ amber
  allRed : watch.reaches t.allRed red
  emergencyGreen : watch.reaches t.emergencyGreen green
  yellow : watch.reaches t.yellow amber

namespace RingLengths

variable {watch : Stopwatch} {t : Timings} (l : RingLengths watch t) {d : ℚ}

def entry : Fin 6 → ℚ
  | 0 => l.red
  | 1 => l.green
  | 2 => l.amber
  | 3 => l.red
  | 4 => l.green
  | 5 => l.amber

def lap (d : ℚ) : ℚ := 2 * (l.red + l.green + l.amber) + 6 * d

/-- The latest beginning of each entry, counted from the last moment of entry
`1`, when every entry may overrun its length by `d`. -/
def arrears (d : ℚ) : Fin 6 → ℚ
  | 0 => 2 * l.amber + l.red + l.green + 4 * d
  | 1 => 2 * l.amber + 2 * l.red + l.green + 5 * d
  | 2 => 0
  | 3 => l.amber + d
  | 4 => l.amber + l.red + 2 * d
  | 5 => l.amber + l.red + l.green + 3 * d

theorem reaches_ringSchedule (i : Fin 6) :
    watch.reaches (t.ringSchedule i) (l.entry i) := by
  fin_cases i
  · exact l.allRed
  · exact l.emergencyGreen
  · exact l.yellow
  · exact l.allRed
  · exact l.emergencyGreen
  · exact l.yellow

theorem entry_nonneg (i : Fin 6) : 0 ≤ l.entry i := by
  fin_cases i
  · exact l.red_nonneg
  · exact l.green_nonneg
  · exact l.amber_nonneg
  · exact l.red_nonneg
  · exact l.green_nonneg
  · exact l.amber_nonneg

theorem arrears_succ {j : Fin 6} (hj : j ≠ 1) :
    l.arrears d j + (l.entry j + d) = l.arrears d (j + 1) := by
  fin_cases j
  · simp [arrears, entry]
    ring
  · exact absurd rfl hj
  · simp [arrears, entry]
  · simp [arrears, entry]
    ring
  · simp [arrears, entry]
    ring
  · simp [arrears, entry]
    ring

theorem arrears_nonneg (hd : 0 ≤ d) (j : Fin 6) : 0 ≤ l.arrears d j := by
  have hred := l.red_nonneg
  have hgreen := l.green_nonneg
  have hamber := l.amber_nonneg
  fin_cases j <;> simp only [arrears] <;> positivity

theorem arrears_lt_lap (hd : 0 < d) (j : Fin 6) : l.arrears d j < l.lap d := by
  have hred := l.red_nonneg
  have hgreen := l.green_nonneg
  have hamber := l.amber_nonneg
  fin_cases j <;> simp only [arrears, lap] <;> linarith

theorem entry_add {c : Fin 6} (hc : c + c = 0) (i : Fin 6) :
    l.entry (i + c) = l.entry i := by
  have hcases : c = 0 ∨ c = 3 := by
    revert hc
    revert c
    decide
  rcases hcases with rfl | rfl
  · simp
  · fin_cases i <;> rfl

end RingLengths

theorem ringEntry_eq_iff {c : Fin 6} (hc : c + c = 0) (i : Fin 6) :
    ringEntry i = ringEntry (1 + c : Fin 6) ↔ i + c = 1 := by
  revert hc i
  revert c
  decide

namespace SafetyLayer

/-- Entry `1 + c` was last shown at `lit`, and the ring is no further behind
than its arrears allow. -/
def Due {t : Timings} (l : RingLengths .float t) (d : ℚ) (c : Fin 6)
    (s : SafetyLayer) (now lit : TimePoint) : Prop :=
  ∃ i since, Ringing t s now i since ∧ since ≤ now ∧
    since ≤ lit + l.arrears d (i + c)

section Service

variable {t : Timings} {l : RingLengths .float t} {d : ℚ} {c : Fin 6}
  {s : SafetyLayer} {now lit : TimePoint}

theorem Ringing.overrun (l : RingLengths .float t) {since next : TimePoint}
    {i : Fin 6} (hringing : Ringing t s now i since)
    (hgap : next - now ≤ d) : next ≤ since + (l.entry i + d) := by
  have hlate := hringing.onTime.le_schedule hgap (l.entry_nonneg i)
    (l.reaches_ringSchedule i).1
  simp only at hlate
  linarith

theorem Ringing.shows_iff (hc : c + c = 0) {since : TimePoint} {i : Fin 6}
    (hringing : Ringing t s now i since) :
    s.applied = ringEntry (1 + c : Fin 6) ↔ i + c = 1 := by
  have happlied : s.applied = ringEntry i := hringing.represents.applied
  rw [happlied]
  exact ringEntry_eq_iff hc i

theorem Due.next_le (hc : c + c = 0) {next : TimePoint}
    (hdue : Due l d c s now lit) (hgap : next - now ≤ d)
    (hdark : s.applied ≠ ringEntry (1 + c : Fin 6)) :
    ∃ j : Fin 6, next ≤ lit + l.arrears d j := by
  obtain ⟨i, since, hringing, _, hsince⟩ := hdue
  have hi : i + c ≠ 1 := fun hi => hdark ((hringing.shows_iff hc).mpr hi)
  have hover := hringing.overrun l hgap
  rw [← l.entry_add hc] at hover
  refine ⟨i + c + 1, ?_⟩
  rw [← l.arrears_succ hi]
  linarith

theorem Due.tick (ht : t.RingTrusted) (hc : c + c = 0) (hd : 0 ≤ d)
    {e : Event} (hdue : Due l d c s now lit) (hpoll : Polled d s now e) :
    Due l d c (s.apply e) e.now
      (if s.applied = ringEntry (1 + c : Fin 6) then e.now else lit) := by
  obtain ⟨i, since, hringing, hstarted, hsince⟩ := hdue
  have hnow : since ≤ e.now := hstarted.trans hpoll.1
  rcases hringing.tick ht hpoll with hstay | ⟨_, hnext⟩
  · refine ⟨i, since, hstay, hnow, ?_⟩
    split_ifs
    · have := l.arrears_nonneg hd (i + c)
      linarith
    · exact hsince
  · refine ⟨i + 1, e.now, hnext, le_refl e.now, ?_⟩
    rw [add_right_comm]
    split_ifs with hshown
    · have := l.arrears_nonneg hd (i + c + 1)
      linarith
    · have hi : i + c ≠ 1 := fun hi => hshown ((hringing.shows_iff hc).mpr hi)
      have hover := hringing.overrun l hpoll.2.1
      rw [← l.entry_add hc] at hover
      rw [← l.arrears_succ hi]
      linarith

theorem polled_endTime_le {events : List Event} (hd : d ≤ 0)
    (hrun : machine.Admits (Polled d) s now events) :
    machine.endTime now events ≤ now := by
  refine hrun.invariant (I := fun _ t => t ≤ now) ?_ (le_refl now)
  intro s t e hle hpoll
  have := hpoll.2.1
  change e.now ≤ now
  linarith

theorem Ringing.shows (ht : t.RingTrusted) (l : RingLengths .float t)
    (hc : c + c = 0) (hd : 0 ≤ d) {events : List Event} {a : TimePoint}
    (hringing : Ringing t s now 0 now)
    (hrun : machine.Admits (Polled d) s now events)
    (hstart : now ≤ a) (hproper : a < a + l.lap d)
    (hend : a + l.lap d ≤ machine.endTime now events) :
    machine.Shows (fun s => s.getCurrentPhase = ringEntry (1 + c : Fin 6))
      a (a + l.lap d) s now events := by
  have hpos : 0 < d := by
    by_contra hnot
    have := polled_endTime_le (not_lt.mp hnot) hrun
    linarith
  have hlt : ∀ s now lit next, Due l d c s now lit → next - now ≤ d →
      s.applied ≠ ringEntry (1 + c : Fin 6) → next < lit + l.lap d := by
    intro s now lit next hdue hgap hdark
    obtain ⟨j, hnext⟩ := hdue.next_le hc hgap hdark
    have := l.arrears_lt_lap hpos j
    linarith
  have hinit : Due l d c s now now := by
    refine ⟨0, now, hringing, le_refl now, ?_⟩
    have := l.arrears_nonneg hd (0 + c)
    linarith
  refine Machine.Admits.shows (I := Due l d c) ?_ ?_ ?_ hinit hrun
    (Or.inl hstart) ?_ hend hproper.le
  · intro s now lit e hdue hpoll
    exact hdue.tick ht hc hd hpoll
  · intro s now lit hdue hdark
    exact hlt s now lit now hdue (by simpa using hd) hdark
  · intro s now lit e hdue hpoll hdark
    exact hlt s now lit e.now hdue hpoll.2.1 hdark
  · linarith

end Service

end SafetyLayer

/-- The law of the emergency ring for an episode that begins in `s` at `b`: the
display repeats the cycle, every entry is held for its schedule and is over `d`
after it, as `watch` measures it, and every window as long as a lap shows both
through greens. -/
structure RingLaw (watch : Stopwatch) (t : Timings) (d : ℚ) (s : SafetyLayer)
    (b : TimePoint) (events : List Event) : Prop where
  cycle : ∀ i x, (s.displayed b events)[i]? = some x →
    x.phase = ringEntry (i % kRingSize)
  held : ∀ before x y after, s.displayed b events = before ++ x :: y :: after →
    watch.reaches (x.first.ringDuration x.phase) x.duration
  released : ∀ x ∈ s.displayed b events,
    watch.within (x.first.ringDuration x.phase) (x.duration - d)
  configured : ∀ x ∈ s.displayed b events, x.first.t = t
  served : ∀ (l : RingLengths watch t) (a : TimePoint), b ≤ a → 0 < l.lap d →
    a + l.lap d ≤ SafetyLayer.machine.endTime b events →
      SafetyLayer.machine.Shows (fun s => s.getCurrentPhase = .greenNS)
          a (a + l.lap d) s b events ∧
        SafetyLayer.machine.Shows (fun s => s.getCurrentPhase = .greenEW)
          a (a + l.lap d) s b events

namespace SafetyLayer

theorem Ringing.cycle {t : Timings} (ht : t.RingTrusted) {d : ℚ}
    {s : SafetyLayer} {b : TimePoint} {events : List Event}
    (hringing : Ringing t s b 0 b)
    (hrun : machine.Admits (Polled d) s b events) :
    (s.displayed b events).IsChain (fun x y =>
      y.first.ringIdx = (x.first.ringIdx + 1) % kRingSize ∧
        Stopwatch.float.reaches (x.first.ringDuration x.phase) x.duration) := by
  refine (ringPeriod_stretchInvariant ht d).isChain
    (R := fun f start stop f' =>
      f'.ringIdx = (f.ringIdx + 1) % kRingSize ∧
        Stopwatch.float.reaches (f.ringDuration f.applied) (stop - start))
    ?_ hringing.period hrun
  intro f start s now e hperiod hpoll hkey
  rcases hperiod.tick ht hpoll with ⟨heq, _⟩ | ⟨_, hidx, hdue, _⟩
  · exact absurd heq hkey
  · exact ⟨hidx, hdue⟩

theorem Ringing.periods {t : Timings} (ht : t.RingTrusted) {d : ℚ}
    (hd : 0 ≤ d) {s : SafetyLayer} {b : TimePoint} {events : List Event}
    (hringing : Ringing t s b 0 b)
    (hrun : machine.Admits (Polled d) s b events) :
    ∀ x ∈ s.displayed b events,
      x.phase = ringEntry x.first.ringIdx ∧ x.first.t = t ∧
        Stopwatch.float.within (x.first.ringDuration x.phase) (x.duration - d) := by
  have hshown : ∀ f start s now, RingPeriod t f start s now →
      f.applied = ringEntry f.ringIdx ∧ f.t = t := by
    rintro f start s now ⟨i, _, _, hidx, happlied, htimings⟩
    exact ⟨by rw [hidx]; exact happlied, htimings⟩
  refine (ringPeriod_stretchInvariant ht d).forall_mem
    (Q := fun f start stop => f.applied = ringEntry f.ringIdx ∧ f.t = t ∧
      Stopwatch.float.within (f.ringDuration f.applied) (stop - start - d))
    ?_ ?_ hringing.period hrun
  · intro f start s now hperiod
    obtain ⟨happlied, htimings⟩ := hshown f start s now hperiod
    exact ⟨happlied, htimings,
      hperiod.within_ringDuration ht (by simpa using hd)⟩
  · intro f start s now e hperiod hpoll _
    obtain ⟨happlied, htimings⟩ := hshown f start s now hperiod
    exact ⟨happlied, htimings, hperiod.within_ringDuration ht hpoll.2.1⟩

end SafetyLayer

/-- The last nanosecond of the all-red at the entry of the ring is rounded away. -/
theorem ringLaw_broken_by_rounding :
    ¬ ∀ (t : Timings) (major : MajorApproach) (b : TimePoint) (before : List Event)
      (start : TimePoint) (d : ℚ) (events : List Event),
      let s := SafetyLayer.machine.run (.boot t major b) before
      t.RingTrusted → ¬ s.Flashing → s.inEmergency = false → 0 ≤ d →
        SafetyLayer.machine.Admits (SafetyLayer.Polled d)
          (s.setEmergencyMode true start) start events →
          RingLaw .exact t d (s.setEmergencyMode true start) start events := by
  intro hall
  have hlaw := hall {} .ns 0 [⟨.validate .greenEW, 2⟩] 4 4
    [⟨.validate .greenEW, 6 - 1 / 10 ^ 9⟩]
    ⟨by decide +kernel, by decide +kernel, by decide +kernel⟩
    (by decide +kernel) (by decide +kernel) (by decide +kernel) (by decide +kernel)
  let ring := (SafetyLayer.machine.run (.boot {} .ns 0)
    [⟨.validate .greenEW, 2⟩]).setEmergencyMode true 4
  let green := ring.apply ⟨.validate .greenEW, 6 - 1 / 10 ^ 9⟩
  have hheld := hlaw.held [] ⟨ring, 4, 6 - 1 / 10 ^ 9⟩
    ⟨green, 6 - 1 / 10 ^ 9, 6 - 1 / 10 ^ 9⟩ [] (by decide +kernel)
  have hduration : ring.ringDuration ring.getCurrentPhase = .fin allRedS := by
    decide +kernel
  simp only [Stopwatch.exact, Period.phase] at hheld
  rw [hduration, FloatValue.fin_le_fin] at hheld
  norm_num [Period.duration, allRedS] at hheld

/-- From any reachable state off the flash path and out of emergency, the ring
that is engaged at `start` and polled at least every `d` seconds obeys its law,
whatever is requested. -/
theorem emergency_ring_serves (t : Timings) (ht : t.RingTrusted)
    (major : MajorApproach) (b : TimePoint) (before : List Event)
    (hlive : ¬ (SafetyLayer.machine.run (.boot t major b) before).Flashing)
    (hoff : (SafetyLayer.machine.run (.boot t major b) before).inEmergency =
      false)
    (start : TimePoint) (d : ℚ) (hd : 0 ≤ d) (events : List Event)
    (hrun : SafetyLayer.machine.Admits (SafetyLayer.Polled d)
      ((SafetyLayer.machine.run (.boot t major b) before).setEmergencyMode
        true start) start events) :
    RingLaw .float t d
      ((SafetyLayer.machine.run (.boot t major b) before).setEmergencyMode
        true start) start events := by
  obtain ⟨a, hrep⟩ := SafetyLayer.run_represents t major b before
  have hringing := SafetyLayer.setEmergencyMode_ringing hrep hlive hoff start
  rw [SafetyLayer.run_t] at hringing
  change SafetyLayer.Ringing t _ start 0 start at hringing
  have hchain := hringing.cycle ht hrun
  have hperiods := hringing.periods ht hd hrun
  refine ⟨?_, ?_, ?_, ?_, ?_⟩
  · intro i x hx
    obtain ⟨hphase, _⟩ := hperiods x (List.mem_of_getElem? hx)
    rw [hphase]
    refine congrArg ringEntry ?_
    refine Machine.counter_of_isChain
      (fun x : Period => x.first.ringIdx) (hchain.imp fun _ _ h => h.1) ?_ i x hx
    intro y hy
    obtain ⟨stop, hhead⟩ := Machine.head?_timelineFrom SafetyLayer.machine
      SafetyLayer.getCurrentPhase _ _ start start events
    rw [SafetyLayer.displayed, Machine.timeline, hhead] at hy
    obtain rfl : _ = y := by simpa using hy
    exact hringing.represents.agrees.2
  · intro earlier x y after hsplit
    exact (timeline_isChain_split hchain hsplit).2
  · exact fun x hx => (hperiods x hx).2.2
  · exact fun x hx => (hperiods x hx).2.1
  · intro l a' hstart hlap hend
    have hproper : a' < a' + l.lap d := by linarith
    exact ⟨hringing.shows ht l (c := 0) rfl hd hrun hstart hproper hend,
      hringing.shows ht l (c := 3) rfl hd hrun hstart hproper hend⟩

/-- The hypotheses hold of a short episode engaged under a green. -/
theorem emergency_ring_serves_engaged :
    RingLaw .float {} 20
      ((SafetyLayer.machine.run (.boot {} .ns 0)
        [⟨.validate .greenEW, 2⟩]).setEmergencyMode true 4) 4
      [⟨.validate .greenEW, 6⟩, ⟨.validate .allRed, 26⟩,
        ⟨.validate .greenEW, 29⟩, ⟨.validate .greenEW, 40⟩] :=
  emergency_ring_serves {} ⟨by decide +kernel, by decide +kernel,
    by decide +kernel⟩ .ns 0 _ (by decide +kernel) (by decide +kernel) 4 20
    (by decide +kernel) _ (by decide +kernel)

end Semaforo
