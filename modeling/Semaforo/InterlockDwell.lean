import Semaforo.ConflictClearance
import Semaforo.InterlockTicks
import Mathlib.Tactic

/-!
# Order and dwell times of the normal interlock

Runs that consist of ticks only, polled at least every `d` seconds, with
trusted timings.  While a period is open the invariant `Dwelling` ties it to one
abstract sub-phase that is on time; each of the three moves of the normal
interlock then closes a period with its lower and its upper bound.  Both bounds
are those of the clock that the layer reads.
-/

namespace Semaforo

/-- The timings under which the normal interlock keeps its promises. -/
structure Timings.Sound (t : Timings) : Prop where
  yellow : scheduleTrusted t.yellow
  allRed : scheduleTrusted t.allRed
  maxGreen : scheduleTrusted t.maxGreen
  min_le_max : t.minGreen ≤ t.maxGreen

theorem Timings.Sound.schedule {t : Timings} (ht : t.Sound) {p : SubPhase}
    (hmode : p.mode = .normal) : scheduleTrusted (p.schedule t) := by
  cases p with
  | green g => exact ht.maxGreen
  | amber o h => exact ht.yellow
  | clearance c => exact ht.allRed
  | ring i => simp [SubPhase.mode] at hmode
  | flashClearance => simp [SubPhase.mode] at hmode
  | flash => simp [SubPhase.mode] at hmode

theorem SubPhase.Leaves.normal {t : Timings} (ht : t.Sound)
    {desired : Phase} {el : ℚ} {p q : SubPhase}
    (hleaves : p.Leaves t desired el q) (hmode : p.mode = .normal) :
    (∃ g h, p = .green g ∧ q = .amber g.axis h ∧ t.minGreen ≤ .fin el) ∨
      (∃ o h, p = .amber o h ∧ q = .clearance (some h) ∧
        t.yellow ≤ .fin el) ∨
      (∃ c h, p = .clearance c ∧ q = .green h ∧ commit c desired = some h ∧
        t.allRed ≤ .fin el) := by
  cases hleaves with
  | @greenOver g h _ hyields =>
      refine Or.inl ⟨g, h, rfl, rfl, ?_⟩
      cases hyields with
      | forced hmax => exact FloatValue.le_trans ht.min_le_max hmax
      | requested _ hmin _ _ => exact hmin
  | @amberOver o h _ hdue => exact Or.inr (Or.inl ⟨o, h, rfl, rfl, hdue⟩)
  | @clearanceOver c h _ hdue hcommit =>
      exact Or.inr (Or.inr ⟨c, h, rfl, rfl, hcommit, hdue⟩)
  | ringOver _ => simp [SubPhase.mode] at hmode
  | escalate _ hover _ => exact absurd (ht.schedule hmode) hover.1
  | flashOver _ => simp [SubPhase.mode] at hmode

namespace SafetyLayer

/-- The open period `f`, begun at `b`, is one sub-phase of the normal interlock,
with its timer and with the target it was committed to at the beginning. -/
structure Dwelling (t : Timings) (f : SafetyLayer) (b : TimePoint)
    (s : SafetyLayer) (now : TimePoint) (a : Interlock) : Prop where
  represents : s.Represents a
  timings : s.t = t
  shown : f.applied = s.applied
  since : a.since = b
  started : b ≤ now
  normal : a.sub.mode = .normal
  onTime : a.sub ≠ .clearance none → a.OnTime t now
  target : f.targetValid = true →
    ∃ h, a.sub.target? = some h ∧ f.targetGreen = h.phase
  valid : f.applied ≠ .allRed → f.targetValid = true

theorem boot_dwelling (t : Timings) (major : MajorApproach) (b : TimePoint) :
    Dwelling t (boot t major b) b (boot t major b) b
      ⟨.clearance none, b⟩ where
  represents := boot_represents t major b
  timings := rfl
  shown := rfl
  since := rfl
  started := le_refl b
  normal := rfl
  onTime := fun hsub => absurd rfl hsub
  target := fun hvalid => by cases hvalid
  valid := fun hred => absurd rfl hred

theorem Dwelling.shown_eq {t : Timings} {f s : SafetyLayer}
    {b now : TimePoint} {a : Interlock} (hdwell : Dwelling t f b s now a) :
    f.applied = a.sub.display s.major := by
  rw [hdwell.shown, hdwell.represents.applied]

theorem Dwelling.stay {t : Timings} {f s : SafetyLayer} {b now : TimePoint}
    {p q : SubPhase} {e : Event} {desired : Phase}
    (hdwell : Dwelling t f b s now ⟨p, b⟩) (hclock : now ≤ e.now)
    (hstays : p.Stays t desired (floatSeconds (e.now - b)) q)
    (hrep : (s.apply e).Represents ⟨q, b⟩) :
    Dwelling t f b (s.apply e) e.now ⟨q, b⟩ where
  represents := hrep
  timings := (apply_t s e).trans hdwell.timings
  shown := by
    rw [hdwell.shown_eq, hrep.applied, apply_major]
    exact (Interlock.display_of_stays hstays).symm
  since := rfl
  started := hdwell.started.trans hclock
  normal := hstays.mode_eq.trans hdwell.normal
  onTime := by
    intro hsub
    refine Or.inr (hstays.not_ripe fun hrests => ?_)
    have hnormal : q.mode = .normal := hstays.mode_eq.trans hdwell.normal
    cases q with
    | clearance c =>
        cases c with
        | none => exact hsub rfl
        | some h => exact hrests
    | flash => cases hnormal
    | green g => exact hrests
    | amber o h => exact hrests
    | ring i => exact hrests
    | flashClearance => exact hrests
  target := by
    intro hvalid
    obtain ⟨h, htarget, hphase⟩ := hdwell.target hvalid
    refine ⟨h, ?_, hphase⟩
    cases hstays with
    | clearance _ _ =>
        simp only [SubPhase.target?] at htarget ⊢
        simp [commit, htarget]
    | _ => exact htarget
  valid := hdwell.valid

theorem Dwelling.leave {t : Timings} {f s : SafetyLayer} {b now : TimePoint}
    {a : Interlock} {q : SubPhase} {e : Event}
    (hdwell : Dwelling t f b s now a) (hmode : q.mode = .normal)
    (hrep : (s.apply e).Represents ⟨q, e.now⟩)
    (htarget : ∃ h, q.target? = some h) :
    Dwelling t (s.apply e) e.now (s.apply e) e.now ⟨q, e.now⟩ where
  represents := hrep
  timings := (apply_t s e).trans hdwell.timings
  shown := rfl
  since := rfl
  started := le_refl e.now
  normal := hmode
  onTime := fun _ => Or.inl rfl
  target := by
    intro _
    obtain ⟨h, hq⟩ := htarget
    exact ⟨h, hq, (hrep.committed hmode).target h hq⟩
  valid := by
    intro _
    obtain ⟨h, hq⟩ := htarget
    have hvalid := (hrep.committed hmode).valid
    simp only at hvalid
    rw [hvalid, hq]
    rfl

/-- The end of a period of the normal interlock: what follows it, and for how
long it has lasted at least. -/
inductive DwellLink (t : Timings) (f : SafetyLayer) (b stop : TimePoint)
    (f' : SafetyLayer) : Prop where
  | green (hgreen : isGreen f.applied = true)
      (hamber : f'.applied = yellowFor f.applied)
      (hmin : Stopwatch.float.reaches t.minGreen (stop - b))
  | amber (hyellow : isYellow f.applied = true)
      (hred : f'.applied = .allRed)
      (hmin : Stopwatch.float.reaches t.yellow (stop - b))
      (htarget : f'.targetGreen = f.targetGreen)
  | clearance (hred : f.applied = .allRed)
      (hgreen : isGreen f'.applied = true)
      (htarget : f.targetValid = true → f'.applied = f.targetGreen)
      (hmin : Stopwatch.float.reaches t.allRed (stop - b))

theorem Represents.targetValid {s : SafetyLayer} {a : Interlock} {h : Green}
    (hrep : s.Represents a) (hmode : a.sub.mode = .normal)
    (htarget : a.sub.target? = some h) : s.targetValid = true := by
  rw [(hrep.committed hmode).valid, htarget]
  rfl

theorem Dwelling.tick {t : Timings} (ht : t.Sound) {d : ℚ}
    {f s : SafetyLayer} {b now : TimePoint} {a : Interlock} {e : Event}
    (hdwell : Dwelling t f b s now a) (hpoll : Polled d s now e) :
    ((s.apply e).applied = f.applied ∧
        ∃ a', Dwelling t f b (s.apply e) e.now a') ∨
      ((s.apply e).applied ≠ f.applied ∧
        DwellLink t f b e.now (s.apply e) ∧
        (s.apply e).targetValid = true ∧
        ∃ a', Dwelling t (s.apply e) e.now (s.apply e) e.now a') := by
  obtain ⟨desired, he⟩ := Event.eq_validate_of_isTick hpoll.2.2
  obtain ⟨a', hstep, hrep⟩ := apply_refines hdwell.represents e
  obtain ⟨p, since⟩ := a
  obtain rfl : since = b := hdwell.since
  have hshown := hdwell.shown_eq
  have hlasted : 0 ≤ e.now - since := sub_nonneg.mpr (hdwell.started.trans hpoll.1)
  rw [he, hdwell.timings] at hstep
  cases hstep with
  | stay hstays =>
      have hnext := hdwell.stay hpoll.1 hstays hrep
      exact Or.inl ⟨hnext.shown.symm, _, hnext⟩
  | leave hleaves =>
      right
      have hshown' : (s.apply e).applied = _ := hrep.applied
      rcases hleaves.normal ht hdwell.normal with
        ⟨g, h, rfl, rfl, hmin⟩ | ⟨o, h, rfl, rfl, hmin⟩ |
          ⟨c, h, rfl, rfl, hcommit, hmin⟩
      · simp only [SubPhase.display] at hshown hshown'
        refine ⟨?_, .green ?_ ?_ (Stopwatch.float_reaches hlasted hmin),
          hrep.targetValid rfl rfl, _, hdwell.leave rfl hrep ⟨h, rfl⟩⟩
        · simp [hshown, hshown']
        · simp [hshown]
        · simp [hshown, hshown']
      · have hcommitted := hrep.committed rfl
        simp only [SubPhase.display] at hshown hshown'
        have hred : f.applied ≠ .allRed := by simp [hshown]
        obtain ⟨h', heq, hphase⟩ := hdwell.target (hdwell.valid hred)
        obtain rfl : h = h' := by simpa [SubPhase.target?] using heq
        refine ⟨?_, .amber ?_ hshown' (Stopwatch.float_reaches hlasted hmin) ?_,
          hrep.targetValid rfl rfl, _, hdwell.leave rfl hrep ⟨h, rfl⟩⟩
        · rw [hshown', hshown]
          exact (Axis.amber_ne_allRed o).symm
        · simp [hshown]
        · rw [hphase]
          exact hcommitted.target h rfl
      · simp only [SubPhase.display] at hshown hshown'
        refine ⟨?_, .clearance hshown ?_ ?_ (Stopwatch.float_reaches hlasted hmin),
          hrep.targetValid rfl rfl, _, hdwell.leave rfl hrep ⟨h, rfl⟩⟩
        · simp [hshown, hshown']
        · simp [hshown']
        · intro hvalid
          obtain ⟨h', heq, hphase⟩ := hdwell.target hvalid
          simp only [SubPhase.target?] at heq
          rw [heq] at hcommit
          obtain rfl : h' = h := by simpa [commit] using hcommit
          rw [hphase, hshown']

theorem dwelling_stretchInvariant {t : Timings} (ht : t.Sound) (d : ℚ) :
    machine.StretchInvariant getCurrentPhase (Polled d)
      (fun f b s now => ∃ a, Dwelling t f b s now a) where
  keep := by
    rintro f b s now e ⟨a, hdwell⟩ hpoll hkey
    rcases hdwell.tick ht hpoll with ⟨_, hnext⟩ | ⟨hne, _⟩
    · exact hnext
    · exact absurd hkey hne
  turn := by
    rintro f b s now e ⟨a, hdwell⟩ hpoll hkey
    rcases hdwell.tick ht hpoll with ⟨heq, _⟩ | ⟨_, _, _, hnext⟩
    · exact absurd heq hkey
    · exact hnext

end SafetyLayer

/-! ## The timeline of a polled run -/

def Timings.shortest (t : Timings) (p : Phase) : FloatValue ℚ :=
  if isGreen p then t.minGreen else if isYellow p then t.yellow else t.allRed

def Timings.longest (t : Timings) (p : Phase) : FloatValue ℚ :=
  if isGreen p then t.maxGreen else if isYellow p then t.yellow else t.allRed

/-- The order of the normal interlock: a green, its own amber, all-red. -/
def Follows (p q : Phase) : Prop :=
  (isGreen p = true ∧ q = yellowFor p) ∨
    (isYellow p = true ∧ q = .allRed) ∨
    (p = .allRed ∧ isGreen q = true)

/-- The timeline starts in all-red and repeats the order of the normal
interlock; after an amber and its all-red comes the green that was committed
when the amber began.  Every period that ends has been held long enough, and
every period after the first is over in time, as `watch` measures it. -/
structure NormalOrder (watch : Stopwatch) (t : Timings) (d : ℚ)
    (timeline : List Period) : Prop where
  starts : ∀ x ∈ timeline.head?, x.phase = .allRed
  follows : timeline.IsChain (fun x y => Follows x.phase y.phase)
  committed : ∀ before y r g after,
    timeline = before ++ y :: r :: g :: after → isYellow y.phase = true →
      g.phase = y.first.targetGreen
  held : ∀ before x y after, timeline = before ++ x :: y :: after →
    watch.reaches (t.shortest x.phase) x.duration
  released : ∀ before x y after, timeline = before ++ x :: y :: after →
    watch.within (t.longest y.phase) (y.duration - d)

namespace SafetyLayer

theorem DwellLink.follows {t : Timings} {f f' : SafetyLayer}
    {b stop : TimePoint} (hlink : DwellLink t f b stop f') :
    Follows f.applied f'.applied := by
  cases hlink with
  | green hgreen hamber _ => exact Or.inl ⟨hgreen, hamber⟩
  | amber hyellow hred _ _ => exact Or.inr (Or.inl ⟨hyellow, hred⟩)
  | clearance hred hgreen _ _ => exact Or.inr (Or.inr ⟨hred, hgreen⟩)

theorem DwellLink.reaches_shortest {t : Timings} {f f' : SafetyLayer}
    {b stop : TimePoint} (hlink : DwellLink t f b stop f') :
    Stopwatch.float.reaches (t.shortest f.applied) (stop - b) := by
  unfold Timings.shortest
  cases hlink with
  | green hgreen _ hmin =>
      rw [if_pos hgreen]
      exact hmin
  | amber hyellow _ hmin _ =>
      rw [not_isGreen_of_isYellow hyellow, hyellow]
      exact hmin
  | clearance hred _ _ hmin =>
      rw [hred]
      exact hmin

theorem DwellLink.committed {t : Timings} {f f' f'' : SafetyLayer}
    {b stop b' stop' : TimePoint} (hfirst : DwellLink t f b stop f')
    (hsecond : DwellLink t f' b' stop' f'') (hyellow : isYellow f.applied = true)
    (hvalid : f'.targetValid = true) : f''.applied = f.targetGreen := by
  cases hfirst with
  | amber _ hred _ htarget =>
      cases hsecond with
      | clearance _ _ hnext _ => exact (hnext hvalid).trans htarget
      | green hgreen _ _ => simp [hred, isGreen] at hgreen
      | amber hyellow' _ _ _ => simp [hred, isYellow] at hyellow'
  | green hgreen _ _ =>
      rw [not_isYellow_of_isGreen hgreen] at hyellow
      contradiction
  | clearance hred _ _ _ => simp [hred, isYellow] at hyellow

theorem Dwelling.within_longest {t : Timings} (ht : t.Sound) {d : ℚ}
    {f s : SafetyLayer} {b now next : TimePoint} {a : Interlock}
    (hdwell : Dwelling t f b s now a) (hgap : next - now ≤ d)
    (hvalid : f.targetValid = true) :
    Stopwatch.float.within (t.longest f.applied) (next - b - d) := by
  obtain ⟨p, since⟩ := a
  obtain rfl : since = b := hdwell.since
  obtain ⟨h, htarget, _⟩ := hdwell.target hvalid
  have hontime : Interlock.OnTime t ⟨p, since⟩ now := by
    refine hdwell.onTime ?_
    intro hsub
    rw [hsub] at htarget
    simp [SubPhase.target?] at htarget
  have hschedule : t.longest f.applied = p.schedule t := by
    rw [hdwell.shown_eq]
    cases p with
    | green g => simp [Timings.longest, SubPhase.display, SubPhase.schedule]
    | amber o h => simp [Timings.longest, SubPhase.display, SubPhase.schedule]
    | clearance c => rfl
    | ring i => simp [SubPhase.target?] at htarget
    | flashClearance => simp [SubPhase.target?] at htarget
    | flash => simp [SubPhase.target?] at htarget
  obtain ⟨q, hq, hnonneg, _⟩ :=
    scheduleTrusted_iff.mp (ht.schedule hdwell.normal)
  rw [hschedule, hq]
  refine Stopwatch.float_within hnonneg fun c hc hread => ?_
  have hdue : SubPhase.schedule t p ≤ .fin (floatSeconds c) :=
    hq ▸ FloatValue.fin_le_fin.mpr hread
  have hlate := hontime.le_schedule hgap hc hdue
  simp only at hlate
  linarith

end SafetyLayer

theorem singleton_ne_append_pair {x y z : Period}
    {before after : List Period} : [x] ≠ before ++ y :: z :: after := by
  intro hsplit
  have hlength := congrArg List.length hsplit
  simp at hlength
  omega

theorem normalOrder_singleton {t : Timings} {d : ℚ} {x : Period}
    (hred : x.phase = .allRed) : NormalOrder .float t d [x] where
  starts := by
    intro y hy
    obtain rfl : x = y := by simpa using hy
    exact hred
  follows := List.IsChain.singleton x
  committed := by
    intro before y r g after hsplit
    exact absurd hsplit singleton_ne_append_pair
  held := by
    intro before y z after hsplit
    exact absurd hsplit singleton_ne_append_pair
  released := by
    intro before y z after hsplit
    exact absurd hsplit singleton_ne_append_pair

/-- An amber that is polled in its last nanosecond is over. -/
theorem normalOrder_broken_by_rounding :
    ¬ ∀ (t : Timings) (major : MajorApproach) (b : TimePoint) (d : ℚ)
      (events : List Event), t.Sound →
        SafetyLayer.machine.Admits (SafetyLayer.Polled d) (.boot t major b) b events →
          NormalOrder .exact t d ((SafetyLayer.boot t major b).displayed b events) := by
  intro hall
  have hlaw := hall {} .ns 0 5
    [⟨.validate .greenNS, 2⟩, ⟨.validate .greenEW, 7⟩,
      ⟨.validate .greenEW, 10 - 1 / 10 ^ 9⟩]
    ⟨by decide +kernel, by decide +kernel, by decide +kernel, by decide +kernel⟩
    (by decide +kernel)
  let green := SafetyLayer.apply (.boot {} .ns 0) ⟨.validate .greenNS, 2⟩
  let amber := green.apply ⟨.validate .greenEW, 7⟩
  let red := amber.apply ⟨.validate .greenEW, 10 - 1 / 10 ^ 9⟩
  have hheld := hlaw.held [⟨.boot {} .ns 0, 0, 2⟩, ⟨green, 2, 7⟩]
    ⟨amber, 7, 10 - 1 / 10 ^ 9⟩ ⟨red, 10 - 1 / 10 ^ 9, 10 - 1 / 10 ^ 9⟩ []
    (by decide +kernel)
  have hshortest : Timings.shortest {} amber.getCurrentPhase = .fin yellowS := by
    decide +kernel
  simp only [Stopwatch.exact, Period.phase, hshortest, FloatValue.fin_le_fin] at hheld
  norm_num [Period.duration, yellowS] at hheld

/-- With sound timings, every run of ticks at most `d` apart, whatever they
request, keeps the order and the dwell times of the normal interlock. -/
theorem normal_order_and_dwell (t : Timings) (ht : t.Sound)
    (major : MajorApproach) (b : TimePoint) (d : ℚ) (events : List Event)
    (hrun : SafetyLayer.machine.Admits (SafetyLayer.Polled d)
      (.boot t major b) b events) :
    NormalOrder .float t d ((SafetyLayer.boot t major b).displayed b events) := by
  cases hevents : events with
  | nil => exact normalOrder_singleton rfl
  | cons e rest =>
  rw [← hevents]
  have hd : 0 ≤ d := by
    rw [hevents] at hrun
    have := hrun.1.1
    have := hrun.1.2.1
    linarith
  have hinit : ∃ a, SafetyLayer.Dwelling t (.boot t major b) b
      (.boot t major b) b a := ⟨_, SafetyLayer.boot_dwelling t major b⟩
  have hlinks : ((SafetyLayer.boot t major b).displayed b events).IsChain
      (fun x y => SafetyLayer.DwellLink t x.first x.start x.stop y.first ∧
        y.first.targetValid = true) := by
    refine (SafetyLayer.dwelling_stretchInvariant ht d).isChain
      (R := fun f start stop f' =>
        SafetyLayer.DwellLink t f start stop f' ∧ f'.targetValid = true)
      ?_ hinit hrun
    rintro f start s now e ⟨a, hdwell⟩ hpoll hkey
    rcases hdwell.tick ht hpoll with ⟨heq, _⟩ | ⟨_, hlink, hvalid, _⟩
    · exact absurd heq hkey
    · exact ⟨hlink, hvalid⟩
  have hover : ∀ x ∈ (SafetyLayer.boot t major b).displayed b events,
      x.first.targetValid = true →
        Stopwatch.float.within (t.longest x.phase) (x.duration - d) := by
    refine (SafetyLayer.dwelling_stretchInvariant ht d).forall_mem
      (Q := fun f start stop => f.targetValid = true →
        Stopwatch.float.within (t.longest f.applied) (stop - start - d))
      ?_ ?_ hinit hrun
    · rintro f start s now ⟨a, hdwell⟩ hvalid
      exact hdwell.within_longest ht (by simpa using hd) hvalid
    · rintro f start s now e ⟨a, hdwell⟩ hpoll _ hvalid
      exact hdwell.within_longest ht hpoll.2.1 hvalid
  refine ⟨?_, ?_, ?_, ?_, ?_⟩
  · intro x hx
    obtain ⟨stop, hhead⟩ := Machine.head?_timelineFrom SafetyLayer.machine
      SafetyLayer.getCurrentPhase (.boot t major b) (.boot t major b) b b
      events
    rw [SafetyLayer.displayed, Machine.timeline, hhead] at hx
    obtain rfl : _ = x := by simpa using hx
    rfl
  · exact hlinks.imp (fun x y hxy => hxy.1.follows)
  · intro before y r g after hsplit hyellow
    obtain ⟨hyr, hvalid⟩ := timeline_isChain_split hlinks hsplit
    rw [List.append_cons] at hsplit
    obtain ⟨hrg, _⟩ := timeline_isChain_split hlinks hsplit
    exact hyr.committed hrg hyellow hvalid
  · intro before x y after hsplit
    exact (timeline_isChain_split hlinks hsplit).1.reaches_shortest
  · intro before x y after hsplit
    refine hover y ?_ (timeline_isChain_split hlinks hsplit).2
    rw [hsplit]
    simp

/-- The hypotheses hold of a run with two greens, an interrupted request and
the default timings. -/
theorem normal_order_and_dwell_polled :
    NormalOrder .float {} 4 ((SafetyLayer.boot {} .ew 0).displayed 0
      [⟨.validate .greenNS, 2⟩, ⟨.validate .greenNS, 6⟩,
        ⟨.validate .greenEW, 8⟩, ⟨.validate .allRed, 11⟩,
        ⟨.validate .greenNSLeft, 13⟩, ⟨.validate .allRed, 17⟩]) :=
  normal_order_and_dwell {} ⟨by decide +kernel, by decide +kernel,
    by decide +kernel, by decide +kernel⟩ .ew 0 4 _ (by decide +kernel)

end Semaforo
