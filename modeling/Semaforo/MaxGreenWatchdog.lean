import Semaforo.InterlockRefinement
import Semaforo.InterlockTicks
import Mathlib.Tactic

/-!
# Where the max-green watchdog goes

A tick that ends a green, because `max_green` has passed or because another green
is asked for after `min_green`, followed through the amber and the clearance to
the next green.  The destination is fixed at that tick: `BoundFor` says that the
interlock is on its way to a given green, and no later request can divert it.
-/

namespace Semaforo

namespace Green

/-- A tick that asks for `desired` ends a green held for a reading of `el`
seconds. -/
def Ends (t : Timings) (desired : Phase) (el : ℚ) (g : Green) : Prop :=
  t.maxGreen ≤ .fin el ∨
    ∃ h : Green, desired = h.phase ∧ h ≠ g ∧ t.minGreen ≤ .fin el

theorem forced_phase {g h : Green} (hne : h ≠ g) : g.forced h.phase = h := by
  have hsome : ofPhase? h.phase = some h := ofPhase?_eq_some_iff.mpr rfl
  rw [forced, hsome]
  exact if_neg hne

end Green

namespace Interlock

/-- The interlock is between two greens, with `h` as the committed target. -/
def BoundFor (h : Green) (a : Interlock) : Prop :=
  (∃ o, a.sub = .amber o h) ∨ a.sub = .clearance (some h)

/-- A tick either finds the green at its end or leaves it in place, unripe. -/
theorem Step.of_green {t : Timings} (hmax : scheduleTrusted t.maxGreen)
    {g : Green} {b now : TimePoint} {desired : Phase} {a : Interlock}
    (hstep : Step t ⟨.green g, b⟩ ⟨.validate desired, now⟩ a) :
    (g.Ends t desired (floatSeconds (now - b)) ∧
        a = ⟨.amber g.axis (g.forced desired), now⟩) ∨
      (¬ g.Ends t desired (floatSeconds (now - b)) ∧ a = ⟨.green g, b⟩) := by
  cases hstep with
  | leave hleaves =>
      cases hleaves with
      | greenOver _ hyields =>
          left
          cases hyields with
          | forced hdue => exact ⟨Or.inl hdue, rfl⟩
          | requested _ hmin hdesired hne =>
              refine ⟨Or.inr ⟨_, hdesired, hne, hmin⟩, ?_⟩
              rw [hdesired, Green.forced_phase hne]
      | escalate _ hover _ => exact absurd hmax hover.1
  | stay hstays =>
      cases hstays with
      | green _ hnot hwait =>
          refine Or.inr ⟨?_, rfl⟩
          rintro (hdue | ⟨h, hdesired, hne, hmin⟩)
          · exact hnot hdue
          · exact hwait h hdesired hne hmin

theorem Step.bound {t : Timings} (hyellow : scheduleTrusted t.yellow)
    (hred : scheduleTrusted t.allRed) {h : Green} {a a' : Interlock}
    {desired : Phase} {now : TimePoint} (hbound : a.BoundFor h)
    (hstep : Step t a ⟨.validate desired, now⟩ a') :
    a'.BoundFor h ∨ a'.sub = .green h := by
  obtain ⟨p, b⟩ := a
  rcases hbound with ⟨o, hsub⟩ | hsub
  · obtain rfl : p = .amber o h := hsub
    cases hstep with
    | leave hleaves =>
        cases hleaves with
        | amberOver _ _ => exact Or.inl (Or.inr rfl)
        | escalate _ hover _ => exact absurd hyellow hover.1
    | stay hstays =>
        cases hstays with
        | amber _ _ => exact Or.inl (Or.inl ⟨o, rfl⟩)
  · obtain rfl : p = .clearance (some h) := hsub
    cases hstep with
    | leave hleaves =>
        cases hleaves with
        | clearanceOver _ _ hcommit =>
            have htarget : some h = some _ := hcommit
            rw [Option.some.injEq] at htarget
            subst htarget
            exact Or.inr rfl
        | escalate _ hover _ => exact absurd hred hover.1
    | stay hstays =>
        cases hstays with
        | clearance _ _ => exact Or.inl (Or.inr rfl)

theorem BoundFor.not_green {h : Green} {a : Interlock} (hbound : a.BoundFor h)
    (major : MajorApproach) : isGreen (a.sub.display major) = false := by
  rcases hbound with ⟨o, hsub⟩ | hsub
  · rw [hsub]
    exact o.isGreen_amber
  · rw [hsub]
    rfl

end Interlock

/-! ## The destination -/

/-- The request names another green on the axis of the one on display. -/
def StaysOnAxis (applied desired : Phase) : Prop :=
  isGreen desired = true ∧ desired ≠ applied ∧ isNS desired = isNS applied

instance (applied desired : Phase) : Decidable (StaysOnAxis applied desired) :=
  inferInstanceAs (Decidable
    (isGreen desired = true ∧ desired ≠ applied ∧ isNS desired = isNS applied))

/-- The end of a green changes the axis unless the request forbids it. -/
theorem Green.isNS_forced_ne_iff (g : Green) (desired : Phase) :
    isNS (g.forced desired).phase ≠ isNS g.phase ↔
      ¬ StaysOnAxis g.phase desired := by
  unfold Green.forced StaysOnAxis
  cases hdesired : Green.ofPhase? desired with
  | none =>
      have hnot := Green.ofPhase?_eq_none_iff.mp hdesired
      cases g <;> simp [hnot, Green.opposite, Green.axis, Green.phase, isNS]
  | some h =>
      obtain rfl := Green.ofPhase?_eq_some_iff.mp hdesired
      cases g <;> cases h <;> decide

namespace SafetyLayer

/-- The first green that is put on display by one of the calls. -/
def nextGreen (s : SafetyLayer) : List Event → Option Phase
  | [] => none
  | e :: events =>
      if isGreen (s.apply e).getCurrentPhase then
        some (s.apply e).getCurrentPhase
      else nextGreen (s.apply e) events

/-- Whatever is requested after the tick, the next green is on the other
axis. -/
def Opposes (s : SafetyLayer) (desired : Phase) (now : TimePoint) : Prop :=
  ∀ events, (∀ e ∈ events, e.isTick = true) →
    ∀ next, s.nextGreen (⟨.validate desired, now⟩ :: events) = some next →
      isNS next ≠ isNS s.applied

theorem nextGreen_of_bound {s : SafetyLayer} {a : Interlock} {h : Green}
    (hyellow : scheduleTrusted s.t.yellow) (hred : scheduleTrusted s.t.allRed)
    (hrep : s.Represents a) (hbound : a.BoundFor h) {events : List Event}
    (hticks : ∀ e ∈ events, e.isTick = true) {next : Phase}
    (hnext : s.nextGreen events = some next) : next = h.phase := by
  induction events generalizing s a with
  | nil => contradiction
  | cons e events ih =>
      obtain ⟨desired, he⟩ := Event.eq_validate_of_isTick (hticks e (by simp))
      rw [he] at hnext
      obtain ⟨a', hstep, hrep'⟩ := apply_refines hrep ⟨.validate desired, e.now⟩
      have happlied : (s.apply ⟨.validate desired, e.now⟩).getCurrentPhase =
          a'.sub.display (s.apply ⟨.validate desired, e.now⟩).major :=
        hrep'.applied
      rw [nextGreen, happlied] at hnext
      rcases hstep.bound hyellow hred hbound with hbound' | hgreen
      · rw [hbound'.not_green, if_neg (by simp)] at hnext
        rw [← apply_t s ⟨.validate desired, e.now⟩] at hyellow hred
        exact ih hyellow hred hrep' hbound'
          (fun e' he' => hticks e' (by simp [he'])) hnext
      · rw [hgreen, SubPhase.display, Green.isGreen_phase, if_pos rfl] at hnext
        exact (Option.some.inj hnext).symm

theorem nextGreen_cons_of_dark {s : SafetyLayer} {a : Interlock} {e : Event}
    (hrep : (s.apply e).Represents a)
    (hdark : isGreen (a.sub.display (s.apply e).major) = false)
    (events : List Event) :
    s.nextGreen (e :: events) = (s.apply e).nextGreen events := by
  have happlied : (s.apply e).getCurrentPhase =
      a.sub.display (s.apply e).major := hrep.applied
  rw [nextGreen, happlied, hdark, if_neg (by simp)]

theorem nextGreen_cons_of_green {s : SafetyLayer} {b : TimePoint} {h : Green}
    {e : Event} (hrep : (s.apply e).Represents ⟨.green h, b⟩)
    (events : List Event) : s.nextGreen (e :: events) = some h.phase := by
  have happlied : (s.apply e).getCurrentPhase = h.phase := hrep.applied
  rw [nextGreen, happlied, Green.isGreen_phase, if_pos rfl]

/-- Ticks that are in time show the target of an amber. -/
theorem nextGreen_of_amber {s : SafetyLayer} {o : Axis} {h : Green}
    {b : TimePoint} (hyellow : scheduleTrusted s.t.yellow)
    (hred : scheduleTrusted s.t.allRed)
    (hrep : s.Represents ⟨.amber o h, b⟩) :
    ∃ events, (∀ e ∈ events, e.isTick = true) ∧
      s.nextGreen events = some h.phase := by
  obtain ⟨y, hy, hy0, _⟩ := scheduleTrusted_iff.mp hyellow
  obtain ⟨r, hr, hr0, _⟩ := scheduleTrusted_iff.mp hred
  have hamber : s.t.yellow ≤ .fin (floatSeconds (b + clockSlack * y - b)) := by
    rw [hy, add_sub_cancel_left, FloatValue.fin_le_fin]
    exact le_floatSeconds_slack hy0
  have hclear : s.t.allRed ≤ .fin (floatSeconds
      (b + clockSlack * y + clockSlack * r - (b + clockSlack * y))) := by
    rw [hr, add_sub_cancel_left, FloatValue.fin_le_fin]
    exact le_floatSeconds_slack hr0
  obtain ⟨a, hstep, hrep'⟩ :=
    apply_refines hrep ⟨.validate .allRed, b + clockSlack * y⟩
  obtain rfl := hstep.amber_over hyellow hamber
  obtain ⟨a', hstep', hrep''⟩ := apply_refines hrep'
    ⟨.validate .allRed, b + clockSlack * y + clockSlack * r⟩
  rw [apply_t] at hstep'
  obtain rfl := hstep'.clearance_over hred (h := h) rfl hclear
  refine ⟨[⟨.validate .allRed, b + clockSlack * y⟩,
    ⟨.validate .allRed, b + clockSlack * y + clockSlack * r⟩], ?_, ?_⟩
  · intro e he
    rcases List.mem_pair.mp he with rfl | rfl
    · rfl
    · rfl
  · rw [nextGreen_cons_of_dark hrep' rfl]
    exact nextGreen_cons_of_green hrep'' []

/-- The tick finds a green at its end. -/
def EndsGreen (s : SafetyLayer) (desired : Phase) (now : TimePoint) : Prop :=
  s.state = .green ∧
    (s.t.maxGreen ≤ .fin (s.elapsedS now) ∨
      (isGreen desired = true ∧ desired ≠ s.applied ∧
        s.t.minGreen ≤ .fin (s.elapsedS now)))

theorem endsGreen_iff {s : SafetyLayer} {g : Green} {b : TimePoint}
    (hrep : s.Represents ⟨.green g, b⟩) (desired : Phase) (now : TimePoint) :
    s.EndsGreen desired now ↔ g.Ends s.t desired (floatSeconds (now - b)) := by
  have hstate : s.state = .green := hrep.state
  have happlied : s.applied = g.phase := hrep.applied
  have hsince : s.phaseStart = b := hrep.since
  unfold EndsGreen Green.Ends
  rw [elapsedS, hsince, hstate, happlied]
  simp only [true_and]
  refine or_congr_right ⟨?_, ?_⟩
  · rintro ⟨hgreen, hne, hmin⟩
    obtain ⟨h, rfl⟩ := Green.exists_of_isGreen hgreen
    exact ⟨h, rfl, fun heq => hne (heq ▸ rfl), hmin⟩
  · rintro ⟨h, rfl, hne, hmin⟩
    exact ⟨h.isGreen_phase, fun heq => hne (Green.phase_inj.mp heq), hmin⟩

theorem Represents.eq_green {s : SafetyLayer} {a : Interlock}
    (hrep : s.Represents a) (hgreen : s.state = .green) : ∃ g, a.sub = .green g := by
  have hstate := hrep.state
  rw [hgreen] at hstate
  cases hsub : a.sub with
  | green g => exact ⟨g, rfl⟩
  | _ => simp [hsub, SubPhase.state] at hstate

/-- A tick that ends a green leads to the cross street exactly when it does not
ask for another green on the axis in progress. -/
theorem opposes_iff {s : SafetyLayer} {a : Interlock} (hrep : s.Represents a)
    (hmax : scheduleTrusted s.t.maxGreen) (hyellow : scheduleTrusted s.t.yellow)
    (hred : scheduleTrusted s.t.allRed) {desired : Phase} {now : TimePoint}
    (hends : s.EndsGreen desired now) :
    s.Opposes desired now ↔ ¬ StaysOnAxis s.getCurrentPhase desired := by
  obtain ⟨p, b⟩ := a
  obtain ⟨g, hsub⟩ := hrep.eq_green hends.1
  obtain rfl : p = .green g := hsub
  have happlied : s.getCurrentPhase = g.phase := hrep.applied
  obtain ⟨a, hstep, hrep'⟩ := apply_refines hrep ⟨.validate desired, now⟩
  obtain ⟨_, rfl⟩ := (hstep.of_green hmax).resolve_right
    fun hnot => hnot.1 ((endsGreen_iff hrep desired now).mp hends)
  rw [happlied, ← g.isNS_forced_ne_iff]
  rw [← apply_t s ⟨.validate desired, now⟩] at hyellow hred
  constructor
  · intro hopposes
    obtain ⟨events, hticks, hnext⟩ := nextGreen_of_amber hyellow hred hrep'
    have hother := hopposes events hticks (g.forced desired).phase
      ((nextGreen_cons_of_dark hrep' (Axis.isGreen_amber _) events).trans hnext)
    rwa [show s.applied = g.phase from happlied] at hother
  · intro hforced events hticks next hnext
    rw [nextGreen_cons_of_dark hrep' (Axis.isGreen_amber _)] at hnext
    rw [nextGreen_of_bound hyellow hred hrep' (Or.inl ⟨_, rfl⟩) hticks hnext,
      show s.applied = g.phase from happlied]
    exact hforced

/-- A layer whose north-south green has been on display for a minute. -/
def minuteOfGreen : List Event :=
  [⟨.validate .greenNS, 2⟩, ⟨.validate .greenNS, 61⟩]

theorem watchdog_serves_left_turn :
    (machine.run (boot {} .ns 0) minuteOfGreen).state = .green ∧
      (machine.run (boot {} .ns 0) minuteOfGreen).t.maxGreen ≤
        .fin ((machine.run (boot {} .ns 0) minuteOfGreen).elapsedS 62) ∧
      ¬ (machine.run (boot {} .ns 0) minuteOfGreen).Opposes .greenNSLeft 62 := by
  refine ⟨by decide +kernel, by decide +kernel, ?_⟩
  intro hopposes
  refine hopposes [⟨.validate .greenNS, 65⟩, ⟨.validate .greenNS, 67⟩] ?_
    .greenNSLeft (by decide +kernel) (by decide +kernel)
  intro e he
  rcases List.mem_pair.mp he with rfl | rfl
  · rfl
  · rfl

end SafetyLayer

end Semaforo
