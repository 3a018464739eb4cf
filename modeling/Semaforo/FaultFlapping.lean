import Semaforo.LoopRequests
import Semaforo.NodeMoves
import Mathlib.Tactic

/-!
# Flapping faults

The camera and the detector switch the mode without hysteresis, and every
switch begins the all-red clearance anew.  Switches that keep coming faster than
one clearance hold the heads in all-red for as long as they last; if such bursts
are bounded, a green is shown in every window of `maxGreenS`.
-/

namespace Semaforo

def Iteration.AsksGreen (k : Iteration) : Prop :=
  k.Asks fun p => isGreen p = true

instance (k : Iteration) : Decidable k.AsksGreen :=
  inferInstanceAs (Decidable (k.Asks fun p => isGreen p = true))

/-! ## Bursts of switches -/

/-- A burst of mode switches, each less than one clearance after the one
before: the instants of its first and of its last switch. -/
structure Burst where
  first : TimePoint
  last : TimePoint
  deriving DecidableEq, Repr

/-- Two switches this far apart leave time for a green between them. -/
def burstGap (d : ℚ) : ℚ := allRedS + d

def burstLimit (d : ℚ) : ℚ := maxGreenS - yellowS - 2 * allRedS - 3 * d

namespace Burst

def next (d : ℚ) (b : Burst) (now : TimePoint) : Burst :=
  if now < b.last + burstGap d then ⟨b.first, now⟩ else ⟨now, now⟩

@[simp] theorem next_last (d : ℚ) (b : Burst) (now : TimePoint) :
    (b.next d now).last = now := by
  unfold next
  split_ifs <;> rfl

theorem next_first_le {d : ℚ} {b : Burst} {now : TimePoint}
    (hfirst : b.first ≤ now) : (b.next d now).first ≤ now := by
  unfold next
  split_ifs
  · exact hfirst
  · exact le_refl now

theorem next_first_of_lt {d : ℚ} {b : Burst} {now : TimePoint}
    (hnow : now < b.last + burstGap d) : (b.next d now).first = b.first := by
  unfold next
  rw [if_pos hnow]

def watch (d : ℚ) (b : Burst) (n : Node) (k : Iteration) : Burst :=
  if n.Switches k then b.next d k.validateNow else b

end Burst

namespace Node

def Served (d : ℚ) (_ : Node) (t : TimePoint) (k : Iteration) : Prop :=
  k.Timed d t ∧ k.AsksGreen

instance (d : ℚ) (n : Node) (t : TimePoint) (k : Iteration) :
    Decidable (Served d n t k) :=
  inferInstanceAs (Decidable (k.Timed d t ∧ k.AsksGreen))

def Calm (d : ℚ) (x : Node × Burst) (_ : TimePoint) (k : Iteration) : Prop :=
  x.1.Switches k →
    k.validateNow - (x.2.next d k.validateNow).first ≤ burstLimit d

instance (d : ℚ) (x : Node × Burst) (t : TimePoint) (k : Iteration) :
    Decidable (Calm d x t k) :=
  inferInstanceAs (Decidable (x.1.Switches k →
    k.validateNow - (x.2.next d k.validateNow).first ≤ burstLimit d))

/-- How far behind a green the interlock is, `lit` being the last instant at
which a green was shown. -/
inductive Delayed (d : ℚ) (b : Burst) (lit : TimePoint) (a : Interlock) :
    Prop where
  | shown (hcolour : a.sub.colour = .green)
  | amber (hcolour : a.sub.colour = .amber) (hsince : a.since ≤ lit)
  | red (hcolour : a.sub.colour = .red)
      (hsince : a.since ≤ lit + (yellowS + d))
  | restarted (hcolour : a.sub.colour = .red) (hlast : a.since ≤ b.last)
      (hfirst : b.first ≤ lit + (yellowS + allRedS + 2 * d))
      (hburst : b.last - b.first ≤ burstLimit d)

structure Progress (d : ℚ) (n : Node) (b : Burst) (t lit : TimePoint)
    (a : Interlock) : Prop where
  arbitrated : n.Arbitrated
  directed : n.loop.Directed fun p => isGreen p = true
  represents : n.safety.Represents a
  onTime : a.OnTime {} t
  ordered : b.first ≤ t
  delayed : Delayed d b lit a

theorem Progress.mode_ne {d : ℚ} {n : Node} {b : Burst} {t lit : TimePoint}
    {a : Interlock} (hprogress : Progress d n b t lit a) :
    a.sub.mode ≠ .flashing :=
  hprogress.arbitrated.healthy.mode_ne hprogress.represents

theorem Progress.shown_iff {d : ℚ} {n : Node} {b : Burst}
    {t lit : TimePoint} {a : Interlock} (hprogress : Progress d n b t lit a) :
    isGreen n.shown = true ↔ a.sub.colour = .green := by
  have hshown : n.shown = a.sub.display n.safety.major :=
    hprogress.represents.applied
  rw [hshown]
  exact SubPhase.isGreen_display_iff _ a.sub

theorem amber_lt {a : Interlock} {t next : TimePoint} {d : ℚ}
    (hcolour : a.sub.colour = .amber) (hontime : a.OnTime {} t)
    (hgap : next - t ≤ d) : next < a.since + (yellowS + d) :=
  hontime.lt_schedule hgap (by norm_num [yellowS]) (by
    rw [SubPhase.schedule_of_amber {} hcolour]
    exact Timings.yellow_read)

theorem red_lt {a : Interlock} {t next : TimePoint} {d : ℚ}
    (hmode : a.sub.mode ≠ .flashing) (hcolour : a.sub.colour = .red)
    (hontime : a.OnTime {} t) (hgap : next - t ≤ d) :
    next < a.since + (allRedS + d) :=
  hontime.lt_schedule hgap (by norm_num [allRedS]) (by
    rw [SubPhase.schedule_of_red {} hmode hcolour]
    exact Timings.allRed_read)

theorem Progress.next_lt {d : ℚ} (hd : d ≤ 1 / 10) {n : Node} {b : Burst}
    {t lit next : TimePoint} {a : Interlock}
    (hprogress : Progress d n b t lit a) (hgap : next - t ≤ d)
    (hdark : ¬ isGreen n.shown = true) : next < lit + maxGreenS := by
  rw [hprogress.shown_iff] at hdark
  cases hprogress.delayed with
  | shown hcolour => exact absurd hcolour hdark
  | amber hcolour hsince =>
      have := amber_lt hcolour hprogress.onTime hgap
      norm_num [yellowS, maxGreenS] at this ⊢
      linarith
  | red hcolour hsince =>
      have := red_lt hprogress.mode_ne hcolour hprogress.onTime hgap
      norm_num [yellowS, allRedS, maxGreenS] at this hsince ⊢
      linarith
  | restarted hcolour hlast hfirst hburst =>
      have := red_lt hprogress.mode_ne hcolour hprogress.onTime hgap
      norm_num [yellowS, allRedS, maxGreenS, burstLimit] at this hfirst hburst ⊢
      linarith

theorem Progress.burst_first_le {d : ℚ} (hd : 0 ≤ d) {n : Node} {b : Burst}
    {t lit now : TimePoint} {a : Interlock}
    (hprogress : Progress d n b t lit a) (hnow : t ≤ now)
    (hgap : now - t ≤ d) :
    (b.next d now).first ≤
      (if isGreen n.shown = true then now else lit) +
        (yellowS + allRedS + 2 * d) := by
  have hfirst := Burst.next_first_le (d := d) (hprogress.ordered.trans hnow)
  have hyellow : (0 : ℚ) ≤ yellowS := by norm_num [yellowS]
  have hred : (0 : ℚ) ≤ allRedS := by norm_num [allRedS]
  simp only [hprogress.shown_iff]
  cases hprogress.delayed with
  | shown hcolour =>
      rw [if_pos hcolour]
      linarith
  | amber hcolour hsince =>
      have := amber_lt hcolour hprogress.onTime hgap
      rw [if_neg (by simp [hcolour])]
      linarith
  | red hcolour hsince =>
      have := red_lt hprogress.mode_ne hcolour hprogress.onTime hgap
      rw [if_neg (by simp [hcolour])]
      linarith
  | restarted hcolour hlast hfirst' hburst =>
      have := red_lt hprogress.mode_ne hcolour hprogress.onTime hgap
      have hlt : now < b.last + burstGap d := by
        unfold burstGap
        linarith
      rw [if_neg (by simp [hcolour]), Burst.next_first_of_lt hlt]
      exact hfirst'

theorem Progress.delayed_of_unchanged {d : ℚ} {n : Node} {b : Burst}
    {t lit now : TimePoint} {a a' : Interlock} {desired : Phase}
    (hprogress : Progress d n b t lit a) (hgap : now - t ≤ d)
    (hstep : Interlock.Step {} a ⟨.validate desired, now⟩ a') :
    Delayed d b (if isGreen n.shown = true then now else lit) a' := by
  have hmode := hprogress.mode_ne
  have hontime := hprogress.onTime
  have hdelayed := hprogress.delayed
  simp only [hprogress.shown_iff]
  cases hstep with
  | @stay p q since now desired hstays =>
      have hsame : q.colour = p.colour := hstays.colour_eq
      cases hdelayed with
      | shown hcolour => exact .shown (hsame.trans hcolour)
      | amber hcolour hsince =>
          rw [if_neg (by simp [hcolour])]
          exact .amber (hsame.trans hcolour) hsince
      | red hcolour hsince =>
          rw [if_neg (by simp [hcolour])]
          exact .red (hsame.trans hcolour) hsince
      | restarted hcolour hlast hfirst hburst =>
          rw [if_neg (by simp [hcolour])]
          exact .restarted (hsame.trans hcolour) hlast hfirst hburst
  | @leave p q since now desired hleaves =>
      have hnext : q.colour = p.colour.next :=
        (hleaves.colour_eq default_trusted hmode).1
      cases hdelayed with
      | shown hcolour =>
          simp only at hcolour
          rw [if_pos hcolour]
          refine .amber ?_ (le_refl now)
          rw [hnext, hcolour]
          rfl
      | amber hcolour hsince =>
          have hlt := amber_lt hcolour hontime hgap
          simp only at hcolour hsince hlt
          rw [if_neg (by simp [hcolour])]
          refine .red ?_ ?_
          · rw [hnext, hcolour]
            rfl
          · simp only
            linarith
      | red hcolour _ =>
          simp only at hcolour
          refine .shown ?_
          rw [hnext, hcolour]
          rfl
      | restarted hcolour _ _ _ =>
          simp only at hcolour
          refine .shown ?_
          rw [hnext, hcolour]
          rfl

theorem Progress.delayed_of_restarted {d : ℚ} (hd : 0 ≤ d) {n : Node}
    {b : Burst} {t lit now : TimePoint} {a a' a'' : Interlock}
    {desired : Phase} (hprogress : Progress d n b t lit a) (hnow : t ≤ now)
    (hgap : now - t ≤ d) (hsub : a'.sub.Restarted) (hsince : a'.since ≤ now)
    (hcalm : now - (b.next d now).first ≤ burstLimit d)
    (hstep : Interlock.Step {} a' ⟨.validate desired, now⟩ a'') :
    Delayed d (b.next d now) (if isGreen n.shown = true then now else lit)
      a'' := by
  have hfirst := hprogress.burst_first_le hd hnow hgap
  cases hstep with
  | @stay p q since now desired hstays =>
      refine .restarted ?_ ?_ hfirst ?_
      · exact hstays.colour_eq.trans hsub.colour_eq
      · rw [Burst.next_last]
        exact hsince
      · rw [Burst.next_last]
        exact hcalm
  | @leave p q since now desired hleaves =>
      refine .shown ?_
      have hnext := (hleaves.colour_eq default_trusted hsub.mode_ne).1
      have hred : p.colour = .red := hsub.colour_eq
      rw [hred] at hnext
      exact hnext

theorem onTime_of_green {a a' : Interlock} {desired : Phase}
    {now : TimePoint} (hgreen : isGreen desired = true)
    (hstep : Interlock.Step {} a ⟨.validate desired, now⟩ a')
    (hmode : a'.sub.mode ≠ .flashing) : a'.OnTime {} now := by
  obtain ⟨g, rfl⟩ := Green.exists_of_isGreen hgreen
  cases hstep with
  | leave _ => exact Or.inl rfl
  | @stay p q since now desired hstays =>
      refine Or.inr (hstays.not_ripe (hstays.not_rests ?_))
      intro hflash
      simp only [hflash] at hmode
      exact hmode rfl

theorem Progress.iterate {d : ℚ} (hd : 0 ≤ d) {n : Node} {b : Burst}
    {t lit : TimePoint} {a : Interlock} {k : Iteration}
    (hprogress : Progress d n b t lit a) (hserved : Served d n t k)
    (hcalm : Calm d (n, b) t k) :
    ∃ a', Progress d (n.iterate k) (b.watch d n k) k.validateNow
      (if isGreen n.shown = true then k.validateNow else lit) a' := by
  obtain ⟨⟨hnow, hgap, hreadings⟩, hasks⟩ := hserved
  obtain ⟨a', a'', hhandled, hstep, hrep⟩ := hprogress.arbitrated.moves
    hprogress.represents (fun now hmem => (hreadings now hmem).2)
  have harbitrated := hprogress.arbitrated.iterate k
  have hdirected := Loop.handleFaults_directed hprogress.directed hasks
  refine ⟨a'', harbitrated, hdirected, hrep, ?_, ?_, ?_⟩
  · exact onTime_of_green (hdirected.proposedPhase hasks (Or.inr rfl)) hstep
      (harbitrated.healthy.mode_ne hrep)
  · unfold Burst.watch
    split_ifs
    · exact Burst.next_first_le (hprogress.ordered.trans hnow)
    · exact hprogress.ordered.trans hnow
  · cases hhandled with
    | unchanged hsame =>
        rw [Burst.watch, if_neg hsame]
        exact hprogress.delayed_of_unchanged hgap hstep
    | restarted hswitch hsub hsince =>
        rw [Burst.watch, if_pos hswitch]
        exact hprogress.delayed_of_restarted hd hnow hgap hsub hsince
          (hcalm hswitch) hstep

theorem boot_progress (d : ℚ) (hd : 0 ≤ d) (major : MajorApproach)
    (armedMs : Option ℤ) (start : TimePoint) :
    Progress d (boot major armedMs start) ⟨start, start⟩ start start
      ⟨.clearance none, start⟩ where
  arbitrated := boot_arbitrated major armedMs start
  directed := fun hvalid => by cases hvalid
  represents := SafetyLayer.boot_represents {} major start
  onTime := Or.inl rfl
  ordered := le_refl start
  delayed := by
    refine .red rfl ?_
    have : (0 : ℚ) ≤ yellowS := by norm_num [yellowS]
    simp only
    linarith

end Node

/-- A green is shown in every window of `maxGreenS` of the run. -/
def NeverStarved (n : Node) (start : TimePoint) (iterations : List Iteration) :
    Prop :=
  ∀ a, start ≤ a → a + maxGreenS ≤ Node.machine.endTime start iterations →
    Node.machine.Shows (fun n => isGreen n.shown = true) a (a + maxGreenS) n
      start iterations

/-! ### A detector that fails on every other frame -/

def detection (ok : Bool) (t : TimePoint) : Iteration where
  tickNowMs := 0
  silenceNow := t
  cameraNow := t
  inferenceOk := ok
  inferenceNow := t
  policyPhase := .greenNS
  validateNow := t

/-- `n` times a fault and a recovery, a tenth of a second apart. -/
def flapping : TimePoint → ℕ → List Iteration
  | _, 0 => []
  | t, n + 1 =>
      detection false (t + 1 / 10) :: detection true (t + 1 / 5) ::
        flapping (t + 1 / 5) n

theorem flapping_endTime (t : TimePoint) (n : ℕ) :
    Node.machine.endTime t (flapping t n) = t + n / 5 := by
  induction n generalizing t with
  | zero => simp [flapping]
  | succ n ih =>
      simp only [flapping, Machine.endTime_cons]
      change Node.machine.endTime (t + 1 / 5) (flapping (t + 1 / 5) n) = _
      rw [ih]
      push_cast
      ring

theorem detection_served {ok : Bool} {t t' : TimePoint} (hle : t ≤ t')
    (hgap : t' - t ≤ 1 / 10) (n : Node) :
    n.Served (1 / 10) t (detection ok t') := by
  refine ⟨⟨hle, hgap, ?_⟩, rfl, ?_⟩
  · intro now hnow
    have : now = t' := by
      simpa [Iteration.readings, detection] using hnow
    rw [this]
    exact ⟨hle, le_refl t'⟩
  · intro p hp
    cases hp

theorem flapping_served (n : Node) (t : TimePoint) (count : ℕ) :
    Node.machine.Admits (Node.Served (1 / 10)) n t (flapping t count) := by
  induction count generalizing n t with
  | zero => trivial
  | succ count ih =>
      refine ⟨detection_served ?_ ?_ n, detection_served ?_ ?_ _, ih _ _⟩
      · linarith
      · linarith
      · change t + 1 / 10 ≤ t + 1 / 5
        linarith
      · change t + 1 / 5 - (t + 1 / 10) ≤ 1 / 10
        linarith

namespace Node

/-- The node has been in the all-red `p` since `t`, and its loop is as at the
start except for the detector. -/
structure Stuck (n : Node) (t : TimePoint) (online : Bool) (p : SubPhase) :
    Prop where
  loop : n.loop = { Loop.initial none with inferenceOnline := online }
  timings : n.safety.t = {}
  represents : n.safety.Represents ⟨p, t⟩
  red : p.colour = .red

theorem Stuck.dark {n : Node} {t : TimePoint} {online : Bool} {p : SubPhase}
    (hstuck : n.Stuck t online p) : ¬ isGreen n.shown = true := by
  have hshown : n.shown = p.display n.safety.major :=
    hstuck.represents.applied
  rw [hshown, SubPhase.isGreen_display_iff, hstuck.red]
  simp

theorem stays_of_fresh {p : SubPhase} {now : TimePoint} {desired : Phase}
    {a : Interlock} (hmode : p.mode ≠ .flashing) (hred : p.colour = .red)
    (hstep : Interlock.Step {} ⟨p, now⟩ ⟨.validate desired, now⟩ a) :
    ∃ q, a = ⟨q, now⟩ ∧ p.Stays {} desired (floatSeconds (now - now)) q := by
  cases hstep with
  | stay hstays => exact ⟨_, rfl, hstays⟩
  | leave hleaves =>
      exfalso
      rcases hleaves.ripe (fun g hg => by rw [hg] at hred; cases hred) with
        hdue | hover
      · rw [SubPhase.schedule_of_red {} hmode hred] at hdue
        rw [sub_self, floatSeconds_zero, FloatValue.fin_le_fin] at hdue
        norm_num [allRedS] at hdue
      · exact hover.1 (default_trusted.schedule hmode)

theorem Stuck.fault {n : Node} {t t' : TimePoint} {c : Option Green}
    (hstuck : n.Stuck t true (.clearance c)) :
    (n.iterate (detection false t')).Stuck t' false (.ring 0) := by
  have hloop : n.loop = Loop.initial none := hstuck.loop
  obtain ⟨a, hstep, hrep⟩ :=
    SafetyLayer.setEmergencyMode_refines hstuck.represents true t'
  have hengaged : a = ⟨.ring 0, t'⟩ := by
    cases hstep with
    | engage _ => rfl
    | ignore hignores => simp [SubPhase.Ignores, SubPhase.mode] at hignores
  subst hengaged
  have htimings : (n.safety.setEmergencyMode true t').t = {} :=
    (SafetyLayer.apply_t n.safety (toggle true t')).trans hstuck.timings
  obtain ⟨a', hstep', hrep'⟩ := SafetyLayer.validate_refines hrep .greenNS t'
  rw [htimings] at hstep'
  obtain ⟨q, rfl, hstays⟩ := stays_of_fresh (by simp [SubPhase.mode]) rfl hstep'
  cases hstays with
  | ring _ _ =>
      have hiterate : n.iterate (detection false t') =
          ⟨{ Loop.initial none with inferenceOnline := false },
            ((n.safety.setEmergencyMode true t').validate .greenNS t').2⟩ := by
        unfold iterate atValidate
        rw [hloop]
        rfl
      rw [hiterate]
      exact ⟨rfl, (SafetyLayer.apply_t _ ⟨.validate .greenNS, t'⟩).trans
        htimings, hrep', rfl⟩

theorem Stuck.recovery {n : Node} {t t' : TimePoint}
    (hstuck : n.Stuck t false (.ring 0)) :
    ∃ c, (n.iterate (detection true t')).Stuck t' true (.clearance c) := by
  have hloop : n.loop = { Loop.initial none with inferenceOnline := false } :=
    hstuck.loop
  obtain ⟨a, hstep, hrep⟩ :=
    SafetyLayer.setEmergencyMode_refines hstuck.represents false t'
  have hreleased : a = ⟨.clearance none, t'⟩ := by
    cases hstep with
    | release => rfl
    | ignore hignores => simp [SubPhase.Ignores, SubPhase.mode] at hignores
  subst hreleased
  have htimings : (n.safety.setEmergencyMode false t').t = {} :=
    (SafetyLayer.apply_t n.safety (toggle false t')).trans hstuck.timings
  obtain ⟨a', hstep', hrep'⟩ := SafetyLayer.validate_refines hrep .greenNS t'
  rw [htimings] at hstep'
  obtain ⟨q, rfl, hstays⟩ := stays_of_fresh (by simp [SubPhase.mode]) rfl hstep'
  cases hstays with
  | clearance _ _ =>
      have hiterate : n.iterate (detection true t') =
          ⟨Loop.initial none,
            ((n.safety.setEmergencyMode false t').validate .greenNS t').2⟩ := by
        unfold iterate atValidate
        rw [hloop]
        rfl
      rw [hiterate]
      exact ⟨_, rfl, (SafetyLayer.apply_t _ ⟨.validate .greenNS, t'⟩).trans
        htimings, hrep', rfl⟩

theorem Stuck.not_shows {n : Node} {t : TimePoint} {c : Option Green}
    (hstuck : n.Stuck t true (.clearance c)) (a b : TimePoint) (count : ℕ) :
    ¬ machine.Shows (fun n => isGreen n.shown = true) a b n t
      (flapping t count) := by
  induction count generalizing n t c with
  | zero => exact fun hshows => hstuck.dark hshows.1
  | succ count ih =>
      have hfault : (n.iterate (detection false (t + 1 / 10))).Stuck
          (t + 1 / 10) false (.ring 0) := hstuck.fault
      obtain ⟨c', hrecovery⟩ : ∃ c', ((n.iterate (detection false
          (t + 1 / 10))).iterate (detection true (t + 1 / 5))).Stuck
            (t + 1 / 5) true (.clearance c') := hfault.recovery
      rintro (hshown | hshown | hrest)
      · exact hstuck.dark hshown.1
      · exact hfault.dark hshown.1
      · exact ih hrecovery hrest

end Node

/-- The run satisfies everything that is asked of the environment, and no green
is shown in its sixty seconds. -/
theorem flapping_starves :
    Node.machine.Admits (Node.Served (1 / 10)) (.boot .unknown none 0) 0
        (flapping 0 300) ∧
      ¬ NeverStarved (.boot .unknown none 0) 0 (flapping 0 300) := by
  refine ⟨flapping_served _ 0 300, ?_⟩
  intro hserved
  refine Node.Stuck.not_shows (c := none) ?_ 0 (0 + maxGreenS) 300
    (hserved 0 (le_refl 0) ?_)
  · exact ⟨rfl, rfl, SafetyLayer.boot_represents {} .unknown 0, rfl⟩
  · rw [flapping_endTime]
    norm_num [maxGreenS]

/-- Whatever the faults, a run that is asked for greens and in which no burst of
mode switches outlasts `burstLimit d` shows a green in every window of
`maxGreenS`. -/
theorem never_starved_of_calm (major : MajorApproach) (armedMs : Option ℤ)
    (start : TimePoint) (d : ℚ) (hd : 0 ≤ d) (hd' : d ≤ 1 / 10)
    (iterations : List Iteration)
    (hserved : Node.machine.Admits (Node.Served d)
      (.boot major armedMs start) start iterations)
    (hcalm : (Node.machine.monitor (Burst.watch d)).Admits (Node.Calm d)
      (.boot major armedMs start, ⟨start, start⟩) start iterations) :
    NeverStarved (.boot major armedMs start) start iterations := by
  intro a hstart hend
  have hpos : (0 : ℚ) ≤ maxGreenS := by norm_num [maxGreenS]
  refine Machine.shows_of_monitor (w := Burst.watch d)
    (g := ⟨start, start⟩) ?_
  have hrun := (hserved.monitor (w := Burst.watch d) ⟨start, start⟩).and hcalm
  refine hrun.shows
    (I := fun x t lit => ∃ a, Node.Progress d x.1 x.2 t lit a)
    ?_ ?_ ?_ ⟨_, Node.boot_progress d hd major armedMs start⟩ (Or.inl hstart)
    ?_ hend ?_
  · rintro ⟨n, b⟩ t lit k ⟨a, hprogress⟩ ⟨hserved, hcalm⟩
    exact hprogress.iterate hd hserved hcalm
  · rintro ⟨n, b⟩ t lit ⟨a, hprogress⟩ hdark
    exact hprogress.next_lt hd' (by simpa using hd) hdark
  · rintro ⟨n, b⟩ t lit k ⟨a, hprogress⟩ ⟨hserved, _⟩ hdark
    exact hprogress.next_lt hd' hserved.1.2.1 hdark
  · linarith
  · linarith

/-- The hypotheses hold of a run in which the detector fails once. -/
theorem never_starved_of_calm_single_fault :
    NeverStarved (.boot .ns none 0) 0
      [detection true (1 / 10), detection false (1 / 5),
        detection false (3 / 10), detection true (2 / 5)] :=
  never_starved_of_calm .ns none 0 (1 / 10) (by norm_num) (by norm_num) _
    (by decide +kernel) (by decide +kernel)

end Semaforo
