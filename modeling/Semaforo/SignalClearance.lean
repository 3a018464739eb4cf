import Semaforo.NodeMoves
import Semaforo.SignalHeads
import Mathlib.Tactic

/-!
# Clearance on the lamps

The safety layer times its intervals by its own clock readings, and the lamps
follow only when the iteration reaches `set_phase`.  Between two reds of the
layer and of the lamps lies at most one iteration: if no iteration takes longer
than `d`, the lamps give every change of axis a steady red that, with `d` added,
the clock of the layer reads as the configured interval.
-/

namespace Semaforo

/-- One iteration of the loop, and the instant at which `set_phase` reads the
clock. -/
structure Actuation where
  iteration : Iteration
  appliedAt : TimePoint
  deriving DecidableEq, Repr

/-- The node and the heads it drives. -/
structure Cabinet where
  node : Node
  signals : SignalState
  deriving DecidableEq, Repr

namespace Cabinet

/-- The layer is built at `builtAt`, the controller later, at `flashedAt`. -/
def boot (major : MajorApproach) (armedMs : Option ℤ)
    (builtAt flashedAt : TimePoint) : Cabinet where
  node := .boot major armedMs builtAt
  signals := .boot flashedAt

def actuate (c : Cabinet) (e : Actuation) : Cabinet :=
  let m := c.node.atValidate e.iteration
  let (validated, safety) :=
    m.safety.validate (m.loop.proposedPhase e.iteration) e.iteration.validateNow
  { node := { m with safety := safety }
    signals := (c.signals.setPhase validated.phase e.appliedAt).2 }

def machine : Machine Cabinet Actuation TimePoint where
  step := actuate
  time := Actuation.appliedAt

/-- The iteration reads the clock in order and reaches `set_phase` at most `d`
seconds after the iteration before it did. -/
def Paced (d : ℚ) (_ : Cabinet) (t : TimePoint) (e : Actuation) : Prop :=
  (∀ now ∈ e.iteration.readings,
    t ≤ now ∧ now ≤ e.iteration.validateNow) ∧
    t ≤ e.iteration.validateNow ∧ e.iteration.validateNow ≤ e.appliedAt ∧
    e.appliedAt ≤ t + d

instance (d : ℚ) (c : Cabinet) (t : TimePoint) (e : Actuation) :
    Decidable (Paced d c t e) :=
  inferInstanceAs (Decidable ((∀ now ∈ e.iteration.readings,
    t ≤ now ∧ now ≤ e.iteration.validateNow) ∧
    t ≤ e.iteration.validateNow ∧ e.iteration.validateNow ≤ e.appliedAt ∧
    e.appliedAt ≤ t + d))

def phase (c : Cabinet) : Phase := c.signals.getCurrentPhase

theorem actuate_node (c : Cabinet) (e : Actuation) :
    (c.actuate e).node = c.node.iterate e.iteration := rfl

theorem actuate_phase (c : Cabinet) (e : Actuation) :
    (c.actuate e).phase = (c.actuate e).node.shown := by
  refine (SignalState.setPhase_currentPhase _ _ _).trans ?_
  exact SafetyLayer.validate_phase _ _ _

end Cabinet

/-! ## What an iteration does to the timer of the layer -/

namespace SafetyLayer

/-- Toggles leave the interlock alone or restart it at one of their instants. -/
theorem Healthy.run_toggles_cases {s : SafetyLayer} (hs : s.Healthy)
    {a : Interlock} (hrep : s.Represents a) {times : List TimePoint}
    {calls : List Event} (hcalls : AllToggles times calls) :
    ∃ a', (machine.run s calls).Represents a' ∧
      (a' = a ∨ a'.sub.Restarted ∧ a'.since ∈ times) := by
  induction calls generalizing s a with
  | nil => exact ⟨a, hrep, Or.inl rfl⟩
  | cons e calls ih =>
      obtain ⟨on, now, hnow, rfl⟩ := hcalls e (List.mem_cons_self ..)
      have hrest : AllToggles times calls :=
        fun e he => hcalls e (List.mem_cons_of_mem _ he)
      obtain ⟨first, hstep, hfirst⟩ := apply_refines hrep (toggle on now)
      have hcase : first = a ∨ first.sub.Restarted ∧ first.since ∈ times := by
        cases hstep with
        | engage _ => exact Or.inr ⟨.ring, hnow⟩
        | release => exact Or.inr ⟨.clearance, hnow⟩
        | ignore _ => exact Or.inl rfl
      obtain ⟨last, hlast, hmoved⟩ := ih (hs.run [toggle on now]) hfirst hrest
      refine ⟨last, hlast, ?_⟩
      rcases hmoved with rfl | hrestarted
      · exact hcase
      · exact Or.inr hrestarted

end SafetyLayer

theorem SubPhase.Restarted.display_eq {p : SubPhase} (hp : p.Restarted)
    (major : MajorApproach) : p.display major = .allRed := by
  cases hp <;> rfl

namespace Node

/-- The moves of one iteration: the toggles leave the interlock alone or restart
it, then it makes one tick. -/
theorem Arbitrated.ticks_once {n : Node} (hn : n.Arbitrated) {a : Interlock}
    (hrep : n.safety.Represents a) (k : Iteration) :
    ∃ a' a'', (a' = a ∨ a'.sub.Restarted ∧ a'.since ∈ k.readings) ∧
      Interlock.Step {} a' ⟨.validate ((n.atValidate k).loop.proposedPhase k),
        k.validateNow⟩ a'' ∧
      (n.iterate k).safety.Represents a'' := by
  obtain ⟨htoggles, _⟩ := n.loop.handleFaults_arbitrates k
  obtain ⟨a', hrep', hcase⟩ := hn.healthy.run_toggles_cases hrep htoggles
  obtain ⟨a'', hstep, hrep''⟩ := SafetyLayer.validate_refines hrep'
    ((n.atValidate k).loop.proposedPhase k) k.validateNow
  change Interlock.Step (n.atValidate k).safety.t _ _ _ at hstep
  rw [(hn.atValidate k).healthy.timings] at hstep
  exact ⟨a', a'', hcase, hstep, hrep''⟩

theorem iterate_major (n : Node) (k : Iteration) :
    (n.iterate k).safety.major = n.safety.major := by
  have hvalidate := SafetyLayer.apply_major (n.atValidate k).safety
    ⟨.validate ((n.atValidate k).loop.proposedPhase k), k.validateNow⟩
  exact hvalidate.trans (SafetyLayer.run_major _ _)

end Node

/-! ## One change of the lamps -/

/-- The ways in which the phase on the heads changes at `stop` when it has been
`p` since `b`. -/
inductive HeadLink (d : ℚ) (p : Phase) (b stop : TimePoint) (p' : Phase) :
    Prop where
  | toGreen (hred : p = .allRed) (hgreen : isGreen p' = true)
      (hheld : Stopwatch.float.reaches (.fin allRedS) (stop - b + d))
  | toAmber (hgreen : isGreen p = true) (hamber : p' = yellowFor p)
  | toRed (hred : p' = .allRed)

namespace Cabinet

/-- What is known while one phase is on the heads since `b`: they carry the
lamps of the phase the layer shows, and a red of theirs began at most `d` after
that of the layer. -/
structure Follows (d : ℚ) (f : Cabinet) (b : TimePoint) (c : Cabinet)
    (t : TimePoint) : Prop where
  arbitrated : c.node.Arbitrated
  indicates : c.signals.Indicates
  shown : c.phase = c.node.shown
  held : f.signals = c.signals
  started : b ≤ t
  since : c.phase = .allRed → b - d ≤ c.node.safety.phaseStart

variable {d : ℚ} {f c : Cabinet} {b t : TimePoint} {e : Actuation}

/-- What the layer reads as a whole all-red is more than `0`, and so is any
longer time. -/
theorem reaches_allRed {x y : ℚ} (hxy : x ≤ y)
    (hread : ({} : Timings).allRed ≤ .fin (floatSeconds x)) :
    Stopwatch.float.reaches (.fin allRedS) y := by
  have hx : allRedS ≤ floatSeconds x := hread
  have hy := hx.trans (floatSeconds_mono hxy)
  refine Stopwatch.float_reaches (pos_of_floatSeconds_pos ?_).le hy
  exact lt_of_lt_of_le (by norm_num [allRedS]) hy

theorem Paced.le_appliedAt (hpaced : Paced d c t e) : t ≤ e.appliedAt :=
  hpaced.2.1.trans hpaced.2.2.1

/-- The timer of the layer runs on or was restarted in this iteration. -/
theorem Follows.phaseStart_actuate (hfollows : Follows d f b c t)
    (hpaced : Paced d c t e) :
    (c.actuate e).node.safety.phaseStart = c.node.safety.phaseStart ∨
      t ≤ (c.actuate e).node.safety.phaseStart := by
  obtain ⟨a, hrep⟩ := hfollows.arbitrated.healthy.exists_represents
  obtain ⟨a', a'', hcase, hstep, hrep''⟩ :=
    hfollows.arbitrated.ticks_once hrep e.iteration
  rw [actuate_node, hrep''.since, hrep.since]
  rcases hstep.since_eq with hsame | hnow
  · rw [hsame]
    rcases hcase with rfl | ⟨_, hreading⟩
    · exact Or.inl rfl
    · exact Or.inr (hpaced.1 _ hreading).1
  · rw [hnow]
    exact Or.inr hpaced.2.1

/-- A change of the phase on the heads, and that it restarts the timer. -/
theorem Follows.link (hfollows : Follows d f b c t) (hpaced : Paced d c t e)
    (hd : floatSeconds d < allRedS) (hne : (c.actuate e).phase ≠ c.phase) :
    HeadLink d c.phase b e.appliedAt (c.actuate e).phase ∧
      t ≤ (c.actuate e).node.safety.phaseStart := by
  obtain ⟨a, hrep⟩ := hfollows.arbitrated.healthy.exists_represents
  obtain ⟨a', a'', hcase, hstep, hrep''⟩ :=
    hfollows.arbitrated.ticks_once hrep e.iteration
  have hbefore : c.phase = a.display c.node.safety.major :=
    hfollows.shown.trans hrep.applied
  have hafter : (c.actuate e).phase = a''.display c.node.safety.major := by
    rw [actuate_phase, actuate_node, ← Node.iterate_major c.node e.iteration]
    exact hrep''.applied
  rw [actuate_node, hrep''.since, hafter, hbefore]
  rw [hafter, hbefore] at hne
  rcases hcase with rfl | ⟨hrestarted, hreading⟩
  · obtain ⟨hchange, hsince⟩ := hstep.change (by simp) hne
    rw [hsince]
    refine ⟨?_, hpaced.2.1⟩
    cases hchange with
    | toAmber hgreen hamber _ _ => exact .toAmber hgreen hamber
    | greenCut _ hred _ => exact .toRed hred
    | amberEnds _ hred _ => exact .toRed hred
    | toGreen hred hgreen _ hheld =>
        refine .toGreen hred hgreen ?_
        have hsince := hfollows.since (hbefore.trans hred)
        have happlied := hpaced.2.2.1
        rw [hrep.since] at hsince
        have hlonger : e.iteration.validateNow - a'.since ≤
            e.appliedAt - b + d := by linarith
        exact reaches_allRed hlonger hheld
    | toFlash hclearance _ =>
        have hmode := hfollows.arbitrated.healthy.mode_ne hrep
        rw [hclearance] at hmode
        exact absurd rfl hmode
  · have hlow := (hpaced.1 _ hreading).1
    have hsince : t ≤ a''.since := by
      rcases hstep.since_eq with h | h
      · rw [h]
        exact hlow
      · rw [h]
        exact hpaced.2.1
    refine ⟨.toRed ?_, hsince⟩
    have hred : a'.display c.node.safety.major = .allRed :=
      SubPhase.Restarted.display_eq hrestarted _
    by_contra hlit
    -- a red that began in this iteration cannot be over by its end
    have hleft : a''.display c.node.safety.major ≠
        a'.display c.node.safety.major := by
      rw [show a'.display c.node.safety.major = .allRed from hred]
      exact hlit
    obtain ⟨hchange, _⟩ := hstep.change (by simp) hleft
    cases hchange with
    | toAmber hgreen _ _ _ => simp [hred, isGreen] at hgreen
    | greenCut hgreen _ _ => simp [hred, isGreen] at hgreen
    | amberEnds hamber _ _ => simp [hred, isYellow] at hamber
    | toGreen _ _ _ hheld =>
        have hclear : allRedS ≤
            floatSeconds (e.iteration.validateNow - a'.since) := hheld
        have hshort : e.iteration.validateNow - a'.since ≤ d := by
          linarith [hpaced.2.2.1, hpaced.2.2.2]
        exact absurd hd (not_lt.mpr (hclear.trans (floatSeconds_mono hshort)))
    | toFlash hclearance _ =>
        have hmode := hrestarted.mode_ne
        rw [hclearance] at hmode
        exact hmode rfl

theorem Follows.phase_eq (hfollows : Follows d f b c t) :
    f.phase = c.phase :=
  congrArg SignalState.getCurrentPhase hfollows.held

theorem Follows.keep (hfollows : Follows d f b c t) (hpaced : Paced d c t e)
    (hkey : (c.actuate e).phase = f.phase) :
    Follows d f b (c.actuate e) e.appliedAt where
  arbitrated := hfollows.arbitrated.iterate e.iteration
  indicates := hfollows.indicates.setPhase _ _
  shown := actuate_phase c e
  held := by
    have hsame : (c.actuate e).phase = c.phase := hkey.trans hfollows.phase_eq
    rw [actuate_phase] at hsame
    refine hfollows.held.trans (Eq.symm ?_)
    refine congrArg Prod.snd (SignalState.setPhase_same ?_ e.appliedAt)
    exact (SafetyLayer.validate_phase _ _ _).trans hsame
  started := hfollows.started.trans hpaced.le_appliedAt
  since := by
    intro hred
    have hbefore : c.phase = .allRed :=
      hfollows.phase_eq.symm.trans (hkey.symm.trans hred)
    rcases hfollows.phaseStart_actuate hpaced with hsame | hrestart
    · rw [hsame]
      exact hfollows.since hbefore
    · linarith [hfollows.started, hpaced.le_appliedAt, hpaced.2.2.2]

theorem Follows.turn (hfollows : Follows d f b c t) (hpaced : Paced d c t e)
    (hd : floatSeconds d < allRedS) (hkey : (c.actuate e).phase ≠ f.phase) :
    Follows d (c.actuate e) e.appliedAt (c.actuate e) e.appliedAt where
  arbitrated := hfollows.arbitrated.iterate e.iteration
  indicates := hfollows.indicates.setPhase _ _
  shown := actuate_phase c e
  held := rfl
  started := le_refl _
  since := by
    intro _
    have hne : (c.actuate e).phase ≠ c.phase := by
      rw [← hfollows.phase_eq]
      exact hkey
    have hrestart := (hfollows.link hpaced hd hne).2
    linarith [hpaced.2.2.2]

theorem follows_stretchInvariant (hd : floatSeconds d < allRedS) :
    machine.StretchInvariant phase (Paced d) (Follows d) where
  keep := fun _ _ _ _ _ hfollows hpaced hkey => hfollows.keep hpaced hkey
  turn := fun _ _ _ _ _ hfollows hpaced hkey => hfollows.turn hpaced hd hkey

/-- What is known of the cabinet at any time. -/
structure Settled (c : Cabinet) : Prop where
  arbitrated : c.node.Arbitrated
  indicates : c.signals.Indicates
  shown : c.phase = c.node.shown ∨ c.phase = .flashAllRed

theorem boot_settled (major : MajorApproach) (armedMs : Option ℤ)
    (builtAt flashedAt : TimePoint) :
    (boot major armedMs builtAt flashedAt).Settled where
  arbitrated := Node.boot_arbitrated major armedMs builtAt
  indicates := SignalState.boot_indicates flashedAt
  shown := Or.inr rfl

theorem Settled.actuate (hc : c.Settled) (e : Actuation) :
    (c.actuate e).Settled where
  arbitrated := hc.arbitrated.iterate e.iteration
  indicates := hc.indicates.setPhase _ _
  shown := Or.inl (actuate_phase c e)

theorem Settled.follows (hc : c.Settled) {a : Axis}
    (hmoving : c.phase.aspect a ≠ .red) : Follows d c t c t where
  arbitrated := hc.arbitrated
  indicates := hc.indicates
  shown := by
    refine hc.shown.resolve_right ?_
    intro hflash
    rw [hflash] at hmoving
    exact hmoving (by cases a <;> rfl)
  held := rfl
  started := le_refl t
  since := by
    intro hred
    rw [hred] at hmoving
    exact absurd (by cases a <;> rfl) hmoving

end Cabinet

/-! ## Between two axes -/

namespace SignalState

/-- A lamp of the head lets its axis move. -/
def Permits (s : SignalState) (a : Axis) : Prop :=
  (s.head a).yellow = true ∨ (s.head a).green = true ∨
    (s.head a).leftArrow = true

instance (s : SignalState) (a : Axis) : Decidable (s.Permits a) :=
  inferInstanceAs (Decidable ((s.head a).yellow = true ∨
    (s.head a).green = true ∨ (s.head a).leftArrow = true))

/-- Both heads show a steady red and nothing else. -/
def SteadyRed (s : SignalState) : Prop := ∀ a, s.head a = { red := true }

theorem Indicates.permits_iff {s : SignalState} (hs : s.Indicates)
    (a : Axis) : s.Permits a ↔ s.currentPhase.aspect a ≠ .red := by
  unfold Permits
  rw [hs a]
  cases s.currentPhase.aspect a <;> simp [Aspect.head]

theorem Indicates.steadyRed {s : SignalState} (hs : s.Indicates)
    (hred : s.currentPhase = .allRed) : s.SteadyRed := by
  intro a
  rw [hs a, hred]
  cases a <;> rfl

end SignalState

abbrev LampPeriod := Machine.Stretch Cabinet TimePoint

/-- Two neighbours on the timeline of the heads. -/
def LampLink (d : ℚ) (x y : LampPeriod) : Prop :=
  HeadLink d x.first.phase x.start x.stop y.first.phase ∧
    y.first.phase ≠ x.first.phase ∧ y.first.signals.Indicates

theorem aspect_yellowFor {p : Phase} {a a' : Axis} (hgreen : isGreen p = true)
    (hmoving : p.aspect a ≠ .red) (hamber : (yellowFor p).aspect a' ≠ .red) :
    a' = a := by
  cases p <;> cases a <;> cases a' <;>
    simp_all [isGreen, isNS, yellowFor, Phase.aspect]

theorem LampLink.moving {d : ℚ} {x y : LampPeriod} (hlink : LampLink d x y)
    {a a' : Axis} (hx : x.first.phase.aspect a ≠ .red)
    (hy : y.first.phase.aspect a' ≠ .red) :
    isGreen x.first.phase = true ∧
      y.first.phase = yellowFor x.first.phase ∧ a' = a := by
  cases hlink.1 with
  | toGreen hred _ _ =>
      rw [hred] at hx
      exact absurd (by cases a <;> rfl) hx
  | toAmber hgreen hamber =>
      exact ⟨hgreen, hamber, aspect_yellowFor hgreen hx (hamber ▸ hy)⟩
  | toRed hred =>
      rw [hred] at hy
      exact absurd (by cases a' <;> rfl) hy

/-- A red on the timeline whose successor is known has been held in full. -/
theorem LampLink.held {d : ℚ} {x y : LampPeriod} (hlink : LampLink d x y)
    (hred : x.first.phase = .allRed) :
    Stopwatch.float.reaches (.fin allRedS) (x.stop - x.start + d) := by
  cases hlink.1 with
  | toGreen _ _ hheld => exact hheld
  | toAmber hgreen _ => simp [hred, isGreen] at hgreen
  | toRed hred' => exact absurd (hred'.trans hred.symm) hlink.2.1

theorem exists_red_of_chain {d : ℚ} {a a' : Axis} (hne : a ≠ a')
    {x y : LampPeriod} {mid after : List LampPeriod}
    (hchain : (x :: (mid ++ y :: after)).IsChain (LampLink d))
    (hx : x.first.phase.aspect a ≠ .red)
    (hy : y.first.phase.aspect a' ≠ .red) :
    ∃ r ∈ mid, r.first.phase = .allRed ∧ r.first.signals.Indicates ∧
      Stopwatch.float.reaches (.fin allRedS) (r.stop - r.start + d) := by
  induction mid generalizing x with
  | nil =>
      have hlink := (List.isChain_cons_cons.mp hchain).1
      exact absurd (hlink.moving hx hy).2.2.symm hne
  | cons m mid ih =>
      obtain ⟨hlink, hrest⟩ := List.isChain_cons_cons.mp hchain
      by_cases hm : m.first.phase.aspect a = .red
      · have hred : m.first.phase = .allRed := by
          cases hlink.1 with
          | toGreen hred _ _ =>
              rw [hred] at hx
              exact absurd (by cases a <;> rfl) hx
          | toAmber hgreen hamber =>
              rw [hamber] at hm
              revert hx hm hgreen
              cases x.first.phase <;> cases a <;>
                simp [isGreen, isNS, yellowFor, Phase.aspect]
          | toRed hred => exact hred
        refine ⟨m, List.mem_cons_self .., hred, hlink.2.2, ?_⟩
        cases mid with
        | nil => exact (List.isChain_cons_cons.mp hrest).1.held hred
        | cons z mid => exact (List.isChain_cons_cons.mp hrest).1.held hred
      · obtain ⟨r, hr, hcleared⟩ := ih hrest hm
        exact ⟨r, List.mem_cons_of_mem m hr, hcleared⟩

namespace Cabinet

/-- Run the loop from its entry at `t`, with no iteration longer than `d`.  When
lamps have let one axis move and later let the other move, both heads have in
between been steadily red for a time that, with `d` added, is read as the
configured interval. -/
theorem lamp_clearance (major : MajorApproach) (armedMs : Option ℤ)
    (builtAt flashedAt t : TimePoint) (d : ℚ) (ticks : List Actuation)
    (before : List LampPeriod) (x : LampPeriod) (mid : List LampPeriod)
    (y : LampPeriod) (after : List LampPeriod) (a a' : Axis)
    (hd : floatSeconds d < allRedS)
    (hrun : machine.Admits (Paced d) (boot major armedMs builtAt flashedAt) t
      ticks)
    (hsplit : machine.timeline phase (boot major armedMs builtAt flashedAt) t
      ticks = before ++ x :: (mid ++ y :: after))
    (hx : x.first.signals.Permits a) (hy : y.first.signals.Permits a')
    (hne : a ≠ a') :
    ∃ r ∈ mid, r.first.signals.SteadyRed ∧
      Stopwatch.float.reaches (.fin allRedS) (r.stop - r.start + d) := by
  have hsettled : ∀ earlier,
      (machine.run (boot major armedMs builtAt flashedAt) earlier).Settled :=
    fun earlier => machine.run_invariant (fun _ e hc => hc.actuate e) earlier
      (boot_settled major armedMs builtAt flashedAt)
  have hbefore : before ≠ [] := by
    rintro rfl
    obtain ⟨stop, hhead⟩ := Machine.head?_timelineFrom machine phase
      (boot major armedMs builtAt flashedAt)
      (boot major armedMs builtAt flashedAt) t t ticks
    change (machine.timeline _ _ _ _).head? = _ at hhead
    rw [hsplit, List.nil_append, List.head?_cons, Option.some.injEq] at hhead
    rw [hhead] at hx
    revert hx
    cases a <;> simp [SignalState.Permits, boot, SignalState.boot,
      SignalState.setEmergencyFlash, SignalState.head]
  obtain ⟨earlier, later, rfl, hfirst, hstart, hsuffix⟩ :=
    Machine.exists_suffix_of_timeline_split hbefore hsplit
  have hrun' := (machine.admits_append.mp hrun).2
  rw [hfirst, hstart] at hrun'
  have hxs : x.first.Settled := hfirst ▸ hsettled earlier
  have hmoving := (hxs.indicates.permits_iff a).mp hx
  have hchain := (follows_stretchInvariant hd).isChain
    (R := fun f start stop f' => HeadLink d f.phase start stop f'.phase ∧
      f'.phase ≠ f.phase ∧ f'.signals.Indicates)
    (by
      intro f b c now e hfollows hpaced hkey
      have hkey' : (c.actuate e).phase ≠ c.phase := by
        rw [← hfollows.phase_eq]
        exact hkey
      refine ⟨?_, hkey, (hfollows.turn hpaced hd hkey).indicates⟩
      rw [hfollows.phase_eq]
      exact (hfollows.link hpaced hd hkey').1)
    (hxs.follows hmoving) hrun'
  rw [hsuffix] at hchain
  have hys : y.first.signals.Indicates := by
    obtain ⟨m, hm⟩ : ∃ m, LampLink d m y := by
      have hsplit' := List.isChain_append.mp
        (show ((x :: mid) ++ y :: after).IsChain (LampLink d) from hchain)
      exact ⟨_, hsplit'.2.2 _ (List.getLast?_eq_some_getLast (List.cons_ne_nil x mid))
        y rfl⟩
    exact hm.2.2
  obtain ⟨r, hr, hred, hindicates, hheld⟩ :=
    exists_red_of_chain hne hchain hmoving ((hys.permits_iff a').mp hy)
  exact ⟨r, hr, hindicates.steadyRed hred, hheld⟩

/-- An iteration that does everything at one instant. -/
def promptTick (asked : Phase) (now : TimePoint) : Actuation where
  iteration :=
    { tickNowMs := 0
      silenceNow := now
      cameraNow := now
      inferenceNow := now
      policyPhase := asked
      validateNow := now }
  appliedAt := now

def crossing : List Actuation :=
  [2, 7 / 2, 5, 13 / 2].map (promptTick .greenNS) ++
    [8, 19 / 2, 11, 25 / 2, 14].map (promptTick .greenEW)

/-- The period that the heads begin with iteration `i` of the crossing. -/
def crossingPeriod (i : ℕ) (start stop : TimePoint) : LampPeriod :=
  ⟨machine.run (boot .ns none 0 0) (crossing.take i), start, stop⟩

theorem lamp_clearance_crossing :
    ∃ r ∈ [crossingPeriod 5 8 11, crossingPeriod 7 11 14],
      r.first.signals.SteadyRed ∧
        Stopwatch.float.reaches (.fin allRedS) (r.stop - r.start + 3 / 2) :=
  lamp_clearance .ns none 0 0 1 (3 / 2) crossing
    [⟨boot .ns none 0 0, 1, 2⟩] (crossingPeriod 1 2 8)
    [crossingPeriod 5 8 11, crossingPeriod 7 11 14] (crossingPeriod 9 14 14) []
    .ns .ew (by decide +kernel) (by decide +kernel) (by decide +kernel)
    (by decide +kernel) (by decide +kernel) (by decide)

/-- A detector that fails and then takes longer than the all-red interval lets
the ring run past its first red before the heads have shown it. -/
def stalledTick : Actuation where
  iteration :=
    { tickNowMs := 0
      silenceNow := 3
      cameraNow := 3
      inferenceOk := false
      inferenceNow := 3
      policyPhase := .greenEW
      validateNow := 11 / 2 }
  appliedAt := 11 / 2

example : (machine.timeline phase (boot .ns none 0 0) 1
    [promptTick .greenEW 2, stalledTick]).map (fun x => x.first.phase) =
      [.flashAllRed, .greenEW, .greenNS] := by
  decide +kernel

end Cabinet

end Semaforo
