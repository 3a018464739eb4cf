import Semaforo.LoopRequests
import Semaforo.NodeMoves
import Semaforo.PolicyEngine
import Mathlib.Tactic

/-!
# All-red as a rest state

After boot, and after the ring, the interlock has no target.  It rests in
all-red until some tick asks for a green; requests for all-red or for an amber
change nothing.  From the first green request on, every all-red is a clearance
and ends on time, whatever is asked for.
-/

namespace Semaforo

/-! ## Healthy iterations -/

namespace Loop

theorem not_faulty_iff {l : Loop} :
    l.faulty = false ↔ l.cmdGuard.inFallback = false ∧
      l.isCameraOnline = true ∧ l.inferenceOnline = true := by
  simp [faulty, and_assoc]

theorem pop_quiet {l : Loop} (hl : l.faulty = false) {p : Popped}
    (hp : p.command.isActionable = true) (tickNowMs : ℤ) :
    (l.pop tickNowMs p).2 = [] ∧ (l.pop tickNowMs p).1.faulty = false := by
  have hguard := (not_faulty_iff.mp hl).1
  have hdecision : (l.cmdGuard.onCommand p.command tickNowMs).1 = .none := by
    simp [CommandGuard.onCommand, hp, hguard]
  have hcalls : (l.pop tickNowMs p).2 = [] := by
    simp [pop, act, hdecision]
  obtain ⟨_, hmode⟩ := l.pop_arbitrates tickNowMs p
  rw [hcalls, modeAfter_nil] at hmode
  exact ⟨hcalls, hmode ▸ hl⟩

theorem drain_quiet {l : Loop} (hl : l.faulty = false) {popped : List Popped}
    (hpopped : ∀ p ∈ popped, p.command.isActionable = true)
    (tickNowMs : ℤ) :
    (l.drain tickNowMs popped).2 = [] ∧
      (l.drain tickNowMs popped).1.faulty = false := by
  induction popped generalizing l with
  | nil => exact ⟨rfl, hl⟩
  | cons p popped ih =>
      obtain ⟨hcalls, hnext⟩ :=
        pop_quiet hl (hpopped p (List.mem_cons_self ..)) tickNowMs
      obtain ⟨hlater, hend⟩ :=
        ih hnext (fun q hq => hpopped q (List.mem_cons_of_mem p hq))
      refine ⟨?_, hend⟩
      simp only [drain]
      rw [hcalls, hlater]
      rfl

theorem silenceWatchdog_quiet {l : Loop} {k : Iteration}
    (hafter : (l.silenceWatchdog k).1.cmdGuard.inFallback = false) :
    (l.silenceWatchdog k).2 = [] := by
  have hdecided := l.cmdGuard.tick_decided k.tickNowMs
  unfold silenceWatchdog at hafter ⊢
  split_ifs with hconnected
  · rw [if_pos hconnected] at hafter
    generalize l.cmdGuard.tick k.tickNowMs = r at hafter hdecided
    obtain ⟨decision, g⟩ := r
    cases hdecided with
    | none _ => rfl
    | enter _ hfallback => exact absurd (hfallback.symm.trans hafter) (by simp)
    | exit _ _ => rfl
  · rfl

theorem acquireFrame_quiet {l : Loop} {k : Iteration}
    (hl : l.isCameraOnline = true)
    (hafter : (l.acquireFrame k).1.isCameraOnline = true) :
    l.acquireFrame k = (l, []) := by
  unfold acquireFrame at hafter ⊢
  split_ifs at hafter ⊢ <;> simp_all

theorem runDetection_quiet {l : Loop} {k : Iteration}
    (hl : l.inferenceOnline = true)
    (hafter : (l.runDetection k).1.inferenceOnline = true) :
    (l.runDetection k).2 = [] := by
  unfold runDetection at hafter ⊢
  split_ifs at hafter ⊢ <;> simp_all

theorem handleFaults_quiet {l : Loop} {k : Iteration}
    (hl : l.faulty = false)
    (hpopped : ∀ p ∈ k.popped, p.command.isActionable = true)
    (hafter : (l.handleFaults k).1.faulty = false) :
    (l.handleFaults k).2 = [] := by
  obtain ⟨hdrain, hdrained⟩ := drain_quiet hl hpopped k.tickNowMs
  obtain ⟨_, hcamera, hinference⟩ := not_faulty_iff.mp hdrained
  obtain ⟨hguard, hcamera', hinference'⟩ := not_faulty_iff.mp hafter
  simp only [handleFaults] at hguard hcamera' hinference' ⊢
  rw [runDetection_cmdGuard, acquireFrame_cmdGuard] at hguard
  rw [runDetection_isCameraOnline] at hcamera'
  have hframe := acquireFrame_quiet
    ((silenceWatchdog_isCameraOnline _ k).trans hcamera) hcamera'
  rw [hframe] at hinference' ⊢
  have hdetection := runDetection_quiet
    ((silenceWatchdog_inferenceOnline _ k).trans hinference) hinference'
  rw [hdrain, silenceWatchdog_quiet hguard, hdetection]
  rfl

end Loop

/-! ## Resting and serving -/

namespace SubPhase

theorem eq_clearance_none_iff {p : SubPhase} (hmode : p.mode = .normal) :
    p = .clearance none ↔ p.target? = none := by
  cases p with
  | green g => simp [target?]
  | amber o h => simp [target?]
  | clearance c => simp [target?]
  | ring i => cases hmode
  | flashClearance => cases hmode
  | flash => cases hmode

theorem Rests.eq_clearance {p : SubPhase} (hrests : p.Rests)
    (hmode : p.mode ≠ .flashing) : p = .clearance none := by
  cases p with
  | clearance c =>
      cases c with
      | none => rfl
      | some h => cases hrests
  | flash => exact absurd rfl hmode
  | green g => cases hrests
  | amber o h => cases hrests
  | ring i => cases hrests
  | flashClearance => cases hrests

theorem Stays.not_rests_of {t : Timings} {desired : Phase} {el : ℚ}
    {p q : SubPhase} (hstays : p.Stays t desired el q)
    (hasked : ¬ p.Rests ∨ isGreen desired = true)
    (hmode : q.mode ≠ .flashing) : ¬ q.Rests := by
  rcases hasked with hrests | hgreen
  · cases hstays with
    | @clearance c _ _ =>
        cases c with
        | none => exact absurd trivial hrests
        | some h => exact id
    | flash => exact absurd rfl hmode
    | green _ _ _ => exact id
    | amber _ _ => exact id
    | ring _ _ => exact id
    | flashClearance _ => exact id
  · obtain ⟨g, rfl⟩ := Green.exists_of_isGreen hgreen
    refine hstays.not_rests ?_
    rintro rfl
    exact hmode rfl

theorem Leaves.not_rests {t : Timings} {desired : Phase} {el : ℚ}
    {p q : SubPhase} (hleaves : p.Leaves t desired el q)
    (hmode : q.mode ≠ .flashing) : ¬ q.Rests := by
  cases hleaves with
  | flashOver _ => exact absurd rfl hmode
  | greenOver _ _ => exact id
  | amberOver _ _ => exact id
  | clearanceOver _ _ _ => exact id
  | ringOver _ => exact id
  | escalate _ _ _ => exact id

end SubPhase

namespace Interlock

theorem Step.not_rests {t : Timings} {a a' : Interlock} {desired : Phase}
    {now : TimePoint} (hstep : Step t a ⟨.validate desired, now⟩ a')
    (hasked : ¬ a.sub.Rests ∨ isGreen desired = true)
    (hmode : a'.sub.mode ≠ .flashing) : ¬ a'.sub.Rests := by
  cases hstep with
  | leave hleaves => exact hleaves.not_rests hmode
  | stay hstays => exact hstays.not_rests_of hasked hmode

theorem Step.rest {t : Timings} (ht : t.Trusted) {b now : TimePoint}
    {desired : Phase} {a : Interlock} (hgreen : isGreen desired = false)
    (hstep : Step t ⟨.clearance none, b⟩ ⟨.validate desired, now⟩ a) :
    a = ⟨.clearance none, b⟩ := by
  have hcommit : commit none desired = none :=
    Green.ofPhase?_eq_none_iff.mpr hgreen
  cases hstep with
  | stay hstays =>
      cases hstays with
      | clearance _ _ => rw [hcommit]
  | leave hleaves =>
      cases hleaves with
      | clearanceOver _ _ htarget =>
          rw [hcommit] at htarget
          cases htarget
      | escalate hmode hover _ => exact absurd (ht.schedule hmode) hover.1

theorem Step.since_of_red {t : Timings} (ht : t.Trusted) {a a' : Interlock}
    {desired : Phase} {now : TimePoint}
    (hstep : Step t a ⟨.validate desired, now⟩ a')
    (hmode : a.sub.mode ≠ .flashing) (hred : a.sub.colour = .red)
    (hred' : a'.sub.colour = .red) : a'.since = a.since := by
  cases hstep with
  | stay _ => rfl
  | @leave p q since now desired hleaves =>
      have hnext : q.colour = p.colour.next :=
        (hleaves.colour_eq ht hmode).1
      simp only at hred hred'
      rw [hred, hred'] at hnext
      cases hnext

end Interlock

namespace Node

/-- Camera, inference and guard are healthy at the tick, and the parser has
accepted every command. -/
def Sound (d : ℚ) (n : Node) (t : TimePoint) (k : Iteration) : Prop :=
  k.Timed d t ∧ (∀ p ∈ k.popped, p.command.isActionable = true) ∧
    (n.atValidate k).loop.faulty = false

instance (d : ℚ) (n : Node) (t : TimePoint) (k : Iteration) :
    Decidable (Sound d n t k) :=
  inferInstanceAs (Decidable (k.Timed d t ∧
    (∀ p ∈ k.popped, p.command.isActionable = true) ∧
      (n.atValidate k).loop.faulty = false))

def request (n : Node) (k : Iteration) : Phase :=
  (n.atValidate k).loop.proposedPhase k

structure Steady (n : Node) (t : TimePoint) (a : Interlock) : Prop where
  arbitrated : n.Arbitrated
  healthy : n.loop.faulty = false
  represents : n.safety.Represents a
  since_le : a.since ≤ t

theorem Steady.mode_ne {n : Node} {t : TimePoint} {a : Interlock}
    (hsteady : n.Steady t a) : a.sub.mode ≠ .flashing :=
  hsteady.arbitrated.healthy.mode_ne hsteady.represents

theorem Steady.mode_eq {n : Node} {t : TimePoint} {a : Interlock}
    (hsteady : n.Steady t a) : a.sub.mode = .normal := by
  cases hmode : a.sub.mode with
  | normal => rfl
  | ring =>
      have hon := hsteady.represents.emergency_of_ring hmode
      have hoff := hsteady.arbitrated.mode.trans hsteady.healthy
      exact absurd (hon.symm.trans hoff) (by simp)
  | flashing => exact absurd hmode hsteady.mode_ne

theorem Steady.shown_iff {n : Node} {t : TimePoint} {a : Interlock}
    (hsteady : n.Steady t a) :
    n.shown = .allRed ↔ a.sub.colour = .red := by
  have hshown : n.shown = a.sub.display n.safety.major :=
    hsteady.represents.applied
  rw [hshown]
  exact SubPhase.display_eq_allRed_iff _ hsteady.mode_ne

theorem Steady.iterate {d : ℚ} {n : Node} {t : TimePoint} {a : Interlock}
    {k : Iteration} (hsteady : n.Steady t a) (hsound : Sound d n t k) :
    ∃ a', Interlock.Step {} a ⟨.validate (n.request k), k.validateNow⟩ a' ∧
      (n.iterate k).Steady k.validateNow a' := by
  obtain ⟨⟨hnow, _, hreadings⟩, hpopped, hafter⟩ := hsound
  obtain ⟨a', a'', hhandled, hstep, hrep⟩ := hsteady.arbitrated.moves
    hsteady.represents (fun now hmem => (hreadings now hmem).2)
  have hcalls : (n.loop.handleFaults k).2 = [] :=
    Loop.handleFaults_quiet hsteady.healthy hpopped hafter
  cases hhandled with
  | restarted hswitch _ _ =>
      obtain ⟨e, he, _⟩ := hswitch
      rw [hcalls] at he
      cases he
  | unchanged _ =>
      refine ⟨a'', hstep, ?_⟩
      refine ⟨hsteady.arbitrated.iterate k, hafter, hrep, ?_⟩
      rcases hstep.since_eq with hsame | hrestart
      · rw [hsame]
        exact hsteady.since_le.trans hnow
      · rw [hrestart]

/-! ### Rest -/

def Unasked (n : Node) (_ : TimePoint) (k : Iteration) : Prop :=
  isGreen (n.request k) = false

instance (n : Node) (t : TimePoint) (k : Iteration) :
    Decidable (Unasked n t k) :=
  inferInstanceAs (Decidable (isGreen (n.request k) = false))

theorem unasked_of_asks {d : ℚ} {n : Node} {t : TimePoint}
    {iterations : List Iteration}
    (hdirected : n.loop.Directed fun p => isGreen p = false)
    (hsound : machine.Admits (Sound d) n t iterations)
    (hasks : ∀ k ∈ iterations, k.Asks fun p => isGreen p = false) :
    machine.Admits Unasked n t iterations := by
  induction iterations generalizing n t with
  | nil => trivial
  | cons k iterations ih =>
      have hk := hasks k (List.mem_cons_self ..)
      have hnext := Loop.handleFaults_directed hdirected hk
      have hcamera := (Loop.not_faulty_iff.mp hsound.1.2.2).2.1
      refine ⟨hnext.proposedPhase hk (Or.inl hcamera), ih hnext hsound.2 ?_⟩
      exact fun k' hk' => hasks k' (List.mem_cons_of_mem k hk')

theorem Steady.rests_iff {n : Node} {t : TimePoint} {a : Interlock}
    (hsteady : n.Steady t a) :
    a.sub = .clearance none ↔ n.safety.targetValid = false := by
  rw [SubPhase.eq_clearance_none_iff hsteady.mode_eq,
    (hsteady.represents.committed hsteady.mode_eq).valid]
  simp

theorem Steady.timeline_of_unasked {d : ℚ} {n : Node} {t : TimePoint}
    {a : Interlock} (hsteady : n.Steady t a)
    (hvalid : n.safety.targetValid = false) {iterations : List Iteration}
    (hsound : machine.Admits (Sound d) n t iterations)
    (hunasked : machine.Admits Unasked n t iterations) :
    n.shown = .allRed ∧ machine.timeline shown n t iterations =
      [⟨n, t, machine.endTime t iterations⟩] := by
  have hsub := hsteady.rests_iff.mpr hvalid
  have hshown : ∀ n t, (∃ b, Steady n t ⟨.clearance none, b⟩) →
      n.shown = .allRed := by
    rintro n t ⟨b, hresting⟩
    exact hresting.shown_iff.mpr rfl
  have hinit : ∃ b, n.Steady t ⟨.clearance none, b⟩ := by
    obtain ⟨p, b⟩ := a
    obtain rfl : p = .clearance none := hsub
    exact ⟨b, hsteady⟩
  refine ⟨hshown n t hinit, ?_⟩
  refine (hsound.and hunasked).timelineFrom_of_key_eq ?_ hshown hinit (hshown n t hinit)
  rintro n t k ⟨b, hresting⟩ ⟨hsound, hgreen⟩
  obtain ⟨a', hstep, hnext⟩ := hresting.iterate hsound
  rw [hstep.rest default_trusted hgreen] at hnext
  exact ⟨b, hnext⟩

/-! ### Service -/

/-- All-red is never shown for more than one clearance and two ticks. -/
def NoRedRest (d : ℚ) (n : Node) (t : TimePoint)
    (iterations : List Iteration) : Prop :=
  ∀ x ∈ machine.timeline shown n t iterations,
    x.first.shown = .allRed → x.stop - x.start ≤ allRedS + 2 * d

instance (d : ℚ) (n : Node) (t : TimePoint) (iterations : List Iteration) :
    Decidable (NoRedRest d n t iterations) :=
  inferInstanceAs (Decidable (∀ x ∈ machine.timeline shown n t iterations,
    x.first.shown = .allRed → x.stop - x.start ≤ allRedS + 2 * d))

/-- A node with a target, the open stretch of whose display is `f` from `b`. -/
structure Serving (f : Node) (b : TimePoint) (n : Node) (t : TimePoint)
    (a : Interlock) : Prop where
  steady : n.Steady t a
  onTime : a.OnTime {} t
  not_rests : ¬ a.sub.Rests
  shown : n.shown = f.shown
  red_since : f.shown = .allRed → a.since ≤ b

theorem Serving.open {n : Node} {t : TimePoint} {a : Interlock}
    (hsteady : n.Steady t a) (hontime : a.OnTime {} t)
    (hrests : ¬ a.sub.Rests) : Serving n t n t a :=
  ⟨hsteady, hontime, hrests, rfl, fun _ => hsteady.since_le⟩

theorem Serving.le_clearance {d : ℚ} (hd : 0 ≤ d) {f n : Node}
    {b t next : TimePoint} {a : Interlock} (hserving : Serving f b n t a)
    (hgap : next - t ≤ d) (hred : f.shown = .allRed) :
    next - b ≤ allRedS + 2 * d := by
  have hcolour : a.sub.colour = .red :=
    hserving.steady.shown_iff.mp (hserving.shown.trans hred)
  have hle := hserving.onTime.le_schedule hgap (c := allRedS)
    (by norm_num [allRedS]) (by
      rw [SubPhase.schedule_of_red {} hserving.steady.mode_ne hcolour]
      exact Timings.allRed_read)
  have hsince := hserving.red_since hred
  linarith

theorem Steady.serve {d : ℚ} {n : Node} {t : TimePoint} {a : Interlock}
    {k : Iteration} (hsteady : n.Steady t a) (hsound : Sound d n t k)
    (hasked : ¬ a.sub.Rests ∨ isGreen (n.request k) = true) :
    ∃ a', Serving (n.iterate k) k.validateNow (n.iterate k) k.validateNow a' ∧
      (n.shown = .allRed → (n.iterate k).shown = .allRed →
        a'.since = a.since) := by
  obtain ⟨a', hstep, hnext⟩ := hsteady.iterate hsound
  have hrests := hstep.not_rests hasked hnext.mode_ne
  refine ⟨a', .open hnext (hstep.onTime hrests) hrests, ?_⟩
  intro hred hred'
  exact hstep.since_of_red default_trusted hsteady.mode_ne
    (hsteady.shown_iff.mp hred) (hnext.shown_iff.mp hred')

theorem serving_stretchInvariant (d : ℚ) :
    machine.StretchInvariant shown (Sound d)
      (fun f b n t => ∃ a, Serving f b n t a) where
  keep := by
    rintro f b n t k ⟨a, hserving⟩ hsound hkey
    obtain ⟨a', hnext, hsince⟩ :=
      hserving.steady.serve hsound (Or.inl hserving.not_rests)
    refine ⟨a', hnext.steady, hnext.onTime, hnext.not_rests, hkey, ?_⟩
    intro hred
    rw [hsince (hserving.shown.trans hred) (hkey.trans hred)]
    exact hserving.red_since hred
  turn := by
    rintro f b n t k ⟨a, hserving⟩ hsound _
    obtain ⟨a', hnext, _⟩ :=
      hserving.steady.serve hsound (Or.inl hserving.not_rests)
    exact ⟨a', hnext⟩

theorem Serving.forall_mem {d : ℚ} (hd : 0 ≤ d) {f n : Node}
    {b t : TimePoint} {a : Interlock} (hserving : Serving f b n t a)
    {iterations : List Iteration}
    (hsound : machine.Admits (Sound d) n t iterations) :
    ∀ x ∈ machine.timelineFrom Node.shown f b n t iterations,
      x.first.shown = .allRed → x.stop - x.start ≤ allRedS + 2 * d := by
  refine (serving_stretchInvariant d).forall_mem
    (Q := fun f start stop => f.shown = .allRed →
      stop - start ≤ allRedS + 2 * d)
    ?_ ?_ ⟨a, hserving⟩ hsound
  · rintro f b n t ⟨a, hserving⟩ hred
    exact hserving.le_clearance hd (by simpa using hd) hred
  · rintro f b n t k ⟨a, hserving⟩ hsound _ hred
    exact hserving.le_clearance hd hsound.1.2.1 hred

/-- A green is committed, or the first iteration asks for one. -/
def Asked (n : Node) (iterations : List Iteration) : Bool :=
  n.safety.targetValid ||
    iterations.head?.any fun k => isGreen (n.request k)

theorem Steady.noRedRest {d : ℚ} (hd : 0 ≤ d) {n : Node} {t : TimePoint}
    {a : Interlock} (hsteady : n.Steady t a) {iterations : List Iteration}
    (hsound : machine.Admits (Sound d) n t iterations)
    (hasked : n.Asked iterations = true) : NoRedRest d n t iterations := by
  cases iterations with
  | nil =>
      intro x hx _
      obtain rfl : x = ⟨n, t, t⟩ := List.mem_singleton.mp hx
      have : (0 : ℚ) ≤ allRedS := by norm_num [allRedS]
      change t - t ≤ allRedS + 2 * d
      linarith
  | cons k iterations =>
      have hfirst : ¬ a.sub.Rests ∨ isGreen (n.request k) = true := by
        rw [Asked, Bool.or_eq_true] at hasked
        refine hasked.imp (fun hvalid hrests => ?_) id
        have hsub := hrests.eq_clearance hsteady.mode_ne
        rw [hsteady.rests_iff.mp hsub] at hvalid
        cases hvalid
      obtain ⟨a', hnext, hsince⟩ := hsteady.serve hsound.1 hfirst
      intro x hx
      unfold Machine.timeline Machine.timelineFrom at hx
      split_ifs at hx with hkey
      · refine Serving.forall_mem hd (a := a') ?_ hsound.2 x hx
        refine ⟨hnext.steady, hnext.onTime, hnext.not_rests, hkey, ?_⟩
        intro hred
        rw [hsince hred (hkey.trans hred)]
        exact hsteady.since_le
      · rcases List.mem_cons.mp hx with rfl | hmem
        · intro _
          have hgap := hsound.1.1.2.1
          have : (0 : ℚ) ≤ allRedS := by norm_num [allRedS]
          change k.validateNow - t ≤ allRedS + 2 * d
          linarith
        · exact hnext.forall_mem hd hsound.2 x hmem

/-! ### Any reachable node -/

theorem boot_since (major : MajorApproach) (armedMs : Option ℤ)
    (start : TimePoint) :
    (boot major armedMs start).safety.phaseStart ≤ start :=
  le_refl start

theorem Arbitrated.since_le {d : ℚ} {n : Node} (hn : n.Arbitrated)
    {t : TimePoint} (hsince : n.safety.phaseStart ≤ t) {k : Iteration}
    (htimed : k.Timed d t) :
    (n.iterate k).safety.phaseStart ≤ k.validateNow := by
  obtain ⟨hnow, _, hreadings⟩ := htimed
  obtain ⟨a, hrep⟩ := hn.healthy.exists_represents
  obtain ⟨a', a'', hhandled, hstep, hrep''⟩ :=
    hn.moves hrep (fun now hmem => (hreadings now hmem).2)
  have hsince' : a'.since ≤ k.validateNow := by
    cases hhandled with
    | unchanged _ =>
        rw [← hrep.since]
        exact hsince.trans hnow
    | restarted _ _ hle => exact hle
  rw [hrep''.since]
  rcases hstep.since_eq with hsame | hrestart
  · rw [hsame]
    exact hsince'
  · rw [hrestart]

theorem steady_of_run (major : MajorApproach) (armedMs : Option ℤ)
    (start : TimePoint) (d : ℚ) (before : List Iteration)
    (hbefore : machine.Admits (fun _ t k => k.Timed d t)
      (boot major armedMs start) start before)
    (hnormal : (machine.run (boot major armedMs start)
      before).safety.inEmergency = false) :
    ∃ a, (machine.run (boot major armedMs start) before).Steady
      (machine.endTime start before) a := by
  obtain ⟨harbitrated, hsince⟩ := hbefore.invariant
    (I := fun n t => n.Arbitrated ∧ n.safety.phaseStart ≤ t)
    (fun n t k hn htimed => ⟨hn.1.iterate k, hn.1.since_le hn.2 htimed⟩)
    ⟨boot_arbitrated major armedMs start, boot_since major armedMs start⟩
  obtain ⟨a, hrep⟩ := harbitrated.healthy.exists_represents
  refine ⟨a, harbitrated, ?_, hrep, ?_⟩
  · rw [← harbitrated.mode]
    exact hnormal
  · rw [← hrep.since]
    exact hsince

end Node

/-! ### A stream of requests for all-red -/

/-- Every popped command has been accepted by the parser, and the phase is one
that the policy may return. -/
def Iteration.Accepted (k : Iteration) : Prop :=
  (∃ model state, k.policyPhase = PolicyEngine.decide model state) ∧
    ∀ p ∈ k.popped, p.command.status = .ok ∧
      ∃ text, phaseFromString text = some p.command.phase

def commandFor (phase : Phase) (sequenceNumber : ℕ) : ParsedCommand where
  status := .ok
  action := "CHANGE_PHASE"
  phase := phase
  timestampMs := 100 * sequenceNumber
  sequenceNumber := sequenceNumber
  detail := "ok"

/-- The `i`-th tenth of a second: a fresh command for `phase`, and a policy that
would ask for all-red. -/
def requestFor (phase : Phase) (i : ℕ) : Iteration where
  tickNowMs := 100 * i
  popped := [{ command := commandFor phase i, now := i / 10 }]
  connected := true
  silenceNow := i / 10
  cameraNow := i / 10
  inferenceNow := i / 10
  policyPhase := .allRed
  validateNow := i / 10

def redRequest (i : ℕ) : Iteration := requestFor .allRed i

theorem redRequest_accepted (i : ℕ) : (redRequest i).Accepted := by
  have hpolicy : Phase.allRed = PolicyEngine.decide
      (some fun _ => some [.fin 1, .fin 0]) ⟨[], 0, .fin 0⟩ := by
    decide +kernel
  refine ⟨⟨_, _, hpolicy⟩, ?_⟩
  · intro p hp
    obtain rfl := List.mem_singleton.mp hp
    exact ⟨rfl, "ALL_RED", rfl⟩

theorem redRequest_asks (i : ℕ) :
    (redRequest i).Asks fun p => isGreen p = false := by
  refine ⟨rfl, ?_⟩
  intro p hp _
  obtain rfl := List.mem_singleton.mp hp
  rfl

def redRequests : List Iteration :=
  (List.range 40).map fun i => redRequest (i + 1)

theorem exists_of_mem_redRequests {k : Iteration} (hk : k ∈ redRequests) :
    ∃ i, k = redRequest i := by
  obtain ⟨i, _, rfl⟩ := List.mem_map.mp hk
  exact ⟨i + 1, rfl⟩

theorem red_rest_under_requests :
    Node.machine.Admits (Node.Sound (1 / 10)) (.boot .ns none 0) 0
        redRequests ∧
      (∀ k ∈ redRequests, k.Accepted) ∧
      ¬ Node.NoRedRest (1 / 10) (.boot .ns none 0) 0 redRequests := by
  have hsound : Node.machine.Admits (Node.Sound (1 / 10))
      (.boot .ns none 0) 0 redRequests := by
    decide +kernel
  refine ⟨hsound, ?_, ?_⟩
  · intro k hk
    obtain ⟨i, rfl⟩ := exists_of_mem_redRequests hk
    exact redRequest_accepted i
  · have hasks : ∀ k ∈ redRequests, k.Asks fun p => isGreen p = false := by
      intro k hk
      obtain ⟨i, rfl⟩ := exists_of_mem_redRequests hk
      exact redRequest_asks i
    obtain ⟨a, hsteady⟩ : ∃ a, (Node.boot .ns none 0).Steady 0 a :=
      Node.steady_of_run .ns none 0 (1 / 10) [] trivial rfl
    obtain ⟨hshown, htimeline⟩ := hsteady.timeline_of_unasked rfl hsound
      (Node.unasked_of_asks (fun hvalid => by cases hvalid) hsound hasks)
    have hend : Node.machine.endTime 0 redRequests = 4 := by decide +kernel
    intro hbrief
    have hle := hbrief ⟨_, _, _⟩
      (by rw [htimeline]; exact List.mem_singleton_self _) hshown
    rw [hend] at hle
    norm_num [allRedS] at hle

/-- From any instant of a run at which the node is in normal mode, as long as
camera, inference and guard are healthy: the node rests in all-red while it has
no target and is asked for no green, and once it has a target or is asked for a
green, no all-red lasts for more than one clearance and two ticks. -/
theorem red_rest_only_unasked (major : MajorApproach) (armedMs : Option ℤ)
    (start : TimePoint) (d : ℚ) (hd : 0 ≤ d)
    (before iterations : List Iteration)
    (hbefore : Node.machine.Admits (fun _ t k => k.Timed d t)
      (.boot major armedMs start) start before)
    (hnormal : (Node.machine.run (.boot major armedMs start)
      before).safety.inEmergency = false)
    (hsound : Node.machine.Admits (Node.Sound d)
      (Node.machine.run (.boot major armedMs start) before)
      (Node.machine.endTime start before) iterations) :
    ((Node.machine.run (.boot major armedMs start)
          before).safety.targetValid = false →
        Node.machine.Admits Node.Unasked
          (Node.machine.run (.boot major armedMs start) before)
          (Node.machine.endTime start before) iterations →
        (Node.machine.run (.boot major armedMs start) before).shown =
            .allRed ∧
          Node.machine.timeline Node.shown
              (Node.machine.run (.boot major armedMs start) before)
              (Node.machine.endTime start before) iterations =
            [⟨Node.machine.run (.boot major armedMs start) before,
              Node.machine.endTime start before,
              Node.machine.endTime (Node.machine.endTime start before)
                iterations⟩]) ∧
      ((Node.machine.run (.boot major armedMs start) before).Asked
          iterations = true →
        Node.NoRedRest d
          (Node.machine.run (.boot major armedMs start) before)
          (Node.machine.endTime start before) iterations) := by
  obtain ⟨a, hsteady⟩ :=
    Node.steady_of_run major armedMs start d before hbefore hnormal
  constructor
  · intro hvalid hunasked
    exact hsteady.timeline_of_unasked hvalid hsound hunasked
  · intro hasked
    exact hsteady.noRedRest hd hsound hasked

/-- The hypotheses hold after a detector fault and its recovery, both of a
stream of red requests and of one that begins with a green. -/
theorem red_rest_only_unasked_recovery :
    (Node.machine.timeline Node.shown
        (Node.machine.run (.boot .ew none 0)
          [{ redRequest 1 with inferenceOk := false }, redRequest 2])
        (2 / 10) [redRequest 3, requestFor .yellowEW 4] =
      [⟨Node.machine.run (.boot .ew none 0)
          [{ redRequest 1 with inferenceOk := false }, redRequest 2],
        2 / 10, 4 / 10⟩]) ∧
      Node.NoRedRest (1 / 10)
        (Node.machine.run (.boot .ew none 0)
          [{ redRequest 1 with inferenceOk := false }, redRequest 2])
        (2 / 10) [requestFor .greenEW 3, redRequest 4, redRequest 5] :=
  ⟨((red_rest_only_unasked .ew none 0 (1 / 10) (by norm_num)
      [{ redRequest 1 with inferenceOk := false }, redRequest 2]
      [redRequest 3, requestFor .yellowEW 4] (by decide +kernel)
      (by decide +kernel) (by decide +kernel)).1 (by decide +kernel)
        (by decide +kernel)).2,
    (red_rest_only_unasked .ew none 0 (1 / 10) (by norm_num)
      [{ redRequest 1 with inferenceOk := false }, redRequest 2]
      [requestFor .greenEW 3, redRequest 4, redRequest 5] (by decide +kernel)
      (by decide +kernel) (by decide +kernel)).2 (by decide +kernel)⟩

end Semaforo
