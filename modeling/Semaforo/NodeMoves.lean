import Semaforo.FallbackArbitration
import Mathlib.Tactic

/-!
# One iteration of the node as moves of the interlock

An iteration first switches the mode some number of times and then ticks once.
Toggles that ask for the mode already in force change nothing, and any other
leaves the interlock in a fresh all-red; the tick is then an ordinary move.  With
trusted timings the live sub-phases go round green, amber and red.
-/

namespace Semaforo

/-! ## Colours -/

inductive Colour where
  | green
  | amber
  | red
  deriving DecidableEq, Repr

def Colour.next : Colour → Colour
  | green => amber
  | amber => red
  | red => green

namespace Timings

/-- The clock reads the default schedules, whole numbers of seconds, in full. -/
theorem yellow_read : ({} : Timings).yellow ≤ .fin (floatSeconds yellowS) := by
  decide +kernel

theorem allRed_read : ({} : Timings).allRed ≤ .fin (floatSeconds allRedS) := by
  decide +kernel

end Timings

namespace SubPhase

/-- What the heads show in a live sub-phase, without the axis. -/
def colour : SubPhase → Colour
  | green _ => .green
  | amber _ _ => .amber
  | clearance _ => .red
  | ring i =>
      if isGreen (ringEntry i) then .green
      else if isYellow (ringEntry i) then .amber
      else .red
  | flashClearance => .red
  | flash => .red

theorem isGreen_display_iff (major : MajorApproach) (p : SubPhase) :
    isGreen (p.display major) = true ↔ p.colour = .green := by
  cases p with
  | green g => simp [display, colour]
  | amber o h => simp [display, colour]
  | clearance c => simp [display, colour, isGreen]
  | ring i =>
      have hring : ∀ i : Fin 6,
          isGreen (ringEntry i) = true ↔ (ring i).colour = .green := by decide
      exact hring i
  | flashClearance => simp [display, colour, isGreen]
  | flash => simp [display, colour]

theorem display_eq_allRed_iff (major : MajorApproach) {p : SubPhase}
    (hmode : p.mode ≠ .flashing) :
    p.display major = .allRed ↔ p.colour = .red := by
  cases p with
  | green g => simp [display, colour]
  | amber o h => simp [display, colour]
  | clearance c => simp [display, colour]
  | ring i =>
      have hring : ∀ i : Fin 6,
          ringEntry i = .allRed ↔ (ring i).colour = .red := by decide
      exact hring i
  | flashClearance => exact absurd rfl hmode
  | flash => exact absurd rfl hmode

theorem schedule_of_amber (t : Timings) {p : SubPhase}
    (hcolour : p.colour = .amber) : p.schedule t = t.yellow := by
  cases p with
  | amber o h => rfl
  | ring i =>
      rcases Interlock.ringEntry_cases t i with ⟨hred, _⟩ | ⟨hgreen, _⟩ | ⟨_, hdue, _⟩
      · simp [colour, hred, isGreen, isYellow] at hcolour
      · simp [colour, hgreen] at hcolour
      · exact hdue
  | green g => cases hcolour
  | clearance c => cases hcolour
  | flashClearance => cases hcolour
  | flash => cases hcolour

theorem schedule_of_red (t : Timings) {p : SubPhase}
    (hmode : p.mode ≠ .flashing) (hcolour : p.colour = .red) :
    p.schedule t = t.allRed := by
  cases p with
  | clearance c => rfl
  | ring i =>
      rcases Interlock.ringEntry_cases t i with ⟨_, hdue, _⟩ | ⟨hgreen, _⟩ | ⟨hyellow, _⟩
      · exact hdue
      · simp [colour, hgreen] at hcolour
      · simp [colour, hyellow] at hcolour
        split_ifs at hcolour
  | green g => cases hcolour
  | amber o h => cases hcolour
  | flashClearance => exact absurd rfl hmode
  | flash => exact absurd rfl hmode

theorem Leaves.colour_eq {t : Timings} (ht : t.Trusted) {desired : Phase}
    {el : ℚ} {p q : SubPhase} (hleaves : p.Leaves t desired el q)
    (hmode : p.mode ≠ .flashing) :
    q.colour = p.colour.next ∧ q.mode = p.mode := by
  cases hleaves with
  | greenOver _ _ => exact ⟨rfl, rfl⟩
  | amberOver _ _ => exact ⟨rfl, rfl⟩
  | clearanceOver _ _ _ => exact ⟨rfl, rfl⟩
  | @ringOver i _ =>
      clear hmode
      refine ⟨?_, rfl⟩
      fin_cases i <;> decide
  | escalate _ hover _ => exact absurd (ht.schedule hmode) hover.1
  | flashOver _ => exact absurd rfl hmode

theorem Stays.colour_eq {t : Timings} {desired : Phase} {el : ℚ}
    {p q : SubPhase} (hstays : p.Stays t desired el q) :
    q.colour = p.colour := by
  cases hstays <;> rfl

inductive Restarted : SubPhase → Prop where
  | ring : Restarted (ring 0)
  | clearance : Restarted (clearance none)

theorem Restarted.colour_eq {p : SubPhase} (hp : p.Restarted) :
    p.colour = .red := by
  cases hp <;> rfl

theorem Restarted.mode_ne {p : SubPhase} (hp : p.Restarted) :
    p.mode ≠ .flashing := by
  cases hp <;> simp [mode]

end SubPhase

namespace SafetyLayer

theorem Healthy.timings {s : SafetyLayer} (hs : s.Healthy) : s.t = {} := by
  obtain ⟨major, b, events, rfl⟩ := hs
  exact run_t _ events

theorem Healthy.exists_represents {s : SafetyLayer} (hs : s.Healthy) :
    ∃ a, s.Represents a := by
  obtain ⟨major, b, events, rfl⟩ := hs
  exact run_represents {} major b events

theorem Healthy.mode_ne {s : SafetyLayer} {a : Interlock} (hs : s.Healthy)
    (hrep : s.Represents a) : a.sub.mode ≠ .flashing :=
  fun hmode => hs.not_flashing (hrep.flashing_iff.mpr hmode)

/-! ## Toggles -/

/-- A switch of the mode has put the layer into an all-red no later than
`limit`. -/
def RestartedBy (s : SafetyLayer) (limit : TimePoint) : Prop :=
  ∃ a, s.Represents a ∧ a.sub.Restarted ∧ a.since ≤ limit

theorem toggle_idle {s : SafetyLayer} {on : Bool} (hon : on = s.inEmergency)
    (now : TimePoint) : s.apply (toggle on now) = s := by
  change s.setEmergencyMode on now = s
  unfold setEmergencyMode
  split_ifs with hflash hsame
  · rfl
  · rfl
  · exact absurd hon hsame
  · exact absurd hon hsame

theorem Healthy.toggle_restarted {s : SafetyLayer} (hs : s.Healthy)
    {on : Bool} (hon : on ≠ s.inEmergency) {now limit : TimePoint}
    (hnow : now ≤ limit) : (s.apply (toggle on now)).RestartedBy limit := by
  obtain ⟨a, hrep⟩ := hs.exists_represents
  obtain ⟨a', hstep, hrep'⟩ := apply_refines hrep (toggle on now)
  cases hstep with
  | engage _ => exact ⟨_, hrep', .ring, hnow⟩
  | release => exact ⟨_, hrep', .clearance, hnow⟩
  | ignore hignores =>
      exfalso
      rcases hignores with hmode | ⟨hmode, rfl⟩ | ⟨hmode, rfl⟩
      · exact hs.mode_ne hrep hmode
      · exact hon (hrep.emergency_of_normal hmode).symm
      · exact hon (hrep.emergency_of_ring hmode).symm

theorem run_toggles_idle {s : SafetyLayer} {times : List TimePoint}
    {calls : List Event} (hcalls : AllToggles times calls)
    (hidle : ∀ e ∈ calls, e.call ≠ .setEmergencyMode (!s.inEmergency)) :
    machine.run s calls = s := by
  induction calls with
  | nil => rfl
  | cons e calls ih =>
      obtain ⟨on, now, _, rfl⟩ := hcalls e (List.mem_cons_self ..)
      have hon : on = s.inEmergency := by
        by_contra hne
        refine hidle _ (List.mem_cons_self ..) ?_
        cases on <;> cases h : s.inEmergency <;> simp_all [toggle]
      rw [Machine.run_cons]
      change machine.run (s.apply (toggle on now)) calls = s
      rw [toggle_idle hon]
      exact ih (fun e he => hcalls e (List.mem_cons_of_mem _ he))
        (fun e he => hidle e (List.mem_cons_of_mem _ he))

theorem RestartedBy.run_toggles {s : SafetyLayer} (hs : s.Healthy)
    {times : List TimePoint} {limit : TimePoint}
    (hlimit : ∀ now ∈ times, now ≤ limit) {calls : List Event}
    (hcalls : AllToggles times calls) (hrestarted : s.RestartedBy limit) :
    (machine.run s calls).RestartedBy limit := by
  induction calls generalizing s with
  | nil => exact hrestarted
  | cons e calls ih =>
      obtain ⟨on, now, hnow, rfl⟩ := hcalls e (List.mem_cons_self ..)
      refine ih (hs.run [toggle on now])
        (fun e he => hcalls e (List.mem_cons_of_mem _ he)) ?_
      change (s.apply (toggle on now)).RestartedBy limit
      by_cases hon : on = s.inEmergency
      · rw [toggle_idle hon]
        exact hrestarted
      · exact hs.toggle_restarted hon (hlimit now hnow)

theorem Healthy.run_toggles_restarted {s : SafetyLayer} (hs : s.Healthy)
    {times : List TimePoint} {limit : TimePoint}
    (hlimit : ∀ now ∈ times, now ≤ limit) {calls : List Event}
    (hcalls : AllToggles times calls)
    (hswitch : ∃ e ∈ calls, e.call = .setEmergencyMode (!s.inEmergency)) :
    (machine.run s calls).RestartedBy limit := by
  induction calls with
  | nil => simp at hswitch
  | cons e calls ih =>
      obtain ⟨on, now, hnow, rfl⟩ := hcalls e (List.mem_cons_self ..)
      have hrest : AllToggles times calls :=
        fun e he => hcalls e (List.mem_cons_of_mem _ he)
      rw [Machine.run_cons]
      change (machine.run (s.apply (toggle on now)) calls).RestartedBy limit
      by_cases hon : on = s.inEmergency
      · rw [toggle_idle hon]
        refine ih hrest ?_
        obtain ⟨e, he, hcall⟩ := hswitch
        rcases List.mem_cons.mp he with rfl | hmem
        · rw [hon] at hcall
          cases h : s.inEmergency <;> simp [toggle, h] at hcall
        · exact ⟨e, hmem, hcall⟩
      · exact RestartedBy.run_toggles (hs.run [toggle on now]) hlimit hrest
          (hs.toggle_restarted hon (hlimit now hnow))

end SafetyLayer

namespace Node

def Switches (n : Node) (k : Iteration) : Prop :=
  ∃ e ∈ (n.loop.handleFaults k).2,
    e.call = .setEmergencyMode (!n.safety.inEmergency)

instance (n : Node) (k : Iteration) : Decidable (n.Switches k) :=
  inferInstanceAs (Decidable (∃ e ∈ (n.loop.handleFaults k).2,
    e.call = .setEmergencyMode (!n.safety.inEmergency)))

/-- The state of the interlock when `validate` is called. -/
inductive Handled (n : Node) (k : Iteration) (a : Interlock) :
    Interlock → Prop where
  | unchanged (hsame : ¬ n.Switches k) : Handled n k a a
  | restarted {a' : Interlock} (hswitch : n.Switches k)
      (hsub : a'.sub.Restarted) (hsince : a'.since ≤ k.validateNow) :
      Handled n k a a'

theorem Arbitrated.moves {n : Node} (hn : n.Arbitrated) {a : Interlock}
    (hrep : n.safety.Represents a) {k : Iteration}
    (hreadings : ∀ now ∈ k.readings, now ≤ k.validateNow) :
    ∃ a' a'', Handled n k a a' ∧
      Interlock.Step {} a' ⟨.validate ((n.atValidate k).loop.proposedPhase k),
        k.validateNow⟩ a'' ∧
      (n.iterate k).safety.Represents a'' := by
  obtain ⟨htoggles, _⟩ := n.loop.handleFaults_arbitrates k
  have htimings := (hn.atValidate k).healthy.timings
  obtain ⟨a', hhandled, hrep'⟩ :
      ∃ a', Handled n k a a' ∧ (n.atValidate k).safety.Represents a' := by
    by_cases hswitch : n.Switches k
    · obtain ⟨a', hrep', hsub, hsince⟩ :=
        hn.healthy.run_toggles_restarted hreadings htoggles hswitch
      exact ⟨a', .restarted hswitch hsub hsince, hrep'⟩
    · refine ⟨a, .unchanged hswitch, ?_⟩
      change (SafetyLayer.machine.run n.safety _).Represents a
      rw [SafetyLayer.run_toggles_idle htoggles
        (fun e he hcall => hswitch ⟨e, he, hcall⟩)]
      exact hrep
  obtain ⟨a'', hstep, hrep''⟩ := SafetyLayer.validate_refines hrep'
    ((n.atValidate k).loop.proposedPhase k) k.validateNow
  rw [htimings] at hstep
  exact ⟨a', a'', hhandled, hstep, hrep''⟩

end Node

end Semaforo
