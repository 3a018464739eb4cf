import Semaforo.TimedRun
import Mathlib.Algebra.Order.Ring.Rat
import Mathlib.Tactic.NormNum

/-!
# The dead-man heartbeat

A translation of `Heartbeat` from `edge/include/semaforo/heartbeat.hpp`.  A
call returns the level that it writes to the line, if it writes one, and the
heartbeat after the call.  Instants and periods are seconds on the steady
clock.  A line that could not be acquired swallows the writes and has no
influence on the state, so it is not modelled.
-/

namespace Semaforo

/-- `Heartbeat::DEFAULT_PERIOD`. -/
def defaultPeriod : ℚ := 500 / 1000

structure Heartbeat where
  period : ℚ := defaultPeriod
  lastToggle : ℚ := 0
  level : Bool := false
  armed : Bool := false
  pulseCount : ℕ := 0
  deriving DecidableEq, Repr

/-- One call of `tick`. -/
structure Kick where
  alive : Bool
  now : ℚ
  deriving DecidableEq, Repr

namespace Heartbeat

def tick (h : Heartbeat) (alive : Bool) (now : ℚ) : Option Bool × Heartbeat :=
  if ¬ alive then
    if h.armed then (some false, { h with level := false, armed := false })
    else (none, h)
  else if ¬ h.armed then
    (some true,
      { h with
        armed := true
        lastToggle := now
        level := true
        pulseCount := h.pulseCount + 1 })
  else if h.period ≤ now - h.lastToggle then
    (some !h.level,
      { h with
        level := !h.level
        lastToggle := now
        pulseCount := h.pulseCount + 1 })
  else (none, h)

def stop (h : Heartbeat) : Option Bool × Heartbeat :=
  (some false, { h with level := false, armed := false })

def machine : Machine Heartbeat Kick ℚ where
  step h k := (h.tick k.alive k.now).2
  time := Kick.now

/-- The call raises the line: it is low and the call writes a high level. -/
def Rises (h : Heartbeat) (k : Kick) : Prop :=
  h.level = false ∧ (h.tick k.alive k.now).1 = some true

instance (h : Heartbeat) (k : Kick) : Decidable (h.Rises k) :=
  inferInstanceAs (Decidable
    (h.level = false ∧ (h.tick k.alive k.now).1 = some true))

/-! ## One call -/

theorem tick_dead (h : Heartbeat) (now : ℚ) :
    (h.tick false now).2.armed = false ∧
      ((h.tick false now).2.level = true → h.level = true ∧ h.armed = false) := by
  unfold tick
  cases harmed : h.armed <;> simp [harmed]

theorem tick_rearms {h : Heartbeat} (harmed : h.armed = false) (now : ℚ) :
    h.tick true now =
      (some true,
        { h with
          armed := true
          lastToggle := now
          level := true
          pulseCount := h.pulseCount + 1 }) := by
  simp [tick, harmed]

theorem tick_toggles {h : Heartbeat} {now : ℚ} (harmed : h.armed = true)
    (hdue : h.period ≤ now - h.lastToggle) :
    h.tick true now =
      (some !h.level,
        { h with
          level := !h.level
          lastToggle := now
          pulseCount := h.pulseCount + 1 }) := by
  simp [tick, harmed, hdue]

theorem tick_waits {h : Heartbeat} {now : ℚ} (harmed : h.armed = true)
    (hdue : ¬ h.period ≤ now - h.lastToggle) :
    h.tick true now = (none, h) := by
  simp [tick, harmed, hdue]

@[simp] theorem tick_period (h : Heartbeat) (alive : Bool) (now : ℚ) :
    (h.tick alive now).2.period = h.period := by
  unfold tick
  split_ifs <;> rfl

theorem run_period (h : Heartbeat) (kicks : List Kick) :
    (machine.run h kicks).period = h.period :=
  machine.run_invariant
    (fun x k (hx : x.period = h.period) => (tick_period x k.alive k.now).trans hx)
    kicks rfl

/-- A disarmed line is low. -/
def Released (h : Heartbeat) : Prop := h.armed = false → h.level = false

theorem tick_released {h : Heartbeat} (hreleased : h.Released) (alive : Bool)
    (now : ℚ) : (h.tick alive now).2.Released := by
  intro harmed
  cases alive with
  | false =>
      by_contra hlevel
      obtain ⟨hbefore, hdown⟩ := (tick_dead h now).2 (by simpa using hlevel)
      rw [hreleased hdown] at hbefore
      contradiction
  | true =>
      by_cases hbefore : h.armed = true
      · by_cases hdue : h.period ≤ now - h.lastToggle
        · rw [tick_toggles hbefore hdue] at harmed
          rw [hbefore] at harmed
          contradiction
        · rw [tick_waits hbefore hdue] at harmed
          rw [hbefore] at harmed
          contradiction
      · rw [tick_rearms (by simpa using hbefore)] at harmed
        contradiction

theorem run_released {h : Heartbeat} (hreleased : h.Released)
    (kicks : List Kick) : (machine.run h kicks).Released :=
  machine.run_invariant (I := Released)
    (fun _ k hx => tick_released hx k.alive k.now) kicks hreleased

/-! ## Between two rising edges -/

/-- Since its last rising edge at `rise` the line has stayed high, or it has
been lowered by a toggle a period later. -/
def Pulsing (h : Heartbeat) (rise : ℚ) : Prop :=
  h.armed = true ∧
    ((h.level = true ∧ h.lastToggle = rise) ∨
      (h.level = false ∧ h.period ≤ h.lastToggle - rise))

theorem Rises.alive {h : Heartbeat} {k : Kick} (hrises : h.Rises k) :
    k.alive = true := by
  by_contra hdead
  have hwrite := hrises.2
  rw [Bool.not_eq_true] at hdead
  rw [hdead, tick] at hwrite
  cases harmed : h.armed <;> simp [harmed] at hwrite

theorem Rises.pulsing {h : Heartbeat} {k : Kick} (hrises : h.Rises k) :
    (machine.step h k).Pulsing k.now := by
  obtain ⟨alive, now⟩ := k
  obtain rfl : alive = true := hrises.alive
  show ((h.tick true now).2).Pulsing now
  by_cases harmed : h.armed = true
  · by_cases hdue : h.period ≤ now - h.lastToggle
    · rw [tick_toggles harmed hdue]
      exact ⟨harmed, Or.inl ⟨by simp [hrises.1], rfl⟩⟩
    · have hwrite := hrises.2
      rw [tick_waits harmed hdue] at hwrite
      contradiction
  · rw [tick_rearms (by simpa using harmed)]
    exact ⟨rfl, Or.inl ⟨rfl, rfl⟩⟩

theorem Pulsing.next {h : Heartbeat} {rise : ℚ} {k : Kick}
    (hpulsing : h.Pulsing rise) (hrises : ¬ h.Rises k) (halive : k.alive = true) :
    (machine.step h k).Pulsing rise := by
  obtain ⟨alive, now⟩ := k
  obtain rfl : alive = true := halive
  show ((h.tick true now).2).Pulsing rise
  obtain ⟨harmed, hlevel⟩ := hpulsing
  by_cases hdue : h.period ≤ now - h.lastToggle
  · rw [tick_toggles harmed hdue]
    rcases hlevel with ⟨hhigh, hlast⟩ | ⟨hlow, _⟩
    · refine ⟨harmed, Or.inr ⟨by simp [hhigh], ?_⟩⟩
      rw [← hlast]
      exact hdue
    · refine absurd ⟨hlow, ?_⟩ hrises
      rw [tick_toggles harmed hdue, hlow]
      rfl
  · rw [tick_waits harmed hdue]
    exact ⟨harmed, hlevel⟩

theorem Pulsing.le_of_rises {h : Heartbeat} {rise : ℚ} {k : Kick}
    (hpulsing : h.Pulsing rise) (hrises : h.Rises k) :
    2 * h.period ≤ k.now - rise := by
  obtain ⟨alive, now⟩ := k
  obtain rfl : alive = true := hrises.alive
  obtain ⟨harmed, hlevel⟩ := hpulsing
  by_cases hdue : h.period ≤ now - h.lastToggle
  · rcases hlevel with ⟨hhigh, _⟩ | ⟨_, hlast⟩
    · rw [hrises.1] at hhigh
      contradiction
    · show 2 * h.period ≤ now - rise
      linarith
  · have hwrite := hrises.2
    rw [tick_waits harmed hdue] at hwrite
    contradiction

theorem rises_of_released {h : Heartbeat} {k : Kick}
    (hreleased : h.Released) (harmed : h.armed = false)
    (halive : k.alive = true) : h.Rises k := by
  refine ⟨hreleased harmed, ?_⟩
  rw [halive, tick_rearms harmed]

/-- As long as no edge rises, the train goes on or the last call has dropped
it. -/
theorem pulsing_or_dropped {h : Heartbeat} {rise : ℚ} {between : List Kick}
    (hpulsing : h.Pulsing rise) (hreleased : h.Released)
    (hquiet : machine.Admits (fun h _ k => ¬ h.Rises k) h rise between) :
    (machine.run h between).Pulsing rise ∨
      ((machine.run h between).armed = false ∧
        ∃ k ∈ between.getLast?, k.alive = false) := by
  induction between using List.reverseRecOn with
  | nil => exact Or.inl hpulsing
  | append_singleton kicks k ih =>
      obtain ⟨hkicks, hlast, _⟩ := machine.admits_append.mp hquiet
      rw [machine.run_append, machine.run_cons, machine.run_nil]
      by_cases halive : k.alive = true
      · rcases ih hkicks with hrun | ⟨harmed, _⟩
        · exact Or.inl (hrun.next hlast halive)
        · exact absurd
            (rises_of_released (run_released hreleased kicks) harmed halive)
            hlast
      · have hdead : k.alive = false := by simpa using halive
        refine Or.inr ⟨?_, k, by simp, hdead⟩
        obtain ⟨alive, now⟩ := k
        obtain rfl : alive = false := hdead
        exact (tick_dead _ now).1

/-- The calls `first` and `next` of the sequence raise the line, and no call
between them does. -/
def ConsecutiveRises (h : Heartbeat) (kicks : List Kick) (first : Kick)
    (between : List Kick) (next : Kick) : Prop :=
  ∃ before after, kicks = before ++ first :: (between ++ next :: after) ∧
    (machine.run h before).Rises first ∧
    machine.Admits (fun h _ k => ¬ h.Rises k)
      (machine.run h (before ++ [first])) first.now between ∧
    (machine.run h (before ++ first :: between)).Rises next

/-- The cadence that the cabinet sees: no two consecutive rising edges are
closer than one period, whatever the liveness does. -/
def NominalCadence (period : ℚ) (kicks : List Kick) : Prop :=
  ∀ (first : Kick) (between : List Kick) (next : Kick),
    ConsecutiveRises { period := period } kicks first between next →
      period ≤ next.now - first.now

/-- The cadence with its exception: an edge may come sooner when it answers a
call that dropped the line. -/
def GatedCadence (period : ℚ) (kicks : List Kick) : Prop :=
  ∀ (first : Kick) (between : List Kick) (next : Kick),
    ConsecutiveRises { period := period } kicks first between next →
      period ≤ next.now - first.now ∨ ∃ k ∈ between.getLast?, k.alive = false

theorem rising_edges_apart (period : ℚ) (hperiod : 0 < period)
    (kicks : List Kick) : GatedCadence period kicks := by
  rintro first between next ⟨before, after, _, hfirst, hquiet, hnext⟩
  have hsplit : before ++ first :: between = before ++ [first] ++ between := by
    simp
  rw [hsplit, machine.run_append] at hnext
  have hpulsing : (machine.run { period := period } (before ++ [first])).Pulsing
      first.now := by
    rw [machine.run_append]
    exact hfirst.pulsing
  have hreleased : (machine.run { period := period }
      (before ++ [first])).Released :=
    run_released (fun _ => rfl) _
  rcases pulsing_or_dropped hpulsing hreleased hquiet with hrun | ⟨_, hdropped⟩
  · refine Or.inl ?_
    have hle := hrun.le_of_rises hnext
    rw [run_period, run_period] at hle
    linarith
  · exact Or.inr hdropped

/-- The default period and a liveness that drops out for one call. -/
def flapKicks : List Kick :=
  [⟨true, 0⟩, ⟨false, 33 / 1000⟩, ⟨true, 66 / 1000⟩, ⟨true, 566 / 1000⟩,
    ⟨true, 1066 / 1000⟩]

theorem rising_edges_apart_flap : GatedCadence defaultPeriod flapKicks :=
  rising_edges_apart defaultPeriod (by norm_num [defaultPeriod]) flapKicks

theorem nominalCadence_broken_by_flap :
    ¬ ∀ (period : ℚ) (kicks : List Kick), 0 < period →
      machine.Clocked { period := period } 0 kicks →
        NominalCadence period kicks := by
  intro hnominal
  have hcadence := hnominal defaultPeriod flapKicks
    (by norm_num [defaultPeriod]) (by decide +kernel)
  have happart := hcadence ⟨true, 0⟩ [⟨false, 33 / 1000⟩] ⟨true, 66 / 1000⟩
    ⟨[], [⟨true, 566 / 1000⟩, ⟨true, 1066 / 1000⟩], rfl, by decide +kernel,
      by decide +kernel, by decide +kernel⟩
  norm_num [defaultPeriod] at happart

end Heartbeat

end Semaforo
