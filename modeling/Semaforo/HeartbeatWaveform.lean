import Semaforo.Heartbeat
import Mathlib.Tactic

/-!
# The waveform of the heartbeat

Everything that a sequence of ticks and stops writes to the line.  A live tick
leaves the train armed and every other call disarms it, so a maximal run of live
ticks begins disarmed, and from there the toggles follow each other.
-/

namespace Semaforo

namespace Heartbeat

inductive Call where
  | tick (alive : Bool) (now : ℚ)
  | stop
  deriving DecidableEq, Repr

def Call.alive : Call → Bool
  | .tick alive _ => alive
  | .stop => false

def call (h : Heartbeat) : Call → Option Bool × Heartbeat
  | .tick alive now => h.tick alive now
  | .stop => h.stop

def afterCalls (h : Heartbeat) (calls : List Call) : Heartbeat :=
  calls.foldl (fun h c => (h.call c).2) h

/-- The calls that write to the line, each with the value that it writes. -/
def written : Heartbeat → List Call → List (Call × Bool)
  | _, [] => []
  | h, c :: calls =>
      ((h.call c).1.map (Prod.mk c)).toList ++ written (h.call c).2 calls

/-- The instants at which live ticks write to the line, with the values. -/
def edges : Heartbeat → List ℚ → List (ℚ × Bool)
  | _, [] => []
  | h, now :: nows =>
      ((h.tick true now).1.map (Prod.mk now)).toList ++
        edges (h.tick true now).2 nows

/-- What a run of live ticks writes when it starts from `h`. -/
structure SquareWave (h : Heartbeat) (nows : List ℚ) : Prop where
  starts : ∀ now ∈ nows.head?, (edges h nows).head? = some (now, true)
  alternates : (edges h nows).IsChain fun e f => f.2 = !e.2
  spaced : (edges h nows).IsChain fun e f => h.period ≤ f.1 - e.1
  prompt : ∀ first now later, nows = first ++ now :: later →
    ∀ e ∈ (edges h first).getLast?, h.period ≤ now - e.1 →
      ((h.afterCalls (first.map (Call.tick true))).tick true now).1.isSome

structure Waveform (period : ℚ) (calls : List Call) : Prop where
  level : (afterCalls { period := period } calls).level =
    ((written { period := period } calls).getLast?.map Prod.snd).getD false
  high : (afterCalls { period := period } calls).level = true →
    ∃ now, calls.getLast? = some (.tick true now)
  live : ∀ (before : List Call) (nows : List ℚ) (after : List Call),
    calls = before ++ nows.map (Call.tick true) ++ after →
      (∀ c ∈ before.getLast?, c.alive = false) →
        SquareWave (afterCalls { period := period } before) nows
  dead : ∀ (before : List Call) (nows : List ℚ) (after : List Call),
    calls = before ++ nows.map (Call.tick false) ++ after →
      (written (afterCalls { period := period } before)
        (nows.map (Call.tick false))).map Prod.snd ∈ [[], [false]]
  pulses : (afterCalls { period := period } calls).pulseCount =
    (written { period := period } calls).countP fun w => w.1.alive

/-! ## Appending calls -/

theorem afterCalls_append (h : Heartbeat) (first second : List Call) :
    h.afterCalls (first ++ second) =
      (h.afterCalls first).afterCalls second :=
  List.foldl_append ..

theorem written_append (h : Heartbeat) (first second : List Call) :
    written h (first ++ second) =
      written h first ++ written (h.afterCalls first) second := by
  induction first generalizing h with
  | nil => rfl
  | cons c calls ih =>
      rw [List.cons_append, written, ih, written, List.append_assoc]
      rfl

theorem written_append_singleton (h : Heartbeat) (calls : List Call)
    (c : Call) :
    written h (calls ++ [c]) =
      written h calls ++
        (((h.afterCalls calls).call c).1.map (Prod.mk c)).toList := by
  rw [written_append, written, written, List.append_nil]

theorem edges_append (h : Heartbeat) (first second : List ℚ) :
    edges h (first ++ second) =
      edges h first ++
        edges (h.afterCalls (first.map (Call.tick true))) second := by
  induction first generalizing h with
  | nil => rfl
  | cons now nows ih =>
      rw [List.cons_append, edges, ih, edges, List.append_assoc]
      rfl

/-! ## Armed and disarmed -/

@[simp] theorem tick_true_armed (h : Heartbeat) (now : ℚ) :
    (h.tick true now).2.armed = true := by
  cases harmed : h.armed with
  | false => rw [tick_rearms harmed]
  | true =>
      by_cases hdue : h.period ≤ now - h.lastToggle
      · rw [tick_toggles harmed hdue]
        exact harmed
      · rw [tick_waits harmed hdue]
        exact harmed

theorem call_armed (h : Heartbeat) (c : Call) :
    (h.call c).2.armed = c.alive := by
  cases c with
  | stop => rfl
  | tick alive now =>
      cases alive with
      | false => exact (tick_dead h now).1
      | true => exact tick_true_armed h now

theorem call_released {h : Heartbeat} (hreleased : h.Released) (c : Call) :
    (h.call c).2.Released := by
  cases c with
  | stop => exact fun _ => rfl
  | tick alive now => exact tick_released hreleased alive now

theorem call_period (h : Heartbeat) (c : Call) :
    (h.call c).2.period = h.period := by
  cases c with
  | stop => rfl
  | tick alive now => exact tick_period h alive now

theorem afterCalls_released {h : Heartbeat} (hreleased : h.Released)
    (calls : List Call) : (h.afterCalls calls).Released := by
  induction calls generalizing h with
  | nil => exact hreleased
  | cons c calls ih => exact ih (call_released hreleased c)

theorem afterCalls_period (h : Heartbeat) (calls : List Call) :
    (h.afterCalls calls).period = h.period := by
  induction calls generalizing h with
  | nil => rfl
  | cons c calls ih => exact (ih _).trans (call_period h c)

theorem afterCalls_disarmed {h : Heartbeat} (harmed : h.armed = false)
    {calls : List Call} (hlast : ∀ c ∈ calls.getLast?, c.alive = false) :
    (h.afterCalls calls).armed = false := by
  induction calls using List.reverseRecOn with
  | nil => exact harmed
  | append_singleton calls c _ =>
      rw [afterCalls_append]
      exact (call_armed _ c).trans (hlast c (by simp))

/-! ## What one call does to the line -/

theorem call_level (h : Heartbeat) (c : Call) :
    (h.call c).2.level = (h.call c).1.getD h.level := by
  cases c with
  | stop => rfl
  | tick alive now =>
      show (h.tick alive now).2.level = (h.tick alive now).1.getD h.level
      unfold tick
      split_ifs <;> rfl

theorem call_pulseCount (h : Heartbeat) (c : Call) :
    (h.call c).2.pulseCount =
      h.pulseCount +
        ((h.call c).1.map (Prod.mk c)).toList.countP fun w => w.1.alive := by
  cases c with
  | stop => rfl
  | tick alive now =>
      cases alive with
      | false =>
          show (h.tick false now).2.pulseCount = h.pulseCount +
            ((h.tick false now).1.map (Prod.mk (Call.tick false now))).toList.countP
              fun w => w.1.alive
          cases harmed : h.armed <;> simp [tick, harmed, Call.alive]
      | true =>
          show (h.tick true now).2.pulseCount = h.pulseCount +
            ((h.tick true now).1.map (Prod.mk (Call.tick true now))).toList.countP
              fun w => w.1.alive
          cases harmed : h.armed with
          | false =>
              rw [tick_rearms harmed]
              simp [Call.alive]
          | true =>
              by_cases hdue : h.period ≤ now - h.lastToggle
              · rw [tick_toggles harmed hdue]
                simp [Call.alive]
              · rw [tick_waits harmed hdue]
                simp

theorem afterCalls_level (h : Heartbeat) (calls : List Call) :
    (h.afterCalls calls).level =
      ((written h calls).getLast?.map Prod.snd).getD h.level := by
  induction calls using List.reverseRecOn with
  | nil => rfl
  | append_singleton calls c ih =>
      rw [afterCalls_append, written_append_singleton]
      show ((h.afterCalls calls).call c).2.level = _
      rw [call_level]
      cases hwrite : ((h.afterCalls calls).call c).1 with
      | none => simpa using ih
      | some v => simp

theorem afterCalls_pulseCount (h : Heartbeat) (calls : List Call) :
    (h.afterCalls calls).pulseCount =
      h.pulseCount + (written h calls).countP fun w => w.1.alive := by
  induction calls generalizing h with
  | nil => rfl
  | cons c calls ih =>
      rw [written, List.countP_append, ← Nat.add_assoc, ← call_pulseCount]
      exact ih _

/-! ## Runs of live ticks -/

/-- From an armed state on, every edge inverts the one before it and keeps its
distance to it. -/
theorem edges_of_armed {h : Heartbeat} (harmed : h.armed = true)
    (nows : List ℚ) :
    ((h.lastToggle, h.level) :: edges h nows).IsChain
      fun e f => f.2 = (!e.2) ∧ h.period ≤ f.1 - e.1 := by
  induction nows generalizing h with
  | nil => exact List.IsChain.singleton _
  | cons now nows ih =>
      rw [edges]
      by_cases hdue : h.period ≤ now - h.lastToggle
      · rw [tick_toggles harmed hdue]
        exact List.IsChain.cons_cons ⟨rfl, hdue⟩
          (ih (h := { h with
            level := !h.level
            lastToggle := now
            pulseCount := h.pulseCount + 1 }) harmed)
      · rw [tick_waits harmed hdue]
        exact ih harmed

theorem edges_cons_of_disarmed {h : Heartbeat} (harmed : h.armed = false)
    (now : ℚ) (nows : List ℚ) :
    edges h (now :: nows) =
      (now, true) :: edges (h.tick true now).2 nows := by
  rw [edges, tick_rearms harmed]
  rfl

theorem edges_isChain {h : Heartbeat} (harmed : h.armed = false)
    (nows : List ℚ) :
    (edges h nows).IsChain
      fun e f => f.2 = (!e.2) ∧ h.period ≤ f.1 - e.1 := by
  cases nows with
  | nil => exact List.IsChain.nil
  | cons now nows =>
      rw [edges_cons_of_disarmed harmed, tick_rearms harmed]
      exact edges_of_armed (h := { h with
        armed := true
        lastToggle := now
        level := true
        pulseCount := h.pulseCount + 1 }) rfl nows

theorem lastToggle_of_getLast? {h : Heartbeat} {nows : List ℚ} {e : ℚ × Bool}
    (he : e ∈ (edges h nows).getLast?) :
    (h.afterCalls (nows.map (Call.tick true))).armed = true ∧
      (h.afterCalls (nows.map (Call.tick true))).lastToggle = e.1 := by
  induction nows using List.reverseRecOn with
  | nil => simp [edges] at he
  | append_singleton nows now ih =>
      rw [edges_append, edges, edges, List.append_nil] at he
      rw [List.map_append, afterCalls_append]
      show ((h.afterCalls (nows.map (Call.tick true))).tick true now).2.armed =
          true ∧
        ((h.afterCalls (nows.map (Call.tick true))).tick true now).2.lastToggle =
          e.1
      refine ⟨tick_true_armed _ now, ?_⟩
      cases hdown : (h.afterCalls (nows.map (Call.tick true))).armed with
      | false =>
          rw [tick_rearms hdown] at he ⊢
          obtain rfl : (now, true) = e := by simpa using he
          rfl
      | true =>
          by_cases hdue :
              (h.afterCalls (nows.map (Call.tick true))).period ≤
                now - (h.afterCalls (nows.map (Call.tick true))).lastToggle
          · rw [tick_toggles hdown hdue] at he ⊢
            obtain rfl :
                (now, !(h.afterCalls (nows.map (Call.tick true))).level) = e := by
              simpa using he
            rfl
          · rw [tick_waits hdown hdue] at he ⊢
            exact (ih (by simpa using he)).2

theorem squareWave_of_disarmed {h : Heartbeat} (harmed : h.armed = false)
    (nows : List ℚ) : SquareWave h nows := by
  have hchain := edges_isChain harmed nows
  refine ⟨?_, hchain.imp fun _ _ h => h.1, hchain.imp fun _ _ h => h.2, ?_⟩
  · intro now hnow
    obtain ⟨later, rfl⟩ := List.head?_eq_some_iff.mp hnow
    rw [edges_cons_of_disarmed harmed]
    rfl
  · rintro first now later - e he hlate
    obtain ⟨hup, hlast⟩ := lastToggle_of_getLast? he
    rw [tick_toggles hup]
    · rfl
    · rw [afterCalls_period, hlast]
      exact hlate

/-! ## Runs of dead ticks -/

theorem written_dead_of_disarmed {h : Heartbeat} (harmed : h.armed = false)
    (nows : List ℚ) : written h (nows.map (Call.tick false)) = [] := by
  induction nows with
  | nil => rfl
  | cons now nows ih =>
      have htick : h.call (.tick false now) = (none, h) := by
        simp [call, tick, harmed]
      rw [List.map_cons, written, htick]
      exact ih

theorem written_dead (h : Heartbeat) (nows : List ℚ) :
    (written h (nows.map (Call.tick false))).map Prod.snd ∈ [[], [false]] := by
  cases harmed : h.armed with
  | false =>
      rw [written_dead_of_disarmed harmed]
      exact List.mem_cons_self
  | true =>
      cases nows with
      | nil => exact List.mem_cons_self
      | cons now nows =>
          have hdrop : (h.call (.tick false now)).1 = some false := by
            simp [call, tick, harmed]
          rw [List.map_cons, written, hdrop,
            written_dead_of_disarmed (call_armed h (.tick false now))]
          exact List.mem_cons_of_mem _ List.mem_cons_self

/-! ## The waveform -/

theorem waveform (period : ℚ) (calls : List Call) : Waveform period calls where
  level := afterCalls_level _ calls
  high hhigh := by
    have hreleased : (afterCalls { period := period } calls).Released :=
      afterCalls_released (fun _ => rfl) calls
    induction calls using List.reverseRecOn with
    | nil => cases hhigh
    | append_singleton calls c _ =>
        have hup : (afterCalls { period := period } (calls ++ [c])).armed =
            true := by
          by_contra hdown
          rw [hreleased (by simpa using hdown)] at hhigh
          cases hhigh
        rw [afterCalls_append] at hup
        have halive : c.alive = true := (call_armed _ c).symm.trans hup
        rw [List.getLast?_concat]
        cases c with
        | stop => cases halive
        | tick alive now =>
            obtain rfl : alive = true := halive
            exact ⟨now, rfl⟩
  live before nows after _ hbefore :=
    squareWave_of_disarmed (afterCalls_disarmed rfl hbefore) nows
  dead before nows after _ := written_dead _ nows
  pulses := by
    rw [afterCalls_pulseCount]
    exact Nat.zero_add _

end Heartbeat

end Semaforo
