import Semaforo.DirectionBuckets
import Semaforo.RingWalk
import Semaforo.Spillback
import Mathlib.Tactic

/-!
# What the environments read of a signal

The readings that the single-intersection and the corridor environment take of
a `sumo_rl` signal, the writes to the observation vector that both make, and the
correction both make to an action.  A call that raises an exception is `none`;
the arithmetic is exact.
-/

namespace Semaforo

open Numpy

/-- The attributes of a signal between two decisions, and the answers to the
calls that the environments make. -/
structure SignalReading where
  greenPhase : ℕ
  numGreenPhases : ℕ
  timeSinceLastPhaseChange : ℚ
  lanesQueue : Option (List ℚ)
  lanesDensity : Option (List ℚ)
  outLanesDensity : Option (List ℚ)
  /-- What `served_downstream_occupancies` reads. -/
  links : Option Spillback.TrafficSignal
  accumulatedWaitingTimePerLane : Option (List ℚ)
  deriving DecidableEq, Repr

/-- `obs[start : start + len(values)] = values`. -/
def setSlice (obs : List ℚ) (start : ℕ) (values : List ℚ) : List ℚ :=
  obs.take start ++ values ++ obs.drop (start + values.length)

/-- The phase one-hot of two slots. -/
def phaseOneHot (greenPhase : ℕ) : List ℚ :=
  if greenPhase % 2 = 0 then [1, 0] else [0, 1]

/-- `elapsed` against the fixed window of two minutes. -/
def elapsedShare (elapsed : ℚ) : ℚ :=
  clip (elapsed / 120) 0 1

/-- Read off the queues in the first four slots. -/
def queueImbalance (obs : List ℚ) : ℚ :=
  let qNs := obs.getD 0 0 + obs.getD 2 0
  let qEw := obs.getD 1 0 + obs.getD 3 0
  clip (|qNs - qEw| / max (qNs + qEw) (1 / 100)) 0 1

/-- The action that is handed to the simulator for the one that was chosen. -/
def correctAction (currentPhase numPhases : ℕ) (action : ℤ) : ℤ :=
  let next : ℤ := ((currentPhase + 1) % numPhases : ℕ)
  let action : ℤ := if (numPhases : ℤ) ≤ action then currentPhase else action
  if action ≠ currentPhase ∧ action ≠ next then next else action

/-- All entries are in `[0, 1]`. -/
def UnitEntries (values : List ℚ) : Prop :=
  ∀ x ∈ values, 0 ≤ x ∧ x ≤ 1

/-! ## Slices -/

theorem setSlice_written (written rest values : List ℚ) {start : ℕ}
    (hstart : written.length = start) :
    setSlice (written ++ rest) start values =
      written ++ values ++ rest.drop values.length := by
  subst hstart
  rw [setSlice, List.take_left, List.drop_append, List.drop_eq_nil_of_le
    (Nat.le_add_right ..), Nat.add_sub_cancel_left, List.nil_append]

theorem length_setSlice {obs : List ℚ} {n : ℕ} (hobs : obs.length = n)
    (start : ℕ) (values : List ℚ) (h : start + values.length ≤ n) :
    (setSlice obs start values).length = n := by
  simp only [setSlice, List.length_append, List.length_take, List.length_drop]
  omega

/-- The first writes of both environments, in their order. -/
theorem setSlice_layout {queues densities phase : List ℚ}
    (hqueues : queues.length = 4) (hdensities : densities.length = 4)
    (hphase : phase.length = 2) (elapsed : ℚ) (obs : List ℚ) :
    setSlice (setSlice (setSlice (setSlice obs 0 queues) 4 densities) 8 phase)
        10 [elapsed] =
      queues ++ densities ++ phase ++ [elapsed] ++ obs.drop 11 := by
  have hfirst : setSlice obs 0 queues = queues ++ obs.drop 4 := by
    have hwritten := @setSlice_written [] obs queues 0 rfl
    rwa [List.nil_append, List.nil_append, hqueues] at hwritten
  rw [hfirst, setSlice_written _ _ _ hqueues,
    setSlice_written _ _ _ (by rw [List.length_append, hqueues, hdensities]),
    setSlice_written _ _ _ (by
      simp only [List.length_append, hqueues, hdensities, hphase])]
  simp only [List.drop_drop, hdensities, hphase, List.length_singleton]

theorem queueImbalance_append {queues : List ℚ} (h : queues.length = 4)
    (rest : List ℚ) :
    queueImbalance (queues ++ rest) = queueImbalance queues := by
  have hget : ∀ i < 4, (queues ++ rest).getD i 0 = queues.getD i 0 := by
    intro i hi
    rw [List.getD_eq_getElem?_getD, List.getD_eq_getElem?_getD,
      List.getElem?_append_left (by omega)]
  unfold queueImbalance
  rw [hget 0 (by decide), hget 1 (by decide), hget 2 (by decide),
    hget 3 (by decide)]

/-! ## Entries of the unit interval -/

theorem clip_unit (x : ℚ) : 0 ≤ clip x 0 1 ∧ clip x 0 1 ≤ 1 :=
  ⟨low_le_clip x zero_le_one, clip_le_high x 0 1⟩

theorem UnitEntries.append {xs ys : List ℚ} (hxs : UnitEntries xs)
    (hys : UnitEntries ys) : UnitEntries (xs ++ ys) := by
  intro x hx
  exact (List.mem_append.mp hx).elim (hxs x) (hys x)

theorem UnitEntries.map_clip {values : List ℚ} (h : UnitEntries values) :
    values.map (fun x => clip x 0 1) = values := by
  refine (List.map_congr_left fun x hx => ?_).trans (List.map_id values)
  exact clip_eq_self (h x hx).1 (h x hx).2

theorem unitEntries_map_clip {α : Type} (f : α → ℚ) (xs : List α) :
    UnitEntries (xs.map fun x => clip (f x) 0 1) := by
  intro y hy
  obtain ⟨x, _, rfl⟩ := List.mem_map.mp hy
  exact clip_unit (f x)

theorem unitEntries_replicate_zero (n : ℕ) : UnitEntries (List.replicate n 0) := by
  intro x hx
  rw [List.eq_of_mem_replicate hx]
  exact ⟨le_rfl, zero_le_one⟩

theorem unitEntries_singleton {x : ℚ} (h : 0 ≤ x ∧ x ≤ 1) : UnitEntries [x] := by
  intro y hy
  rw [List.mem_singleton.mp hy]
  exact h

theorem unitEntries_phaseOneHot (greenPhase : ℕ) :
    UnitEntries (phaseOneHot greenPhase) := by
  unfold phaseOneHot
  split_ifs <;> simp [UnitEntries]

@[simp] theorem length_phaseOneHot (greenPhase : ℕ) :
    (phaseOneHot greenPhase).length = 2 := by
  unfold phaseOneHot
  split_ifs <;> rfl

namespace SingleIntersectionEnv

@[simp] theorem length_aggregateDirections (perLane : List ℚ) (maxVal : ℚ) :
    (aggregateDirections perLane maxVal).length = 4 := by
  unfold aggregateDirections
  split_ifs
  · rfl
  · simp [slices]
  · simp [slices]

theorem unitEntries_aggregateDirections (perLane : List ℚ) {maxVal : ℚ}
    (hmax : 0 < maxVal) : UnitEntries (aggregateDirections perLane maxVal) := by
  unfold aggregateDirections
  split_ifs
  · exact unitEntries_replicate_zero 4
  · rw [List.map_map]
    exact unitEntries_map_clip (fun slice => sliceSum perLane slice / maxVal) _

end SingleIntersectionEnv

namespace CorridorVecEnv

@[simp] theorem length_aggregateDirections (perLane : List ℚ) (maxVal : ℚ) :
    (aggregateDirections perLane maxVal).length = 4 := by
  unfold aggregateDirections
  split_ifs
  · rfl
  · rfl
  · simp [slices]

theorem unitEntries_aggregateDirections (perLane : List ℚ) (maxVal : ℚ) :
    UnitEntries (aggregateDirections perLane maxVal) := by
  unfold aggregateDirections
  split_ifs
  · exact unitEntries_replicate_zero 4
  · exact unitEntries_replicate_zero 4
  · exact unitEntries_map_clip id _

end CorridorVecEnv

/-! ## Corrected actions -/

theorem correctAction_eq (currentPhase numPhases : ℕ) (action : ℤ) :
    correctAction currentPhase numPhases action =
      if (numPhases : ℤ) ≤ action ∨ action = currentPhase then
        (currentPhase : ℤ)
      else ((currentPhase + 1) % numPhases : ℕ) := by
  unfold correctAction
  dsimp only
  by_cases hhigh : (numPhases : ℤ) ≤ action
  · simp [hhigh]
  · rw [if_neg hhigh]
    by_cases hcurrent : action = currentPhase
    · simp [hcurrent]
    · by_cases hnext : action = ((currentPhase + 1) % numPhases : ℕ)
      · simp [hhigh, hcurrent, ← hnext]
      · simp [hhigh, hcurrent]

/-- A signal that keeps its phase or takes the corrected action stays or goes on
to the next phase. -/
theorem follows_of_corrected {currentPhase numPhases phase : ℕ} {action : ℤ}
    (h : phase = currentPhase ∨
      (phase : ℤ) = correctAction currentPhase numPhases action) :
    RingWalk.Follows numPhases currentPhase phase := by
  rcases h with rfl | h
  · exact Or.inl rfl
  · rw [correctAction_eq] at h
    split_ifs at h
    · exact Or.inl (by exact_mod_cast h)
    · exact Or.inr (by exact_mod_cast h)

end Semaforo
