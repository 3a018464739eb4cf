import Semaforo.Rewards
import Semaforo.SignalReading
import Semaforo.TimedRun
import Mathlib.Tactic

/-!
# The single-intersection environment

`reset` and `step` of `brain/src/environments/single_intersection.py`, with the
observation and the reward they return.  The simulator is outside: what it
answers to a step, and what is read of its signal afterwards, is the event.
-/

namespace Semaforo

open Numpy Rewards

/-- `reward_fn`; any other name is `raw`. -/
inductive RewardFn where
  | pressure
  | queue
  | delay
  | smartDelay
  | composite
  | raw
  deriving DecidableEq, Repr

/-- The answer of the simulator to a step, and its signal after it. -/
structure SimulatorAnswer where
  rawObs : List ℚ
  rawReward : ℚ
  terminated : Bool
  truncated : Bool
  signal : SignalReading

structure StepInfo where
  step : ℕ
  cumulativeReward : ℚ
  /-- The return and the length of an episode that has ended. -/
  episode : Option (ℚ × ℕ)
  deriving DecidableEq, Repr

structure StepResult where
  obs : List ℚ
  reward : ℚ
  terminated : Bool
  truncated : Bool
  info : StepInfo

/-- `signal` is the signal of the simulator. -/
structure SingleIntersectionEnv where
  rewardFn : RewardFn
  signal : SignalReading
  lastAction : Option ℤ := none
  phaseElapsed : Option ℚ := none
  servedDownstream : Option (List ℚ) := none
  stepCount : ℕ := 0
  cumulativeReward : ℚ := 0
  episodeCount : ℕ := 0

namespace SingleIntersectionEnv

def obsSize : ℕ := 16

/-! ## The observation -/

/-- What the `try` block of `_transform_observation` leaves; `servedDownstream`
is `none` when an exception has ended it. -/
structure Readout where
  obs : List ℚ
  phaseElapsed : Option ℚ
  servedDownstream : Option (List ℚ)

def readSignal (obs : List ℚ) (phaseElapsed : Option ℚ) (ts : SignalReading) :
    Readout :=
  match ts.lanesQueue with
  | none => ⟨obs, phaseElapsed, none⟩
  | some queuesRaw =>
      let obs := setSlice obs 0 (aggregateDirections queuesRaw 20)
      match ts.lanesDensity with
      | none => ⟨obs, phaseElapsed, none⟩
      | some densitiesRaw =>
          let obs := setSlice obs 4 (aggregateDirections densitiesRaw 1)
          let obs := setSlice obs 8 (phaseOneHot ts.greenPhase)
          let elapsed := ts.timeSinceLastPhaseChange
          let obs := setSlice obs 10 [elapsedShare elapsed]
          match ts.outLanesDensity with
          | none => ⟨obs, some elapsed, none⟩
          | some downRaw =>
              let obs := setSlice obs 11 (aggregateDirections downRaw 1)
              match ts.links with
              | none => ⟨obs, some elapsed, none⟩
              | some links =>
                  ⟨setSlice obs 15 [queueImbalance obs], some elapsed,
                    some (Spillback.servedDownstreamOccupancies links)⟩

/-- The vector before anything is read of the signal. -/
def rawStart (rawObs : List ℚ) : List ℚ :=
  rawObs.take obsSize ++ List.replicate (obsSize - rawObs.length) 0

/-- What an exception puts in place of the entries that were written. -/
def rawFallback (obs rawObs : List ℚ) : List ℚ :=
  match (rawObs.map abs).max? with
  | none => obs
  | some maxVal =>
      if 0 < maxVal then
        setSlice obs 0
          ((rawObs.map fun x => clip (x / maxVal) 0 1).take obsSize)
      else obs

def transformObservation (rawObs : List ℚ) (phaseElapsed : Option ℚ)
    (ts : SignalReading) : Readout :=
  let readout := readSignal (rawStart rawObs) phaseElapsed ts
  let obs :=
    match readout.servedDownstream with
    | some _ => readout.obs
    | none => rawFallback readout.obs rawObs
  { readout with obs := obs.map fun x => clip x 0 1 }

/-! ## The steps -/

def reset (e : SingleIntersectionEnv) (rawObs : List ℚ) (ts : SignalReading) :
    List ℚ × SingleIntersectionEnv :=
  -- the readings of the last episode are forgotten before the first is taken
  let readout := transformObservation rawObs none ts
  (readout.obs,
    { e with
      signal := ts
      lastAction := none
      phaseElapsed := readout.phaseElapsed
      servedDownstream := readout.servedDownstream
      stepCount := 0
      cumulativeReward := 0 })

/-- The action that is handed to the simulator. -/
def asked (e : SingleIntersectionEnv) (action : ℤ) : ℤ :=
  correctAction e.signal.greenPhase e.signal.numGreenPhases action

section

variable (toFloat32 : ℚ →o ℚ)

/-- `_compute_reward`; `readout` is what the observation was built from. -/
def computeReward (e : SingleIntersectionEnv) (readout : Readout) (action : ℤ)
    (o : SimulatorAnswer) : ℚ :=
  match e.rewardFn with
  | .pressure => computePressureReward (.array readout.obs)
  | .queue => computeQueueReward (.array readout.obs)
  | .delay => computeDelayReward o.signal.accumulatedWaitingTimePerLane
  | .smartDelay =>
      computeSmartDelayReward o.signal.accumulatedWaitingTimePerLane
        o.signal.greenPhase readout.obs
  | .composite =>
      CompositeReward.compute toFloat32 {} (.array readout.obs)
        (e.lastAction.getD action) action readout.phaseElapsed
        readout.servedDownstream
  | .raw => o.rawReward

def step (e : SingleIntersectionEnv) (action : ℤ) (o : SimulatorAnswer) :
    StepResult × SingleIntersectionEnv :=
  let action := e.asked action
  let readout := transformObservation o.rawObs e.phaseElapsed o.signal
  let reward := e.computeReward toFloat32 readout action o
  let stepCount := e.stepCount + 1
  let cumulativeReward := e.cumulativeReward + reward
  let ended := o.terminated || o.truncated
  ({ obs := readout.obs
     reward := reward
     terminated := o.terminated
     truncated := o.truncated
     info :=
      { step := stepCount
        cumulativeReward := cumulativeReward
        episode := if ended then some (cumulativeReward, stepCount) else none } },
    { e with
      signal := o.signal
      lastAction := some action
      phaseElapsed := readout.phaseElapsed
      servedDownstream := readout.servedDownstream
      stepCount := stepCount
      cumulativeReward := cumulativeReward
      episodeCount := if ended then e.episodeCount + 1 else e.episodeCount })

/-- Every event is a chosen action with the simulator's answer. -/
def machine : Machine SingleIntersectionEnv (ℤ × SimulatorAnswer) Unit where
  step e x := (e.step toFloat32 x.1 x.2).2
  time _ := ()

/-- The rewards of a run. -/
def rewards (e : SingleIntersectionEnv) : List (ℤ × SimulatorAnswer) → List ℚ
  | [] => []
  | x :: events =>
      (e.step toFloat32 x.1 x.2).1.reward ::
        rewards (e.step toFloat32 x.1 x.2).2 events

/-- The actions that the simulator was handed in a run. -/
def askedActions (e : SingleIntersectionEnv) : List (ℤ × SimulatorAnswer) → List ℤ
  | [] => []
  | x :: events =>
      e.asked x.1 :: askedActions (e.step toFloat32 x.1 x.2).2 events

end

/-- `sumo_rl` keeps the green phase or takes the one that it is handed, and the
number of phases of a signal does not change. -/
structure Obeys (e : SingleIntersectionEnv) (x : ℤ × SimulatorAnswer) : Prop where
  phase : x.2.signal.greenPhase = e.signal.greenPhase ∨
    (x.2.signal.greenPhase : ℤ) = e.asked x.1
  numPhases : x.2.signal.numGreenPhases = e.signal.numGreenPhases

/-- The green phases of an episode, one for each observation. -/
def greenPhases (ts : SignalReading) (events : List (ℤ × SimulatorAnswer)) : List ℕ :=
  ts.greenPhase :: events.map fun x => x.2.signal.greenPhase

/-- The queues and the densities of a signal could be read. -/
def Timed (ts : SignalReading) : Bool :=
  ts.lanesQueue.isSome && ts.lanesDensity.isSome

/-- The elapsed time of the last signal with queues and densities. -/
def lastElapsed (signals : List SignalReading) : Option ℚ :=
  (signals.filter Timed).getLast?.map SignalReading.timeSinceLastPhaseChange

/-- The occupancies that a step puts into the composite reward. -/
def servedOccupancies (ts : SignalReading) : Option (List ℚ) :=
  if Timed ts && ts.outLanesDensity.isSome then
    ts.links.map Spillback.servedDownstreamOccupancies
  else none

/-- The greatest loss that a reward function of this module can give. -/
def worst : RewardFn → ℚ
  | .pressure => 1 / 5
  | .composite => 3 / 5
  | _ => 1

/-! ## What is observed -/

theorem length_rawStart (rawObs : List ℚ) : (rawStart rawObs).length = 16 := by
  simp only [rawStart, obsSize, List.length_append, List.length_take,
    List.length_replicate]
  omega

theorem length_readSignal {obs : List ℚ} (h : obs.length = 16)
    (phaseElapsed : Option ℚ) (ts : SignalReading) :
    (readSignal obs phaseElapsed ts).obs.length = 16 := by
  cases hqueue : ts.lanesQueue with
  | none => simpa only [readSignal, hqueue] using h
  | some queues =>
      have hqueues := length_setSlice h 0 (aggregateDirections queues 20) (by simp)
      cases hdensity : ts.lanesDensity with
      | none => simpa only [readSignal, hqueue, hdensity] using hqueues
      | some densities =>
          have hphase := length_setSlice
            (length_setSlice hqueues 4 (aggregateDirections densities 1) (by simp))
            8 (phaseOneHot ts.greenPhase) (by simp)
          have helapsed := length_setSlice hphase 10
            [elapsedShare ts.timeSinceLastPhaseChange] (by simp)
          cases hout : ts.outLanesDensity with
          | none =>
              simpa only [readSignal, hqueue, hdensity, hout] using helapsed
          | some down =>
              have hdown := length_setSlice helapsed 11
                (aggregateDirections down 1) (by simp)
              cases hlinks : ts.links with
              | none =>
                  simpa only [readSignal, hqueue, hdensity, hout, hlinks] using
                    hdown
              | some links =>
                  simpa only [readSignal, hqueue, hdensity, hout, hlinks] using
                    length_setSlice hdown 15 [queueImbalance _] (by simp)

theorem length_rawFallback {obs : List ℚ} (h : obs.length = 16)
    (rawObs : List ℚ) : (rawFallback obs rawObs).length = 16 := by
  unfold rawFallback
  split
  · exact h
  · split_ifs
    · refine length_setSlice h 0 _ ?_
      rw [Nat.zero_add]
      exact List.length_take_le _ _
    · exact h

/-- Every observation is a vector of the declared box, whatever could be read. -/
theorem transformObservation_mem (rawObs : List ℚ) (phaseElapsed : Option ℚ)
    (ts : SignalReading) :
    (transformObservation rawObs phaseElapsed ts).obs.length = obsSize ∧
      UnitEntries (transformObservation rawObs phaseElapsed ts).obs := by
  have hread : (readSignal (rawStart rawObs) phaseElapsed ts).obs.length = 16 :=
    length_readSignal (length_rawStart rawObs) phaseElapsed ts
  constructor
  · unfold transformObservation
    dsimp only
    rw [List.length_map]
    split
    · exact hread
    · exact length_rawFallback hread rawObs
  · exact unitEntries_map_clip id _

/-- With every call answered nothing of the simulator's own vector is left. -/
theorem readSignal_of_answered {obs : List ℚ} (h : obs.length = 16)
    (phaseElapsed : Option ℚ) {ts : SignalReading} {queues densities down : List ℚ}
    {links : Spillback.TrafficSignal} (hqueues : ts.lanesQueue = some queues)
    (hdensities : ts.lanesDensity = some densities)
    (hdown : ts.outLanesDensity = some down) (hlinks : ts.links = some links) :
    readSignal obs phaseElapsed ts =
      ⟨aggregateDirections queues 20 ++ aggregateDirections densities 1 ++
          phaseOneHot ts.greenPhase ++
          [elapsedShare ts.timeSinceLastPhaseChange] ++
          aggregateDirections down 1 ++
          [queueImbalance (aggregateDirections queues 20)],
        some ts.timeSinceLastPhaseChange,
        some (Spillback.servedDownstreamOccupancies links)⟩ := by
  have hq := length_aggregateDirections queues 20
  have hd := length_aggregateDirections densities 1
  have ho := length_aggregateDirections down 1
  have hp := length_phaseOneHot ts.greenPhase
  have hrest : ((obs.drop 11).drop 4).drop 1 = [] := by
    rw [List.drop_drop, List.drop_drop]
    exact List.drop_eq_nil_of_le h.le
  simp only [readSignal, hqueues, hdensities, hdown, hlinks]
  rw [setSlice_layout hq hd hp, setSlice_written _ _ _ (by
      simp only [List.length_append, hq, hd, hp, List.length_singleton]),
    setSlice_written _ _ _ (by
      simp only [List.length_append, hq, hd, hp, ho, List.length_singleton])]
  simp only [List.append_assoc, queueImbalance_append hq, List.length_singleton,
    ho, hrest, List.append_nil]

/-- The time that goes into the reward is that of the last signal with queues
and densities. -/
theorem transformObservation_phaseElapsed (rawObs : List ℚ)
    (phaseElapsed : Option ℚ) (ts : SignalReading) :
    (transformObservation rawObs phaseElapsed ts).phaseElapsed =
      if Timed ts then some ts.timeSinceLastPhaseChange else phaseElapsed := by
  change (readSignal (rawStart rawObs) phaseElapsed ts).phaseElapsed = _
  unfold readSignal Timed
  cases ts.lanesQueue with
  | none => rfl
  | some queues =>
      cases ts.lanesDensity with
      | none => rfl
      | some densities =>
          cases ts.outLanesDensity with
          | none => rfl
          | some down => cases ts.links <;> rfl

theorem transformObservation_servedDownstream (rawObs : List ℚ)
    (phaseElapsed : Option ℚ) (ts : SignalReading) :
    (transformObservation rawObs phaseElapsed ts).servedDownstream =
      servedOccupancies ts := by
  change (readSignal (rawStart rawObs) phaseElapsed ts).servedDownstream = _
  unfold readSignal servedOccupancies Timed
  cases ts.lanesQueue with
  | none => rfl
  | some queues =>
      cases ts.lanesDensity with
      | none => rfl
      | some densities =>
          cases ts.outLanesDensity with
          | none => rfl
          | some down => cases ts.links <;> rfl

/-! ## Episodes -/

section

variable (toFloat32 : ℚ →o ℚ)

theorem reward_mem {e : SingleIntersectionEnv} (hfn : e.rewardFn ≠ .raw)
    (action : ℤ) (o : SimulatorAnswer) :
    -worst e.rewardFn ≤ (e.step toFloat32 action o).1.reward ∧
      (e.step toFloat32 action o).1.reward ≤ 0 := by
  have hobs := (transformObservation_mem o.rawObs e.phaseElapsed o.signal).2
  change -worst e.rewardFn ≤ e.computeReward toFloat32 _ (e.asked action) o ∧
    e.computeReward toFloat32 _ (e.asked action) o ≤ 0
  unfold computeReward
  cases hname : e.rewardFn with
  | pressure => exact pressure_mem hobs
  | queue => exact queue_mem _ _
  | delay => exact delay_mem _
  | smartDelay => exact smartDelay_mem _ _ _
  | composite =>
      have hweighted : CompositeReward.Weighted {} :=
        ⟨by norm_num, by norm_num, by norm_num, by norm_num⟩
      have hmem := hweighted.compute_mem toFloat32 hobs
        (e.lastAction.getD (e.asked action)) (e.asked action)
        (transformObservation o.rawObs e.phaseElapsed o.signal).phaseElapsed
        (transformObservation o.rawObs e.phaseElapsed o.signal).servedDownstream
      refine ⟨le_of_eq_of_le ?_ hmem.1, hmem.2⟩
      norm_num [worst]
  | raw => exact absurd hname hfn

theorem run_rewardFn (e : SingleIntersectionEnv) (events : List (ℤ × SimulatorAnswer)) :
    ((machine toFloat32).run e events).rewardFn = e.rewardFn := by
  induction events generalizing e with
  | nil => rfl
  | cons x events ih => exact ih _

theorem run_stepCount (e : SingleIntersectionEnv) (events : List (ℤ × SimulatorAnswer)) :
    ((machine toFloat32).run e events).stepCount =
      e.stepCount + events.length := by
  induction events generalizing e with
  | nil => rfl
  | cons x events ih =>
      rw [Machine.run_cons, ih, List.length_cons]
      change e.stepCount + 1 + _ = _
      omega

theorem run_cumulativeReward (e : SingleIntersectionEnv)
    (events : List (ℤ × SimulatorAnswer)) :
    ((machine toFloat32).run e events).cumulativeReward =
      e.cumulativeReward + (e.rewards toFloat32 events).sum := by
  induction events generalizing e with
  | nil => exact (add_zero _).symm
  | cons x events ih =>
      rw [Machine.run_cons, ih, rewards, List.sum_cons, ← add_assoc]
      rfl

theorem rewards_mem {e : SingleIntersectionEnv} (hfn : e.rewardFn ≠ .raw)
    (events : List (ℤ × SimulatorAnswer)) :
    -(events.length * worst e.rewardFn) ≤ (e.rewards toFloat32 events).sum ∧
      (e.rewards toFloat32 events).sum ≤ 0 := by
  induction events generalizing e with
  | nil => simp [rewards]
  | cons x events ih =>
      have hstep := reward_mem toFloat32 hfn x.1 x.2
      have hrest := ih (e := (e.step toFloat32 x.1 x.2).2) hfn
      have hworst : worst (e.step toFloat32 x.1 x.2).2.rewardFn =
        worst e.rewardFn := rfl
      rw [hworst] at hrest
      rw [rewards, List.sum_cons, List.length_cons, Nat.cast_succ]
      constructor <;> linarith [hstep.1, hstep.2, hrest.1, hrest.2]

/-- Whatever the simulator answers, a step returns a vector of the declared box
and counts the steps and the rewards since the reset; the return of an episode
stays between zero and the greatest loss of its reward function a step. -/
theorem episode_accounts (e : SingleIntersectionEnv) (rawObs : List ℚ)
    (ts : SignalReading) (events : List (ℤ × SimulatorAnswer)) (action : ℤ)
    (o : SimulatorAnswer) :
    let start := (e.reset rawObs ts).2
    let r := (((machine toFloat32).run start events).step toFloat32 action o).1
    (r.obs.length = obsSize ∧ UnitEntries r.obs) ∧
      r.info.step = events.length + 1 ∧
      r.info.cumulativeReward =
        (start.rewards toFloat32 (events ++ [(action, o)])).sum ∧
      r.info.episode = (if o.terminated || o.truncated then
          some (r.info.cumulativeReward, r.info.step) else none) ∧
      (e.rewardFn ≠ .raw →
        (-worst e.rewardFn ≤ r.reward ∧ r.reward ≤ 0) ∧
          -(r.info.step * worst e.rewardFn) ≤ r.info.cumulativeReward ∧
          r.info.cumulativeReward ≤ 0) := by
  intro start r
  have hstep : r.info.step = events.length + 1 := by
    change ((machine toFloat32).run start events).stepCount + 1 = _
    rw [run_stepCount]
    change 0 + events.length + 1 = _
    rw [Nat.zero_add]
  have hcumulative : r.info.cumulativeReward =
      (start.rewards toFloat32 (events ++ [(action, o)])).sum := by
    have hrun := run_cumulativeReward toFloat32 start (events ++ [(action, o)])
    rw [Machine.run_append] at hrun
    exact hrun.trans (zero_add _)
  refine ⟨transformObservation_mem _ _ _, hstep, hcumulative, rfl,
    fun hfn => ⟨?_, ?_⟩⟩
  · have hname := run_rewardFn toFloat32 start events
    have hmem := reward_mem toFloat32
      (e := (machine toFloat32).run start events) (by rwa [hname]) action o
    rwa [hname] at hmem
  · have hmem := rewards_mem toFloat32 (e := start) hfn (events ++ [(action, o)])
    rw [← hcumulative, List.length_append, List.length_singleton, ← hstep] at hmem
    exact hmem

/-! ## The phases of an episode -/

theorem greenPhases_follow {e : SingleIntersectionEnv}
    {events : List (ℤ × SimulatorAnswer)}
    (hrun : (machine toFloat32).Admits (fun e _ x => e.Obeys x) e () events) :
    (greenPhases e.signal events).IsChain
      (RingWalk.Follows e.signal.numGreenPhases) := by
  induction events generalizing e with
  | nil => exact .singleton _
  | cons x events ih =>
      obtain ⟨hobeys, hrest⟩ := hrun
      have htail := ih hrest
      have hnum : ((machine toFloat32).step e x).signal.numGreenPhases =
          e.signal.numGreenPhases := hobeys.numPhases
      rw [hnum] at htail
      exact htail.cons_cons (follows_of_corrected hobeys.phase)

/-- Whatever is chosen, the phases that an episode serves are visited in the
order of the signal and none is skipped. -/
theorem phases_in_order (e : SingleIntersectionEnv) (rawObs : List ℚ)
    (ts : SignalReading) (events : List (ℤ × SimulatorAnswer))
    (hphase : ts.greenPhase < ts.numGreenPhases)
    (hrun : (machine toFloat32).Admits (fun e _ x => e.Obeys x)
      (e.reset rawObs ts).2 () events)
    (i phase : ℕ)
    (hvisited : ((greenPhases ts events).destutter (· ≠ ·))[i]? = some phase) :
    phase = (ts.greenPhase + i) % ts.numGreenPhases :=
  RingWalk.visited hphase (greenPhases_follow toFloat32 hrun) i phase hvisited

end

/-- A signal of three phases without lanes. -/
def bareSignal (greenPhase : ℕ) (elapsed : ℚ) : SignalReading where
  greenPhase := greenPhase
  numGreenPhases := 3
  timeSinceLastPhaseChange := elapsed
  lanesQueue := some []
  lanesDensity := some []
  outLanesDensity := some []
  links := none
  accumulatedWaitingTimePerLane := none

def bareAnswer (greenPhase : ℕ) (elapsed : ℚ) : SimulatorAnswer where
  rawObs := []
  rawReward := 0
  terminated := false
  truncated := false
  signal := bareSignal greenPhase elapsed

/-- The second choice is not carried out. -/
def skippingChoices : List (ℤ × SimulatorAnswer) :=
  [(2, bareAnswer 1 5), (0, bareAnswer 1 10), (0, bareAnswer 2 5)]

theorem phases_in_order_skipping :
    ((greenPhases (bareSignal 0 0) skippingChoices).destutter (· ≠ ·))[2]? =
        some 2 ∧ 2 = (0 + 2) % 3 :=
  ⟨rfl, phases_in_order OrderHom.id { rewardFn := .raw, signal := bareSignal 0 0 }
    [] (bareSignal 0 0) skippingChoices (by decide)
    ⟨⟨Or.inr rfl, rfl⟩, ⟨Or.inl rfl, rfl⟩, ⟨Or.inr rfl, rfl⟩, trivial⟩ 2 2 rfl⟩

section

variable (toFloat32 : ℚ →o ℚ)

/-! ## The flickering part of the reward -/

theorem lastElapsed_singleton (ts : SignalReading) :
    lastElapsed [ts] =
      if Timed ts then some ts.timeSinceLastPhaseChange else none := by
  unfold lastElapsed
  rw [List.filter_singleton]
  cases Timed ts <;> rfl

theorem lastElapsed_cons (ts : SignalReading) (signals : List SignalReading) :
    lastElapsed (ts :: signals) =
      (lastElapsed signals).or (lastElapsed [ts]) := by
  rw [lastElapsed_singleton]
  unfold lastElapsed
  rw [List.filter_cons]
  by_cases htimed : Timed ts = true
  · rw [if_pos htimed, if_pos htimed, List.getLast?_cons]
    cases (signals.filter Timed).getLast? <;> rfl
  · rw [if_neg htimed, if_neg htimed, Option.or_none]

theorem run_phaseElapsed (e : SingleIntersectionEnv)
    (events : List (ℤ × SimulatorAnswer)) :
    ((machine toFloat32).run e events).phaseElapsed =
      (lastElapsed (events.map fun x => x.2.signal)).or e.phaseElapsed := by
  induction events generalizing e with
  | nil => rfl
  | cons x events ih =>
      have hstep : ((machine toFloat32).step e x).phaseElapsed =
          if Timed x.2.signal then some x.2.signal.timeSinceLastPhaseChange
          else e.phaseElapsed :=
        transformObservation_phaseElapsed x.2.rawObs e.phaseElapsed x.2.signal
      rw [Machine.run_cons, ih, hstep, List.map_cons, lastElapsed_cons,
        Option.or_assoc, lastElapsed_singleton]
      split_ifs <;> rfl

theorem run_lastAction (e : SingleIntersectionEnv)
    (events : List (ℤ × SimulatorAnswer)) :
    ((machine toFloat32).run e events).lastAction =
      (e.askedActions toFloat32 events).getLast?.or e.lastAction := by
  induction events generalizing e with
  | nil => rfl
  | cons x events ih =>
      have hstep : (machine toFloat32).step e x =
        (e.step toFloat32 x.1 x.2).2 := rfl
      rw [Machine.run_cons, ih, askedActions, List.getLast?_cons, hstep]
      cases (askedActions toFloat32 (e.step toFloat32 x.1 x.2).2 events).getLast?
        <;> rfl

/-- The composite reward of every step of every episode, out of what was
answered.  A change of the action that the simulator is handed is charged by the
time that the last readable signal shows after the step: how long the green
before it was held does not enter. -/
theorem composite_of_run {e : SingleIntersectionEnv}
    (he : e.rewardFn = .composite) (rawObs : List ℚ) (ts : SignalReading)
    (events : List (ℤ × SimulatorAnswer)) (action : ℤ) (o : SimulatorAnswer) :
    let start := (e.reset rawObs ts).2
    let before := (machine toFloat32).run start events
    let r := (before.step toFloat32 action o).1
    r.reward =
      1 / 2 * computePressureReward (.array r.obs) +
        3 / 10 * computeQueueReward (.array r.obs) +
        1 / 10 * (match (start.askedActions toFloat32 events).getLast?,
            lastElapsed (ts :: (events ++ [(action, o)]).map fun x => x.2.signal)
          with
          | some last, some elapsed =>
              if before.asked action = last then 0
              else CompositeReward.switchCost {} elapsed
          | _, _ => 0) +
        1 / 10 * Spillback.computeSpillbackPenalty toFloat32
          (servedOccupancies o.signal) (85 / 100) := by
  intro start before r
  have hname : before.rewardFn = .composite :=
    (run_rewardFn toFloat32 start events).trans he
  have hlast : before.lastAction =
      (start.askedActions toFloat32 events).getLast? :=
    (run_lastAction toFloat32 start events).trans Option.or_none
  have htime : (transformObservation o.rawObs before.phaseElapsed
      o.signal).phaseElapsed =
      lastElapsed (ts :: (events ++ [(action, o)]).map fun x => x.2.signal) := by
    have hrun := run_phaseElapsed toFloat32 start (events ++ [(action, o)])
    rw [Machine.run_append] at hrun
    have hfirst : start.phaseElapsed = lastElapsed [ts] := by
      rw [lastElapsed_singleton]
      exact transformObservation_phaseElapsed rawObs none ts
    rw [lastElapsed_cons, ← hfirst]
    exact hrun
  have hreward : r.reward = before.computeReward toFloat32
    (transformObservation o.rawObs before.phaseElapsed o.signal)
    (before.asked action) o := rfl
  rw [hreward]
  unfold computeReward
  rw [hname]
  dsimp only
  unfold CompositeReward.compute CompositeReward.flickerPenalty
  rw [transformObservation_servedDownstream, htime, hlast]
  change _ + _ + _ + _ = _
  cases (start.askedActions toFloat32 events).getLast? with
  | none => simp; rfl
  | some last =>
      cases lastElapsed (ts :: (events ++ [(action, o)]).map fun x => x.2.signal)
      with
      | none => simp; rfl
      | some elapsed => rfl

end

/-- A green of a minute is ended, and charged like one of no time at all. -/
theorem composite_of_run_mature :
    ((((machine OrderHom.id).run
        (reset { rewardFn := .composite, signal := bareSignal 0 0 } []
          (bareSignal 0 0)).2 [(0, bareAnswer 0 60)]).step OrderHom.id 1
        (bareAnswer 1 5)).1).reward = -(1 / 10) :=
  (composite_of_run OrderHom.id
    (e := { rewardFn := .composite, signal := bareSignal 0 0 }) rfl []
    (bareSignal 0 0) [(0, bareAnswer 0 60)] 1 (bareAnswer 1 5)).trans
    (by decide +kernel)

end SingleIntersectionEnv

end Semaforo
