import Semaforo.Spillback
import Mathlib.Tactic

/-!
# The rewards of the single intersection

`brain/src/rewards` apart from the night mode: the delay, the queue, the
pressure and the smart-delay reward, and the composite of pressure, queue,
flickering and spillback, in exact arithmetic.  A reading that raises an
exception is `none`.
-/

namespace Semaforo

namespace Rewards

open Numpy

/-- What the queue and the pressure reward accept. -/
inductive Observation where
  | array (values : List ℚ)
  | dict (entries : List (String × List ℚ))
  | other

def computeDelayReward (waitTimes : Option (List ℚ)) : ℚ :=
  match waitTimes with
  | some waitTimes => -clip (waitTimes.sum / 500) 0 1
  | none => 0

def computeQueueReward (observation : Observation) (maxQueue : ℚ := 20) : ℚ :=
  match observation with
  | .dict entries =>
      -clip (((entries.lookup "queue").getD [0]).sum / max maxQueue 1) 0 1
  | .array values => -clip ((values.take 4).sum / 4) 0 1
  | .other => 0

/-- The keys are those of the incoming and of the outgoing counts. -/
def computePressureReward (observation : Observation)
    (incomingKey : String := "queue") (outgoingKey : String := "flow")
    (maxQueue : ℚ := 20) : ℚ :=
  let reward (incoming outgoing : List ℚ) :=
    -clip ((incoming.sum - outgoing.sum) / max maxQueue 1) 0 1
  match observation with
  | .dict entries =>
      reward ((entries.lookup incomingKey).getD [0])
        ((entries.lookup outgoingKey).getD [0])
  | .array values => reward (values.take 4) ((values.drop 4).take 4)
  | .other => 0

/-- `waitTimes` and `greenPhase` are read of the signal. -/
def computeSmartDelayReward (waitTimes : Option (List ℚ)) (greenPhase : ℕ)
    (obs : List ℚ) : ℚ :=
  let rDelay :=
    match waitTimes with
    | some waitTimes => -clip (waitTimes.sum / 500) 0 1
    | none => 0
  let qNs := obs.getD 0 0 + obs.getD 2 0
  let qEw := obs.getD 1 0 + obs.getD 3 0
  let greenQueue := if greenPhase = 0 then qNs else qEw
  let redQueue := if greenPhase = 0 then qEw else qNs
  let rWasted :=
    if greenQueue < 2 / 100 ∧ 5 / 100 < redQueue then
      -clip (redQueue / 1) 0 1
    else 0
  6 / 10 * rDelay + 4 / 10 * rWasted

structure CompositeReward where
  pressureWeight : ℚ := 1 / 2
  queueWeight : ℚ := 3 / 10
  flickeringWeight : ℚ := 1 / 10
  minGreen : ℚ := 5
  stabilityWindow : ℚ := 10
  spillbackWeight : ℚ := 1 / 10
  rhoCrit : ℚ := 85 / 100
  deriving DecidableEq, Repr

namespace CompositeReward

/-- What a switch costs when `elapsed` is given as the time since the last one. -/
def switchCost (c : CompositeReward) (elapsed : ℚ) : ℚ :=
  let heldPastMin := elapsed - c.minGreen
  if heldPastMin < 0 then -1
  else if c.stabilityWindow ≤ 0 then 0
  else -max 0 (1 - heldPastMin / c.stabilityWindow)

def flickerPenalty (c : CompositeReward) (lastAction currentAction : ℤ)
    (timeSincePhaseChange : Option ℚ) : ℚ :=
  if currentAction = lastAction then 0
  else
    match timeSincePhaseChange with
    | none => 0
    | some elapsed => c.switchCost elapsed

def compute (toFloat32 : ℚ →o ℚ) (c : CompositeReward)
    (observation : Observation) (lastAction currentAction : ℤ)
    (timeSincePhaseChange : Option ℚ := none)
    (downstreamOccupancy : Option (List ℚ) := none) : ℚ :=
  c.pressureWeight * computePressureReward observation +
    c.queueWeight * computeQueueReward observation +
    c.flickeringWeight *
      c.flickerPenalty lastAction currentAction timeSincePhaseChange +
    c.spillbackWeight *
      Spillback.computeSpillbackPenalty toFloat32 downstreamOccupancy c.rhoCrit

/-- The weights are not negative. -/
structure Weighted (c : CompositeReward) : Prop where
  pressure : 0 ≤ c.pressureWeight
  queue : 0 ≤ c.queueWeight
  flickering : 0 ≤ c.flickeringWeight
  spillback : 0 ≤ c.spillbackWeight

end CompositeReward

/-! ## The ranges -/

theorem neg_clip_mem (x : ℚ) : -1 ≤ -clip x 0 1 ∧ -clip x 0 1 ≤ 0 := by
  have hlow := low_le_clip x (zero_le_one' ℚ)
  have hhigh := clip_le_high x 0 1
  constructor <;> linarith

theorem delay_mem (waitTimes : Option (List ℚ)) :
    -1 ≤ computeDelayReward waitTimes ∧ computeDelayReward waitTimes ≤ 0 := by
  cases waitTimes with
  | none => norm_num [computeDelayReward]
  | some waitTimes => exact neg_clip_mem _

theorem queue_mem (observation : Observation) (maxQueue : ℚ) :
    -1 ≤ computeQueueReward observation maxQueue ∧
      computeQueueReward observation maxQueue ≤ 0 := by
  cases observation with
  | array values => exact neg_clip_mem _
  | dict entries => exact neg_clip_mem _
  | other => norm_num [computeQueueReward]

theorem smartDelay_mem (waitTimes : Option (List ℚ)) (greenPhase : ℕ)
    (obs : List ℚ) :
    -1 ≤ computeSmartDelayReward waitTimes greenPhase obs ∧
      computeSmartDelayReward waitTimes greenPhase obs ≤ 0 := by
  have hdelay := delay_mem waitTimes
  unfold computeDelayReward at hdelay
  have hwasted : ∀ (p : Prop) [Decidable p] (x : ℚ),
      -1 ≤ (if p then -clip x 0 1 else 0) ∧
        (if p then -clip x 0 1 else 0) ≤ 0 := by
    intro p _ x
    split_ifs
    · exact neg_clip_mem x
    · norm_num
  unfold computeSmartDelayReward
  dsimp only
  obtain ⟨hlow, hhigh⟩ := hwasted
    ((if greenPhase = 0 then obs.getD 0 0 + obs.getD 2 0
        else obs.getD 1 0 + obs.getD 3 0) < 2 / 100 ∧
      5 / 100 < if greenPhase = 0 then obs.getD 1 0 + obs.getD 3 0
        else obs.getD 0 0 + obs.getD 2 0)
    ((if greenPhase = 0 then obs.getD 1 0 + obs.getD 3 0
        else obs.getD 0 0 + obs.getD 2 0) / 1)
  constructor <;> linarith [hdelay.1, hdelay.2]

theorem sum_le_length {values : List ℚ} (h : ∀ x ∈ values, x ≤ 1) :
    values.sum ≤ values.length := by
  have hsum := List.sum_le_card_nsmul values 1 h
  simpa using hsum

/-- The pressure of a canonical observation is measured in shares of a queue,
and divided by a number of vehicles: it reaches a fifth of the range. -/
theorem pressure_mem {values : List ℚ}
    (hvalues : ∀ x ∈ values, 0 ≤ x ∧ x ≤ 1) :
    -(1 / 5) ≤ computePressureReward (.array values) ∧
      computePressureReward (.array values) ≤ 0 := by
  refine ⟨?_, (neg_clip_mem _).2⟩
  have hin : (values.take 4).sum ≤ 4 := by
    have hsum : (values.take 4).sum ≤ (values.take 4).length :=
      sum_le_length fun x hx => (hvalues x (List.mem_of_mem_take hx)).2
    have hlength : ((values.take 4).length : ℚ) ≤ 4 := by
      exact_mod_cast List.length_take_le 4 values
    exact hsum.trans hlength
  have hout : 0 ≤ ((values.drop 4).take 4).sum :=
    List.sum_nonneg fun x hx =>
      (hvalues x (List.mem_of_mem_drop (List.mem_of_mem_take hx))).1
  have hclip : clip (((values.take 4).sum - ((values.drop 4).take 4).sum) /
      max 20 1) 0 1 ≤ 1 / 5 := by
    refine (clip_mono (y := 1 / 5) ?_ 0 1).trans_eq
      (clip_eq_self (by norm_num) (by norm_num))
    rw [max_eq_left (by norm_num), div_le_iff₀ (by norm_num)]
    linarith
  exact neg_le_neg hclip

theorem spillback_mem (toFloat32 : ℚ →o ℚ) (occupancies : Option (List ℚ))
    (rhoCrit : ℚ) :
    -1 ≤ Spillback.computeSpillbackPenalty toFloat32 occupancies rhoCrit ∧
      Spillback.computeSpillbackPenalty toFloat32 occupancies rhoCrit ≤ 0 := by
  unfold Spillback.computeSpillbackPenalty
  split
  · norm_num
  · split
    · norm_num
    · exact neg_clip_mem _

namespace CompositeReward

variable (c : CompositeReward)

theorem switchCost_mem (elapsed : ℚ) :
    -1 ≤ c.switchCost elapsed ∧ c.switchCost elapsed ≤ 0 := by
  unfold switchCost
  dsimp only
  split_ifs with hyoung hwindow
  · norm_num
  · norm_num
  · have hpast : 0 ≤ (elapsed - c.minGreen) / c.stabilityWindow :=
      div_nonneg (not_lt.mp hyoung) (not_le.mp hwindow).le
    have hmax : max 0 (1 - (elapsed - c.minGreen) / c.stabilityWindow) ≤ 1 :=
      max_le zero_le_one (by linarith)
    exact ⟨neg_le_neg hmax, neg_nonpos.mpr (le_max_left 0 _)⟩

theorem flickerPenalty_mem (lastAction currentAction : ℤ)
    (timeSincePhaseChange : Option ℚ) :
    -1 ≤ c.flickerPenalty lastAction currentAction timeSincePhaseChange ∧
      c.flickerPenalty lastAction currentAction timeSincePhaseChange ≤ 0 := by
  unfold flickerPenalty
  split_ifs
  · norm_num
  · cases timeSincePhaseChange with
    | none => norm_num
    | some elapsed => exact c.switchCost_mem elapsed

variable {c}

theorem Weighted.compute_mem (hc : c.Weighted) (toFloat32 : ℚ →o ℚ)
    {values : List ℚ} (hvalues : ∀ x ∈ values, 0 ≤ x ∧ x ≤ 1)
    (lastAction currentAction : ℤ) (timeSincePhaseChange : Option ℚ)
    (downstreamOccupancy : Option (List ℚ)) :
    -(c.pressureWeight / 5 + c.queueWeight + c.flickeringWeight +
          c.spillbackWeight) ≤
        c.compute toFloat32 (.array values) lastAction currentAction
          timeSincePhaseChange downstreamOccupancy ∧
      c.compute toFloat32 (.array values) lastAction currentAction
        timeSincePhaseChange downstreamOccupancy ≤ 0 := by
  have hpressure := pressure_mem hvalues
  have hqueue := queue_mem (.array values) 20
  have hflicker :=
    c.flickerPenalty_mem lastAction currentAction timeSincePhaseChange
  have hspill := spillback_mem toFloat32 downstreamOccupancy c.rhoCrit
  unfold compute
  constructor
  · nlinarith [hc.pressure, hc.queue, hc.flickering, hc.spillback,
      mul_le_mul_of_nonneg_left hpressure.1 hc.pressure,
      mul_le_mul_of_nonneg_left hqueue.1 hc.queue,
      mul_le_mul_of_nonneg_left hflicker.1 hc.flickering,
      mul_le_mul_of_nonneg_left hspill.1 hc.spillback]
  · have h1 := mul_nonpos_of_nonneg_of_nonpos hc.pressure hpressure.2
    have h2 := mul_nonpos_of_nonneg_of_nonpos hc.queue hqueue.2
    have h3 := mul_nonpos_of_nonneg_of_nonpos hc.flickering hflicker.2
    have h4 := mul_nonpos_of_nonneg_of_nonpos hc.spillback hspill.2
    linarith

end CompositeReward

end Rewards

end Semaforo
