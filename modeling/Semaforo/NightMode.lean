import Semaforo.NumpyClip
import Semaforo.PotentialShaping
import Mathlib.Tactic

/-!
# Night-mode shaping

The potential and the reward of `brain/src/rewards/night_mode.py`, in exact
arithmetic.  A lane index below the negative length of the queue vector raises
`IndexError`, which is `none`.  The phase is an argument of the reward that
nothing reads, so it is left out.
-/

namespace Semaforo

namespace NightMode

open PotentialShaping Numpy

/-- The entry `queue` of an observation, if it has one. -/
structure Observation where
  queue : Option (List ℚ)
  deriving DecidableEq, Repr

/-- `queues[i]`; negative indices count from the end. -/
def item (queues : List ℚ) (i : ℤ) : Option ℚ :=
  if 0 ≤ i then queues[i.toNat]?
  else if 0 ≤ queues.length + i then queues[(queues.length + i).toNat]?
  else none

def laneTotal (queues : List ℚ) : List ℤ → Option ℚ
  | [] => some 0
  | i :: lanes =>
      if i < queues.length then do
        let queue ← item queues i
        let rest ← laneTotal queues lanes
        return queue + rest
      else laneTotal queues lanes

def computeNightPotential (observation : Observation)
    (avenueLanes crossLanes : List ℤ) (maxQueue : ℚ := 20) : Option ℚ :=
  let queues := observation.queue.getD []
  if queues = [] then some 0
  else do
    let avenueQueueTotal ← laneTotal queues avenueLanes
    let crossQueueTotal ← laneTotal queues crossLanes
    if crossQueueTotal = 0 ∧ 0 < avenueQueueTotal then
      let norm := max maxQueue 1
      return -clip (avenueQueueTotal / norm) 0 1
    else return 0

def computeNightModeReward (observation : Observation)
    (avenueLanes crossLanes : List ℤ) (prevObservation : Option Observation)
    (gamma : ℚ := 99 / 100) (maxQueue : ℚ := 20) : Option ℚ := do
  let phiNow ← computeNightPotential observation avenueLanes crossLanes maxQueue
  match prevObservation with
  | none => return phiNow
  | some prevObservation =>
      let phiPrev ← computeNightPotential prevObservation avenueLanes crossLanes
        maxQueue
      return clip (gamma * phiNow - phiPrev) (-1) 1

section

variable (avenueLanes crossLanes : List ℤ) (gamma maxQueue : ℚ)

/-- The rewards of the observations behind `previous`. -/
def rewardsAfter : Observation → List Observation → Option (List ℚ)
  | _, [] => some []
  | previous, observation :: observations => do
      let reward ← computeNightModeReward observation avenueLanes crossLanes
        (some previous) gamma maxQueue
      let rewards ← rewardsAfter observation observations
      return reward :: rewards

/-- The rewards of a whole trajectory. -/
def trajectoryRewards (first : Observation) (observations : List Observation) :
    Option (List ℚ) := do
  let reward ← computeNightModeReward first avenueLanes crossLanes none gamma
    maxQueue
  let rewards ← rewardsAfter avenueLanes crossLanes gamma maxQueue first
    observations
  return reward :: rewards

def totalShaping (first : Observation) (observations : List Observation) :
    Option ℚ :=
  (trajectoryRewards avenueLanes crossLanes gamma maxQueue first
    observations).map (discountedSum gamma)

/-- The shaping of trajectories pays for their two ends only. -/
structure PreservesPolicy : Prop where
  unclipped : ∀ previous observation phiPrev phiNow,
    computeNightPotential previous avenueLanes crossLanes maxQueue =
        some phiPrev →
      computeNightPotential observation avenueLanes crossLanes maxQueue =
          some phiNow →
        clip (gamma * phiNow - phiPrev) (-1) 1 = gamma * phiNow - phiPrev
  telescopes : ∀ first observations total,
    totalShaping avenueLanes crossLanes gamma maxQueue first observations =
        some total →
      ∃ phiFirst phiLast,
        computeNightPotential first avenueLanes crossLanes maxQueue =
            some phiFirst ∧
          computeNightPotential (observations.getLastD first) avenueLanes
              crossLanes maxQueue = some phiLast ∧
          total = (1 - gamma) * phiFirst +
            gamma ^ (observations.length + 1) * phiLast
  same_ends : ∀ first observations observations' total total',
    observations.length = observations'.length →
      observations.getLastD first = observations'.getLastD first →
        totalShaping avenueLanes crossLanes gamma maxQueue first observations =
            some total →
          totalShaping avenueLanes crossLanes gamma maxQueue first
              observations' = some total' →
            total = total'
  total : (∀ i ∈ avenueLanes ++ crossLanes, 0 ≤ i) →
    ∀ first observations,
      (totalShaping avenueLanes crossLanes gamma maxQueue first
        observations).isSome

end

/-! ## The potential -/

theorem potential_mem {observation : Observation}
    {avenueLanes crossLanes : List ℤ} {maxQueue phi : ℚ}
    (hphi : computeNightPotential observation avenueLanes crossLanes maxQueue =
      some phi) : -1 ≤ phi ∧ phi ≤ 0 := by
  unfold computeNightPotential at hphi
  dsimp only at hphi
  split_ifs at hphi with hempty
  · obtain rfl := Option.some.inj hphi
    norm_num
  · obtain ⟨avenue, -, hphi⟩ := Option.bind_eq_some_iff.mp hphi
    obtain ⟨cross, -, hphi⟩ := Option.bind_eq_some_iff.mp hphi
    split_ifs at hphi with hcritical
    · obtain rfl := Option.some.inj hphi
      exact ⟨neg_le_neg (clip_le_high _ 0 1),
        neg_nonpos.mpr (low_le_clip _ zero_le_one)⟩
    · obtain rfl := Option.some.inj hphi
      norm_num

theorem laneTotal_isSome (queues : List ℚ) {lanes : List ℤ}
    (hlanes : ∀ i ∈ lanes, 0 ≤ i) : (laneTotal queues lanes).isSome := by
  induction lanes with
  | nil => rfl
  | cons i lanes ih =>
      rw [List.forall_mem_cons] at hlanes
      obtain ⟨rest, hrest⟩ := Option.isSome_iff_exists.mp (ih hlanes.2)
      rw [laneTotal, hrest]
      split_ifs with hi
      · have hlt : i.toNat < queues.length := by
          rw [Int.toNat_lt hlanes.1]
          exact hi
        rw [item, if_pos hlanes.1, List.getElem?_eq_getElem hlt]
        rfl
      · rfl

theorem potential_isSome (observation : Observation)
    {avenueLanes crossLanes : List ℤ}
    (hlanes : ∀ i ∈ avenueLanes ++ crossLanes, 0 ≤ i) (maxQueue : ℚ) :
    (computeNightPotential observation avenueLanes crossLanes
      maxQueue).isSome := by
  rw [List.forall_mem_append] at hlanes
  obtain ⟨avenue, havenue⟩ := Option.isSome_iff_exists.mp
    (laneTotal_isSome (observation.queue.getD []) hlanes.1)
  obtain ⟨cross, hcross⟩ := Option.isSome_iff_exists.mp
    (laneTotal_isSome (observation.queue.getD []) hlanes.2)
  unfold computeNightPotential
  dsimp only
  rw [havenue, hcross]
  simp only [Option.bind_eq_bind, Option.bind_some]
  split_ifs <;> rfl

/-! ## The rewards along a trajectory -/

section

variable {avenueLanes crossLanes : List ℤ} {gamma maxQueue : ℚ}

theorem clip_payment {phiPrev phiNow : ℚ} (hgamma : 0 ≤ gamma)
    (hgamma' : gamma ≤ 1) (hprev : -1 ≤ phiPrev ∧ phiPrev ≤ 0)
    (hnow : -1 ≤ phiNow ∧ phiNow ≤ 0) :
    clip (gamma * phiNow - phiPrev) (-1) 1 = gamma * phiNow - phiPrev := by
  have hlow : -1 ≤ gamma * phiNow := by
    calc
      -1 ≤ -gamma := neg_le_neg hgamma'
      _ = gamma * -1 := by ring
      _ ≤ gamma * phiNow := mul_le_mul_of_nonneg_left hnow.1 hgamma
  have hhigh : gamma * phiNow ≤ 0 :=
    mul_nonpos_of_nonneg_of_nonpos hgamma hnow.2
  apply clip_eq_self
  · linarith
  · linarith

theorem reward_eq {observation previous : Observation} {reward phiPrev : ℚ}
    (hgamma : 0 ≤ gamma) (hgamma' : gamma ≤ 1)
    (hprev : computeNightPotential previous avenueLanes crossLanes maxQueue =
      some phiPrev)
    (hreward : computeNightModeReward observation avenueLanes crossLanes
      (some previous) gamma maxQueue = some reward) :
    ∃ phiNow,
      computeNightPotential observation avenueLanes crossLanes maxQueue =
          some phiNow ∧
        reward = gamma * phiNow - phiPrev := by
  unfold computeNightModeReward at hreward
  obtain ⟨phiNow, hnow, hreward⟩ := Option.bind_eq_some_iff.mp hreward
  dsimp only at hreward
  rw [hprev] at hreward
  refine ⟨phiNow, hnow, ?_⟩
  rw [← clip_payment hgamma hgamma' (potential_mem hprev) (potential_mem hnow)]
  exact (Option.some.inj hreward).symm

/-- The rewards behind an observation are the payments along the potentials. -/
theorem rewardsAfter_eq {previous : Observation}
    {observations : List Observation} {phiPrev : ℚ} {rewards : List ℚ}
    (hgamma : 0 ≤ gamma) (hgamma' : gamma ≤ 1)
    (hprev : computeNightPotential previous avenueLanes crossLanes maxQueue =
      some phiPrev)
    (hrewards : rewardsAfter avenueLanes crossLanes gamma maxQueue previous
      observations = some rewards) :
    ∃ phis,
      List.Forall₂ (fun observation phi =>
        computeNightPotential observation avenueLanes crossLanes maxQueue =
          some phi) observations phis ∧
        rewards = payments gamma phiPrev phis := by
  induction observations generalizing previous phiPrev rewards with
  | nil => exact ⟨[], .nil, (Option.some.inj hrewards).symm⟩
  | cons observation observations ih =>
      rw [rewardsAfter] at hrewards
      obtain ⟨reward, hreward, hrewards⟩ := Option.bind_eq_some_iff.mp hrewards
      obtain ⟨later, hlater, hrewards⟩ := Option.bind_eq_some_iff.mp hrewards
      obtain ⟨phi, hphi, rfl⟩ := reward_eq hgamma hgamma' hprev hreward
      obtain ⟨phis, hphis, rfl⟩ := ih hphi hlater
      exact ⟨phi :: phis, .cons hphi hphis, (Option.some.inj hrewards).symm⟩

theorem getLastD_of_forall₂ {P : Observation → ℚ → Prop}
    {observations : List Observation} {phis : List ℚ} {first : Observation}
    {phiFirst : ℚ} (h : List.Forall₂ P observations phis)
    (hfirst : P first phiFirst) :
    P (observations.getLastD first) (phis.getLastD phiFirst) := by
  induction h generalizing first phiFirst with
  | nil => exact hfirst
  | cons hhead _ ih =>
      rw [List.getLastD_cons, List.getLastD_cons]
      exact ih hhead

theorem totalShaping_eq {first : Observation} {observations : List Observation}
    {total : ℚ} (hgamma : 0 ≤ gamma) (hgamma' : gamma ≤ 1)
    (htotal : totalShaping avenueLanes crossLanes gamma maxQueue first
      observations = some total) :
    ∃ phiFirst phiLast,
      computeNightPotential first avenueLanes crossLanes maxQueue =
          some phiFirst ∧
        computeNightPotential (observations.getLastD first) avenueLanes
            crossLanes maxQueue = some phiLast ∧
        total = (1 - gamma) * phiFirst +
          gamma ^ (observations.length + 1) * phiLast := by
  obtain ⟨rewards, hrewards, rfl⟩ := Option.map_eq_some_iff.mp htotal
  unfold trajectoryRewards at hrewards
  obtain ⟨phiFirst, hfirst, hrewards⟩ := Option.bind_eq_some_iff.mp hrewards
  obtain ⟨later, hlater, hrewards⟩ := Option.bind_eq_some_iff.mp hrewards
  obtain rfl := Option.some.inj hrewards
  have hphiFirst : computeNightPotential first avenueLanes crossLanes maxQueue =
      some phiFirst := by
    unfold computeNightModeReward at hfirst
    obtain ⟨phi, hphi, heq⟩ := Option.bind_eq_some_iff.mp hfirst
    rw [hphi]
    exact heq
  obtain ⟨phis, hphis, rfl⟩ := rewardsAfter_eq hgamma hgamma' hphiFirst hlater
  refine ⟨phiFirst, phis.getLastD phiFirst, hphiFirst,
    getLastD_of_forall₂ hphis hphiFirst, ?_⟩
  rw [discountedSum_cons_payments, hphis.length_eq]

variable (gamma maxQueue) in
theorem reward_isSome (hlanes : ∀ i ∈ avenueLanes ++ crossLanes, 0 ≤ i)
    (observation : Observation) (previous : Option Observation) :
    (computeNightModeReward observation avenueLanes crossLanes previous gamma
      maxQueue).isSome := by
  obtain ⟨phiNow, hnow⟩ := Option.isSome_iff_exists.mp
    (potential_isSome observation hlanes maxQueue)
  unfold computeNightModeReward
  rw [hnow]
  cases previous with
  | none => rfl
  | some previous =>
      obtain ⟨phiPrev, hprev⟩ := Option.isSome_iff_exists.mp
        (potential_isSome previous hlanes maxQueue)
      simp only [hprev]
      rfl

variable (gamma maxQueue) in
theorem rewardsAfter_isSome (hlanes : ∀ i ∈ avenueLanes ++ crossLanes, 0 ≤ i)
    (previous : Observation) (observations : List Observation) :
    (rewardsAfter avenueLanes crossLanes gamma maxQueue previous
      observations).isSome := by
  induction observations generalizing previous with
  | nil => rfl
  | cons observation observations ih =>
      obtain ⟨reward, hreward⟩ := Option.isSome_iff_exists.mp
        (reward_isSome gamma maxQueue hlanes observation (some previous))
      obtain ⟨later, hlater⟩ := Option.isSome_iff_exists.mp (ih observation)
      rw [rewardsAfter, hreward, hlater]
      rfl

end

theorem night_shaping_preserves_policy (avenueLanes crossLanes : List ℤ)
    (gamma maxQueue : ℚ) (hgamma : 0 ≤ gamma) (hgamma' : gamma ≤ 1) :
    PreservesPolicy avenueLanes crossLanes gamma maxQueue := by
  refine ⟨?_, ?_, ?_, ?_⟩
  · intro previous observation phiPrev phiNow hprev hnow
    exact clip_payment hgamma hgamma' (potential_mem hprev) (potential_mem hnow)
  · intro first observations total htotal
    exact totalShaping_eq hgamma hgamma' htotal
  · intro first observations observations' total total' hlength hlast htotal
      htotal'
    obtain ⟨phiFirst, phiLast, hfirst, hphiLast, rfl⟩ :=
      totalShaping_eq hgamma hgamma' htotal
    obtain ⟨phiFirst', phiLast', hfirst', hphiLast', rfl⟩ :=
      totalShaping_eq hgamma hgamma' htotal'
    rw [hfirst, Option.some.injEq] at hfirst'
    rw [← hlast, hphiLast, Option.some.injEq] at hphiLast'
    rw [hfirst', hphiLast', hlength]
  · intro hlanes first observations
    obtain ⟨reward, hreward⟩ := Option.isSome_iff_exists.mp
      (reward_isSome gamma maxQueue hlanes first none)
    obtain ⟨later, hlater⟩ := Option.isSome_iff_exists.mp
      (rewardsAfter_isSome gamma maxQueue hlanes first observations)
    rw [totalShaping, trajectoryRewards, hreward, hlater]
    rfl

theorem night_shaping_preserves_policy_default :
    PreservesPolicy [0, 1] [2, 3] (99 / 100) 20 :=
  night_shaping_preserves_policy [0, 1] [2, 3] (99 / 100) 20 (by norm_num)
    (by norm_num)

end NightMode

end Semaforo
