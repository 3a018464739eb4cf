import Semaforo.Scenarios
import Semaforo.StreakBlocks
import Mathlib.Tactic

/-!
# The curriculum over a training run

`CurriculumCallback` of `brain/scripts/train_mappo.py` beside the rollout
environments of `multi_intersection.py`: training results move the stage of the
callback, which is broadcast to the environments, and every episode samples its
scenario at the stage of its own environment.  The broadcast may fail for any of
them, and a worker that is started again begins at the first stage.
-/

namespace Semaforo

open Scenarios

/-- What the callback reads of a training result: `env_runners` and the result
itself; a key may be there without a value. -/
structure TrainResult where
  envRunners : List (String × Option ℚ) := []
  top : List (String × Option ℚ) := []
  deriving DecidableEq, Repr

/-- `_episode_return_mean`. -/
def episodeReturnMean (result : TrainResult) : Option ℚ :=
  ["episode_return_mean", "episode_reward_mean"].findSome? fun key =>
    match (result.envRunners.lookup key).join with
    | some value => some value
    | none => (result.top.lookup key).join

structure CurriculumCallback where
  promoteThreshold : ℚ := -20
  patience : ℕ := 5
  maxStage : ℕ := curriculum.length - 1
  stage : ℕ := 0
  goodIters : ℕ := 0
  deriving DecidableEq, Repr

namespace CurriculumCallback

/-- The callback after a result, the stage that the result is marked with, and
the stage that is broadcast if there is a promotion. -/
def onTrainResult (c : CurriculumCallback) (result : TrainResult) :
    CurriculumCallback × ℕ × Option ℕ :=
  let reported := c.stage
  match episodeReturnMean result with
  | none => (c, reported, none)
  | some ret =>
      if c.maxStage ≤ c.stage then (c, reported, none)
      else
        let c := { c with
          goodIters := if c.promoteThreshold ≤ ret then c.goodIters + 1 else 0 }
        if c.patience ≤ c.goodIters then
          let c := { c with stage := c.stage + 1, goodIters := 0 }
          (c, reported, some c.stage)
        else (c, reported, none)

def run (c : CurriculumCallback) (results : List TrainResult) :
    CurriculumCallback :=
  results.foldl (fun c result => (c.onTrainResult result).1) c

/-- The returns that were measured at all, in order. -/
def measured (results : List TrainResult) : List ℚ :=
  results.filterMap episodeReturnMean

/-- The return lets the stage go on. -/
def good (c : CurriculumCallback) (ret : ℚ) : Bool := c.promoteThreshold ≤ ret

/-- The promotions that a list of returns earns: one for each block of
`patience` good returns in an unbroken streak. -/
def promotions (c : CurriculumCallback) (returns : List ℚ) : ℕ :=
  StreakBlocks.blocks c.good c.patience returns

/-- The callback as it is constructed. -/
structure Fresh (c : CurriculumCallback) : Prop where
  stage : c.stage = 0
  goodIters : c.goodIters = 0
  patience : 1 ≤ c.patience

/-- How the callback `c` stands after the returns, if it was `c₀` before. -/
structure Counts (c₀ c : CurriculumCallback) (returns : List ℚ) : Prop where
  promoteThreshold : c.promoteThreshold = c₀.promoteThreshold
  patience : c.patience = c₀.patience
  maxStage : c.maxStage = c₀.maxStage
  stage : c.stage = min c₀.maxStage (c₀.promotions returns)
  goodIters : c.stage < c₀.maxStage →
    c.goodIters = StreakBlocks.trailing c₀.good returns % c₀.patience

variable {c₀ c : CurriculumCallback} {returns : List ℚ}

theorem Fresh.counts (h : c₀.Fresh) : Counts c₀ c₀ [] where
  promoteThreshold := rfl
  patience := rfl
  maxStage := rfl
  stage := by
    rw [h.stage, promotions, StreakBlocks.blocks_nil, Nat.min_zero]
  goodIters _ := by rw [h.goodIters, StreakBlocks.trailing_nil, Nat.zero_mod]

theorem promotions_good (returns : List ℚ) {ret : ℚ}
    (hgood : c₀.promoteThreshold ≤ ret) :
    c₀.promotions (returns ++ [ret]) = c₀.promotions returns +
        (if c₀.patience ∣ StreakBlocks.trailing c₀.good returns + 1 then 1
          else 0) ∧
      StreakBlocks.trailing c₀.good (returns ++ [ret]) =
        StreakBlocks.trailing c₀.good returns + 1 :=
  StreakBlocks.append_hit (decide_eq_true hgood)

theorem promotions_bad (returns : List ℚ) {ret : ℚ}
    (hbad : ¬ c₀.promoteThreshold ≤ ret) :
    c₀.promotions (returns ++ [ret]) = c₀.promotions returns ∧
      StreakBlocks.trailing c₀.good (returns ++ [ret]) = 0 :=
  StreakBlocks.append_miss (decide_eq_false hbad)

theorem promotions_le (c₀ : CurriculumCallback) (returns : List ℚ) (ret : ℚ) :
    c₀.promotions returns ≤ c₀.promotions (returns ++ [ret]) := by
  by_cases hgood : c₀.promoteThreshold ≤ ret
  · rw [(promotions_good returns hgood).1]
    exact Nat.le_add_right _ _
  · exact (promotions_bad returns hgood).1.ge

theorem Counts.onTrainResult (hpatience : 1 ≤ c₀.patience)
    (h : Counts c₀ c returns) (result : TrainResult) :
    Counts c₀ (c.onTrainResult result).1
      (returns ++ measured [result]) := by
  have hstage := h.stage
  have hmax := h.maxStage
  unfold CurriculumCallback.onTrainResult measured
  cases hret : episodeReturnMean result with
  | none =>
      rw [List.filterMap_cons_none hret, List.filterMap_nil, List.append_nil]
      exact h
  | some ret =>
      have hgrows := promotions_le c₀ returns ret
      rw [List.filterMap_cons_some hret, List.filterMap_nil]
      dsimp only
      by_cases hlast : c.maxStage ≤ c.stage
      · -- at the last stage the returns are not counted any more
        rw [if_pos hlast]
        refine { h with stage := ?_, goodIters := ?_ }
        · dsimp only
          omega
        · intro hlt
          dsimp only at hlt
          omega
      · have hcount := h.goodIters (by omega)
        have hearned : c.stage = c₀.promotions returns := by omega
        rw [if_neg hlast, h.promoteThreshold, h.patience]
        by_cases hgood : c₀.promoteThreshold ≤ ret
        · obtain ⟨hblocks, htrailing⟩ := promotions_good returns hgood
          have hfull := StreakBlocks.size_le_counter_iff hpatience
            (StreakBlocks.trailing c₀.good returns)
          rw [if_pos hgood, hcount]
          by_cases hreached : c₀.patience ∣
              StreakBlocks.trailing c₀.good returns + 1
          · rw [if_pos (hfull.mpr hreached)]
            rw [if_pos hreached] at hblocks
            refine ⟨rfl, rfl, hmax, ?_, fun _ => ?_⟩
            · dsimp only
              omega
            · rw [htrailing, Nat.mod_eq_zero_of_dvd hreached]
          · rw [if_neg (hfull.not.mpr hreached)]
            rw [if_neg hreached] at hblocks
            refine ⟨rfl, rfl, hmax, ?_, fun _ => ?_⟩
            · dsimp only
              omega
            · rw [htrailing, StreakBlocks.counter_succ_mod hpatience hreached]
        · obtain ⟨hblocks, htrailing⟩ := promotions_bad returns hgood
          rw [if_neg hgood, if_neg (by omega)]
          refine ⟨rfl, rfl, hmax, ?_, fun _ => ?_⟩
          · dsimp only
            omega
          · rw [htrailing, Nat.zero_mod]

theorem Counts.run (hpatience : 1 ≤ c₀.patience) (h : Counts c₀ c returns)
    (results : List TrainResult) :
    Counts c₀ (c.run results) (returns ++ measured results) := by
  induction results generalizing c returns with
  | nil =>
      rw [measured, List.filterMap_nil, List.append_nil]
      exact h
  | cons result results ih =>
      have hrest := ih (h.onTrainResult hpatience result)
      rw [List.append_assoc, measured, measured, ← List.filterMap_append] at hrest
      exact hrest

end CurriculumCallback

namespace CurriculumCallback

/-- The stage after any results is the number of blocks of `patience` good
returns in the unbroken streaks of the measured ones, up to the last stage.
Results without a return neither count nor break a streak. -/
theorem run_stage {c : CurriculumCallback} (hc : c.Fresh)
    (results : List TrainResult) :
    (c.run results).stage =
      min c.maxStage (c.promotions (measured results)) :=
  (hc.counts.run hc.patience results).stage

theorem fresh_default : Fresh {} := ⟨rfl, rfl, by decide⟩

/-- A streak with an unmeasured result inside still earns the second stage. -/
theorem run_stage_unmeasured :
    Fresh {} ∧ (run {}
      ([{ top := [("episode_return_mean", some (-3))] }, ({} : TrainResult)] ++
        List.replicate 4
          { envRunners := [("episode_reward_mean", some (-20))] })).stage = 1 := by
  refine ⟨fresh_default, (run_stage fresh_default _).trans ?_⟩
  decide +kernel

end CurriculumCallback

/-! ## Training runs -/

/-- The callback and the stages of the rollout environments, by their number. -/
structure Training where
  callback : CurriculumCallback
  curriculumStage : ℕ → ℕ

inductive TrainingEvent (σ : Type) where
  /-- A result, with the environments that a broadcast would reach. -/
  | trainResult (result : TrainResult) (reached : ℕ → Bool)
  /-- A worker is lost and its environment built again. -/
  | rebuilt (env : ℕ)
  /-- An environment starts an episode; `s` is the state of its generator. -/
  | reset (env : ℕ) (s : σ)

namespace Training

variable {σ : Type} (rng : Rng σ) (rehearsalRatio : ℚ)

def start (callback : CurriculumCallback) : Training where
  callback := callback
  curriculumStage _ := 0

/-- `set_curriculum_stage` in each environment that is reached. -/
def broadcast (t : Training) (stage : ℕ) (reached : ℕ → Bool) : Training :=
  { t with
    curriculumStage := fun env =>
      if reached env then stage else t.curriculumStage env }

def apply (t : Training) : TrainingEvent σ → Training
  | .trainResult result reached =>
      let (callback, _, promoted) := t.callback.onTrainResult result
      let t := { t with callback := callback }
      match promoted with
      | some stage => t.broadcast stage reached
      | none => t
  | .rebuilt env =>
      { t with curriculumStage := Function.update t.curriculumStage env 0 }
  | .reset _ _ => t

def run (t : Training) (events : List (TrainingEvent σ)) : Training :=
  events.foldl apply t

/-- The scenario of an episode, as `reset` draws it. -/
def episode (t : Training) (env : ℕ) (s : σ) : Option ScenarioSpec :=
  let stage : ℤ := t.curriculumStage env
  if 0 < rehearsalRatio then
    (sampleMixedTaskScenario rng stage rehearsalRatio (1 / 2) s).1
  else (sampleScenario rng (some stage) none s).1

def results (events : List (TrainingEvent σ)) : List TrainResult :=
  events.filterMap fun event =>
    match event with
    | .trainResult result _ => some result
    | .rebuilt _ => none
    | .reset _ _ => none

theorem apply_callback (t : Training) (event : TrainingEvent σ) :
    (t.apply event).callback = t.callback.run (results [event]) := by
  cases event with
  | trainResult result reached =>
      simp only [apply]
      cases (t.callback.onTrainResult result).2.2 <;> rfl
  | rebuilt env => rfl
  | reset env s => rfl

theorem run_callback (t : Training) (events : List (TrainingEvent σ)) :
    (t.run events).callback = t.callback.run (results events) := by
  induction events generalizing t with
  | nil => rfl
  | cons event events ih =>
      have hrest := ih (t.apply event)
      rw [apply_callback] at hrest
      refine hrest.trans ?_
      rw [results, results, results, CurriculumCallback.run,
        CurriculumCallback.run, CurriculumCallback.run, ← List.foldl_append,
        ← List.filterMap_append]
      rfl

end Training

theorem CurriculumCallback.onTrainResult_stage (c : CurriculumCallback)
    (result : TrainResult) :
    c.stage ≤ (c.onTrainResult result).1.stage ∧
      ∀ stage ∈ (c.onTrainResult result).2.2,
        stage = (c.onTrainResult result).1.stage := by
  unfold onTrainResult
  cases episodeReturnMean result with
  | none => simp
  | some ret =>
      dsimp only
      split_ifs <;> simp

namespace Training

variable {σ : Type} (rng : Rng σ) (rehearsalRatio : ℚ)

/-- No environment is ahead of the callback. -/
def Behind (t : Training) : Prop :=
  ∀ env, t.curriculumStage env ≤ t.callback.stage

theorem Behind.apply {t : Training} (ht : t.Behind) (event : TrainingEvent σ) :
    (t.apply event).Behind := by
  intro env
  cases event with
  | trainResult result reached =>
      obtain ⟨hmono, hpromoted⟩ := t.callback.onTrainResult_stage result
      have henv := (ht env).trans hmono
      simp only [Training.apply]
      cases hstage : (t.callback.onTrainResult result).2.2 with
      | none => exact henv
      | some stage =>
          have hsame := hpromoted stage hstage
          simp only [broadcast]
          split_ifs
          · exact hsame.le
          · exact henv
  | rebuilt env' =>
      by_cases hsame : env = env'
      · simp [Training.apply, hsame]
      · simpa [Training.apply, hsame] using ht env
  | reset env' s => exact ht env

theorem Behind.run {t : Training} (ht : t.Behind)
    (events : List (TrainingEvent σ)) : (t.run events).Behind := by
  induction events generalizing t with
  | nil => exact ht
  | cons event events ih => exact ih (ht.apply event)

theorem clampStage_natCast_le (stage : ℕ) : clampStage stage ≤ stage := by
  unfold clampStage
  omega

/-- An episode uses a scenario of a stage up to that of its environment. -/
theorem episode_spec (t : Training) (env : ℕ) (s : σ) :
    ∃ k ≤ t.curriculumStage env, ∃ base ∈ curriculum.getD k [], ∃ spec,
      t.episode rng rehearsalRatio env s = some spec ∧ Jittered base spec := by
  have hclamp := clampStage_natCast_le (t.curriculumStage env)
  unfold episode
  split_ifs with hrehearsal
  · obtain ⟨k, base, hbase, spec, hspec, hjittered, hstage⟩ :=
      sampleMixedTaskScenario_drawn rng (t.curriculumStage env) rehearsalRatio
        (by norm_num : (0 : ℚ) ≤ 1 / 2) s
    refine ⟨k, ?_, base, hbase, spec, hspec, hjittered⟩
    rcases hstage with ⟨rfl, _⟩ | ⟨hlt, _⟩
    · exact hclamp
    · exact hlt.le.trans hclamp
  · obtain ⟨k, hk, base, hbase, spec, hspec, hjittered⟩ :=
      sampleScenario_stage rng (t.curriculumStage env) s
    exact ⟨k, hk.trans hclamp, base, hbase, spec, hspec, hjittered⟩

/-- In every training run, whatever broadcasts are lost and whatever workers are
started again, an episode uses a scenario of a stage that the returns measured
so far have earned, with its knobs moved inside their ranges. -/
theorem episode_unlocked {callback : CurriculumCallback}
    (hcallback : callback.Fresh) (events : List (TrainingEvent σ)) (env : ℕ)
    (s : σ) :
    ∃ k ≤ callback.promotions (CurriculumCallback.measured (results events)),
      ∃ base ∈ curriculum.getD k [], ∃ spec,
        ((start callback).run events).episode rng rehearsalRatio env s =
            some spec ∧ Jittered base spec := by
  have hbehind : ((start callback).run events).Behind :=
    Behind.run (fun _ => Nat.zero_le _) events
  have hstage : ((start callback).run events).callback.stage =
      min callback.maxStage
        (callback.promotions (CurriculumCallback.measured (results events))) := by
    rw [run_callback]
    exact (hcallback.counts.run hcallback.patience _).stage
  obtain ⟨k, hk, base, hbase, spec, hspec, hjittered⟩ :=
    episode_spec rng rehearsalRatio ((start callback).run events) env s
  refine ⟨k, ?_, base, hbase, spec, hspec, hjittered⟩
  have henv := hbehind env
  omega

/-- Five good results; the promotion reaches the environments 1 and 3, and the
worker of 1 is lost afterwards. -/
def lossyTraining : List (TrainingEvent Unit) :=
  List.replicate 5 (.trainResult
      { envRunners := [("episode_return_mean", some (-3))] }
      fun env => env = 1 || env = 3) ++
    [.rebuilt 1, .reset 1 (), .reset 3 ()]

theorem episode_unlocked_lossy :
    let t := (start {}).run lossyTraining
    CurriculumCallback.Fresh {} ∧ t.callback.stage = 1 ∧
      [1, 2, 3].map t.curriculumStage = [0, 0, 1] ∧
      ∃ k ≤ 1, ∃ base ∈ curriculum.getD k [], ∃ spec,
        t.episode lowestRng (1 / 4) 3 () = some spec ∧ Jittered base spec := by
  have hearned : CurriculumCallback.promotions {}
      (CurriculumCallback.measured (results lossyTraining)) = 1 := by
    decide +kernel
  have hepisode := episode_unlocked lowestRng (1 / 4)
    CurriculumCallback.fresh_default lossyTraining 3 ()
  rw [hearned] at hepisode
  exact ⟨CurriculumCallback.fresh_default, by decide +kernel, by decide +kernel,
    hepisode⟩

end Training

end Semaforo
