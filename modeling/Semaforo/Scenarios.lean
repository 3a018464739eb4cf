import Mathlib.Algebra.Order.Ring.Rat
import Mathlib.Algebra.Order.Floor.Ring
import Mathlib.Tactic

/-!
# Curriculum scenarios

The sampling half of `brain/src/training/scenarios.py`: the scenarios of the
curriculum, their randomization and the mixture of present and past stages.
The random generator is a parameter that hands its state on and keeps the
ranges that its documentation gives.  Numbers are exact.
-/

namespace Semaforo

/-- `random.Random`: a number of `[0, 1)` and an index below a bound. -/
structure Rng (σ : Type) where
  random : σ → ℚ × σ
  randbelow : ℕ → σ → ℕ × σ
  random_nonneg : ∀ s, 0 ≤ (random s).1
  random_lt_one : ∀ s, (random s).1 < 1
  randbelow_lt : ∀ n s, 0 < n → (randbelow n s).1 < n

namespace Rng

variable {σ α : Type} (rng : Rng σ)

def uniform (a b : ℚ) (s : σ) : ℚ × σ :=
  let (r, s) := rng.random s
  (a + (b - a) * r, s)

/-- `randint(0, high)`. -/
def randint (high : ℕ) (s : σ) : ℕ × σ := rng.randbelow (high + 1) s

/-- Empty when `choice` raises `IndexError`. -/
def choice (xs : List α) (s : σ) : Option α × σ :=
  if xs = [] then (none, s)
  else
    let (i, s) := rng.randbelow xs.length s
    (xs[i]?, s)

/-- `bisect_right` between `lo` and `hi`. -/
def bisect (a : List ℚ) (x : ℚ) (lo hi : ℕ) : ℕ :=
  if lo < hi then
    let mid := (lo + hi) / 2
    if x < a.getD mid 0 then bisect a x lo mid else bisect a x (mid + 1) hi
  else lo
  termination_by hi - lo

def accumulate (weights : List ℚ) : List ℚ :=
  (List.range weights.length).map fun i => (weights.take (i + 1)).sum

/-- `choices(range(len(weights)), weights=weights, k=1)[0]`, empty when the
weights have no positive sum. -/
def weighted (weights : List ℚ) (s : σ) : Option ℕ × σ :=
  if weights.sum ≤ 0 then (none, s)
  else
    let (r, s) := rng.random s
    (some (bisect (accumulate weights) (r * weights.sum) 0 (weights.length - 1)), s)

end Rng

structure WeatherProfile where
  name : String
  speedFactor : ℚ := 1
  accelFactor : ℚ := 1
  decelFactor : ℚ := 1
  minGapFactor : ℚ := 1
  sigma : ℚ := 1 / 2
  deriving DecidableEq, Repr

namespace WeatherProfile

def clear : WeatherProfile where
  name := "clear"

def heatHaze : WeatherProfile where
  name := "heat_haze"
  speedFactor := 105 / 100
  accelFactor := 110 / 100
  minGapFactor := 9 / 10
  sigma := 6 / 10

def rain : WeatherProfile where
  name := "rain"
  speedFactor := 80 / 100
  accelFactor := 85 / 100
  decelFactor := 80 / 100
  minGapFactor := 14 / 10
  sigma := 6 / 10

def sudestada : WeatherProfile where
  name := "sudestada"
  speedFactor := 55 / 100
  accelFactor := 65 / 100
  decelFactor := 60 / 100
  minGapFactor := 2
  sigma := 75 / 100

end WeatherProfile

structure ScenarioSpec where
  name : String
  durationS : ℕ := 3600
  baseFlow : ℚ := 600
  ewBias : ℚ := 1 / 2
  crossRatio : ℚ := 25 / 100
  busRatio : ℚ := 3 / 100
  turnRatio : ℚ := 10 / 100
  weather : WeatherProfile := .clear
  seed : ℕ := 0
  /-- Half-widths by the names of the knobs. -/
  jitter : List (String × ℚ) := []
  deriving DecidableEq, Repr

namespace ScenarioSpec

def winterQuiet : ScenarioSpec where
  name := "winter_quiet"
  baseFlow := 120
  crossRatio := 30 / 100
  busRatio := 5 / 100
  turnRatio := 12 / 100
  jitter := [("base_flow", 40), ("ew_bias", 5 / 100)]

def winterNightEmpty : ScenarioSpec where
  name := "winter_night_empty"
  baseFlow := 25
  crossRatio := 40 / 100
  busRatio := 0
  jitter := [("base_flow", 15)]

def shoulderBalanced : ScenarioSpec where
  name := "shoulder_balanced"
  baseFlow := 500
  crossRatio := 28 / 100
  busRatio := 4 / 100
  turnRatio := 12 / 100
  jitter := [("base_flow", 120), ("ew_bias", 8 / 100), ("cross_ratio", 5 / 100)]

def rainModerate : ScenarioSpec where
  name := "rain_moderate"
  baseFlow := 450
  ewBias := 55 / 100
  busRatio := 4 / 100
  turnRatio := 12 / 100
  weather := .rain
  jitter := [("base_flow", 120), ("ew_bias", 10 / 100)]

def summerExodusBeach : ScenarioSpec where
  name := "summer_exodus_beach"
  baseFlow := 1100
  ewBias := 85 / 100
  crossRatio := 18 / 100
  busRatio := 5 / 100
  turnRatio := 8 / 100
  weather := .heatHaze
  jitter := [("base_flow", 250), ("ew_bias", 7 / 100), ("turn_ratio", 4 / 100)]

def summerReturnDowntown : ScenarioSpec where
  name := "summer_return_downtown"
  baseFlow := 1050
  ewBias := 15 / 100
  crossRatio := 20 / 100
  busRatio := 5 / 100
  weather := .heatHaze
  jitter := [("base_flow", 250), ("ew_bias", 7 / 100)]

def sudestadaStorm : ScenarioSpec where
  name := "sudestada_storm"
  baseFlow := 550
  ewBias := 60 / 100
  crossRatio := 30 / 100
  busRatio := 4 / 100
  turnRatio := 15 / 100
  weather := .sudestada
  jitter := [("base_flow", 200), ("ew_bias", 15 / 100), ("cross_ratio", 8 / 100)]

def incidentAsymmetricSpike : ScenarioSpec where
  name := "incident_asymmetric_spike"
  baseFlow := 1300
  ewBias := 95 / 100
  crossRatio := 10 / 100
  turnRatio := 20 / 100
  jitter := [("base_flow", 300), ("ew_bias", 4 / 100), ("turn_ratio", 6 / 100)]

end ScenarioSpec

open ScenarioSpec

namespace Scenarios

/-- `CURRICULUM`. -/
def curriculum : List (List ScenarioSpec) :=
  [[winterQuiet, winterNightEmpty, shoulderBalanced],
    [shoulderBalanced, rainModerate, summerReturnDowntown],
    [summerExodusBeach, summerReturnDowntown, sudestadaStorm,
      incidentAsymmetricSpike]]

def allScenarios : List ScenarioSpec :=
  [winterQuiet, winterNightEmpty, shoulderBalanced, rainModerate,
    summerExodusBeach, summerReturnDowntown, sudestadaStorm,
    incidentAsymmetricSpike]

variable {σ : Type} (rng : Rng σ)

/-- The half-width of a knob. -/
def half (spec : ScenarioSpec) (key : String) : ℚ :=
  (spec.jitter.lookup key).getD 0

def jit (spec : ScenarioSpec) (value : ℚ) (key : String) (lo hi : ℚ) (s : σ) :
    ℚ × σ :=
  let half := half spec key
  if half ≤ 0 then (value, s)
  else
    let (u, s) := rng.uniform (-half) half s
    (min hi (max lo (value + u)), s)

def randomize (spec : ScenarioSpec) (s : σ) : ScenarioSpec × σ :=
  let (baseFlow, s) := jit rng spec spec.baseFlow "base_flow" 10 2500 s
  let (ewBias, s) := jit rng spec spec.ewBias "ew_bias" (2 / 100) (98 / 100) s
  let (crossRatio, s) :=
    jit rng spec spec.crossRatio "cross_ratio" (2 / 100) (8 / 10) s
  let (turnRatio, s) := jit rng spec spec.turnRatio "turn_ratio" 0 (5 / 10) s
  let (seed, s) := rng.randint (2 ^ 31 - 1) s
  ({ spec with baseFlow, ewBias, crossRatio, turnRatio, seed }, s)

/-- `max(0, min(stage, len(CURRICULUM) - 1))`. -/
def clampStage (stage : ℤ) : ℕ :=
  (max 0 (min stage (curriculum.length - 1))).toNat

/-- The candidates when no pool is given. -/
def stagePool (stage : Option ℤ) : List ScenarioSpec :=
  match stage with
  | none => allScenarios
  | some stage =>
      (List.range (clampStage stage + 1)).flatMap fun i => curriculum.getD i []

def sampleFrom (pool : List ScenarioSpec) (s : σ) : Option ScenarioSpec × σ :=
  let (base, s) := rng.choice pool s
  match base with
  | none => (none, s)
  | some base =>
      let (spec, s) := randomize rng base s
      (some spec, s)

def sampleScenario (stage : Option ℤ) (pool : Option (List ScenarioSpec))
    (s : σ) : Option ScenarioSpec × σ :=
  sampleFrom rng (pool.getD (stagePool stage)) s

def rehearsalWeights (stage : ℕ) (decay : ℚ) : List ℚ :=
  (List.range stage).map fun k => decay ^ (stage - 1 - k)

def sampleMixedTaskScenario (stage : ℤ) (rehearsalRatio : ℚ := 25 / 100)
    (decay : ℚ := 1 / 2) (s : σ) : Option ScenarioSpec × σ :=
  let stage := clampStage stage
  let current (s : σ) :=
    sampleScenario rng none (some (curriculum.getD stage [])) s
  if stage = 0 then current s
  else
    let (r, s) := rng.random s
    if rehearsalRatio ≤ r then current s
    else
      let (pastStage, s) := rng.weighted (rehearsalWeights stage decay) s
      match pastStage with
      | none => (none, s)
      | some pastStage =>
          sampleScenario rng none (some (curriculum.getD pastStage [])) s

end Scenarios

/-! ## What the draws may return -/

namespace Rng

variable {σ α : Type} (rng : Rng σ)

theorem abs_uniform_le {half : ℚ} (hhalf : 0 ≤ half) (s : σ) :
    |(rng.uniform (-half) half s).1| ≤ half := by
  have hlow := mul_nonneg hhalf (rng.random_nonneg s)
  have hhigh := mul_le_mul_of_nonneg_left (rng.random_lt_one s).le hhalf
  rw [abs_le]
  simp only [uniform]
  constructor <;> linarith

theorem exists_choice {xs : List α} (hxs : xs ≠ []) (s : σ) :
    ∃ x ∈ xs, (rng.choice xs s).1 = some x := by
  have hlt := rng.randbelow_lt xs.length s (List.length_pos_iff.mpr hxs)
  refine ⟨xs[(rng.randbelow xs.length s).1], List.getElem_mem hlt, ?_⟩
  simp only [choice, if_neg hxs]
  exact List.getElem?_eq_getElem hlt

/-- In a sorted list the search ends where `x` belongs. -/
theorem bisect_spec {a : List ℚ} {x : ℚ}
    (hsorted : ∀ i j, i ≤ j → j < a.length → a.getD i 0 ≤ a.getD j 0)
    {lo hi : ℕ} (hle : lo ≤ hi) (hlength : hi ≤ a.length) :
    bisect a x lo hi ≤ hi ∧
      (∀ i, lo ≤ i → i < bisect a x lo hi → a.getD i 0 ≤ x) ∧
      (∀ i, bisect a x lo hi ≤ i → i < hi → x < a.getD i 0) := by
  induction lo, hi using bisect.induct (a := a) (x := x) with
  | case1 lo hi hlt mid hbelow ih =>
      obtain ⟨hhigh, hpast, hnext⟩ := ih (by omega) (by omega)
      have heq : bisect a x lo hi = bisect a x lo mid := by
        rw [bisect, if_pos hlt]
        exact if_pos hbelow
      rw [heq]
      refine ⟨by omega, hpast, fun i hi hihi => ?_⟩
      by_cases himid : i < mid
      · exact hnext i hi himid
      · exact hbelow.trans_le (hsorted mid i (by omega) (by omega))
  | case2 lo hi hlt mid hbelow ih =>
      obtain ⟨hhigh, hpast, hnext⟩ := ih (by omega) hlength
      have heq : bisect a x lo hi = bisect a x (mid + 1) hi := by
        rw [bisect, if_pos hlt]
        exact if_neg hbelow
      rw [heq]
      refine ⟨hhigh, fun i hlo hi => ?_, hnext⟩
      by_cases himid : mid < i
      · exact hpast i himid hi
      · exact (hsorted i mid (by omega) (by omega)).trans (not_lt.mp hbelow)
  | case3 lo hi hge =>
      rw [bisect, if_neg hge]
      exact ⟨hle, fun i hlo hi => by omega, fun i hlo hi => by omega⟩

theorem getD_accumulate {weights : List ℚ} {i : ℕ} (hi : i < weights.length) :
    (accumulate weights).getD i 0 = (weights.take (i + 1)).sum := by
  simp [accumulate, hi]

theorem sum_take_mono {weights : List ℚ} (hweights : ∀ w ∈ weights, 0 ≤ w)
    {i j : ℕ} (hij : i ≤ j) : (weights.take i).sum ≤ (weights.take j).sum := by
  obtain ⟨d, rfl⟩ := Nat.exists_eq_add_of_le hij
  rw [List.take_add, List.sum_append]
  have hrest : 0 ≤ ((weights.drop i).take d).sum :=
    List.sum_nonneg fun w hw =>
      hweights w (List.mem_of_mem_drop (List.mem_of_mem_take hw))
  linarith

/-- The draw falls into the part of the whole that belongs to the index. -/
def PicksBy (weights : List ℚ) (r : ℚ) (k : ℕ) : Prop :=
  (weights.take k).sum ≤ r * weights.sum ∧
    r * weights.sum < (weights.take (k + 1)).sum

theorem picksBy_bisect {weights : List ℚ} (hweights : ∀ w ∈ weights, 0 ≤ w)
    (hsum : 0 < weights.sum) {r : ℚ} (hr : 0 ≤ r) (hone : r < 1) {k : ℕ}
    (hk : k = bisect (accumulate weights) (r * weights.sum) 0
      (weights.length - 1)) : k < weights.length ∧ PicksBy weights r k := by
  have hpos : 0 < weights.length := by
    rw [List.length_pos_iff]
    rintro rfl
    exact lt_irrefl _ hsum
  have hlength : (accumulate weights).length = weights.length := by
    simp [accumulate]
  have hsorted : ∀ i j, i ≤ j → j < (accumulate weights).length →
      (accumulate weights).getD i 0 ≤ (accumulate weights).getD j 0 := by
    intro i j hij hj
    rw [hlength] at hj
    rw [getD_accumulate hj, getD_accumulate (by omega)]
    exact sum_take_mono hweights (by omega)
  obtain ⟨hhigh, hpast, hnext⟩ := bisect_spec (x := r * weights.sum) hsorted
    (Nat.zero_le (weights.length - 1)) (by omega)
  rw [← hk] at hhigh hpast hnext
  refine ⟨by omega, ?_, ?_⟩
  · cases k with
    | zero =>
        rw [List.take_zero, List.sum_nil]
        exact mul_nonneg hr hsum.le
    | succ k =>
        have hbefore := hpast k (Nat.zero_le _) (by omega)
        rwa [getD_accumulate (by omega)] at hbefore
  · by_cases hlast : k < weights.length - 1
    · have hafter := hnext k le_rfl hlast
      rwa [getD_accumulate (by omega)] at hafter
    · rw [List.take_of_length_le (by omega)]
      exact mul_lt_of_lt_one_left hsum hone

theorem weighted_spec {weights : List ℚ} (hweights : ∀ w ∈ weights, 0 ≤ w)
    (hsum : 0 < weights.sum) (s : σ) :
    ∃ k < weights.length, PicksBy weights (rng.random s).1 k ∧
      rng.weighted weights s = (some k, (rng.random s).2) := by
  obtain ⟨hlt, hpicks⟩ := picksBy_bisect hweights hsum (rng.random_nonneg s)
    (rng.random_lt_one s) rfl
  exact ⟨_, hlt, hpicks, if_neg (not_le.mpr hsum)⟩

end Rng

namespace Scenarios

variable {σ : Type} (rng : Rng σ)

/-- A knob stays in its range and within its half-width. -/
structure KnobWithin (base : ScenarioSpec) (key : String) (lo hi : ℚ)
    (value value' : ℚ) : Prop where
  near : |value' - value| ≤ max 0 (half base key)
  low : lo ≤ value'
  high : value' ≤ hi

theorem jit_within (base : ScenarioSpec) {value : ℚ} (key : String)
    {lo hi : ℚ} (hlo : lo ≤ value) (hhi : value ≤ hi) (s : σ) :
    KnobWithin base key lo hi value (jit rng base value key lo hi s).1 := by
  unfold jit
  dsimp only
  split_ifs with hhalf
  · exact ⟨by simp, hlo, hhi⟩
  · have hu := rng.abs_uniform_le (not_le.mp hhalf).le s
    generalize (rng.uniform (-half base key) (half base key) s).1 = u at hu
    rw [abs_le] at hu
    refine ⟨?_, le_min (hlo.trans hhi) (le_max_left _ _), min_le_left _ _⟩
    rw [max_eq_right (not_le.mp hhalf).le, abs_le]
    constructor
    · have hlow : value - half base key ≤ min hi (max lo (value + u)) :=
        le_min (by linarith) ((by linarith : value - half base key ≤ value + u).trans
          (le_max_right _ _))
      linarith
    · have hhigh : min hi (max lo (value + u)) ≤ value + half base key :=
        (min_le_right _ _).trans (max_le (by linarith) (by linarith))
      linarith

/-- The knobs of the scenario are in the ranges that `randomize` keeps. -/
structure InRange (spec : ScenarioSpec) : Prop where
  baseFlow : 10 ≤ spec.baseFlow ∧ spec.baseFlow ≤ 2500
  ewBias : 2 / 100 ≤ spec.ewBias ∧ spec.ewBias ≤ 98 / 100
  crossRatio : 2 / 100 ≤ spec.crossRatio ∧ spec.crossRatio ≤ 8 / 10
  turnRatio : 0 ≤ spec.turnRatio ∧ spec.turnRatio ≤ 5 / 10

/-- The scenario is the base with its knobs moved. -/
structure Jittered (base spec : ScenarioSpec) : Prop where
  fixed : spec.name = base.name ∧ spec.durationS = base.durationS ∧
    spec.busRatio = base.busRatio ∧ spec.weather = base.weather ∧
    spec.jitter = base.jitter
  baseFlow : KnobWithin base "base_flow" 10 2500 base.baseFlow spec.baseFlow
  ewBias : KnobWithin base "ew_bias" (2 / 100) (98 / 100) base.ewBias spec.ewBias
  crossRatio : KnobWithin base "cross_ratio" (2 / 100) (8 / 10) base.crossRatio
    spec.crossRatio
  turnRatio : KnobWithin base "turn_ratio" 0 (5 / 10) base.turnRatio
    spec.turnRatio
  seed : spec.seed < 2 ^ 31

theorem randomize_jittered {base : ScenarioSpec} (hbase : InRange base) (s : σ) :
    Jittered base (randomize rng base s).1 where
  fixed := ⟨rfl, rfl, rfl, rfl, rfl⟩
  baseFlow := jit_within rng base _ hbase.baseFlow.1 hbase.baseFlow.2 _
  ewBias := jit_within rng base _ hbase.ewBias.1 hbase.ewBias.2 _
  crossRatio := jit_within rng base _ hbase.crossRatio.1 hbase.crossRatio.2 _
  turnRatio := jit_within rng base _ hbase.turnRatio.1 hbase.turnRatio.2 _
  seed := rng.randbelow_lt _ _ (by decide)

theorem sampleFrom_spec {pool : List ScenarioSpec} (hpool : pool ≠ [])
    (hrange : ∀ base ∈ pool, InRange base) (s : σ) :
    ∃ base ∈ pool, ∃ spec, (sampleFrom rng pool s).1 = some spec ∧
      Jittered base spec := by
  obtain ⟨base, hmem, hbase⟩ := rng.exists_choice hpool s
  refine ⟨base, hmem, (randomize rng base (rng.choice pool s).2).1, ?_,
    randomize_jittered rng (hrange base hmem) _⟩
  simp only [sampleFrom, hbase]

theorem inRange_of_mem_allScenarios :
    ∀ base ∈ allScenarios, InRange base := by
  intro base hbase
  simp only [allScenarios, List.mem_cons, List.not_mem_nil, or_false] at hbase
  rcases hbase with rfl | rfl | rfl | rfl | rfl | rfl | rfl | rfl
  all_goals
    constructor <;>
      norm_num [winterQuiet, winterNightEmpty, shoulderBalanced, rainModerate,
        summerExodusBeach, summerReturnDowntown, sudestadaStorm,
        incidentAsymmetricSpike]

theorem clampStage_lt (stage : ℤ) : clampStage stage < 3 := by
  unfold clampStage curriculum
  simp only [List.length_cons, List.length_nil]
  omega

/-- The stages of the curriculum are not empty and hold known scenarios. -/
theorem stage_pool {k : ℕ} (hk : k < 3) :
    curriculum.getD k [] ≠ [] ∧
      ∀ base ∈ curriculum.getD k [], base ∈ allScenarios := by
  interval_cases k <;> simp [curriculum, allScenarios]

theorem rehearsalWeights_nonneg {decay : ℚ} (hdecay : 0 ≤ decay) (stage : ℕ) :
    ∀ w ∈ rehearsalWeights stage decay, 0 ≤ w := by
  intro w hw
  obtain ⟨k, _, rfl⟩ := List.mem_map.mp hw
  exact pow_nonneg hdecay _

theorem rehearsalWeights_sum_pos {decay : ℚ} (hdecay : 0 ≤ decay) {stage : ℕ}
    (hstage : 0 < stage) : 0 < (rehearsalWeights stage decay).sum := by
  obtain ⟨m, rfl⟩ := Nat.exists_eq_add_of_lt hstage
  have hpast : 0 ≤ ((List.range m).map fun k => decay ^ (0 + m + 1 - 1 - k)).sum := by
    refine List.sum_nonneg fun w hw => ?_
    obtain ⟨k, _, rfl⟩ := List.mem_map.mp hw
    exact pow_nonneg hdecay _
  rw [rehearsalWeights, Nat.zero_add, List.range_succ, List.map_append,
    List.sum_append]
  simp only [Nat.zero_add] at hpast
  simp only [List.map_cons, List.map_nil, List.sum_cons, List.sum_nil,
    Nat.add_sub_cancel, Nat.sub_self, pow_zero, add_zero]
  simp only [Nat.add_sub_cancel] at hpast
  linarith

theorem sampleMixedTaskScenario_drawn (stage : ℤ) (rehearsalRatio : ℚ)
    {decay : ℚ} (hdecay : 0 ≤ decay) (s : σ) :
    ∃ k, ∃ base ∈ curriculum.getD k [], ∃ spec,
      (sampleMixedTaskScenario rng stage rehearsalRatio decay s).1 = some spec ∧
        Jittered base spec ∧
        ((k = clampStage stage ∧
            (clampStage stage = 0 ∨ rehearsalRatio ≤ (rng.random s).1)) ∨
          (k < clampStage stage ∧ (rng.random s).1 < rehearsalRatio ∧
            Rng.PicksBy (rehearsalWeights (clampStage stage) decay)
              (rng.random (rng.random s).2).1 k)) := by
  have hsample : ∀ k < 3, ∀ s : σ, ∃ base ∈ curriculum.getD k [], ∃ spec,
      (sampleScenario rng none (some (curriculum.getD k [])) s).1 = some spec ∧
        Jittered base spec := by
    intro k hk s
    obtain ⟨hne, hknown⟩ := stage_pool hk
    exact sampleFrom_spec rng hne
      (fun base hbase => inRange_of_mem_allScenarios base (hknown base hbase)) s
  have hlt := clampStage_lt stage
  unfold sampleMixedTaskScenario
  dsimp only
  generalize clampStage stage = t at hlt ⊢
  by_cases hfirst : t = 0
  · obtain ⟨base, hbase, spec, hspec, hjittered⟩ := hsample t hlt s
    rw [if_pos hfirst]
    exact ⟨t, base, hbase, spec, hspec, hjittered, .inl ⟨rfl, .inl hfirst⟩⟩
  · rw [if_neg hfirst]
    by_cases hcurrent : rehearsalRatio ≤ (rng.random s).1
    · obtain ⟨base, hbase, spec, hspec, hjittered⟩ :=
        hsample t hlt (rng.random s).2
      rw [if_pos hcurrent]
      exact ⟨t, base, hbase, spec, hspec, hjittered, .inl ⟨rfl, .inr hcurrent⟩⟩
    · rw [if_neg hcurrent]
      obtain ⟨k, hk, hpicks, hdrawn⟩ := rng.weighted_spec
        (rehearsalWeights_nonneg hdecay t)
        (rehearsalWeights_sum_pos hdecay (Nat.pos_of_ne_zero hfirst))
        (rng.random s).2
      rw [rehearsalWeights, List.length_map, List.length_range] at hk
      obtain ⟨base, hbase, spec, hspec, hjittered⟩ :=
        hsample k (hk.trans hlt) (rng.random (rng.random s).2).2
      refine ⟨k, base, hbase, spec, ?_, hjittered,
        .inr ⟨hk, not_le.mp hcurrent, hpicks⟩⟩
      rw [hdrawn]
      exact hspec

/-- Without a rehearsal ratio all unlocked stages are drawn from at once. -/
theorem sampleScenario_stage (stage : ℤ) (s : σ) :
    ∃ k ≤ clampStage stage, ∃ base ∈ curriculum.getD k [], ∃ spec,
      (sampleScenario rng (some stage) none s).1 = some spec ∧
        Jittered base spec := by
  have hlt := clampStage_lt stage
  have hmem : ∀ base ∈ stagePool (some stage),
      ∃ k ≤ clampStage stage, base ∈ curriculum.getD k [] := by
    intro base hbase
    obtain ⟨k, hk, hbase⟩ := List.mem_flatMap.mp hbase
    exact ⟨k, Nat.lt_succ_iff.mp (List.mem_range.mp hk), hbase⟩
  have hne : stagePool (some stage) ≠ [] := by
    obtain ⟨base, hbase⟩ := List.exists_mem_of_ne_nil _ (stage_pool hlt).1
    exact List.ne_nil_of_mem
      (List.mem_flatMap.mpr ⟨_, List.mem_range.mpr (Nat.lt_succ_self _), hbase⟩)
  have hrange : ∀ base ∈ stagePool (some stage), InRange base := by
    intro base hbase
    obtain ⟨k, hk, hbase⟩ := hmem base hbase
    exact inRange_of_mem_allScenarios base
      ((stage_pool (hk.trans_lt hlt)).2 base hbase)
  obtain ⟨base, hbase, hsample⟩ := sampleFrom_spec rng hne hrange s
  obtain ⟨k, hk, hbase⟩ := hmem base hbase
  exact ⟨k, hk, base, hbase, hsample⟩

/-- Whatever the generator draws, the mixture returns a scenario of an unlocked
stage with its knobs moved inside their ranges.  The stage is the present one
unless the first draw is below the rehearsal ratio; a past stage is then taken
by the share of its weight, to which the second draw belongs. -/
theorem sampleMixedTaskScenario_spec (stage : ℤ) (rehearsalRatio decay : ℚ)
    (hdecay : 0 ≤ decay) (s : σ) :
    ∃ k, ∃ base ∈ curriculum.getD k [], ∃ spec,
      (sampleMixedTaskScenario rng stage rehearsalRatio decay s).1 = some spec ∧
        Jittered base spec ∧
        ((k = clampStage stage ∧
            (clampStage stage = 0 ∨ rehearsalRatio ≤ (rng.random s).1)) ∨
          (k < clampStage stage ∧ (rng.random s).1 < rehearsalRatio ∧
            Rng.PicksBy (rehearsalWeights (clampStage stage) decay)
              (rng.random (rng.random s).2).1 k)) :=
  sampleMixedTaskScenario_drawn rng stage rehearsalRatio hdecay s

/-- The generator that always draws the lowest number. -/
def lowestRng : Rng Unit where
  random _ := (0, ())
  randbelow _ _ := (0, ())
  random_nonneg _ := le_rfl
  random_lt_one _ := zero_lt_one
  randbelow_lt _ _ hn := hn

theorem sampleMixedTaskScenario_spec_lowest :
    (0 : ℚ) ≤ 1 / 2 ∧ ∃ spec, (sampleMixedTaskScenario lowestRng 2 (1 / 4)
      (1 / 2) ()).1 = some spec ∧ 10 ≤ spec.baseFlow := by
  refine ⟨by norm_num, ?_⟩
  obtain ⟨k, base, hbase, spec, hspec, hjittered, _⟩ :=
    sampleMixedTaskScenario_spec lowestRng 2 (1 / 4) (1 / 2) (by norm_num) ()
  exact ⟨spec, hspec, hjittered.baseFlow.low⟩

end Scenarios

end Semaforo
