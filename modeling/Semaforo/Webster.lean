import Semaforo.PyJson
import Mathlib.Tactic

/-!
# Webster's signal plan

The cycle length, the split of the green time and the delay formula of
`brain/src/queue_theory/webster.py`, in exact arithmetic.  How a float is
written in an error text is a parameter.
-/

namespace Semaforo

namespace Webster

section

variable (text : ℚ → String)

def websterOptimalCycle (yTotal lTotal : ℚ) : Except PyError ℚ := do
  if ¬ (0 < yTotal ∧ yTotal < 1) then
    throw (.valueError ("y_total must be in (0, 1); got " ++ text yTotal ++
      ". Values >= 1 imply over-saturated conditions where " ++
      "Webster's formula does not apply."))
  if lTotal ≤ 0 then
    throw (.valueError ("l_total must be positive; got " ++ text lTotal ++ "."))
  return (15 / 10 * lTotal + 5) / (1 - yTotal)

def websterDelay (cycleLength greenRatio flowRatio arrivalRate : ℚ) :
    Except PyError ℚ := do
  if ¬ (0 < greenRatio ∧ greenRatio < 1) then
    throw (.valueError ("green_ratio must be in (0, 1); got " ++
      text greenRatio ++ "."))
  if ¬ (0 ≤ flowRatio ∧ flowRatio < 1) then
    throw (.valueError ("flow_ratio must be in [0, 1); got " ++
      text flowRatio ++ "."))
  if arrivalRate ≤ 0 then
    throw (.valueError ("arrival_rate must be positive; got " ++
      text arrivalRate ++ "."))
  let d1 := cycleLength * (1 - greenRatio) ^ 2 /
    (2 * (1 - greenRatio * flowRatio))
  let d2 := flowRatio ^ 2 / (2 * arrivalRate * (1 - flowRatio))
  return d1 + d2

def allocateGreenTimes (cycleLength : ℚ) (criticalRatios : List ℚ)
    (lostTimePerPhase : ℚ := 3) : Except PyError (List ℚ) := do
  let totalLost := lostTimePerPhase * criticalRatios.length
  let effectiveGreenTotal := cycleLength - totalLost
  if effectiveGreenTotal ≤ 0 then
    throw (.valueError ("Cycle length " ++ text cycleLength ++
      "s is too short for " ++ toString criticalRatios.length ++
      " phases with " ++ text lostTimePerPhase ++ "s lost time each."))
  let yTotal := criticalRatios.sum
  if yTotal ≤ 0 then
    throw (.valueError "Sum of critical ratios must be positive.")
  return criticalRatios.map fun y => effectiveGreenTotal * (y / yTotal)

/-- The green times `greens` of a cycle serve every phase, fill the cycle but
for the lost time, and load all phases equally and below their capacity; the
delay formula applies to each phase. -/
structure Feasible (cycle : ℚ) (ratios : List ℚ) (lost rate : ℚ)
    (greens : List ℚ) : Prop where
  length_eq : greens.length = ratios.length
  positive : ∀ g ∈ greens, 0 < g
  sum_eq : greens.sum = cycle - ratios.length * lost
  ratio_pos : ∀ g ∈ greens, 0 < g / cycle
  ratio_lt_one : ∀ g ∈ greens, g / cycle < 1
  saturation : ∃ x < 1, ∀ p ∈ ratios.zip greens, p.1 * cycle / p.2 = x
  delay : ∀ p ∈ ratios.zip greens, ∃ d,
    websterDelay text cycle (p.2 / cycle) (p.1 * cycle / p.2) rate = .ok d ∧
      0 < d

/-! ## The three functions where they accept their arguments -/

theorem websterOptimalCycle_eq_ok {yTotal lTotal : ℚ} (hpos : 0 < yTotal)
    (hlt : yTotal < 1) (hlost : 0 < lTotal) :
    websterOptimalCycle text yTotal lTotal =
      .ok ((15 / 10 * lTotal + 5) / (1 - yTotal)) := by
  rw [websterOptimalCycle, if_neg (not_not.mpr ⟨hpos, hlt⟩),
    if_neg (not_le.mpr hlost)]
  rfl

theorem allocateGreenTimes_eq_ok {cycle lost : ℚ} {ratios : List ℚ}
    (hcycle : lost * ratios.length < cycle) (hratios : 0 < ratios.sum) :
    allocateGreenTimes text cycle ratios lost =
      .ok (ratios.map fun y =>
        (cycle - lost * ratios.length) * (y / ratios.sum)) := by
  rw [allocateGreenTimes, if_neg (not_le.mpr (sub_pos.mpr hcycle)),
    if_neg (not_le.mpr hratios)]
  rfl

theorem websterDelay_pos {cycle greenRatio flowRatio rate : ℚ}
    (hcycle : 0 < cycle) (hgreen : 0 < greenRatio) (hgreen' : greenRatio < 1)
    (hflow : 0 ≤ flowRatio) (hflow' : flowRatio < 1) (hrate : 0 < rate) :
    ∃ d, websterDelay text cycle greenRatio flowRatio rate = .ok d ∧ 0 < d := by
  refine ⟨cycle * (1 - greenRatio) ^ 2 / (2 * (1 - greenRatio * flowRatio)) +
    flowRatio ^ 2 / (2 * rate * (1 - flowRatio)), ?_, ?_⟩
  · rw [websterDelay, if_neg (not_not.mpr ⟨hgreen, hgreen'⟩),
      if_neg (not_not.mpr ⟨hflow, hflow'⟩), if_neg (not_le.mpr hrate)]
    rfl
  · have hproduct : greenRatio * flowRatio < 1 := by
      calc
        greenRatio * flowRatio ≤ greenRatio * 1 :=
          mul_le_mul_of_nonneg_left hflow'.le hgreen.le
        _ < 1 := by rwa [mul_one]
    have huniform :
        0 < cycle * (1 - greenRatio) ^ 2 / (2 * (1 - greenRatio * flowRatio)) :=
      div_pos (mul_pos hcycle (pow_pos (sub_pos.mpr hgreen') 2))
        (mul_pos two_pos (sub_pos.mpr hproduct))
    have hrandom : 0 ≤ flowRatio ^ 2 / (2 * rate * (1 - flowRatio)) :=
      div_nonneg (sq_nonneg flowRatio)
        (mul_nonneg (mul_nonneg two_pos.le hrate.le) (sub_nonneg.mpr hflow'.le))
    exact add_pos_of_pos_of_nonneg huniform hrandom

/-! ## The plan -/

/-- The cycle length leaves green time, and more of it than saturated phases
would need. -/
theorem lost_add_lt_cycle {yTotal lost : ℚ} (hpos : 0 < yTotal)
    (hlt : yTotal < 1) (hlost : 0 < lost) :
    lost + yTotal * ((15 / 10 * lost + 5) / (1 - yTotal)) <
      (15 / 10 * lost + 5) / (1 - yTotal) := by
  have hroom : 0 < 1 - yTotal := sub_pos.mpr hlt
  have hcycle : (15 / 10 * lost + 5) / (1 - yTotal) * (1 - yTotal) =
      15 / 10 * lost + 5 := div_mul_cancel₀ _ hroom.ne'
  linarith

theorem sum_greens {ratios : List ℚ} (hsum : 0 < ratios.sum) (effective : ℚ) :
    (ratios.map fun y => effective * (y / ratios.sum)).sum = effective := by
  have hshares : (ratios.map fun y => y / ratios.sum).sum = 1 := by
    simp only [div_eq_mul_inv]
    rw [List.sum_map_mul_right, List.map_id']
    exact mul_inv_cancel₀ hsum.ne'
  rw [List.sum_map_mul_left, hshares, mul_one]

theorem mem_zip_map {ratios : List ℚ} {f : ℚ → ℚ} {p : ℚ × ℚ}
    (hp : p ∈ ratios.zip (ratios.map f)) : p.1 ∈ ratios ∧ p.2 = f p.1 := by
  have hzip : ratios.zip (ratios.map f) = ratios.map fun y => (y, f y) := by
    rw [← List.zip_map', List.map_id']
  rw [hzip] at hp
  obtain ⟨y, hy, rfl⟩ := List.mem_map.mp hp
  exact ⟨hy, rfl⟩

theorem feasible_split {cycle lost rate : ℚ} {ratios : List ℚ}
    (hne : ratios ≠ []) (hpos : ∀ y ∈ ratios, 0 < y) (hlost : 0 < lost)
    (hrate : 0 < rate) (hcyclePos : 0 < cycle)
    (hcycle : ratios.length * lost + ratios.sum * cycle < cycle) :
    Feasible text cycle ratios lost rate
      (ratios.map fun y =>
        (cycle - lost * ratios.length) * (y / ratios.sum)) := by
  have hsum : 0 < ratios.sum := List.sum_pos ratios hpos hne
  have htotal : 0 < (ratios.length : ℚ) * lost :=
    mul_pos (Nat.cast_pos.mpr (List.length_pos_iff.mpr hne)) hlost
  set effective := cycle - lost * ratios.length with heffective
  have hloaded : ratios.sum * cycle < effective := by linarith
  have heffectivePos : 0 < effective := (mul_pos hsum hcyclePos).trans hloaded
  have hgreen : ∀ y ∈ ratios, 0 < effective * (y / ratios.sum) :=
    fun y hy => mul_pos heffectivePos (div_pos (hpos y hy) hsum)
  have hshare : ∀ y ∈ ratios, y / ratios.sum ≤ 1 := fun y hy =>
    (div_le_one hsum).mpr
      (List.single_le_sum (fun z hz => (hpos z hz).le) y hy)
  have hratio : ∀ y ∈ ratios, 0 < effective * (y / ratios.sum) / cycle ∧
      effective * (y / ratios.sum) / cycle < 1 := by
    intro y hy
    refine ⟨div_pos (hgreen y hy) hcyclePos, (div_lt_one hcyclePos).mpr ?_⟩
    calc
      effective * (y / ratios.sum) ≤ effective * 1 :=
        mul_le_mul_of_nonneg_left (hshare y hy) heffectivePos.le
      _ < cycle := by linarith
  have hsaturated : ∀ y ∈ ratios,
      y * cycle / (effective * (y / ratios.sum)) =
        ratios.sum * cycle / effective := by
    intro y hy
    have hy' := (hpos y hy).ne'
    field_simp
  have hbelow : ratios.sum * cycle / effective < 1 :=
    (div_lt_one heffectivePos).mpr hloaded
  constructor
  · exact List.length_map _
  · exact List.forall_mem_map.mpr hgreen
  · rw [sum_greens hsum, heffective, mul_comm]
  · exact List.forall_mem_map.mpr fun y hy => (hratio y hy).1
  · exact List.forall_mem_map.mpr fun y hy => (hratio y hy).2
  · refine ⟨ratios.sum * cycle / effective, hbelow, fun p hp => ?_⟩
    obtain ⟨hy, hg⟩ := mem_zip_map hp
    rw [hg, hsaturated p.1 hy]
  · intro p hp
    obtain ⟨hy, hg⟩ := mem_zip_map hp
    rw [hg, hsaturated p.1 hy]
    exact websterDelay_pos text hcyclePos (hratio p.1 hy).1 (hratio p.1 hy).2
      (div_nonneg (mul_pos hsum hcyclePos).le heffectivePos.le) hbelow hrate

theorem webster_plan_feasible (ratios : List ℚ) (lost rate : ℚ)
    (hne : ratios ≠ []) (hpos : ∀ y ∈ ratios, 0 < y) (hsum : ratios.sum < 1)
    (hlost : 0 < lost) (hrate : 0 < rate) :
    ∃ cycle greens,
      websterOptimalCycle text ratios.sum (ratios.length * lost) = .ok cycle ∧
        allocateGreenTimes text cycle ratios lost = .ok greens ∧
        Feasible text cycle ratios lost rate greens := by
  have hratios : 0 < ratios.sum := List.sum_pos ratios hpos hne
  have htotal : 0 < (ratios.length : ℚ) * lost :=
    mul_pos (Nat.cast_pos.mpr (List.length_pos_iff.mpr hne)) hlost
  have hcycle := lost_add_lt_cycle hratios hsum htotal
  have hcyclePos : 0 < (15 / 10 * (ratios.length * lost) + 5) /
      (1 - ratios.sum) :=
    div_pos (by linarith) (sub_pos.mpr hsum)
  refine ⟨_, _, websterOptimalCycle_eq_ok text hratios hsum htotal,
    allocateGreenTimes_eq_ok text ?_ hratios,
    feasible_split text hne hpos hlost hrate hcyclePos hcycle⟩
  rw [mul_comm]
  have hloaded := mul_pos hratios hcyclePos
  linarith

/-- Two phases close to saturation. -/
theorem webster_plan_feasible_two :
    ∃ cycle greens,
      websterOptimalCycle (fun _ => "") [6 / 10, 3 / 10].sum
          (([6 / 10, 3 / 10] : List ℚ).length * 3) = .ok cycle ∧
        allocateGreenTimes (fun _ => "") cycle [6 / 10, 3 / 10] 3 = .ok greens ∧
        Feasible (fun _ => "") cycle [6 / 10, 3 / 10] 3 (1 / 4) greens :=
  webster_plan_feasible (fun _ => "") [6 / 10, 3 / 10] 3 (1 / 4)
    (List.cons_ne_nil _ _) (by decide +kernel) (by decide +kernel)
    (by norm_num) (by norm_num)

end

end Webster

end Semaforo
