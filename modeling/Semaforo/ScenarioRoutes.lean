import Semaforo.CorridorRoutes
import Semaforo.Scenarios
import Mathlib

/-!
# The demand file of a scenario

`scenario_to_routes_xml` of `brain/src/training/scenarios.py`, as the records of
the file.  Probabilities are printed with five decimals, so a flow carries its
probability in units of `1e-5`.
-/

namespace Semaforo

structure VType where
  id : String
  accel : ℚ
  decel : ℚ
  sigma : ℚ
  length : ℚ
  minGap : ℚ
  maxSpeed : ℚ
  deriving DecidableEq, Repr

structure Flow where
  id : String
  type : String
  route : String
  finish : ℕ
  /-- In units of `1e-5`. -/
  probability : ℤ
  deriving DecidableEq, Repr

structure RoutesFile where
  vTypes : List VType
  routes : List SumoRoute
  flows : List Flow
  deriving DecidableEq, Repr

namespace Scenarios

/-- `round(x, 3)`. -/
def round3 (x : ℚ) : ℚ := BinaryRounding.roundHalfEven (1000 * x) / 1000

/-- `_vtypes_xml`. -/
def vTypes (weather : WeatherProfile) : List VType :=
  [{ id := "car"
     accel := round3 (26 / 10 * weather.accelFactor)
     decel := round3 (45 / 10 * weather.decelFactor)
     sigma := round3 weather.sigma
     length := 5
     minGap := round3 (25 / 10 * weather.minGapFactor)
     maxSpeed := round3 (1389 / 100 * weather.speedFactor) },
    { id := "bus"
      accel := round3 (15 / 10 * weather.accelFactor)
      decel := round3 (35 / 10 * weather.decelFactor)
      sigma := round3 weather.sigma
      length := 12
      minGap := round3 (3 * weather.minGapFactor)
      maxSpeed := round3 (1111 / 100 * weather.speedFactor) }]

/-- `_prob`. -/
def prob (vehPerHour : ℚ) : ℚ := max 0 (min 1 (vehPerHour / 3600))

/-- `f"{prob:.5f}"`. -/
def printed (prob : ℚ) : ℤ := BinaryRounding.roundHalfEven (100000 * prob)

def minEmit : ℚ := 1 / 100000

def crossNodes : List String := ["c0", "c1", "c2"]

def routes : List SumoRoute :=
  [⟨"ew_through",
      ["west_entry_to_c0", "c0_to_c1", "c1_to_c2", "c2_to_east_entry"]⟩,
    ⟨"we_through",
      ["east_entry_to_c2", "c2_to_c1", "c1_to_c0", "c0_to_west_entry"]⟩,
    ⟨"w_to_c1n", ["west_entry_to_c0", "c0_to_c1", "c1_north_out"]⟩,
    ⟨"c0s_to_e",
      ["c0_south_in", "c0_to_c1", "c1_to_c2", "c2_to_east_entry"]⟩] ++
    crossNodes.flatMap fun n =>
      [⟨"ns_" ++ n, [n ++ "_north_in", n ++ "_south_out"]⟩,
        ⟨"sn_" ++ n, [n ++ "_south_in", n ++ "_north_out"]⟩]

/-- The arguments of one call of `flow`. -/
structure Movement where
  id : String
  type : String
  route : String
  prob : ℚ
  deriving DecidableEq, Repr

def movements (spec : ScenarioSpec) : List Movement :=
  let ewFlow := spec.baseFlow * spec.ewBias
  let weFlow := spec.baseFlow * (1 - spec.ewBias)
  let crossFlow := spec.baseFlow * spec.crossRatio / crossNodes.length
  let turnFlow := spec.baseFlow * spec.turnRatio
  [⟨"flow_ew", "car", "ew_through", prob ewFlow⟩,
    ⟨"flow_we", "car", "we_through", prob weFlow⟩,
    ⟨"flow_bus_ew", "bus", "ew_through", prob (ewFlow * spec.busRatio)⟩,
    ⟨"flow_bus_we", "bus", "we_through", prob (weFlow * spec.busRatio)⟩] ++
    (crossNodes.flatMap fun n =>
      [⟨"flow_ns_" ++ n, "car", "ns_" ++ n, prob crossFlow⟩,
        ⟨"flow_sn_" ++ n, "car", "sn_" ++ n, prob crossFlow⟩]) ++
    [⟨"flow_w_c1n", "car", "w_to_c1n", prob (turnFlow * (1 / 2))⟩,
      ⟨"flow_c0s_e", "car", "c0s_to_e", prob (turnFlow * (1 / 2))⟩]

/-- `flow`: a movement with next to no demand is left out. -/
def flow (finish : ℕ) (m : Movement) : Option Flow :=
  if m.prob < minEmit then none
  else some ⟨m.id, m.type, m.route, finish, printed m.prob⟩

def scenarioToRoutes (spec : ScenarioSpec) : RoutesFile where
  vTypes := vTypes spec.weather
  routes := routes
  flows := (movements spec).filterMap (flow spec.durationS)

/-! ## The file as a whole -/

/-- What the simulator asks of a demand file of the corridor. -/
structure FileWellFormed (net : SumoNetwork) (file : RoutesFile) : Prop where
  vTypeIds : (file.vTypes.map VType.id).Nodup
  routeIds : (file.routes.map SumoRoute.id).Nodup
  flowIds : (file.flows.map Flow.id).Nodup
  drivable : ∀ r ∈ file.routes, net.Drivable r.edges
  declared : ∀ f ∈ file.flows, f.type ∈ file.vTypes.map VType.id ∧
    f.route ∈ file.routes.map SumoRoute.id
  probability : ∀ f ∈ file.flows, 1 ≤ f.probability ∧ f.probability ≤ 100000

theorem prob_nonneg (x : ℚ) : 0 ≤ prob x := le_max_left _ _

theorem prob_le_one (x : ℚ) : prob x ≤ 1 :=
  max_le zero_le_one (min_le_left _ _)

theorem prob_eq {x : ℚ} (hlow : 0 ≤ x) (hhigh : x ≤ 3600) :
    prob x = x / 3600 := by
  rw [prob, min_eq_right (by linarith), max_eq_right (by positivity)]

/-- A movement that is emitted is not printed as zero. -/
theorem printed_range {p : ℚ} (hlow : minEmit ≤ p) (hhigh : p ≤ 1) :
    1 ≤ printed p ∧ printed p ≤ 100000 := by
  have hnear := BinaryRounding.roundHalfEven_near (100000 * p)
  unfold minEmit at hlow
  unfold printed
  constructor
  · have hpos : (0 : ℚ) < BinaryRounding.roundHalfEven (100000 * p) := by linarith
    exact_mod_cast hpos
  · have hlt : (BinaryRounding.roundHalfEven (100000 * p) : ℚ) < 100001 := by
      linarith
    have : BinaryRounding.roundHalfEven (100000 * p) < 100001 := by exact_mod_cast hlt
    omega

theorem flow_eq_some {finish : ℕ} {m : Movement} {f : Flow}
    (h : flow finish m = some f) : minEmit ≤ m.prob ∧
      f = ⟨m.id, m.type, m.route, finish, printed m.prob⟩ := by
  unfold flow at h
  split_ifs at h with hsmall
  exact ⟨not_lt.mp hsmall, (Option.some.inj h).symm⟩

theorem map_id_filterMap_sublist (finish : ℕ) (ms : List Movement) :
    ((ms.filterMap (flow finish)).map Flow.id).Sublist (ms.map Movement.id) := by
  induction ms with
  | nil => exact .slnil
  | cons m ms ih =>
      cases hflow : flow finish m with
      | none =>
          rw [List.filterMap_cons_none hflow]
          exact ih.cons _
      | some f =>
          rw [List.filterMap_cons_some hflow, List.map_cons, List.map_cons,
            (flow_eq_some hflow).2]
          exact ih.cons_cons _

theorem movement_of_mem {spec : ScenarioSpec} {m : Movement}
    (hm : m ∈ movements spec) :
    m.type ∈ ["car", "bus"] ∧ m.route ∈ routes.map SumoRoute.id ∧
      ∃ x, m.prob = prob x := by
  simp only [movements, crossNodes, List.flatMap_cons, List.flatMap_nil,
    List.cons_append, List.nil_append, List.append_nil, List.mem_cons,
    List.not_mem_nil, or_false] at hm
  rcases hm with rfl | rfl | rfl | rfl | rfl | rfl | rfl | rfl | rfl | rfl |
    rfl | rfl
  all_goals exact ⟨by simp, by simp [routes, crossNodes], _, rfl⟩

theorem mem_corridorRoutes {r : SumoRoute} (hr : r ∈ routes) :
    r ∈ NetworkGenerator.generateCorridorRoutes 3 := by
  have hall : ∀ r ∈ routes, r ∈ NetworkGenerator.generateCorridorRoutes 3 := by
    decide +kernel
  exact hall r hr

/-- The demand file of any scenario is well formed for the corridor that the
generator makes: the routes can be driven, every flow is on a declared route
with a declared vehicle type, and no flow is printed with probability zero. -/
theorem scenarioToRoutes_wellFormed (spec : ScenarioSpec)
    (shape : CorridorShape) :
    FileWellFormed (NetworkGenerator.generateCorridor 3 shape)
      (scenarioToRoutes spec) where
  vTypeIds := by simp [scenarioToRoutes, vTypes]
  routeIds := by
    have hids : (routes.map SumoRoute.id).Nodup := by decide +kernel
    exact hids
  flowIds := by
    have hids : ((movements spec).map Movement.id).Nodup := by
      simp [movements, crossNodes]
    exact hids.sublist (map_id_filterMap_sublist _ _)
  drivable := fun r hr => drivable_three shape (mem_corridorRoutes hr)
  declared := by
    intro f hf
    obtain ⟨m, hm, hflow⟩ := List.mem_filterMap.mp hf
    obtain ⟨htype, hroute, _⟩ := movement_of_mem hm
    rw [(flow_eq_some hflow).2]
    exact ⟨htype, hroute⟩
  probability := by
    intro f hf
    obtain ⟨m, hm, hflow⟩ := List.mem_filterMap.mp hf
    obtain ⟨_, _, x, hprob⟩ := movement_of_mem hm
    obtain ⟨hemit, hf⟩ := flow_eq_some hflow
    rw [hf]
    exact printed_range hemit (hprob ▸ prob_le_one x)

/-! ## The demand -/

/-- The vehicles per second that the file emits. -/
def emitted (flows : List Flow) : ℚ :=
  (flows.map fun f => (f.probability : ℚ) / 100000).sum

/-- The vehicles per second that `ScenarioSpec` documents: those of the arterial,
of which the buses are a part and the turning vehicles leave it on the way, and
the cross demand as a fraction of them. -/
def documentedDemand (spec : ScenarioSpec) : ℚ :=
  spec.baseFlow * (1 + spec.crossRatio) / 3600

/-- What the file has besides: the buses and the turning vehicles, on top of the
full arterial flow, and the cross demand once more in the other direction. -/
def addedDemand (spec : ScenarioSpec) : ℚ :=
  spec.baseFlow * (spec.busRatio + spec.crossRatio + spec.turnRatio) / 3600

theorem emitted_near (finish : ℕ) {ms : List Movement}
    (hms : ∀ m ∈ ms, 0 ≤ m.prob) :
    |emitted (ms.filterMap (flow finish)) - (ms.map Movement.prob).sum| ≤
      ms.length / 100000 := by
  induction ms with
  | nil => simp [emitted]
  | cons m ms ih =>
      have hrest := abs_le.mp (ih fun x hx => hms x (List.mem_cons_of_mem _ hx))
      have hm := hms m (List.mem_cons_self ..)
      rw [List.map_cons, List.sum_cons, List.length_cons]
      push_cast
      cases hflow : flow finish m with
      | none =>
          have hsmall : m.prob < minEmit := by
            unfold flow at hflow
            split_ifs at hflow with hsmall
            exact hsmall
          unfold minEmit at hsmall
          rw [List.filterMap_cons_none hflow, abs_le]
          constructor <;> linarith
      | some f =>
          have hnear := BinaryRounding.roundHalfEven_near (100000 * m.prob)
          have hsum : emitted (f :: ms.filterMap (flow finish)) =
              (f.probability : ℚ) / 100000 +
                emitted (ms.filterMap (flow finish)) := by
            simp [emitted]
          have hprinted : (f.probability : ℚ) =
              BinaryRounding.roundHalfEven (100000 * m.prob) := by
            rw [(flow_eq_some hflow).2]
            rfl
          rw [List.filterMap_cons_some hflow, hsum, hprinted, abs_le]
          constructor <;> linarith

theorem busRatio_range {base : ScenarioSpec} (hbase : base ∈ allScenarios) :
    0 ≤ base.busRatio ∧ base.busRatio ≤ 1 := by
  simp only [allScenarios, List.mem_cons, List.not_mem_nil, or_false] at hbase
  rcases hbase with rfl | rfl | rfl | rfl | rfl | rfl | rfl | rfl
  all_goals
    norm_num [ScenarioSpec.winterQuiet, ScenarioSpec.winterNightEmpty,
      ScenarioSpec.shoulderBalanced, ScenarioSpec.rainModerate,
      ScenarioSpec.summerExodusBeach, ScenarioSpec.summerReturnDowntown,
      ScenarioSpec.sudestadaStorm, ScenarioSpec.incidentAsymmetricSpike]

theorem mul_range {x y : ℚ} (hx : 0 ≤ x) (hx' : x ≤ 2500) (hy : 0 ≤ y)
    (hy' : y ≤ 1) : 0 ≤ x * y ∧ x * y ≤ 2500 :=
  ⟨mul_nonneg hx hy, (mul_le_of_le_one_right hx hy').trans hx'⟩

/-- With the knobs in range no probability is cut off. -/
theorem sum_prob_eq {spec : ScenarioSpec} (hspec : InRange spec)
    (hbus : 0 ≤ spec.busRatio ∧ spec.busRatio ≤ 1) :
    ((movements spec).map Movement.prob).sum =
      documentedDemand spec + addedDemand spec := by
  have hbase : 0 ≤ spec.baseFlow := by linarith [hspec.baseFlow.1]
  have hew := mul_range hbase hspec.baseFlow.2
    (by linarith [hspec.ewBias.1]) (by linarith [hspec.ewBias.2] : spec.ewBias ≤ 1)
  have hwe := mul_range hbase hspec.baseFlow.2
    (by linarith [hspec.ewBias.2] : 0 ≤ 1 - spec.ewBias)
    (by linarith [hspec.ewBias.1])
  have hcross := mul_range hbase hspec.baseFlow.2
    (by linarith [hspec.crossRatio.1])
    (by linarith [hspec.crossRatio.2] : spec.crossRatio ≤ 1)
  have hturn := mul_range hbase hspec.baseFlow.2 hspec.turnRatio.1
    (by linarith [hspec.turnRatio.2] : spec.turnRatio ≤ 1)
  have hewBus := mul_range hew.1 hew.2 hbus.1 hbus.2
  have hweBus := mul_range hwe.1 hwe.2 hbus.1 hbus.2
  simp only [movements, crossNodes, List.flatMap_cons, List.flatMap_nil,
    List.map_cons, List.map_nil, List.map_append, List.sum_append,
    List.sum_cons, List.sum_nil, List.length_cons, List.length_nil]
  push_cast
  rw [prob_eq hew.1 (by linarith [hew.2]), prob_eq hwe.1 (by linarith [hwe.2]),
    prob_eq hewBus.1 (by linarith [hewBus.2]),
    prob_eq hweBus.1 (by linarith [hweBus.2]),
    prob_eq (by linarith [hcross.1]) (by linarith [hcross.2]),
    prob_eq (by linarith [hturn.1]) (by linarith [hturn.2])]
  unfold documentedDemand addedDemand
  ring

theorem Jittered.inRange {base spec : ScenarioSpec} (h : Jittered base spec) :
    InRange spec where
  baseFlow := ⟨h.baseFlow.low, h.baseFlow.high⟩
  ewBias := ⟨h.ewBias.low, h.ewBias.high⟩
  crossRatio := ⟨h.crossRatio.low, h.crossRatio.high⟩
  turnRatio := ⟨h.turnRatio.low, h.turnRatio.high⟩

theorem addedDemand_pos {spec : ScenarioSpec} (hspec : InRange spec)
    (hbus : 0 ≤ spec.busRatio) : 0 < addedDemand spec := by
  have hbase : 0 < spec.baseFlow := by linarith [hspec.baseFlow.1]
  have hratios : 0 < spec.busRatio + spec.crossRatio + spec.turnRatio := by
    linarith [hspec.crossRatio.1, hspec.turnRatio.1]
  unfold addedDemand
  positivity

/-- Up to the last printed digit of each of its twelve flows, the file of a
scenario that can be sampled emits the documented demand and more. -/
theorem scenarioToRoutes_adds_demand {base spec : ScenarioSpec}
    (hbase : base ∈ allScenarios) (hspec : Jittered base spec) :
    |emitted (scenarioToRoutes spec).flows -
        (documentedDemand spec + addedDemand spec)| ≤ 12 / 100000 ∧
      0 < addedDemand spec := by
  have hbus : 0 ≤ spec.busRatio ∧ spec.busRatio ≤ 1 := by
    rw [hspec.fixed.2.2.1]
    exact busRatio_range hbase
  have hnonneg : ∀ m ∈ movements spec, 0 ≤ m.prob := by
    intro m hm
    obtain ⟨_, _, x, hprob⟩ := movement_of_mem hm
    rw [hprob]
    exact prob_nonneg x
  have hnear := emitted_near spec.durationS hnonneg
  have hlength : (movements spec).length = 12 := rfl
  rw [sum_prob_eq hspec.inRange hbus, hlength] at hnear
  exact ⟨by exact_mod_cast hnear, addedDemand_pos hspec.inRange hbus.1⟩

theorem scenarioToRoutes_adds_demand_exodus :
    ScenarioSpec.summerExodusBeach ∈ allScenarios ∧
      |emitted (scenarioToRoutes (randomize lowestRng
          ScenarioSpec.summerExodusBeach ()).1).flows -
        (documentedDemand (randomize lowestRng
            ScenarioSpec.summerExodusBeach ()).1 +
          addedDemand (randomize lowestRng
            ScenarioSpec.summerExodusBeach ()).1)| ≤ 12 / 100000 ∧
      0 < addedDemand (randomize lowestRng ScenarioSpec.summerExodusBeach ()).1 := by
  have hbase : ScenarioSpec.summerExodusBeach ∈ allScenarios := by
    simp [allScenarios]
  exact ⟨hbase, scenarioToRoutes_adds_demand hbase
    (randomize_jittered lowestRng (inRange_of_mem_allScenarios _ hbase) ())⟩

end Scenarios

end Semaforo
