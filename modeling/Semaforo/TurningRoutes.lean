import Semaforo.CorridorRoutes
import Mathlib

/-!
# The routes of a single intersection

`generate_single_intersection` and `generate_routes` of
`brain/sumo_networks/network_generator.py`, as the records of the files.  Which
way a route turns is read off the coordinates of the network.
-/

namespace Semaforo

namespace NetworkGenerator

/-- `directions`, with the coordinates in units of the approach length. -/
def directions : List (String × ℚ × ℚ) :=
  [("north", 0, 1), ("south", 0, -1), ("east", 1, 0), ("west", -1, 0)]

def generateSingleIntersection (numLanes : ℕ := 2) (approachLength : ℚ := 200)
    (speedKmh : ℚ := 50) : SumoNetwork where
  nodes := ⟨"center", 0, 0, "traffic_light"⟩ :: directions.map fun d =>
    ⟨d.1, d.2.1 * approachLength, d.2.2 * approachLength, "priority"⟩
  edges :=
    let speed := GreenWave.round2 (speedKmh / (36 / 10))
    directions.flatMap fun d =>
      [⟨d.1 ++ "_in", d.1, "center", numLanes, speed⟩,
        ⟨d.1 ++ "_out", "center", d.1, numLanes, speed⟩]

/-- An entry of `_TURN_MAP`. -/
structure Turn where
  key : String
  origin : String
  throughOut : String
  leftOut : String
  rightOut : String
  deriving DecidableEq, Repr

def turnMap : List Turn :=
  [⟨"ns", "north_in", "south_out", "east_out", "west_out"⟩,
    ⟨"sn", "south_in", "north_out", "west_out", "east_out"⟩,
    ⟨"ew", "east_in", "west_out", "south_out", "north_out"⟩,
    ⟨"we", "west_in", "east_out", "north_out", "south_out"⟩]

structure TurnRatios where
  left : ℚ := 15 / 100
  right : ℚ := 10 / 100
  deriving DecidableEq, Repr

/-- One of the `movements` of an entry. -/
structure TurnMovement where
  routeId : String
  origin : String
  movement : String
  outEdge : String
  vph : ℚ
  deriving DecidableEq, Repr

def movements (ratios : TurnRatios) (throughVph : ℚ) (t : Turn) :
    List TurnMovement :=
  [⟨t.key ++ "_through", t.origin, "through", t.throughOut, throughVph⟩,
    ⟨t.key ++ "_left", t.origin, "left", t.leftOut, throughVph * ratios.left⟩,
    ⟨t.key ++ "_right", t.origin, "right", t.rightOut,
      throughVph * ratios.right⟩]

/-- A route of the file with the flow on it. -/
structure RoutedFlow where
  route : SumoRoute
  movement : String
  flowId : String
  simBegin : ℚ
  simEnd : ℚ
  probability : ℚ
  deriving DecidableEq, Repr

/-- `round(x, 4)`. -/
def round4 (x : ℚ) : ℚ := BinaryRounding.roundHalfEven (10000 * x) / 10000

/-- `demands.get(f"{key}_through", 0.0)`. -/
def throughVph (demands : List (String × ℚ)) (t : Turn) : ℚ :=
  (demands.lookup (t.key ++ "_through")).getD 0

def generateRoutes (demands : List (String × ℚ)) (simBegin : ℚ := 0)
    (simEnd : ℚ := 3600) (ratios : TurnRatios := {}) : List RoutedFlow :=
  let served := turnMap.filter fun t => ¬ throughVph demands t ≤ 0
  let all := served.flatMap fun t => movements ratios (throughVph demands t) t
  all.zipIdx.map fun (m, flowId) =>
    { route := ⟨m.routeId, [m.origin, m.outEdge]⟩
      movement := m.movement
      flowId := s!"flow_{flowId}_{m.routeId}"
      simBegin := simBegin
      simEnd := simEnd
      probability := round4 (m.vph / 3600) }

end NetworkGenerator

/-! ## Which way a route turns -/

open NetworkGenerator

/-- The way from the start of an edge to its end. -/
def SumoNetwork.heading (net : SumoNetwork) (e : SumoEdge) : Option (ℚ × ℚ) := do
  let a ← net.nodes.find? fun x => x.id = e.fromNode
  let b ← net.nodes.find? fun x => x.id = e.toNode
  return (b.x - a.x, b.y - a.y)

/-- Positive for a turn to the left, negative for one to the right. -/
def cross (u v : ℚ × ℚ) : ℚ := u.1 * v.2 - u.2 * v.1

def dot (u v : ℚ × ℚ) : ℚ := u.1 * v.1 + u.2 * v.2

/-- What the name of a movement says of the two headings. -/
def TurnsAs (movement : String) (u v : ℚ × ℚ) : Prop :=
  movement = "through" ∧ cross u v = 0 ∧ 0 < dot u v ∨
    movement = "left" ∧ 0 < cross u v ∨
    movement = "right" ∧ cross u v < 0

structure RoutesSound (net : SumoNetwork) (flows : List RoutedFlow) : Prop where
  routeIds : (flows.map fun f => f.route.id).Nodup
  flowIds : (flows.map RoutedFlow.flowId).Nodup
  drivable : ∀ f ∈ flows, net.Drivable f.route.edges
  turns : ∀ f ∈ flows, ∃ entry ∈ net.edges, ∃ exit ∈ net.edges,
    f.route.edges = [entry.id, exit.id] ∧ ∃ u v, net.heading entry = some u ∧
      net.heading exit = some v ∧ TurnsAs f.movement u v

section

variable (numLanes : ℕ) (approachLength speedKmh : ℚ)

theorem heading_in {d : String × ℚ × ℚ} (hd : d ∈ directions) (speed : ℚ) :
    (generateSingleIntersection numLanes approachLength speedKmh).heading
        ⟨d.1 ++ "_in", d.1, "center", numLanes, speed⟩ =
      some (-(d.2.1 * approachLength), -(d.2.2 * approachLength)) := by
  simp only [directions, List.mem_cons, List.not_mem_nil, or_false] at hd
  rcases hd with rfl | rfl | rfl | rfl <;>
    simp [SumoNetwork.heading, generateSingleIntersection, directions]

theorem heading_out {d : String × ℚ × ℚ} (hd : d ∈ directions) (speed : ℚ) :
    (generateSingleIntersection numLanes approachLength speedKmh).heading
        ⟨d.1 ++ "_out", "center", d.1, numLanes, speed⟩ =
      some (d.2.1 * approachLength, d.2.2 * approachLength) := by
  simp only [directions, List.mem_cons, List.not_mem_nil, or_false] at hd
  rcases hd with rfl | rfl | rfl | rfl <;>
    simp [SumoNetwork.heading, generateSingleIntersection, directions]

theorem mem_edges {d : String × ℚ × ℚ} (hd : d ∈ directions) :
    let speed := GreenWave.round2 (speedKmh / (36 / 10))
    ⟨d.1 ++ "_in", d.1, "center", numLanes, speed⟩ ∈
        (generateSingleIntersection numLanes approachLength speedKmh).edges ∧
      ⟨d.1 ++ "_out", "center", d.1, numLanes, speed⟩ ∈
        (generateSingleIntersection numLanes approachLength speedKmh).edges :=
  ⟨List.mem_flatMap.mpr ⟨d, hd, by simp⟩, List.mem_flatMap.mpr ⟨d, hd, by simp⟩⟩

end

/-- The coordinates of a movement in units of the approach length: where it
comes from and where it goes. -/
def Charted (m : TurnMovement) : Prop :=
  ∃ d ∈ directions, ∃ d' ∈ directions, m.origin = d.1 ++ "_in" ∧
    m.outEdge = d'.1 ++ "_out" ∧ TurnsAs m.movement (-d.2.1, -d.2.2) d'.2

theorem charted_of_mem {t : Turn} (ht : t ∈ turnMap) {ratios : TurnRatios}
    {v : ℚ} {m : TurnMovement} (hm : m ∈ movements ratios v t) : Charted m := by
  simp only [turnMap, List.mem_cons, List.not_mem_nil, or_false] at ht
  simp only [movements, List.mem_cons, List.not_mem_nil, or_false] at hm
  have hnorth : (("north", 0, 1) : String × ℚ × ℚ) ∈ directions := by
    simp [directions]
  have hsouth : (("south", 0, -1) : String × ℚ × ℚ) ∈ directions := by
    simp [directions]
  have heast : (("east", 1, 0) : String × ℚ × ℚ) ∈ directions := by
    simp [directions]
  have hwest : (("west", -1, 0) : String × ℚ × ℚ) ∈ directions := by
    simp [directions]
  rcases ht with rfl | rfl | rfl | rfl <;> rcases hm with rfl | rfl | rfl
  · exact ⟨_, hnorth, _, hsouth, rfl, rfl, by simp [TurnsAs, cross, dot]⟩
  · exact ⟨_, hnorth, _, heast, rfl, rfl, by simp [TurnsAs, cross]⟩
  · exact ⟨_, hnorth, _, hwest, rfl, rfl, by simp [TurnsAs, cross]⟩
  · exact ⟨_, hsouth, _, hnorth, rfl, rfl, by simp [TurnsAs, cross, dot]⟩
  · exact ⟨_, hsouth, _, hwest, rfl, rfl, by simp [TurnsAs, cross]⟩
  · exact ⟨_, hsouth, _, heast, rfl, rfl, by simp [TurnsAs, cross]⟩
  · exact ⟨_, heast, _, hwest, rfl, rfl, by simp [TurnsAs, cross, dot]⟩
  · exact ⟨_, heast, _, hsouth, rfl, rfl, by simp [TurnsAs, cross]⟩
  · exact ⟨_, heast, _, hnorth, rfl, rfl, by simp [TurnsAs, cross]⟩
  · exact ⟨_, hwest, _, heast, rfl, rfl, by simp [TurnsAs, cross, dot]⟩
  · exact ⟨_, hwest, _, hnorth, rfl, rfl, by simp [TurnsAs, cross]⟩
  · exact ⟨_, hwest, _, hsouth, rfl, rfl, by simp [TurnsAs, cross]⟩

/-- A longer approach does not change a turn. -/
theorem TurnsAs.scale {movement : String} {u v : ℚ × ℚ} (h : TurnsAs movement u v)
    {length : ℚ} (hlength : 0 < length) :
    TurnsAs movement (u.1 * length, u.2 * length)
      (v.1 * length, v.2 * length) := by
  have hcross : cross (u.1 * length, u.2 * length) (v.1 * length, v.2 * length) =
      cross u v * (length * length) := by
    unfold cross
    ring
  have hdot : dot (u.1 * length, u.2 * length) (v.1 * length, v.2 * length) =
      dot u v * (length * length) := by
    unfold dot
    ring
  have hsquare := mul_pos hlength hlength
  unfold TurnsAs
  rw [hcross, hdot]
  rcases h with ⟨hname, hthrough, hahead⟩ | ⟨hname, hleft⟩ | ⟨hname, hright⟩
  · exact .inl ⟨hname, by rw [hthrough, zero_mul], mul_pos hahead hsquare⟩
  · exact .inr (.inl ⟨hname, mul_pos hleft hsquare⟩)
  · exact .inr (.inr ⟨hname, mul_neg_of_neg_of_pos hright hsquare⟩)

theorem movement_of_mem_generateRoutes {demands : List (String × ℚ)}
    {simBegin simEnd : ℚ} {ratios : TurnRatios} {f : RoutedFlow}
    (hf : f ∈ generateRoutes demands simBegin simEnd ratios) :
    ∃ t ∈ turnMap, ∃ m ∈ movements ratios (throughVph demands t) t,
      f.route = ⟨m.routeId, [m.origin, m.outEdge]⟩ ∧ f.movement = m.movement ∧
        f.probability = round4 (m.vph / 3600) := by
  obtain ⟨x, hx, rfl⟩ := List.mem_map.mp hf
  obtain ⟨t, ht, hm⟩ := List.mem_flatMap.mp (List.fst_mem_of_mem_zipIdx hx)
  exact ⟨t, (List.mem_filter.mp ht).1, x.1, hm, rfl, rfl, rfl⟩

/-- The identifiers of a file depend on the entries that are served. -/
def routeIds (served : List Turn) : List String :=
  served.flatMap fun t => ["_through", "_left", "_right"].map (t.key ++ ·)

def flowIds (served : List Turn) : List String :=
  (routeIds served).zipIdx.map fun (routeId, flowId) => s!"flow_{flowId}_{routeId}"

theorem ids_nodup : ∀ served ∈ turnMap.sublists,
    (routeIds served).Nodup ∧ (flowIds served).Nodup := by
  decide +kernel

def servedTurns (demands : List (String × ℚ)) : List Turn :=
  turnMap.filter fun t => ¬ throughVph demands t ≤ 0

theorem map_routeId_movements (demands : List (String × ℚ)) (ratios : TurnRatios) :
    ((servedTurns demands).flatMap fun t =>
        movements ratios (throughVph demands t) t).map TurnMovement.routeId =
      routeIds (servedTurns demands) := by
  rw [List.map_flatMap]
  rfl

theorem generateRoutes_ids (demands : List (String × ℚ)) (simBegin simEnd : ℚ)
    (ratios : TurnRatios) :
    ((generateRoutes demands simBegin simEnd ratios).map fun f => f.route.id) =
        routeIds (servedTurns demands) ∧
      (generateRoutes demands simBegin simEnd ratios).map RoutedFlow.flowId =
        flowIds (servedTurns demands) := by
  have hids := map_routeId_movements demands ratios
  constructor
  · rw [← hids]
    conv_rhs => rw [← List.zipIdx_map_fst 0 (List.flatMap _ _)]
    rw [generateRoutes, List.map_map, List.map_map]
    rfl
  · rw [flowIds, ← hids, List.zipIdx_map, generateRoutes, List.map_map,
      List.map_map]
    rfl

/-- The route file of a single intersection fits its network for every demand:
each route can be driven, and turns the way that its name says. -/
theorem generateRoutes_sound (numLanes : ℕ) (approachLength speedKmh : ℚ)
    (hlength : 0 < approachLength) (demands : List (String × ℚ))
    (simBegin simEnd : ℚ) (ratios : TurnRatios) :
    RoutesSound (generateSingleIntersection numLanes approachLength speedKmh)
      (generateRoutes demands simBegin simEnd ratios) := by
  have hserved : servedTurns demands ∈ turnMap.sublists :=
    List.mem_sublists.mpr List.filter_sublist
  obtain ⟨hroutes, hflows⟩ := ids_nodup _ hserved
  obtain ⟨hrouteIds, hflowIds⟩ := generateRoutes_ids demands simBegin simEnd ratios
  have hturns : ∀ f ∈ generateRoutes demands simBegin simEnd ratios,
      ∃ entry ∈ (generateSingleIntersection numLanes approachLength speedKmh).edges,
        ∃ exit ∈ (generateSingleIntersection numLanes approachLength speedKmh).edges,
          f.route.edges = [entry.id, exit.id] ∧ entry.toNode = exit.fromNode ∧
            ∃ u v, (generateSingleIntersection numLanes approachLength
                speedKmh).heading entry = some u ∧
              (generateSingleIntersection numLanes approachLength
                speedKmh).heading exit = some v ∧ TurnsAs f.movement u v := by
    intro f hf
    obtain ⟨t, ht, m, hm, hroute, hmovement, _⟩ := movement_of_mem_generateRoutes hf
    obtain ⟨d, hd, d', hd', horigin, hout, hturn⟩ := charted_of_mem ht hm
    refine ⟨_, (mem_edges numLanes approachLength speedKmh hd).1, _,
      (mem_edges numLanes approachLength speedKmh hd').2, ?_, rfl, _, _,
      heading_in numLanes approachLength speedKmh hd _,
      heading_out numLanes approachLength speedKmh hd' _, ?_⟩
    · rw [hroute, horigin, hout]
    · rw [hmovement]
      have hscaled := hturn.scale hlength
      simpa only [neg_mul] using hscaled
  refine ⟨hrouteIds ▸ hroutes, hflowIds ▸ hflows, fun f hf => ?_, fun f hf => ?_⟩
  · obtain ⟨entry, hentry, exit, hexit, hedges, hmeet, _⟩ := hturns f hf
    rw [hedges]
    refine ⟨[entry, exit], rfl, ?_, by simpa using hmeet⟩
    intro e he
    rcases List.mem_pair.mp he with rfl | rfl
    · exact hentry
    · exact hexit
  · obtain ⟨entry, hentry, exit, hexit, hedges, _, hheadings⟩ := hturns f hf
    exact ⟨entry, hentry, exit, hexit, hedges, hheadings⟩

/-- A hundred vehicles an hour come from the north. -/
theorem generateRoutes_sound_north :
    (0 : ℚ) < 200 ∧ RoutesSound (generateSingleIntersection 2 200 50)
      (generateRoutes [("ns_through", 100)] 0 3600 {}) :=
  ⟨by norm_num, generateRoutes_sound 2 200 50 (by norm_num) _ _ _ _⟩

end Semaforo
