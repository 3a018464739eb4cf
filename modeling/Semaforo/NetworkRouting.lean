import Semaforo.ShortestPaths
import Semaforo.TrafficNetwork
import Mathlib.Data.String.Basic

/-!
# Shortest paths in a traffic network

`TrafficNetwork.shortest_path` of `brain/src/coordination/graph_model.py` with
the travel times of the roads, in exact arithmetic with infinities and NaN.  The
search is the one of `ShortestPaths` along the roads of finite travel time: a
road that cannot be driven never shortens a distance.
-/

namespace FloatValue

/-- Division by a number that is not zero. -/
protected def div : FloatValue ℚ → FloatValue ℚ → FloatValue ℚ
  | nan, _ => nan
  | _, nan => nan
  | fin x, fin y => fin (x / y)
  | fin _, _ => fin 0
  | posInf, fin y => if y < 0 then negInf else posInf
  | negInf, fin y => if y < 0 then posInf else negInf
  | _, _ => nan

instance : Div (FloatValue ℚ) := ⟨FloatValue.div⟩

theorem posInf_div_fin {y : ℚ} (hy : 0 < y) :
    (posInf : FloatValue ℚ) / fin y = posInf :=
  if_neg (not_lt.mpr hy.le)

end FloatValue

namespace Semaforo

/-- The value as a number, if it is one. -/
def PyJson.number : PyJson → Option (FloatValue ℚ)
  | .bool b => some (.fin (if b then 1 else 0))
  | .int i => some (.fin i)
  | .float x => some x
  | _ => none

def RoadEdge.travelTime (edge : RoadEdge) : Except PyError (FloatValue ℚ) :=
  match edge.speedLimitKmh.number with
  | none => .error (.typeError ("'<=' not supported between instances of '" ++
      edge.speedLimitKmh.typeName ++ "' and 'int'"))
  | some speedLimitKmh =>
      if speedLimitKmh ≤ .fin 0 then .ok .posInf
      else
        match edge.lengthM.number with
        | none => .error (.typeError ("unsupported operand type(s) for /: '" ++
            edge.lengthM.typeName ++ "' and 'float'"))
        | some lengthM => .ok (lengthM / (speedLimitKmh / .fin (18 / 5)))

namespace TrafficNetwork

/-- `n in net._nodes`. -/
def HasNode (net : TrafficNetwork) (n : String) : Prop :=
  (net.nodes.lookup n).isSome = true

instance (net : TrafficNetwork) : DecidablePred net.HasNode := fun n =>
  inferInstanceAs (Decidable ((net.nodes.lookup n).isSome = true))

/-- `self._edges.get(u, [])`. -/
def roadsFrom (net : TrafficNetwork) (u : String) : List RoadEdge :=
  (net.edges.lookup u).getD []

def roads (net : TrafficNetwork) : List RoadEdge :=
  net.edges.flatMap fun adjacency => adjacency.2

/-- `d[key]`. -/
def subscript {β : Type} (d : List (String × β)) (key : String) :
    Except PyError β :=
  match d.lookup key with
  | some value => .ok value
  | none => .error (.keyError ("'" ++ key ++ "'"))

/-- The local variables of `shortest_path`, the heap in the order in which its
entries are popped. -/
structure RouteSearch where
  dist : List (String × FloatValue ℚ)
  prev : List (String × Option String)
  pq : List (FloatValue ℚ × String)

def heappush (pq : List (FloatValue ℚ × String))
    (entry : FloatValue ℚ × String) : List (FloatValue ℚ × String) :=
  pq.orderedInsert ShortestPaths.Before entry

/-- The body of the loop over the roads from `u`. -/
def relaxEdge (d : FloatValue ℚ) (u : String) (σ : RouteSearch)
    (edge : RoadEdge) : Except PyError RouteSearch := do
  let travelTime ← edge.travelTime
  let alt := d + travelTime
  let known ← subscript σ.dist edge.target
  if alt < known then
    return ⟨assign σ.dist edge.target alt, assign σ.prev edge.target (some u),
      heappush σ.pq (alt, edge.target)⟩
  else return σ

/-- The loop over the heap, or `none` where the rounds do not suffice. -/
def explore (net : TrafficNetwork) (target : String) :
    ℕ → RouteSearch → Option (Except PyError RouteSearch)
  | 0, _ => none
  | fuel + 1, σ =>
      match σ.pq with
      | [] => some (.ok σ)
      | (d, u) :: pq =>
          match subscript σ.dist u with
          | .error e => some (.error e)
          | .ok known =>
              if d > known then explore net target fuel { σ with pq := pq }
              else if u = target then some (.ok { σ with pq := pq })
              else
                match (net.roadsFrom u).foldlM (relaxEdge d u)
                  { σ with pq := pq } with
                | .error e => some (.error e)
                | .ok σ => explore net target fuel σ

/-- The loop along the predecessors: the path, the target first. -/
def reconstruct (prev : List (String × Option String)) :
    ℕ → String → Option (Except PyError (List String))
  | 0, _ => none
  | fuel + 1, node =>
      match subscript prev node with
      | .error e => some (.error e)
      | .ok none => some (.ok [node])
      | .ok (some node') =>
          (reconstruct prev fuel node').map fun path => path.map (node :: ·)

def startSearch (net : TrafficNetwork) (source : String) : RouteSearch where
  dist := assign (net.nodes.map fun n => (n.1, .posInf)) source (.fin 0)
  prev := net.nodes.map fun n => (n.1, none)
  pq := [(.fin 0, source)]

def noPath (source target : String) : PyError :=
  .valueError ("No path from '" ++ source ++ "' to '" ++ target ++ "'.")

/-- Where the search has ended. -/
def finish (fuel : ℕ) (source target : String) (σ : RouteSearch) :
    Option (Except PyError (List String × FloatValue ℚ)) :=
  match subscript σ.dist target with
  | .error e => some (.error e)
  | .ok total =>
      if total = .posInf then some (.error (noPath source target))
      else
        (reconstruct σ.prev fuel target).map fun path =>
          path.map fun path => (path.reverse, total)

/-- `shortest_path`, or `none` where the rounds of its loops do not suffice. -/
def shortestPath (net : TrafficNetwork) (fuel : ℕ) (source target : String) :
    Option (Except PyError (List String × FloatValue ℚ)) :=
  if ¬ net.HasNode source then
    some (.error (.keyError ("Source '" ++ source ++ "' not in network.")))
  else if ¬ net.HasNode target then
    some (.error (.keyError ("Target '" ++ target ++ "' not in network.")))
  else
    match explore net target fuel (net.startSearch source) with
    | none => none
    | some (.error e) => some (.error e)
    | some (.ok σ) => finish fuel source target σ

/-! ## What the answer should be -/

/-- A trip along roads, with its travel time. -/
inductive Travel (net : TrafficNetwork) (source : String) :
    String → FloatValue ℚ → Prop
  | start : Travel net source source (.fin 0)
  | extend {u : String} {t w : FloatValue ℚ} {road : RoadEdge}
      (trip : Travel net source u t) (hroad : road ∈ net.roads)
      (hsource : road.source = u) (htime : road.travelTime = .ok w) :
      Travel net source road.target (t + w)

/-- The smallest travel time of the roads that join two nodes. -/
def LeastTime (net : TrafficNetwork) (u v : String) (time : ℚ) : Prop :=
  (∃ road ∈ net.roads, road.source = u ∧ road.target = v ∧
    road.travelTime = .ok (.fin time)) ∧
  ∀ road ∈ net.roads, road.source = u → road.target = v →
    ∀ t, road.travelTime = .ok t → ¬ t < .fin time

structure Shortest (net : TrafficNetwork) (source target : String)
    (path : List String) (total : FloatValue ℚ) : Prop where
  head : path.head? = some source
  last : path.getLast? = some target
  nodup : path.Nodup
  hops : ∃ times : List ℚ, total = .fin times.sum ∧
    List.Forall₂ (fun hop time => net.LeastTime hop.1 hop.2 time)
      (path.zip path.tail) times
  minimal : ∀ t, net.Travel source target t → ¬ t < total

structure Answers (net : TrafficNetwork) (source target : String)
    (outcome : Except PyError (List String × FloatValue ℚ)) : Prop where
  noPath : outcome = .error (noPath source target) ↔
    ¬ ∃ t : ℚ, net.Travel source target (.fin t)
  path : (∃ t : ℚ, net.Travel source target (.fin t)) →
    ∃ path total, outcome = .ok (path, total) ∧
      net.Shortest source target path total

end TrafficNetwork

/-- The length and the speed limit are numbers, the length is not negative. -/
structure RoadEdge.Measured (road : RoadEdge) : Prop where
  length : ∃ lengthM, road.lengthM.number = some lengthM ∧ .fin 0 ≤ lengthM
  speed : ∃ speedLimitKmh, road.speedLimitKmh.number = some speedLimitKmh

/-! ## Travel times -/

theorem FloatValue.fin_zero_le {x : FloatValue ℚ}
    (h : FloatValue.fin 0 ≤ x) : x = .posInf ∨ ∃ q, x = .fin q ∧ 0 ≤ q := by
  cases x with
  | nan => exact absurd h (FloatValue.not_le_nan _)
  | negInf => exact absurd h (FloatValue.not_fin_le_negInf 0)
  | posInf => exact Or.inl rfl
  | fin q => exact Or.inr ⟨q, rfl, h⟩

/-- A time, or no time at all. -/
def Duration (t : FloatValue ℚ) : Prop :=
  t ≠ .negInf ∧ ∀ w, t = .fin w → 0 ≤ w

theorem duration_nan : Duration .nan := ⟨nofun, nofun⟩

theorem duration_posInf : Duration .posInf := ⟨nofun, nofun⟩

theorem duration_fin {q : ℚ} (hq : 0 ≤ q) : Duration (.fin q) := by
  refine ⟨nofun, ?_⟩
  intro w hw
  rw [← FloatValue.fin.inj hw]
  exact hq

theorem duration_div {lengthM speedLimitKmh : FloatValue ℚ}
    (hlength : .fin 0 ≤ lengthM) (hspeed : ¬ speedLimitKmh ≤ .fin 0) :
    Duration (lengthM / (speedLimitKmh / .fin (18 / 5))) := by
  have hinfinite : (FloatValue.posInf : FloatValue ℚ) / .fin (18 / 5) =
      .posInf := FloatValue.posInf_div_fin (by norm_num)
  rcases FloatValue.fin_zero_le hlength with rfl | ⟨q, rfl, hq⟩
  · cases speedLimitKmh with
    | nan => exact duration_nan
    | negInf => exact absurd (FloatValue.negInf_le_fin 0) hspeed
    | posInf =>
        rw [hinfinite]
        exact duration_nan
    | fin v =>
        have hv : 0 < v := not_le.mp hspeed
        have hpace : 0 < v / (18 / 5) := by
          positivity
        have htime : (FloatValue.posInf : FloatValue ℚ) /
            (.fin v / .fin (18 / 5)) = .posInf :=
          FloatValue.posInf_div_fin hpace
        rw [htime]
        exact duration_posInf
  · cases speedLimitKmh with
    | nan => exact duration_nan
    | negInf => exact absurd (FloatValue.negInf_le_fin 0) hspeed
    | posInf =>
        rw [hinfinite]
        exact duration_fin (le_refl 0)
    | fin v =>
        have hv : 0 < v := not_le.mp hspeed
        have htime : 0 ≤ q / (v / (18 / 5)) := by
          positivity
        exact duration_fin htime

theorem RoadEdge.Measured.duration {road : RoadEdge} (h : road.Measured) :
    ∃ t, road.travelTime = .ok t ∧ Duration t := by
  obtain ⟨lengthM, hnumber, hlength⟩ := h.length
  obtain ⟨speedLimitKmh, hspeed⟩ := h.speed
  unfold RoadEdge.travelTime
  rw [hspeed, hnumber]
  dsimp only
  split_ifs with hpositive
  · exact ⟨_, rfl, duration_posInf⟩
  · exact ⟨_, rfl, duration_div hlength hpositive⟩

namespace TrafficNetwork

/-! ## Networks built by calls -/

theorem lookup_assign {β : Type} (d : List (String × β)) (key k : String)
    (value : β) :
    (assign d key value).lookup k =
      if k = key then some value else d.lookup k := by
  induction d with
  | nil =>
      unfold assign
      by_cases hk : k = key
      · simp [hk]
      · simp [List.lookup_cons, beq_eq_false_iff_ne.mpr hk, hk]
  | cons m d ih =>
      obtain ⟨k', v⟩ := m
      unfold assign
      by_cases hkey : k' = key
      · rw [if_pos hkey, hkey]
        by_cases hk : k = key
        · simp [hk]
        · simp [List.lookup_cons, beq_eq_false_iff_ne.mpr hk, hk]
      · rw [if_neg hkey, List.lookup_cons, List.lookup_cons, ih]
        by_cases hk : k = k'
        · have hne : k ≠ key := hk ▸ hkey
          simp [hk, hkey]
        · simp [beq_eq_false_iff_ne.mpr hk]

/-- Every road is listed at its source, and leads to a node. -/
structure WellFormed (net : TrafficNetwork) : Prop where
  keys : (net.edges.map Prod.fst).Nodup
  source : ∀ adjacency ∈ net.edges, ∀ road ∈ adjacency.2,
    road.source = adjacency.1
  target : ∀ adjacency ∈ net.edges, ∀ road ∈ adjacency.2,
    net.HasNode road.target

theorem wellFormed_empty : WellFormed {} :=
  ⟨List.nodup_nil, nofun, nofun⟩

theorem WellFormed.addIntersection {net : TrafficNetwork} (h : net.WellFormed)
    (nodeId : String) (lat lon : PyJson)
    (metadata : Keywords addIntersectionParameters) :
    (net.addIntersection nodeId lat lon metadata).WellFormed := by
  have hnode : ∀ n, net.HasNode n →
      (net.addIntersection nodeId lat lon metadata).HasNode n := by
    intro n hn
    unfold HasNode TrafficNetwork.addIntersection
    rw [lookup_assign]
    split_ifs
    · rfl
    · exact hn
  have hedges : ∀ adjacency ∈
      (net.addIntersection nodeId lat lon metadata).edges,
      adjacency ∈ net.edges ∨ adjacency.2 = [] := by
    intro adjacency hmem
    unfold TrafficNetwork.addIntersection setDefault at hmem
    dsimp only at hmem
    split_ifs at hmem
    · exact Or.inl hmem
    · rcases List.mem_append.mp hmem with hold | hnew
      · exact Or.inl hold
      · right
        rw [List.mem_singleton.mp hnew]
  exact
    { keys := by
        unfold TrafficNetwork.addIntersection setDefault
        dsimp only
        split_ifs with hpresent
        · exact h.keys
        · rw [List.map_append]
          apply List.Nodup.append h.keys (List.nodup_singleton _)
          rw [List.disjoint_singleton]
          intro hmem
          obtain ⟨adjacency, hadjacency, hkey⟩ := List.mem_map.mp hmem
          apply hpresent
          rw [List.lookup_isSome_iff]
          exact ⟨adjacency, hadjacency, beq_iff_eq.mpr hkey.symm⟩
      source := by
        intro adjacency hmem road hroad
        rcases hedges adjacency hmem with hold | hnil
        · exact h.source adjacency hold road hroad
        · rw [hnil] at hroad
          cases hroad
      target := by
        intro adjacency hmem road hroad
        rcases hedges adjacency hmem with hold | hnil
        · exact hnode _ (h.target adjacency hold road hroad)
        · rw [hnil] at hroad
          cases hroad }

theorem keys_addRoad {net net' : TrafficNetwork} {source target : String}
    {lengthM speedLimitKmh lanes : PyJson}
    {metadata : Keywords addRoadParameters}
    (hadd : net.addRoad source target lengthM speedLimitKmh lanes metadata =
      .ok net') : net'.edges.map Prod.fst = net.edges.map Prod.fst := by
  unfold TrafficNetwork.addRoad at hadd
  split_ifs at hadd
  cases hadd
  dsimp only
  rw [List.map_map]
  apply List.map_congr_left
  intro adjacency _
  rw [Function.comp_apply]
  split_ifs <;> rfl

/-- A road of the new network is an old one, or the one that was added. -/
theorem mem_addRoad {net net' : TrafficNetwork} {source target : String}
    {lengthM speedLimitKmh lanes : PyJson}
    {metadata : Keywords addRoadParameters}
    (hadd : net.addRoad source target lengthM speedLimitKmh lanes metadata =
      .ok net') {adjacency' : String × List RoadEdge}
    (hmem : adjacency' ∈ net'.edges) :
    ∃ adjacency ∈ net.edges, adjacency.1 = adjacency'.1 ∧
      ∀ road ∈ adjacency'.2, road ∈ adjacency.2 ∨
        road.source = adjacency.1 ∧ road.target = target := by
  unfold TrafficNetwork.addRoad at hadd
  split_ifs at hadd
  cases hadd
  obtain ⟨adjacency, hadjacency, rfl⟩ := List.mem_map.mp hmem
  refine ⟨adjacency, hadjacency, ?_⟩
  split_ifs with hkey
  · refine ⟨rfl, ?_⟩
    intro road hroad
    rcases List.mem_append.mp hroad with hold | hnew
    · exact Or.inl hold
    · right
      rw [List.mem_singleton.mp hnew]
      exact ⟨hkey.symm, rfl⟩
  · exact ⟨rfl, fun road hroad => Or.inl hroad⟩

theorem hasNode_of_addRoad {net net' : TrafficNetwork} {source target : String}
    {lengthM speedLimitKmh lanes : PyJson}
    {metadata : Keywords addRoadParameters}
    (hadd : net.addRoad source target lengthM speedLimitKmh lanes metadata =
      .ok net') : net.HasNode target := by
  unfold TrafficNetwork.addRoad at hadd
  split_ifs at hadd with hsource htarget
  unfold HasNode
  rw [← Option.not_isNone]
  simpa using htarget

theorem WellFormed.addRoad {net net' : TrafficNetwork} (h : net.WellFormed)
    {source target : String} {lengthM speedLimitKmh lanes : PyJson}
    {metadata : Keywords addRoadParameters}
    (hadd : net.addRoad source target lengthM speedLimitKmh lanes metadata =
      .ok net') : net'.WellFormed where
  keys := by
    rw [keys_addRoad hadd]
    exact h.keys
  source := by
    intro adjacency' hmem road hroad
    obtain ⟨adjacency, hadjacency, hkey, hroads⟩ := mem_addRoad hadd hmem
    rw [← hkey]
    rcases hroads road hroad with hold | hnew
    · exact h.source adjacency hadjacency road hold
    · exact hnew.1
  target := by
    intro adjacency' hmem road hroad
    obtain ⟨adjacency, hadjacency, _, hroads⟩ := mem_addRoad hadd hmem
    unfold HasNode
    rw [nodes_addRoad hadd]
    rcases hroads road hroad with hold | hnew
    · exact h.target adjacency hadjacency road hold
    · rw [hnew.2]
      exact hasNode_of_addRoad hadd

theorem WellFormed.perform {net : TrafficNetwork} (h : net.WellFormed)
    (call : NetworkCall) : (net.perform call).WellFormed := by
  cases call with
  | addIntersection nodeId lat lon metadata =>
      exact h.addIntersection nodeId lat lon metadata
  | addRoad source target lengthM speedLimitKmh lanes metadata =>
      simp only [TrafficNetwork.perform]
      split
      · rename_i net' hadd
        exact h.addRoad hadd
      · exact h

theorem wellFormed_build (calls : List NetworkCall) :
    (build calls).WellFormed := by
  have hrun : ∀ (calls : List NetworkCall) {net : TrafficNetwork},
      net.WellFormed → (calls.foldl perform net).WellFormed := by
    intro calls
    induction calls with
    | nil =>
        intro net h
        exact h
    | cons call calls ih =>
        intro net h
        exact ih (h.perform call)
  exact hrun calls wellFormed_empty

theorem lookup_eq_some_of_mem {β : Type} {d : List (String × β)}
    (hkeys : (d.map Prod.fst).Nodup) {m : String × β} (hm : m ∈ d) :
    d.lookup m.1 = some m.2 := by
  induction d with
  | nil => cases hm
  | cons m' d ih =>
      rw [List.map_cons, List.nodup_cons] at hkeys
      rw [List.lookup_cons]
      rcases List.mem_cons.mp hm with rfl | hmem
      · simp
      · have hne : m.1 ≠ m'.1 := by
          intro heq
          apply hkeys.1
          rw [← heq]
          exact List.mem_map_of_mem hmem
        rw [beq_eq_false_iff_ne.mpr hne]
        exact ih hkeys.2 hmem

theorem mem_of_lookup_eq_some {β : Type} {d : List (String × β)} {key : String}
    {value : β} (h : d.lookup key = some value) : (key, value) ∈ d := by
  obtain ⟨before, after, rfl, _⟩ := List.lookup_eq_some_iff.mp h
  simp

theorem WellFormed.mem_roadsFrom {net : TrafficNetwork} (h : net.WellFormed)
    {u : String} {road : RoadEdge} :
    road ∈ net.roadsFrom u ↔ road ∈ net.roads ∧ road.source = u := by
  unfold roadsFrom roads
  rw [List.mem_flatMap]
  constructor
  · intro hroad
    cases hlookup : net.edges.lookup u with
    | none =>
        rw [hlookup] at hroad
        cases hroad
    | some adjacent =>
        rw [hlookup] at hroad
        have hmem := mem_of_lookup_eq_some hlookup
        exact ⟨⟨(u, adjacent), hmem, hroad⟩, h.source _ hmem road hroad⟩
  · rintro ⟨⟨adjacency, hmem, hroad⟩, rfl⟩
    rw [h.source adjacency hmem road hroad, lookup_eq_some_of_mem h.keys hmem]
    exact hroad

theorem WellFormed.hasNode_target {net : TrafficNetwork} (h : net.WellFormed)
    {road : RoadEdge} (hroad : road ∈ net.roads) :
    net.HasNode road.target := by
  obtain ⟨adjacency, hmem, hin⟩ := List.mem_flatMap.mp hroad
  exact h.target adjacency hmem road hin

/-! ## The search along the roads of finite travel time -/

def finiteArc (edge : RoadEdge) : Option (String × ℚ) :=
  match edge.travelTime with
  | .ok (.fin w) => some (edge.target, w)
  | _ => none

def arcs (net : TrafficNetwork) (u : String) : List (String × ℚ) :=
  (net.roadsFrom u).filterMap finiteArc

theorem finiteArc_eq_some {edge : RoadEdge} {v : String} {w : ℚ} :
    finiteArc edge = some (v, w) ↔
      edge.target = v ∧ edge.travelTime = .ok (.fin w) := by
  unfold finiteArc
  constructor
  · intro h
    split at h
    · rename_i time htime
      obtain ⟨hv, hw⟩ := Prod.mk.inj (Option.some.inj h)
      rw [htime, hw]
      exact ⟨hv, rfl⟩
    · cases h
  · rintro ⟨rfl, htime⟩
    rw [htime]

theorem WellFormed.mem_arcs {net : TrafficNetwork} (h : net.WellFormed)
    {u v : String} {w : ℚ} :
    (v, w) ∈ net.arcs u ↔ ∃ road ∈ net.roads, road.source = u ∧
      road.target = v ∧ road.travelTime = .ok (.fin w) := by
  unfold arcs
  rw [List.mem_filterMap]
  constructor
  · rintro ⟨road, hroad, harc⟩
    obtain ⟨hmem, hsource⟩ := h.mem_roadsFrom.mp hroad
    obtain ⟨htarget, htime⟩ := finiteArc_eq_some.mp harc
    exact ⟨road, hmem, hsource, htarget, htime⟩
  · rintro ⟨road, hmem, hsource, htarget, htime⟩
    exact ⟨road, h.mem_roadsFrom.mpr ⟨hmem, hsource⟩,
      finiteArc_eq_some.mpr ⟨htarget, htime⟩⟩

/-- A distance of the search, infinite where there is none. -/
def distance : Option ℚ → FloatValue ℚ
  | none => .posInf
  | some d => .fin d

theorem fin_lt_distance {alt : ℚ} {known : Option ℚ} :
    .fin alt < distance known ↔ ShortestPaths.improves alt known = true := by
  cases known with
  | none => exact iff_of_true trivial rfl
  | some d =>
      change alt < d ↔ decide (alt < d) = true
      rw [decide_eq_true_eq]

theorem distance_lt_fin {d : ℚ} {known : Option ℚ} :
    distance known < .fin d ↔ ShortestPaths.stale d known = true := by
  cases known with
  | none => exact iff_of_false id Bool.false_ne_true
  | some d' =>
      change d' < d ↔ decide (d' < d) = true
      rw [decide_eq_true_eq]

/-- The variables of the code stand for a state of the search. -/
structure Represents (net : TrafficNetwork) (σ : RouteSearch)
    (τ : ShortestPaths.Search String ℚ) : Prop where
  dist : ∀ n, net.HasNode n → σ.dist.lookup n = some (distance (τ.dist n))
  prev : ∀ n, net.HasNode n → σ.prev.lookup n = some (τ.prev n)
  pq : σ.pq = τ.pq.map fun e => (.fin e.1, e.2)
  queued : ∀ e ∈ τ.pq, net.HasNode e.2
  known : ∀ n p, τ.prev n = some p → net.HasNode p

theorem heappush_map (pq : List (ℚ × String)) (e : ℚ × String) :
    heappush (pq.map fun e => (.fin e.1, e.2)) (.fin e.1, e.2) =
      (pq.orderedInsert ShortestPaths.Before e).map
        fun e => (.fin e.1, e.2) := by
  have hbefore : ∀ x y : ℚ × String, ShortestPaths.Before x y ↔
      ShortestPaths.Before ((.fin x.1, x.2) : FloatValue ℚ × String)
        (.fin y.1, y.2) := by
    intro x y
    unfold ShortestPaths.Before
    dsimp only
    rw [FloatValue.fin_lt_fin, FloatValue.fin.injEq]
  unfold heappush
  rw [List.map_orderedInsert ShortestPaths.Before ShortestPaths.Before
    (fun e : ℚ × String => ((.fin e.1, e.2) : FloatValue ℚ × String)) pq e
    (fun a _ => hbefore a e) (fun a _ => hbefore e a)]

theorem relaxEdge_of_not_lt {d : FloatValue ℚ} {u : String} {σ : RouteSearch}
    {edge : RoadEdge} {t known : FloatValue ℚ}
    (htime : edge.travelTime = .ok t)
    (hknown : σ.dist.lookup edge.target = some known)
    (hlt : ¬ d + t < known) : relaxEdge d u σ edge = .ok σ := by
  unfold relaxEdge subscript
  rw [htime, hknown]
  exact if_neg hlt

/-- A road that cannot be driven shortens no distance. -/
theorem relaxEdge_of_finiteArc_eq_none {edge : RoadEdge}
    (hmeasured : edge.Measured) (harc : finiteArc edge = none)
    {σ : RouteSearch} {known : Option ℚ}
    (hknown : σ.dist.lookup edge.target = some (distance known)) (d : ℚ)
    (u : String) : relaxEdge (.fin d) u σ edge = .ok σ := by
  obtain ⟨t, htime, hduration⟩ := hmeasured.duration
  apply relaxEdge_of_not_lt htime hknown
  cases t with
  | negInf => exact absurd rfl hduration.1
  | fin w =>
      have hsome : finiteArc edge = some (edge.target, w) :=
        finiteArc_eq_some.mpr ⟨rfl, htime⟩
      rw [harc] at hsome
      cases hsome
  | nan => cases known <;> exact id
  | posInf => cases known <;> exact id

/-- The three assignments of the code are one relaxation of the search. -/
theorem Represents.relax {net : TrafficNetwork} {σ : RouteSearch}
    {τ : ShortestPaths.Search String ℚ} (h : net.Represents σ τ) {d : ℚ}
    {u v : String} {w : ℚ} (hu : net.HasNode u) (hv : net.HasNode v)
    (himproves : ShortestPaths.improves (d + w) (τ.dist v) = true) :
    net.Represents
      ⟨assign σ.dist v (.fin (d + w)),
        assign σ.prev v (some u),
        heappush σ.pq (.fin (d + w), v)⟩
      (ShortestPaths.relax u d τ (v, w)) := by
  rw [ShortestPaths.relax_of_improves himproves]
  exact
    { dist := by
        intro n hn
        dsimp only
        rw [lookup_assign, Function.update_apply]
        split_ifs
        · rfl
        · exact h.dist n hn
      prev := by
        intro n hn
        dsimp only
        rw [lookup_assign, Function.update_apply]
        split_ifs
        · rfl
        · exact h.prev n hn
      pq := by
        dsimp only
        rw [h.pq]
        exact heappush_map τ.pq (d + w, v)
      queued := by
        intro e he
        rcases (List.mem_orderedInsert ShortestPaths.Before).mp he
          with rfl | hold
        · exact hv
        · exact h.queued e hold
      known := by
        intro n p hp
        dsimp only at hp
        rw [Function.update_apply] at hp
        split_ifs at hp
        · rw [← Option.some.inj hp]
          exact hu
        · exact h.known n p hp }

/-- One road: a finite travel time relaxes its arc, any other changes
nothing. -/
theorem relaxEdge_represents {net : TrafficNetwork} {σ : RouteSearch}
    {τ : ShortestPaths.Search String ℚ} (h : net.Represents σ τ) {d : ℚ}
    {u : String} (hu : net.HasNode u) {edge : RoadEdge}
    (hnode : net.HasNode edge.target) (hmeasured : edge.Measured) :
    ∃ σ', relaxEdge (.fin d) u σ edge = .ok σ' ∧
      net.Represents σ' ((finiteArc edge).toList.foldl
        (ShortestPaths.relax u d) τ) := by
  have hknown := h.dist edge.target hnode
  cases harc : finiteArc edge with
  | none => exact ⟨σ, relaxEdge_of_finiteArc_eq_none hmeasured harc hknown d u, h⟩
  | some arc =>
      obtain ⟨v, w⟩ := arc
      obtain ⟨rfl, htime⟩ := finiteArc_eq_some.mp harc
      change ∃ σ', _ ∧ net.Represents σ' (ShortestPaths.relax u d τ _)
      cases himproves : ShortestPaths.improves (d + w) (τ.dist edge.target) with
      | false =>
          rw [ShortestPaths.relax_of_not_improves himproves]
          refine ⟨σ, relaxEdge_of_not_lt htime hknown ?_, h⟩
          rw [FloatValue.fin_add_fin, fin_lt_distance, himproves]
          exact Bool.false_ne_true
      | true =>
          have hlt : FloatValue.fin d + .fin w <
              distance (τ.dist edge.target) := by
            rw [FloatValue.fin_add_fin, fin_lt_distance]
            exact himproves
          refine ⟨_, ?_, h.relax hu hnode himproves⟩
          unfold relaxEdge subscript
          rw [htime, hknown]
          exact if_pos hlt

theorem relaxEdges_represents {net : TrafficNetwork} {d : ℚ} {u : String}
    (hu : net.HasNode u) : ∀ (edges : List RoadEdge) {σ : RouteSearch}
      {τ : ShortestPaths.Search String ℚ},
      (∀ edge ∈ edges, net.HasNode edge.target ∧ edge.Measured) →
      net.Represents σ τ →
      ∃ σ', edges.foldlM (relaxEdge (.fin d) u) σ = .ok σ' ∧
        net.Represents σ' ((edges.filterMap finiteArc).foldl
          (ShortestPaths.relax u d) τ) := by
  intro edges
  induction edges with
  | nil =>
      intro σ τ _ h
      exact ⟨σ, rfl, h⟩
  | cons edge edges ih =>
      intro σ τ hedges h
      obtain ⟨hnode, hmeasured⟩ := hedges edge (List.mem_cons_self ..)
      obtain ⟨σ₁, hone, h₁⟩ :=
        relaxEdge_represents (d := d) h hu hnode hmeasured
      obtain ⟨σ₂, hrest, h₂⟩ :=
        ih (fun e he => hedges e (List.mem_cons_of_mem edge he)) h₁
      refine ⟨σ₂, ?_, ?_⟩
      · rw [List.foldlM_cons, hone]
        exact hrest
      · rw [List.filterMap_cons]
        cases harc : finiteArc edge with
        | none =>
            rw [harc] at h₂
            exact h₂
        | some arc =>
            rw [harc] at h₂
            exact h₂

theorem Represents.pop {net : TrafficNetwork} {σ : RouteSearch}
    {τ : ShortestPaths.Search String ℚ} (h : net.Represents σ τ)
    {e : ℚ × String} {pq : List (ℚ × String)} (hpq : τ.pq = e :: pq) :
    net.Represents { σ with pq := pq.map fun e => (.fin e.1, e.2) }
      { τ with pq := pq } where
  dist := h.dist
  prev := h.prev
  pq := rfl
  queued := by
    intro e' he'
    apply h.queued e'
    rw [hpq]
    exact List.mem_cons_of_mem e he'
  known := h.known

theorem explore_represents {net : TrafficNetwork} (hnet : net.WellFormed)
    (hmeasured : ∀ road ∈ net.roads, road.Measured) {target : String} :
    ∀ (fuel : ℕ) {σ : RouteSearch} {τ final : ShortestPaths.Search String ℚ},
      net.Represents σ τ →
      ShortestPaths.run net.arcs target fuel τ = some final →
      ∃ σ', explore net target fuel σ = some (.ok σ') ∧
        net.Represents σ' final := by
  intro fuel
  induction fuel with
  | zero =>
      intro σ τ final _ hrun
      cases hrun
  | succ fuel ih =>
      intro σ τ final h hrun
      unfold ShortestPaths.run at hrun
      unfold explore
      cases hpq : τ.pq with
      | nil =>
          have hempty : σ.pq = [] := by
            rw [h.pq, hpq, List.map_nil]
          rw [hpq] at hrun
          cases hrun
          rw [hempty]
          exact ⟨σ, rfl, h⟩
      | cons e pq =>
          obtain ⟨d, u⟩ := e
          have hqueue : σ.pq = (.fin d, u) :: pq.map
              fun e => (.fin e.1, e.2) := by
            rw [h.pq, hpq, List.map_cons]
          have hu : net.HasNode u := by
            apply h.queued (d, u)
            rw [hpq]
            exact List.mem_cons_self ..
          have hpopped := h.pop hpq
          have hknown : subscript σ.dist u =
              .ok (distance (τ.dist u)) := by
            unfold subscript
            rw [h.dist u hu]
          rw [hpq] at hrun
          rw [hqueue]
          dsimp only at hrun ⊢
          rw [hknown]
          dsimp only
          by_cases hstale : ShortestPaths.stale d (τ.dist u) = true
          · rw [if_pos hstale] at hrun
            rw [if_pos (distance_lt_fin.mpr hstale)]
            exact ih hpopped hrun
          · rw [if_neg hstale] at hrun
            rw [if_neg fun hlt => hstale (distance_lt_fin.mp hlt)]
            by_cases htarget : u = target
            · rw [if_pos htarget] at hrun
              cases hrun
              rw [if_pos htarget]
              exact ⟨_, rfl, hpopped⟩
            · rw [if_neg htarget] at hrun
              rw [if_neg htarget]
              have hedges : ∀ edge ∈ net.roadsFrom u,
                  net.HasNode edge.target ∧ edge.Measured := by
                intro edge hedge
                have hroad := (hnet.mem_roadsFrom.mp hedge).1
                exact ⟨hnet.hasNode_target hroad, hmeasured edge hroad⟩
              obtain ⟨σ', hfold, hrelaxed⟩ := relaxEdges_represents (d := d) hu
                (net.roadsFrom u) hedges hpopped
              rw [hfold]
              exact ih hrelaxed hrun

theorem startSearch_represents {net : TrafficNetwork} {source : String}
    (hsource : net.HasNode source) :
    net.Represents (net.startSearch source)
      (ShortestPaths.initial source) := by
  have hlookup : ∀ {β : Type} (value : β) (n : String), net.HasNode n →
      (net.nodes.map fun n => (n.1, value)).lookup n = some value := by
    intro β value n hn
    obtain ⟨node, hnode, hkey⟩ := List.lookup_isSome_iff.mp hn
    have hsome : ((net.nodes.map fun n => (n.1, value)).lookup n).isSome := by
      rw [List.lookup_isSome_iff]
      exact ⟨(node.1, value), List.mem_map_of_mem hnode, hkey⟩
    obtain ⟨v, hv⟩ := Option.isSome_iff_exists.mp hsome
    obtain ⟨_, _, heq⟩ := List.mem_map.mp (mem_of_lookup_eq_some hv)
    have hvalue : value = v := (Prod.mk.inj heq).2
    rw [hv, hvalue]
  exact
    { dist := by
        intro n hn
        change (assign _ source _).lookup n = _
        rw [lookup_assign, ShortestPaths.initial_dist]
        split_ifs
        · rfl
        · exact hlookup _ n hn
      prev := fun n hn => hlookup _ n hn
      pq := rfl
      queued := by
        intro e he
        rw [List.mem_singleton.mp he]
        exact hsource
      known := fun n p hp => by
        cases hp }

theorem reconstruct_eq {net : TrafficNetwork} {σ : RouteSearch}
    {τ : ShortestPaths.Search String ℚ} (h : net.Represents σ τ) :
    ∀ (fuel : ℕ) {n : String} {path : List String}, net.HasNode n →
      ShortestPaths.walkBack τ.prev fuel n = some path →
      reconstruct σ.prev fuel n = some (.ok path) := by
  intro fuel
  induction fuel with
  | zero =>
      intro n path _ hwalk
      cases hwalk
  | succ fuel ih =>
      intro n path hn hwalk
      have hprev : subscript σ.prev n = .ok (τ.prev n) := by
        unfold subscript
        rw [h.prev n hn]
      unfold ShortestPaths.walkBack at hwalk
      unfold reconstruct
      rw [hprev]
      cases hp : τ.prev n with
      | none =>
          rw [hp] at hwalk
          cases hwalk
          rfl
      | some p =>
          rw [hp] at hwalk
          dsimp only at hwalk ⊢
          obtain ⟨rest, hrest, rfl⟩ := Option.map_eq_some_iff.mp hwalk
          rw [ih (h.known n p hp) hrest]
          rfl

/-! ## The answer -/

theorem add_eq_fin {x y : FloatValue ℚ} {t : ℚ} (h : x + y = .fin t) :
    ∃ a b, x = .fin a ∧ y = .fin b ∧ a + b = t := by
  cases x with
  | fin a =>
      cases y with
      | fin b => exact ⟨a, b, rfl, rfl, FloatValue.fin.inj h⟩
      | _ => cases h
  | _ => cases y <;> cases h

theorem add_ne_negInf {x y : FloatValue ℚ} (hx : x ≠ .negInf)
    (hy : y ≠ .negInf) : x + y ≠ .negInf := by
  cases x with
  | negInf => exact absurd rfl hx
  | _ =>
      cases y with
      | negInf => exact absurd rfl hy
      | _ => exact nofun

theorem Travel.ne_negInf {net : TrafficNetwork}
    (hmeasured : ∀ road ∈ net.roads, road.Measured) {source n : String}
    {t : FloatValue ℚ} (trip : net.Travel source n t) : t ≠ .negInf := by
  induction trip with
  | start => exact nofun
  | @extend u t w road trip hroad hsource htime ih =>
      obtain ⟨w', hw', hduration⟩ := (hmeasured road hroad).duration
      have hw : w = w' := Except.ok.inj (htime.symm.trans hw')
      exact add_ne_negInf ih (hw ▸ hduration.1)

theorem travel_fin_iff {net : TrafficNetwork} (hnet : net.WellFormed)
    {source n : String} {t : ℚ} :
    net.Travel source n (.fin t) ↔ ShortestPaths.Trip net.arcs source n t := by
  constructor
  · intro travel
    generalize htotal : FloatValue.fin t = total at travel
    induction travel generalizing t with
    | start =>
        rw [FloatValue.fin.inj htotal]
        exact ShortestPaths.Trip.start
    | @extend u t' w road trip hroad hsource htime ih =>
        obtain ⟨a, b, rfl, rfl, rfl⟩ := add_eq_fin htotal.symm
        exact (ih rfl).extend
          (hnet.mem_arcs.mpr ⟨road, hroad, hsource, rfl, htime⟩)
  · intro trip
    induction trip with
    | start => exact Travel.start
    | @extend u v length w trip arc ih =>
        obtain ⟨road, hroad, hsource, rfl, htime⟩ := hnet.mem_arcs.mp arc
        exact ih.extend hroad hsource htime

theorem leastTime_of_leastArc {net : TrafficNetwork} (hnet : net.WellFormed)
    (hmeasured : ∀ road ∈ net.roads, road.Measured) {u v : String} {w : ℚ}
    (h : ShortestPaths.LeastArc net.arcs u v w) : net.LeastTime u v w := by
  refine ⟨hnet.mem_arcs.mp h.1, ?_⟩
  intro road hroad hsource htarget t htime hlt
  obtain ⟨t', ht', hduration⟩ := (hmeasured road hroad).duration
  have hsame : t = t' := Except.ok.inj (htime.symm.trans ht')
  cases t with
  | fin a =>
      have hle : w ≤ a :=
        h.2 a (hnet.mem_arcs.mpr ⟨road, hroad, hsource, htarget, htime⟩)
      exact absurd hle (not_le.mpr hlt)
  | negInf => exact hduration.1 hsame.symm
  | nan => exact hlt
  | posInf => exact hlt

theorem arcs_nonneg {net : TrafficNetwork} (hnet : net.WellFormed)
    (hmeasured : ∀ road ∈ net.roads, road.Measured) (u : String) :
    ∀ arc ∈ net.arcs u, 0 ≤ arc.2 := by
  rintro ⟨v, w⟩ harc
  obtain ⟨road, hroad, _, _, htime⟩ := hnet.mem_arcs.mp harc
  obtain ⟨t, ht, hduration⟩ := (hmeasured road hroad).duration
  have hsame : t = .fin w := Except.ok.inj (ht.symm.trans htime)
  exact hduration.2 w hsame

theorem arcs_eq_nil {net : TrafficNetwork} {u : String}
    (hu : u ∉ net.edges.map Prod.fst) : net.arcs u = [] := by
  have hnone : net.edges.lookup u = none := by
    rw [List.lookup_eq_none_iff]
    intro adjacency hmem
    rw [bne_iff_ne]
    rintro rfl
    exact hu (List.mem_map_of_mem hmem)
  unfold arcs roadsFrom
  rw [hnone]
  rfl

/-- The predecessors lead back along a shortest path. -/
theorem shortest_of_solved {net : TrafficNetwork} (hnet : net.WellFormed)
    (hmeasured : ∀ road ∈ net.roads, road.Measured) {source target : String}
    {τ : ShortestPaths.Search String ℚ}
    (hsolved : ShortestPaths.Solved net.arcs source target τ) {d : ℚ}
    (hd : τ.dist target = some d) {back : List String}
    (hback : ShortestPaths.BackPath τ.prev source target back) :
    net.Shortest source target back.reverse (.fin d) ∧
      net.Travel source target (.fin d) := by
  obtain ⟨times, hsum, hroute⟩ := hsolved.route hback hd
  refine ⟨?_, ?_⟩
  · exact
      { head := by
          rw [List.head?_reverse]
          exact hback.last
        last := by
          rw [List.getLast?_reverse]
          exact hback.head
        nodup := List.nodup_reverse.mpr hback.nodup
        hops := by
          refine ⟨times, by rw [hsum], ?_⟩
          exact hroute.hops.2.imp fun _ _ harc =>
            leastTime_of_leastArc hnet hmeasured harc
        minimal := by
          intro t travel hlt
          cases t with
          | fin a =>
              obtain ⟨d', hd', hle⟩ :=
                hsolved.least a ((travel_fin_iff hnet).mp travel)
              have hsame : d' = d := Option.some.inj (hd'.symm.trans hd)
              exact absurd (hsame ▸ hle) (not_le.mpr hlt)
          | negInf => exact travel.ne_negInf hmeasured rfl
          | nan => exact hlt
          | posInf => exact hlt }
  · rw [travel_fin_iff hnet, ← hsum]
    exact hroute.trip

theorem finish_answers {net : TrafficNetwork} (hnet : net.WellFormed)
    (hmeasured : ∀ road ∈ net.roads, road.Measured) {source target : String}
    (htarget : net.HasNode target) {τ : ShortestPaths.Search String ℚ}
    (hsolved : ShortestPaths.Solved net.arcs source target τ) :
    ∃ outcome, net.Answers source target outcome ∧
      ∃ rounds, ∀ fuel, rounds ≤ fuel → ∀ σ, net.Represents σ τ →
        finish fuel source target σ = some outcome := by
  have htotal : ∀ σ, net.Represents σ τ →
      subscript σ.dist target = .ok (distance (τ.dist target)) := by
    intro σ h
    unfold subscript
    rw [h.dist target htarget]
  cases hd : τ.dist target with
  | none =>
      have hnone : ¬ ∃ t : ℚ, net.Travel source target (.fin t) := by
        rintro ⟨t, travel⟩
        obtain ⟨d, hd', _⟩ := hsolved.least t ((travel_fin_iff hnet).mp travel)
        rw [hd] at hd'
        cases hd'
      refine ⟨.error (noPath source target),
        ⟨iff_of_true rfl hnone, fun hsome => absurd hsome hnone⟩, 0, ?_⟩
      intro fuel _ σ h
      unfold finish
      rw [htotal σ h, hd]
      exact if_pos rfl
  | some d =>
      obtain ⟨order, hnodup, hchained, hmem⟩ := hsolved.reached d hd
      obtain ⟨back, _, hback, hwalk⟩ := hchained.walkBack_eq hnodup hmem
      obtain ⟨hshortest, htravel⟩ :=
        shortest_of_solved hnet hmeasured hsolved hd hback
      refine ⟨.ok (back.reverse, .fin d), ⟨?_, ?_⟩, order.length, ?_⟩
      · exact iff_of_false nofun fun hnone => hnone ⟨d, htravel⟩
      · exact fun _ => ⟨back.reverse, .fin d, rfl, hshortest⟩
      · intro fuel hfuel σ h
        have hpath := reconstruct_eq h fuel htarget (hwalk fuel hfuel)
        unfold finish
        rw [htotal σ h, hd]
        dsimp only [distance]
        rw [if_neg nofun, hpath]
        rfl

/-- In a network with lengths that are not negative, the search ends, and its
answer is right. -/
theorem shortestPath_answers (calls : List NetworkCall)
    (hmeasured : ∀ road ∈ (build calls).roads, road.Measured)
    {source target : String} (hsource : (build calls).HasNode source)
    (htarget : (build calls).HasNode target) :
    ∃ outcome, (build calls).Answers source target outcome ∧
      ∃ rounds, ∀ fuel, rounds ≤ fuel →
        (build calls).shortestPath fuel source target = some outcome := by
  have hnet := wellFormed_build calls
  obtain ⟨final, hsolved, hrun⟩ := ShortestPaths.run_initial
    (fun n hn => arcs_eq_nil hn) (arcs_nonneg hnet hmeasured) source target
  have hstart := startSearch_represents hsource
  obtain ⟨outcome, hanswers, rounds, hfinish⟩ :=
    finish_answers hnet hmeasured htarget hsolved
  let arcsLeft : ℕ := ShortestPaths.remainingArcs (build calls).arcs
    ((build calls).edges.map Prod.fst) []
  refine ⟨outcome, hanswers, max (arcsLeft + 2) rounds, ?_⟩
  intro fuel hfuel
  have hsearch : arcsLeft + 2 ≤ fuel := (le_max_left _ _).trans hfuel
  obtain ⟨σ, hexplore, hrepresents⟩ :=
    explore_represents hnet hmeasured fuel hstart (hrun fuel hsearch)
  unfold shortestPath
  rw [if_neg (not_not.mpr hsource), if_neg (not_not.mpr htarget), hexplore]
  exact hfinish fuel ((le_max_right _ _).trans hfuel) σ hrepresents

/-- Three intersections, a closed road from A to B, and a way round it. -/
def detour : List NetworkCall :=
  [.addIntersection "A" (.float (.fin 0)) (.float (.fin 0)) ⟨[], nofun⟩,
    .addIntersection "B" (.float (.fin 0)) (.float (.fin 0)) ⟨[], nofun⟩,
    .addIntersection "C" (.float (.fin 0)) (.float (.fin 0)) ⟨[], nofun⟩,
    .addRoad "A" "B" (.int 500) (.int 0) (.int 1) ⟨[], nofun⟩,
    .addRoad "A" "C" (.int 100) (.int 36) (.int 1) ⟨[], nofun⟩,
    .addRoad "C" "B" (.float (.fin 0)) (.int 36) (.int 1) ⟨[], nofun⟩,
    .addRoad "C" "A" (.int 100) (.float .posInf) (.int 1) ⟨[], nofun⟩]

theorem detour_answers :
    ∃ outcome, (build detour).Answers "A" "B" outcome ∧
      ∃ rounds, ∀ fuel, rounds ≤ fuel →
        (build detour).shortestPath fuel "A" "B" = some outcome := by
  apply shortestPath_answers detour
  · intro road hroad
    fin_cases hroad
    · exact ⟨⟨.fin 500, rfl, by decide +kernel⟩, .fin 0, rfl⟩
    · exact ⟨⟨.fin 100, rfl, by decide +kernel⟩, .fin 36, rfl⟩
    · exact ⟨⟨.fin 0, rfl, by decide +kernel⟩, .fin 36, rfl⟩
    · exact ⟨⟨.fin 100, rfl, by decide +kernel⟩, .posInf, rfl⟩
  · decide
  · decide

example : (build detour).shortestPath 5 "A" "B" =
    some (.ok (["A", "C", "B"], .fin 10)) := by
  decide +kernel

end TrafficNetwork

end Semaforo
