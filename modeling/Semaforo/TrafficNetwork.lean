import Semaforo.PyJson
import Mathlib.Tactic

/-!
# The traffic network of the Brain

`TrafficNetwork` of `brain/src/coordination/graph_model.py` with its two adding
methods, its writer and its reader.  The file is the JSON document that it
holds: the attributes and the metadata are values that JSON represents, and
`json.load` gives back what `json.dump` has written.  Node identifiers are
strings.
-/

namespace Semaforo

def addIntersectionParameters : List String := ["self", "node_id", "lat", "lon"]

def addRoadParameters : List String :=
  ["self", "source", "target", "length_m", "speed_limit_kmh", "lanes"]

structure IntersectionNode where
  id : String
  lat : PyJson
  lon : PyJson
  metadata : Keywords addIntersectionParameters

structure RoadEdge where
  source : String
  target : String
  lengthM : PyJson
  speedLimitKmh : PyJson
  lanes : PyJson
  metadata : Keywords addRoadParameters

/-- The two dictionaries, in insertion order. -/
structure TrafficNetwork where
  nodes : List (String × IntersectionNode) := []
  edges : List (String × List RoadEdge) := []

/-- `d[key] = value`. -/
def assign {β : Type} : List (String × β) → String → β → List (String × β)
  | [], key, value => [(key, value)]
  | (k, v) :: d, key, value =>
      if k = key then (k, value) :: d else (k, v) :: assign d key value

/-- `d.setdefault(key, value)`. -/
def setDefault {β : Type} (d : List (String × β)) (key : String) (value : β) :
    List (String × β) :=
  if (d.lookup key).isSome then d else d ++ [(key, value)]

namespace TrafficNetwork

def addIntersection (net : TrafficNetwork) (nodeId : String) (lat lon : PyJson)
    (metadata : Keywords addIntersectionParameters) : TrafficNetwork :=
  { nodes := assign net.nodes nodeId
      { id := nodeId, lat := lat, lon := lon, metadata := metadata }
    edges := setDefault net.edges nodeId [] }

def addRoad (net : TrafficNetwork) (source target : String)
    (lengthM speedLimitKmh lanes : PyJson)
    (metadata : Keywords addRoadParameters) : Except PyError TrafficNetwork :=
  if (net.nodes.lookup source).isNone then
    .error (.keyError ("Source node '" ++ source ++ "' not found."))
  else if (net.nodes.lookup target).isNone then
    .error (.keyError ("Target node '" ++ target ++ "' not found."))
  else
    let edge : RoadEdge :=
      { source := source, target := target, lengthM := lengthM
        speedLimitKmh := speedLimitKmh, lanes := lanes, metadata := metadata }
    .ok { net with
      edges := net.edges.map fun adjacency =>
        if adjacency.1 = source then (adjacency.1, adjacency.2 ++ [edge])
        else adjacency }

end TrafficNetwork

/-! ## Writing -/

def IntersectionNode.asdict (node : IntersectionNode) : PyObject :=
  [("id", .str node.id), ("lat", node.lat), ("lon", node.lon),
    ("metadata", .dict node.metadata.1)]

def RoadEdge.asdict (edge : RoadEdge) : PyObject :=
  [("source", .str edge.source), ("target", .str edge.target),
    ("length_m", edge.lengthM), ("speed_limit_kmh", edge.speedLimitKmh),
    ("lanes", edge.lanes), ("metadata", .dict edge.metadata.1)]

namespace TrafficNetwork

def toDict (net : TrafficNetwork) : PyObject :=
  [("nodes", .list (net.nodes.map fun node => .dict node.2.asdict)),
    ("edges", .list (net.edges.flatMap fun adjacency =>
      adjacency.2.map fun edge => .dict edge.asdict))]

def save (net : TrafficNetwork) : PyJson := .dict net.toDict

end TrafficNetwork

/-! ## Reading -/

/-- An identifier read from a file. -/
def identifier : PyJson → Except PyError String
  | .str s => .ok s
  | x => .error (.typeError ("identifier of type " ++ x.typeName))

namespace TrafficNetwork

/-- `net.add_intersection(**keywords)`. -/
def callAddIntersection (net : TrafficNetwork) (keywords : PyObject) :
    Except PyError TrafficNetwork := do
  keywords.bindMethod "TrafficNetwork.add_intersection()" ["node_id"]
  let nodeId ← identifier (keywords.get "node_id" .null)
  return net.addIntersection nodeId
    (keywords.get "lat" (.float (.fin 0)))
    (keywords.get "lon" (.float (.fin 0)))
    (keywords.rest addIntersectionParameters)

/-- `net.add_road(**keywords)`. -/
def callAddRoad (net : TrafficNetwork) (keywords : PyObject) :
    Except PyError TrafficNetwork := do
  keywords.bindMethod "TrafficNetwork.add_road()" ["source", "target"]
  let source ← identifier (keywords.get "source" .null)
  let target ← identifier (keywords.get "target" .null)
  net.addRoad source target
    (keywords.get "length_m" (.float (.fin 0)))
    (keywords.get "speed_limit_kmh" (.float (.fin 50)))
    (keywords.get "lanes" (.int 1))
    (keywords.rest addRoadParameters)

/-- The body of the two loops of `load`, for the method that it calls. -/
def replayEntry (function : String)
    (method : TrafficNetwork → PyObject → Except PyError TrafficNetwork)
    (net : TrafficNetwork) : PyJson → Except PyError TrafficNetwork
  | .dict data => do
      let (metadata, data) := PyObject.pop data "metadata" (.dict [])
      let keywords ← PyObject.merge
        ("src.coordination.graph_model." ++ function) data metadata
      method net keywords
  | .list _ => .error (.typeError "pop expected at most 1 argument, got 2")
  | x => .error (x.noAttribute "pop")

def loadNode : TrafficNetwork → PyJson → Except PyError TrafficNetwork :=
  replayEntry "TrafficNetwork.add_intersection()" callAddIntersection

def loadRoad : TrafficNetwork → PyJson → Except PyError TrafficNetwork :=
  replayEntry "TrafficNetwork.add_road()" callAddRoad

def load (file : PyJson) : Except PyError TrafficNetwork := do
  let nodes ← (← file.get "nodes" (.list [])).iterate
  let net ← nodes.foldlM loadNode {}
  let edges ← (← file.get "edges" (.list [])).iterate
  edges.foldlM loadRoad net

end TrafficNetwork

/-! ## Networks built by calls -/

inductive NetworkCall where
  | addIntersection (nodeId : String) (lat lon : PyJson)
      (metadata : Keywords addIntersectionParameters)
  | addRoad (source target : String) (lengthM speedLimitKmh lanes : PyJson)
      (metadata : Keywords addRoadParameters)

namespace NetworkCall

def AddsIntersection : NetworkCall → Prop
  | addIntersection .. => True
  | addRoad .. => False

end NetworkCall

namespace TrafficNetwork

/-- A call that raises leaves the network as it is. -/
def perform (net : TrafficNetwork) : NetworkCall → TrafficNetwork
  | .addIntersection nodeId lat lon metadata =>
      net.addIntersection nodeId lat lon metadata
  | .addRoad source target lengthM speedLimitKmh lanes metadata =>
      match net.addRoad source target lengthM speedLimitKmh lanes metadata with
      | .ok net => net
      | .error _ => net

def build (calls : List NetworkCall) : TrafficNetwork :=
  calls.foldl perform {}

/-- Reading the written file gives a network with the same nodes, metadata
included, and the same roads at each node in the same order. -/
def RoundTrips (net : TrafficNetwork) : Prop :=
  ∃ loaded, load net.save = .ok loaded ∧
    (∀ id, loaded.nodes.lookup id = net.nodes.lookup id) ∧
    ∀ id, loaded.edges.lookup id = net.edges.lookup id

/-! ### Roads -/

/-- The reader of the roads inverts their writer: the entry of a road replays
the call that has added it. -/
theorem loadRoad_asdict (net : TrafficNetwork) (edge : RoadEdge) :
    loadRoad net (.dict edge.asdict) =
      net.addRoad edge.source edge.target edge.lengthM edge.speedLimitKmh
        edge.lanes edge.metadata := by
  let own : PyObject :=
    [("source", .str edge.source), ("target", .str edge.target),
      ("length_m", edge.lengthM), ("speed_limit_kmh", edge.speedLimitKmh),
      ("lanes", edge.lanes)]
  have hpop : PyObject.pop edge.asdict "metadata" (.dict []) =
      (.dict edge.metadata.1, own) := rfl
  have hown : ∀ m ∈ own, m.1 ∈ addRoadParameters := by
    simp [own, addRoadParameters]
  have hself : PyObject.hasKey (own ++ edge.metadata.1) "self" = false := by
    rw [PyObject.hasKey_append,
      PyObject.hasKey_keywords edge.metadata (by decide), Bool.or_false]
    rfl
  have hrequired : ∀ p ∈ ["source", "target"],
      PyObject.hasKey (own ++ edge.metadata.1) p = true := by
    intro p hp
    rw [PyObject.hasKey_append]
    have hpresent : PyObject.hasKey own p = true := by
      fin_cases hp <;> rfl
    rw [hpresent, Bool.true_or]
  unfold loadRoad replayEntry
  simp only [hpop]
  rw [PyObject.merge_keywords hown]
  change callAddRoad net (own ++ edge.metadata.1) = _
  unfold callAddRoad
  rw [PyObject.rest_append hown, PyObject.bindMethod_eq_ok hself hrequired]
  rfl

/-! ### Intersections -/

/-- The writer of an intersection calls its identifier by the name of the
field, the reader expects the name of the parameter. -/
theorem loadNode_asdict (net : TrafficNetwork) (node : IntersectionNode) :
    ∃ e, loadNode net (.dict node.asdict) = .error e := by
  let own : PyObject :=
    [("id", .str node.id), ("lat", node.lat), ("lon", node.lon)]
  have hpop : PyObject.pop node.asdict "metadata" (.dict []) =
      (.dict node.metadata.1, own) := rfl
  have habsent : ∀ p ∈ ["self", "node_id"],
      PyObject.hasKey (own ++ node.metadata.1) p = false := by
    intro p hp
    rw [PyObject.hasKey_append,
      PyObject.hasKey_keywords node.metadata (by fin_cases hp <;> decide),
      Bool.or_false]
    fin_cases hp <;> rfl
  unfold loadNode replayEntry
  simp only [hpop, PyObject.merge]
  cases node.metadata.1.find? fun m => PyObject.hasKey own m.1 with
  | some m => exact ⟨_, rfl⟩
  | none =>
      change ∃ e, callAddIntersection net (own ++ node.metadata.1) = .error e
      unfold callAddIntersection
      rw [PyObject.bindMethod_eq_error (habsent "self" (by simp))
        (habsent "node_id" (by simp))]
      exact ⟨_, rfl⟩

theorem load_save_eq_error {net : TrafficNetwork} (hnodes : net.nodes ≠ []) :
    ∃ e, load net.save = .error e := by
  obtain ⟨node, nodes, hcons⟩ := List.exists_cons_of_ne_nil hnodes
  obtain ⟨e, he⟩ := loadNode_asdict {} node.2
  refine ⟨e, ?_⟩
  let documents : List PyJson := net.nodes.map fun node => .dict node.2.asdict
  let roads : List PyJson := net.edges.flatMap fun adjacency =>
    adjacency.2.map fun edge => .dict edge.asdict
  have hfold : documents.foldlM loadNode {} = .error e := by
    change (net.nodes.map _).foldlM loadNode {} = _
    rw [hcons, List.map_cons, List.foldlM_cons, he]
    rfl
  change (documents.foldlM loadNode {} >>= roads.foldlM loadRoad) = _
  rw [hfold]
  rfl

theorem roundTrips_empty : RoundTrips {} :=
  ⟨{}, rfl, fun _ => rfl, fun _ => rfl⟩

theorem assign_ne_nil {β : Type} (d : List (String × β)) (key : String)
    (value : β) : assign d key value ≠ [] := by
  cases d with
  | nil => exact List.cons_ne_nil _ _
  | cons m d =>
      unfold assign
      split_ifs <;> exact List.cons_ne_nil _ _

theorem nodes_addRoad {net loaded : TrafficNetwork} {source target : String}
    {lengthM speedLimitKmh lanes : PyJson}
    {metadata : Keywords addRoadParameters}
    (hload : net.addRoad source target lengthM speedLimitKmh lanes metadata =
      .ok loaded) : loaded.nodes = net.nodes := by
  unfold addRoad at hload
  split_ifs at hload
  cases hload
  rfl

theorem perform_nodes_ne_nil {net : TrafficNetwork} (hnodes : net.nodes ≠ [])
    (call : NetworkCall) : (net.perform call).nodes ≠ [] := by
  cases call with
  | addIntersection nodeId lat lon metadata => exact assign_ne_nil _ _ _
  | addRoad source target lengthM speedLimitKmh lanes metadata =>
      simp only [perform]
      split
      · rename_i loaded hloaded
        rw [nodes_addRoad hloaded]
        exact hnodes
      · exact hnodes

theorem foldl_nodes_ne_nil {net : TrafficNetwork} (hnodes : net.nodes ≠ [])
    (calls : List NetworkCall) : (calls.foldl perform net).nodes ≠ [] := by
  induction calls generalizing net with
  | nil => exact hnodes
  | cons call calls ih => exact ih (perform_nodes_ne_nil hnodes call)

theorem build_nodes_ne_nil {calls : List NetworkCall} {call : NetworkCall}
    (hcall : call ∈ calls) (hadds : call.AddsIntersection) :
    (build calls).nodes ≠ [] := by
  obtain ⟨before, after, rfl⟩ := List.append_of_mem hcall
  unfold build
  rw [List.foldl_append, List.foldl_cons]
  apply foldl_nodes_ne_nil
  cases call with
  | addIntersection nodeId lat lon metadata => exact assign_ne_nil _ _ _
  | addRoad source target lengthM speedLimitKmh lanes metadata =>
      exact absurd hadds id

theorem build_eq_empty {calls : List NetworkCall}
    (hcalls : ∀ call ∈ calls, ¬ call.AddsIntersection) : build calls = {} := by
  unfold build
  induction calls with
  | nil => rfl
  | cons call calls ih =>
      have hcall : perform {} call = {} := by
        cases call with
        | addIntersection nodeId lat lon metadata =>
            exact absurd trivial (hcalls _ List.mem_cons_self)
        | addRoad source target lengthM speedLimitKmh lanes metadata => rfl
      rw [List.foldl_cons, hcall]
      exact ih fun c hc => hcalls c (List.mem_cons_of_mem _ hc)

/-- A saved network can be loaded again exactly if it has no intersection. -/
theorem roundTrips_build_iff (calls : List NetworkCall) :
    RoundTrips (build calls) ↔ ∀ call ∈ calls, ¬ call.AddsIntersection := by
  constructor
  · rintro ⟨loaded, hload, -, -⟩ call hcall hadds
    obtain ⟨e, he⟩ := load_save_eq_error (build_nodes_ne_nil hcall hadds)
    rw [he] at hload
    cases hload
  · intro hcalls
    rw [build_eq_empty hcalls]
    exact roundTrips_empty

theorem one_intersection_not_loaded :
    load (build [.addIntersection "A" (.float (.fin 0)) (.float (.fin 0))
        ⟨[], nofun⟩]).save =
      .error (.typeError ("TrafficNetwork.add_intersection() missing 1 " ++
        "required positional argument: 'node_id'")) ∧
      ¬ RoundTrips (build [.addIntersection "A" (.float (.fin 0))
        (.float (.fin 0)) ⟨[], nofun⟩]) := by
  have hload : load (build [.addIntersection "A" (.float (.fin 0))
        (.float (.fin 0)) ⟨[], nofun⟩]).save =
      .error (.typeError ("TrafficNetwork.add_intersection() missing 1 " ++
        "required positional argument: 'node_id'")) := rfl
  refine ⟨hload, ?_⟩
  rintro ⟨loaded, hloaded, -, -⟩
  rw [hload] at hloaded
  cases hloaded

end TrafficNetwork

end Semaforo
