import Semaforo.EmergencyPreemption
import Semaforo.UnorderedMap
import Mathlib.Tactic

/-!
# `NetworkGraphManager`

The topology file as a directed graph.  A two-way road adds an edge in either
direction, and an edge that is added again takes over the attributes of the
later road.  Every intersection identifier that JSON has is a node, except for
`null`.
-/

namespace Semaforo

/-- The attributes of an edge that are read back. -/
structure EdgeData where
  distanceM : PyJson
  speedLimitKmh : PyJson
  roadClass : PyJson

/-- A `networkx.DiGraph`, the nodes in insertion order. -/
structure DiGraph where
  nodes : List PyKey := []
  edges : UnorderedMap (PyKey × PyKey) EdgeData := UnorderedMap.empty

namespace DiGraph

def addNode (g : DiGraph) (n : PyKey) : DiGraph :=
  if n ∈ g.nodes then g else { g with nodes := g.nodes ++ [n] }

def addEdge (g : DiGraph) (u v : PyKey) (data : EdgeData) : DiGraph :=
  let g := (g.addNode u).addNode v
  { g with edges := g.edges.assign (u, v) data }

def HasEdge (g : DiGraph) (u v : PyKey) : Prop := (u, v) ∈ g.edges.keys

instance (g : DiGraph) (u v : PyKey) : Decidable (g.HasEdge u v) :=
  inferInstanceAs (Decidable ((u, v) ∈ g.edges.keys))

@[simp] theorem edges_addNode (g : DiGraph) (n : PyKey) :
    (g.addNode n).edges = g.edges := by
  unfold addNode
  split_ifs <;> rfl

@[simp] theorem edges_addEdge (g : DiGraph) (u v : PyKey) (data : EdgeData) :
    (g.addEdge u v data).edges = g.edges.assign (u, v) data := by
  unfold addEdge
  simp

end DiGraph

namespace NetworkGraphManager

/-- An entry of the road list. -/
structure RoadRecord where
  source : PyKey
  target : PyKey
  data : EdgeData
  oneWay : Bool

def noneNode : PyError := .valueError "None cannot be a node"

/-- The node that `add_node` and `add_edge` make of an identifier. -/
def nodeKey (identifier : PyJson) : Except PyError PyKey := do
  let key ← identifier.toKey
  if key = .null then throw noneNode else return key

def loadIntersection (g : DiGraph) (intersection : PyJson) :
    Except PyError DiGraph := do
  let identifier ← intersection.item "id"
  let _ ← identifier.toKey
  let _ ← intersection.get "name" (.str "")
  let location ← intersection.get "location" (.dict [])
  let _ ← location.get "latitude" (.float (.fin 0))
  let _ ← location.get "longitude" (.float (.fin 0))
  let node ← nodeKey identifier
  return g.addNode node

def readRoad (road : PyJson) : Except PyError RoadRecord := do
  let roadId ← road.item "id"
  let _ ← roadId.toKey
  let source ← road.item "source_id"
  let target ← road.item "target_id"
  let distanceM ← road.get "distance_m" (.float (.fin 0))
  let speedLimitKmh ← road.get "speed_limit_kmh" (.float (.fin 50))
  let roadClass ← road.get "road_class" (.str "secondary")
  let source ← nodeKey source
  let target ← nodeKey target
  let oneWay ← road.get "one_way" (.bool false)
  let data : EdgeData :=
    { distanceM := distanceM
      speedLimitKmh := speedLimitKmh
      roadClass := roadClass }
  return ⟨source, target, data, oneWay.truthy⟩

/-- The edge of a road and, if it is two-way, the reverse edge. -/
def addRoad (g : DiGraph) (road : RoadRecord) : DiGraph :=
  let g := g.addEdge road.source road.target road.data
  if road.oneWay then g else g.addEdge road.target road.source road.data

def loadRoad (g : DiGraph) (road : PyJson) : Except PyError DiGraph := do
  let record ← readRoad road
  return addRoad g record

/-- `_load_topology`, where `none` is a file that does not exist. -/
def loadTopology : Option PyJson → Except PyError DiGraph
  | none => .ok {}
  | some data => do
      let intersections ← (← data.get "intersections" (.list [])).iterate
      let g ← intersections.foldlM loadIntersection {}
      let roads ← (← data.get "roads" (.list [])).iterate
      roads.foldlM loadRoad g

def getEdgeDistance (reading : PyJson.FloatReading) (g : DiGraph)
    (source target : PyKey) : Except PyError (FloatValue ℚ) :=
  match g.edges.get? (source, target) with
  | some data => data.distanceM.toFloat reading
  | none => .ok (.fin 0)

def getEdgeSpeedLimit (reading : PyJson.FloatReading) (g : DiGraph)
    (source target : PyKey) : Except PyError (FloatValue ℚ) :=
  match g.edges.get? (source, target) with
  | some data => data.speedLimitKmh.toFloat reading
  | none => .ok (.fin 50)

/-! ## Which road an edge belongs to -/

/-- The entries of the road list of a file. -/
def listedRoads (data : PyJson) : Except PyError (List RoadRecord) := do
  let roads ← (← data.get "roads" (.list [])).iterate
  roads.mapM readRoad

/-- Adding the road writes the attributes of the edge. -/
def RoadRecord.Writes (road : RoadRecord) (edge : PyKey × PyKey) : Prop :=
  edge = (road.source, road.target) ∨
    road.oneWay = false ∧ edge = (road.target, road.source)

instance (road : RoadRecord) : DecidablePred road.Writes := fun edge =>
  inferInstanceAs (Decidable (edge = (road.source, road.target) ∨
    road.oneWay = false ∧ edge = (road.target, road.source)))

theorem get?_assign {κ β : Type} [DecidableEq κ] (m : UnorderedMap κ β)
    (k k' : κ) (v : β) :
    (m.assign k v).get? k' = if k' = k then some v else m.get? k' := by
  unfold UnorderedMap.get? UnorderedMap.assign
  dsimp only
  rw [List.find?_append]
  by_cases hk : k' = k
  · subst hk
    have hnone : (m.entries.filter (fun e => e.1 ≠ k')).find?
        (fun e => e.1 = k') = none := by
      rw [List.find?_eq_none]
      intro e he
      have hne := (List.mem_filter.mp he).2
      simpa using hne
    rw [hnone, if_pos rfl]
    simp
  · have hrest : (m.entries.filter (fun e => e.1 ≠ k)).find?
        (fun e => e.1 = k') = m.entries.find? (fun e => e.1 = k') := by
      rw [List.find?_filter]
      congr 1
      funext e
      by_cases he : e.1 = k'
      · simp [he, hk]
      · simp [he]
    rw [hrest, if_neg hk]
    have hlast : [(k, v)].find? (fun e => e.1 = k') = none := by
      simp [Ne.symm hk]
    rw [hlast, Option.or_none]

theorem get?_addRoad (g : DiGraph) (road : RoadRecord)
    (edge : PyKey × PyKey) :
    (addRoad g road).edges.get? edge =
      if road.Writes edge then some road.data else g.edges.get? edge := by
  unfold addRoad RoadRecord.Writes
  by_cases honeWay : road.oneWay = true
  · simp [honeWay, get?_assign]
  · have htwoWay : road.oneWay = false := Bool.not_eq_true _ ▸ honeWay
    by_cases hback : edge = (road.target, road.source)
    · simp [htwoWay, get?_assign, hback]
    · simp [htwoWay, get?_assign, hback]

theorem get?_addRoads (roads : List RoadRecord) (g : DiGraph)
    (edge : PyKey × PyKey) :
    (roads.foldl addRoad g).edges.get? edge =
      match roads.reverse.find? fun road => road.Writes edge with
      | some road => some road.data
      | none => g.edges.get? edge := by
  induction roads using List.reverseRecOn with
  | nil => rfl
  | append_singleton roads road ih =>
      rw [List.foldl_append, List.foldl_cons, List.foldl_nil, get?_addRoad, ih,
        List.reverse_append, List.reverse_singleton, List.singleton_append,
        List.find?_cons]
      by_cases hwrites : road.Writes edge
      · simp [hwrites]
      · simp [hwrites]

/-! ## Accepted files -/

theorem loadIntersection_edges {g after : DiGraph} {intersection : PyJson}
    (h : loadIntersection g intersection = .ok after) :
    after.edges = g.edges := by
  unfold loadIntersection at h
  simp only [bind_eq_ok] at h
  obtain ⟨_, _, _, _, _, _, _, _, _, _, _, _, node, _, hafter⟩ := h
  cases hafter
  exact DiGraph.edges_addNode g node

theorem loadIntersections_edges (intersections : List PyJson) :
    ∀ {g after : DiGraph},
      intersections.foldlM loadIntersection g = .ok after →
      after.edges = g.edges := by
  induction intersections with
  | nil =>
      intro g after h
      cases h
      rfl
  | cons intersection rest ih =>
      intro g after h
      rw [List.foldlM_cons] at h
      obtain ⟨next, hfirst, hrest⟩ := bind_eq_ok.mp h
      exact (ih hrest).trans (loadIntersection_edges hfirst)

theorem loadRoads_eq (roads : List PyJson) :
    ∀ {g after : DiGraph} {records : List RoadRecord},
      roads.foldlM loadRoad g = .ok after →
      roads.mapM readRoad = .ok records →
      after = records.foldl addRoad g := by
  induction roads with
  | nil =>
      intro g after records hload hread
      cases hload
      cases hread
      rfl
  | cons road rest ih =>
      intro g after records hload hread
      rw [List.foldlM_cons] at hload
      rw [List.mapM_cons] at hread
      obtain ⟨next, hnext, hload⟩ := bind_eq_ok.mp hload
      obtain ⟨record, hrecord, hread⟩ := bind_eq_ok.mp hread
      obtain ⟨others, hothers, hrecords⟩ := bind_eq_ok.mp hread
      cases hrecords
      unfold loadRoad at hnext
      rw [hrecord] at hnext
      cases hnext
      have hrest := ih hload hothers
      exact hrest

/-- The graph of an accepted file has the edges of its roads, added one after
the other. -/
theorem loadTopology_edges {data : PyJson} {g : DiGraph}
    {records : List RoadRecord} (hload : loadTopology (some data) = .ok g)
    (hlisted : listedRoads data = .ok records) :
    ∃ g₀ : DiGraph, g₀.edges = UnorderedMap.empty ∧
      g = records.foldl addRoad g₀ := by
  unfold loadTopology at hload
  unfold listedRoads at hlisted
  simp only [bind_eq_ok] at hload hlisted
  obtain ⟨_, _, _, _, g₀, hg₀, value, hvalue, roads, hroads, hg⟩ := hload
  obtain ⟨value', hvalue', roads', hroads', hrecords⟩ := hlisted
  rw [hvalue] at hvalue'
  cases hvalue'
  rw [hroads] at hroads'
  cases hroads'
  exact ⟨g₀, loadIntersections_edges _ hg₀, loadRoads_eq roads hg hrecords⟩

/-! ## Attributes of explicit roads -/

def RoadRecord.ends (road : RoadRecord) : PyKey × PyKey :=
  (road.source, road.target)

/-- The road that has written the edge of `road` last. -/
theorem edge_of_road {before after : List RoadRecord} {road : RoadRecord}
    (g₀ : DiGraph) :
    ((before ++ road :: after).foldl addRoad g₀).edges.get? road.ends =
      some (((after.reverse.find? fun later => later.Writes road.ends).getD
        road).data) := by
  rw [get?_addRoads, List.reverse_append, List.reverse_cons,
    List.append_assoc, List.find?_append]
  cases after.reverse.find? fun later => later.Writes road.ends with
  | some later => rfl
  | none =>
      have hwrites : road.Writes road.ends := Or.inl rfl
      simp [hwrites]

theorem pairwise_iff_split {ι : Type} {r : ι → ι → Prop} (items : List ι) :
    items.Pairwise r ↔ ∀ before x after, items = before ++ x :: after →
      ∀ y ∈ after, r x y := by
  constructor
  · rintro hpairwise before x after rfl y hy
    rw [List.pairwise_append, List.pairwise_cons] at hpairwise
    exact hpairwise.2.1.1 y hy
  · intro hsplit
    induction items with
    | nil => exact List.Pairwise.nil
    | cons x rest ih =>
        rw [List.pairwise_cons]
        refine ⟨fun y hy => hsplit [] x rest rfl y hy, ih ?_⟩
        intro before x' after heq y hy
        exact hsplit (x :: before) x' after (by rw [heq]; rfl) y hy

/-- A later road that writes to the edge of a road is two-way and goes in the
opposite direction. -/
theorem opposite_of_writes {before after : List RoadRecord}
    {road later : RoadRecord}
    (hdistinct : ((before ++ road :: after).map RoadRecord.ends).Nodup)
    (hlater : later ∈ after) (hwrites : later.Writes road.ends) :
    later.oneWay = false ∧ later.source = road.target ∧
      later.target = road.source := by
  cases hwrites with
  | inl hsame =>
      rw [List.map_append, List.map_cons, List.nodup_append,
        List.nodup_cons] at hdistinct
      exact absurd (List.mem_map.mpr ⟨later, hlater, hsame.symm⟩)
        hdistinct.2.1.1
  | inr hback =>
      obtain ⟨htwoWay, hback⟩ := hback
      have hfst : road.source = later.target := congrArg Prod.fst hback
      have hsnd : road.target = later.source := congrArg Prod.snd hback
      exact ⟨htwoWay, hsnd.symm, hfst.symm⟩

theorem mem_of_find_reverse {after : List RoadRecord} {road last : RoadRecord}
    (hfind : after.reverse.find? (fun w => w.Writes road.ends) = some last) :
    last ∈ after ∧ last.Writes road.ends := by
  refine ⟨List.mem_reverse.mp (List.mem_of_find?_eq_some hfind), ?_⟩
  simpa using List.find?_some hfind

/-- The value that is read for the edge of every road is the road's own exactly
if no later two-way road of the opposite direction has another one. -/
theorem own_value_iff {β : Type} (value : EdgeData → β)
    {records : List RoadRecord} (g₀ : DiGraph)
    (hdistinct : (records.map RoadRecord.ends).Nodup) :
    (∀ road ∈ records,
      ((records.foldl addRoad g₀).edges.get? road.ends).map value =
        some (value road.data)) ↔
      records.Pairwise fun road later => later.oneWay = false →
        later.source = road.target → later.target = road.source →
        value later.data = value road.data := by
  rw [pairwise_iff_split]
  constructor
  · rintro hown before road after rfl later hlater htwoWay hsource htarget
    have hroad := hown road (by simp)
    rw [edge_of_road, Option.map_some, Option.some.injEq] at hroad
    rw [← hroad]
    have hwrites : later.Writes road.ends := by
      right
      refine ⟨htwoWay, ?_⟩
      rw [hsource, htarget]
      rfl
    have hsome : (after.reverse.find? fun w => w.Writes road.ends).isSome := by
      rw [List.find?_isSome]
      exact ⟨later, List.mem_reverse.mpr hlater, by simpa using hwrites⟩
    obtain ⟨last, hlast⟩ := Option.isSome_iff_exists.mp hsome
    obtain ⟨hmem, hlastWrites⟩ := mem_of_find_reverse hlast
    obtain ⟨_, hsource', htarget'⟩ :=
      opposite_of_writes hdistinct hmem hlastWrites
    have hends : last.ends = later.ends := by
      unfold RoadRecord.ends
      rw [hsource, htarget, hsource', htarget']
    have hafter : (after.map RoadRecord.ends).Nodup := by
      rw [List.map_append, List.map_cons, List.nodup_append,
        List.nodup_cons] at hdistinct
      exact hdistinct.2.1.2
    rw [List.inj_on_of_nodup_map hafter hmem hlater hends] at hlast
    rw [hlast]
    rfl
  · intro hlater road hroad
    obtain ⟨before, after, rfl⟩ := List.append_of_mem hroad
    rw [edge_of_road, Option.map_some, Option.some.injEq]
    cases hfind : after.reverse.find? fun later => later.Writes road.ends with
    | none => rfl
    | some last =>
        obtain ⟨hmem, hwrites⟩ := mem_of_find_reverse hfind
        obtain ⟨htwoWay, hsource, htarget⟩ :=
          opposite_of_writes hdistinct hmem hwrites
        exact hlater before road after rfl last hmem htwoWay hsource htarget

/-- The distance and the speed limit of every listed road are its own exactly
if no later two-way road of the opposite direction has others. -/
theorem explicit_attributes_iff (reading : PyJson.FloatReading)
    {data : PyJson} {g : DiGraph} {records : List RoadRecord}
    (hload : loadTopology (some data) = .ok g)
    (hlisted : listedRoads data = .ok records)
    (hdistinct : (records.map fun road => (road.source, road.target)).Nodup) :
    (∀ road ∈ records,
      getEdgeDistance reading g road.source road.target =
        road.data.distanceM.toFloat reading ∧
      getEdgeSpeedLimit reading g road.source road.target =
        road.data.speedLimitKmh.toFloat reading) ↔
      records.Pairwise fun road later => later.oneWay = false →
        later.source = road.target → later.target = road.source →
        later.data.distanceM.toFloat reading =
            road.data.distanceM.toFloat reading ∧
          later.data.speedLimitKmh.toFloat reading =
            road.data.speedLimitKmh.toFloat reading := by
  obtain ⟨g₀, _, rfl⟩ := loadTopology_edges hload hlisted
  have hiff := own_value_iff (fun d => (d.distanceM.toFloat reading,
    d.speedLimitKmh.toFloat reading)) g₀ hdistinct
  simp only [Prod.mk.injEq] at hiff
  rw [← hiff]
  have hroads : ∀ road ∈ records, ∃ d,
      (records.foldl addRoad g₀).edges.get? (road.source, road.target) =
        some d := by
    intro road hroad
    obtain ⟨before, after, rfl⟩ := List.append_of_mem hroad
    exact ⟨_, edge_of_road g₀⟩
  constructor
  · intro hown road hroad
    obtain ⟨d, hd⟩ := hroads road hroad
    obtain ⟨hdistance, hspeed⟩ := hown road hroad
    unfold getEdgeDistance at hdistance
    unfold getEdgeSpeedLimit at hspeed
    rw [hd] at hdistance hspeed
    unfold RoadRecord.ends
    rw [hd, Option.map_some, Option.some.injEq, Prod.mk.injEq]
    exact ⟨hdistance, hspeed⟩
  · intro hown road hroad
    obtain ⟨d, hd⟩ := hroads road hroad
    have hvalues := hown road hroad
    unfold RoadRecord.ends at hvalues
    rw [hd, Option.map_some, Option.some.injEq, Prod.mk.injEq] at hvalues
    unfold getEdgeDistance getEdgeSpeedLimit
    rw [hd]
    exact hvalues

/-- A topology file with a list of roads and nothing else. -/
def roadFile (roads : List PyJson) : PyJson := .dict [("roads", .list roads)]

def roadEntry (identifier source target : String) (distanceM : ℤ)
    (oneWay : Bool) : PyJson :=
  .dict
    [("id", .str identifier), ("source_id", .str source),
      ("target_id", .str target), ("distance_m", .int distanceM),
      ("one_way", .bool oneWay)]

def exactReading : PyJson.FloatReading where
  ofInt i := .ok (.fin i)
  ofText s := .error (.valueError
    ("could not convert string to float: '" ++ s ++ "'"))

def recordOf (source target : String) (distanceM : ℤ) (oneWay : Bool) :
    RoadRecord where
  source := .str source
  target := .str target
  data :=
    { distanceM := .int distanceM
      speedLimitKmh := .float (.fin 50)
      roadClass := .str "secondary" }
  oneWay := oneWay

/-- A one-way road and the two-way road in the other direction behind it. -/
def overwritingFile : PyJson :=
  roadFile [roadEntry "r1" "B" "A" 100 true, roadEntry "r2" "A" "B" 200 false]

theorem reverse_edge_overwrites :
    ∃ g, loadTopology (some overwritingFile) = .ok g ∧
      listedRoads overwritingFile =
        .ok [recordOf "B" "A" 100 true, recordOf "A" "B" 200 false] ∧
      getEdgeDistance exactReading g (.str "B") (.str "A") = .ok (.fin 200) ∧
      ¬ ∀ road ∈ [recordOf "B" "A" 100 true, recordOf "A" "B" 200 false],
        getEdgeDistance exactReading g road.source road.target =
          road.data.distanceM.toFloat exactReading := by
  refine ⟨_, rfl, rfl, rfl, ?_⟩
  intro hown
  have hfirst := hown (recordOf "B" "A" 100 true) (List.mem_cons_self ..)
  revert hfirst
  decide +kernel

/-- The same two roads the other way round. -/
def survivingFile : PyJson :=
  roadFile [roadEntry "r2" "A" "B" 200 false, roadEntry "r1" "B" "A" 100 true]

theorem survivingFile_attributes :
    ∃ g, loadTopology (some survivingFile) = .ok g ∧
      ((∀ road ∈ [recordOf "A" "B" 200 false, recordOf "B" "A" 100 true],
        getEdgeDistance exactReading g road.source road.target =
          road.data.distanceM.toFloat exactReading ∧
        getEdgeSpeedLimit exactReading g road.source road.target =
          road.data.speedLimitKmh.toFloat exactReading) ↔
        [recordOf "A" "B" 200 false, recordOf "B" "A" 100 true].Pairwise
          fun road later => later.oneWay = false →
            later.source = road.target → later.target = road.source →
            later.data.distanceM.toFloat exactReading =
                road.data.distanceM.toFloat exactReading ∧
              later.data.speedLimitKmh.toFloat exactReading =
                road.data.speedLimitKmh.toFloat exactReading) := by
  have hlisted : listedRoads survivingFile =
      .ok [recordOf "A" "B" 200 false, recordOf "B" "A" 100 true] := rfl
  exact ⟨_, rfl, explicit_attributes_iff exactReading rfl hlisted (by decide)⟩

end NetworkGraphManager

end Semaforo
