import Semaforo.GraphManager
import Mathlib.Data.List.Sort
import Mathlib.Tactic

/-!
# Corridors

`NetworkGraphManager.identify_corridors`.  A component of the primary roads
gives the shortest path from its first to its last endpoint; without two
endpoints, or without a path, it gives its identifiers in sorted order.  The
algorithms of `networkx` are a parameter.
-/

namespace Semaforo

namespace DiGraph

def subgraph (g : DiGraph) (component : List PyKey) : DiGraph where
  nodes := g.nodes.filter (· ∈ component)
  edges :=
    { entries := g.edges.entries.filter fun e =>
        e.1.1 ∈ component ∧ e.1.2 ∈ component
      nodup := g.edges.keys_filter_nodup _ }

def inDegree (g : DiGraph) (n : PyKey) : ℕ :=
  g.edges.keys.countP fun e => e.2 = n

def outDegree (g : DiGraph) (n : PyKey) : ℕ :=
  g.edges.keys.countP fun e => e.1 = n

end DiGraph

namespace NetworkGraphManager

/-- What `nx.shortest_path` does. -/
inductive PathSearch where
  | path (nodes : List PyKey)
  | noPath
  | raised (error : PyError)
  deriving DecidableEq, Repr

/-- The functions of `networkx`: the components of a graph, each a set in some
order, the order in which the nodes of a graph view are walked, and the shortest
path between two nodes by `distance_m`. -/
structure NetworkX where
  weaklyConnectedComponents : DiGraph → List (List PyKey)
  nodes : DiGraph → List PyKey
  shortestPath : DiGraph → PyKey → PyKey → PathSearch

def notComparable : PyError :=
  .typeError "'<' not supported between instances of these types"

/-- Not `y < x`, for two strings or two numbers. -/
def inOrder : PyKey → PyKey → Bool
  | .number x, .number y => ¬ y < x
  | .str x, .str y => ¬ y < x
  | _, _ => true

def isStr : PyKey → Bool
  | .str _ => true
  | _ => false

def isNumber : PyKey → Bool
  | .number _ => true
  | _ => false

/-- `sorted(keys)`. -/
def sorted (keys : List PyKey) : Except PyError (List PyKey) :=
  if keys.length < 2 ∨ keys.all isStr = true ∨ keys.all isNumber = true then
    .ok (keys.insertionSort fun x y => inOrder x y = true)
  else .error notComparable

def isPrimary (data : EdgeData) : Bool :=
  match data.roadClass with
  | .str roadClass => roadClass = "primary"
  | _ => false

/-- The primary roads, or all roads if none is primary. -/
def primaryEdges (g : DiGraph) : UnorderedMap (PyKey × PyKey) EdgeData :=
  let primary := g.edges.eraseIf fun data => !isPrimary data
  if primary.entries.isEmpty then g.edges else primary

/-- The subgraph of the primary edges. -/
def primaryGraph (g : DiGraph) : DiGraph where
  nodes := g.nodes.filter fun n =>
    (primaryEdges g).keys.any fun e => e.1 = n ∨ e.2 = n
  edges := primaryEdges g

def endpoints (nx : NetworkX) (sub : DiGraph) : List PyKey :=
  (nx.nodes sub).filter fun n => sub.inDegree n = 0 ∨ sub.outDegree n = 0

/-- From the first endpoint to the last. -/
def endpointPath (nx : NetworkX) (sub : DiGraph) : PathSearch :=
  match endpoints nx sub with
  | first :: next :: rest =>
      nx.shortestPath sub first
        ((next :: rest).getLast (List.cons_ne_nil next rest))
  | _ => .noPath

def corridorOf (nx : NetworkX) (primary : DiGraph) (component : List PyKey) :
    Except PyError (Option (List PyKey)) :=
  match endpointPath nx (primary.subgraph component) with
  | .path nodes => .ok (some nodes)
  | .raised e => .error e
  | .noPath =>
      if component.isEmpty then .ok none
      else do
        let corridor ← sorted component
        return some corridor

/-- The loop over the components. -/
def corridorsOf (nx : NetworkX) (primary : DiGraph) :
    List (List PyKey) → Except PyError (List (List PyKey))
  | [] => .ok []
  | component :: components => do
      let corridor ← corridorOf nx primary component
      let corridors ← corridorsOf nx primary components
      return corridor.toList ++ corridors

def identifyCorridors (nx : NetworkX) (g : DiGraph) :
    Except PyError (List (List PyKey)) :=
  let primary := primaryGraph g
  corridorsOf nx primary (nx.weaklyConnectedComponents primary)

/-! ## What is expected of `networkx` -/

/-- A path of a graph without repeated nodes. -/
structure SimplePath (g : DiGraph) (source target : PyKey)
    (nodes : List PyKey) : Prop where
  nodup : nodes.Nodup
  head : nodes.head? = some source
  last : nodes.getLast? = some target
  edges : nodes.IsChain g.HasEdge

/-- The functions behave as documented on a graph. -/
structure Documented (nx : NetworkX) (g : DiGraph) : Prop where
  components_nodup : ∀ component ∈ nx.weaklyConnectedComponents g,
    component.Nodup
  components_disjoint :
    (nx.weaklyConnectedComponents g).Pairwise List.Disjoint
  nodes_perm : ∀ component ∈ nx.weaklyConnectedComponents g,
    (nx.nodes (g.subgraph component)).Perm component
  shortestPath_path : ∀ component ∈ nx.weaklyConnectedComponents g,
    ∀ source target nodes,
      nx.shortestPath (g.subgraph component) source target = .path nodes →
      SimplePath (g.subgraph component) source target nodes

/-- Distinct intersections, joined one after the other by edges, and no
intersection in two corridors. -/
structure RealPaths (g : DiGraph) (corridors : List (List PyKey)) : Prop where
  nodup : ∀ corridor ∈ corridors, corridor.Nodup
  edges : ∀ corridor ∈ corridors, corridor.IsChain g.HasEdge
  disjoint : corridors.Pairwise List.Disjoint

/-! ## Edges of a subgraph -/

theorem hasEdge_subgraph {g : DiGraph} {component : List PyKey} {u v : PyKey} :
    (g.subgraph component).HasEdge u v ↔
      g.HasEdge u v ∧ u ∈ component ∧ v ∈ component := by
  unfold DiGraph.HasEdge DiGraph.subgraph
  rw [UnorderedMap.mem_keys, UnorderedMap.mem_keys]
  constructor
  · rintro ⟨data, hdata⟩
    obtain ⟨hmem, hboth⟩ := List.mem_filter.mp hdata
    have hends : u ∈ component ∧ v ∈ component := of_decide_eq_true hboth
    exact ⟨⟨data, hmem⟩, hends⟩
  · rintro ⟨⟨data, hmem⟩, hends⟩
    exact ⟨data, List.mem_filter.mpr ⟨hmem, decide_eq_true hends⟩⟩

theorem hasEdge_of_primary {g : DiGraph} {u v : PyKey}
    (h : (primaryGraph g).HasEdge u v) : g.HasEdge u v := by
  unfold DiGraph.HasEdge primaryGraph primaryEdges at h
  dsimp only at h
  split_ifs at h with hnone
  · exact h
  · obtain ⟨data, hdata⟩ := UnorderedMap.mem_keys.mp h
    exact UnorderedMap.mem_keys_of_mem (List.mem_filter.mp hdata).1

/-- A path of the subgraph of a component stays in the component. -/
theorem path_subset {g : DiGraph} {component nodes : List PyKey}
    {source : PyKey} (hsource : source ∈ component)
    (hhead : nodes.head? = some source)
    (hedges : nodes.IsChain (g.subgraph component).HasEdge) :
    nodes ⊆ component := by
  induction nodes generalizing source with
  | nil =>
      intro n hn
      cases hn
  | cons first rest ih =>
      have hfirst : first = source := Option.some.inj hhead
      intro n hn
      rcases List.mem_cons.mp hn with heq | hmem
      · rw [heq, hfirst]
        exact hsource
      · cases rest with
        | nil => cases hmem
        | cons second rest =>
            obtain ⟨hedge, hrest⟩ := List.isChain_cons_cons.mp hedges
            exact ih (hasEdge_subgraph.mp hedge).2.2 rfl hrest hmem

theorem sorted_perm {keys ids : List PyKey} (h : sorted keys = .ok ids) :
    ids.Perm keys := by
  unfold sorted at h
  split_ifs at h
  cases h
  exact List.perm_insertionSort _ keys

/-! ## One component -/

/-- The endpoints of the component give no path. -/
def FallsBack (nx : NetworkX) (primary : DiGraph) (component : List PyKey) :
    Prop :=
  endpointPath nx (primary.subgraph component) = .noPath

/-- The sorted identifiers of the component are joined by edges. -/
def SortedAlongEdges (g : DiGraph) (component : List PyKey) : Prop :=
  ∀ ids, sorted component = .ok ids → ids.IsChain g.HasEdge

theorem endpointPath_spec {nx : NetworkX} {g : DiGraph}
    (hdocumented : Documented nx g) {component nodes : List PyKey}
    (hcomponent : component ∈ nx.weaklyConnectedComponents g)
    (hpath : endpointPath nx (g.subgraph component) = .path nodes) :
    nodes.Nodup ∧ nodes ⊆ component ∧
      nodes.IsChain (g.subgraph component).HasEdge := by
  unfold endpointPath at hpath
  split at hpath
  · rename_i first next rest hendpoints
    have hsimple := hdocumented.shortestPath_path component hcomponent _ _ _
      hpath
    have hfirst : first ∈ nx.nodes (g.subgraph component) := by
      have hmem : first ∈ endpoints nx (g.subgraph component) := by
        rw [hendpoints]
        exact List.mem_cons_self ..
      exact (List.mem_filter.mp hmem).1
    have hsource : first ∈ component :=
      (hdocumented.nodes_perm component hcomponent).mem_iff.mp hfirst
    exact ⟨hsimple.nodup, path_subset hsource hsimple.head hsimple.edges,
      hsimple.edges⟩
  · cases hpath

/-- The corridor of a component lists some of its intersections once each. -/
theorem corridorOf_subset {nx : NetworkX} {g : DiGraph}
    (hdocumented : Documented nx g) {component corridor : List PyKey}
    (hcomponent : component ∈ nx.weaklyConnectedComponents g)
    (h : corridorOf nx g component = .ok (some corridor)) :
    corridor.Nodup ∧ corridor ⊆ component := by
  unfold corridorOf at h
  split at h
  · rename_i nodes hpath
    cases h
    obtain ⟨hnodup, hsubset, _⟩ :=
      endpointPath_spec hdocumented hcomponent hpath
    exact ⟨hnodup, hsubset⟩
  · cases h
  · split_ifs at h
    · cases h
    · obtain ⟨ids, hids, hcorridor⟩ := bind_eq_ok.mp h
      cases hcorridor
      have hperm := sorted_perm hids
      exact ⟨hperm.nodup_iff.mpr
        (hdocumented.components_nodup component hcomponent), hperm.subset⟩

/-- The corridor of a component is a path unless the sorted identifiers stand
in for one. -/
theorem corridorOf_edges_iff {nx : NetworkX} {g : DiGraph}
    (hdocumented : Documented nx (primaryGraph g)) {component : List PyKey}
    {result : Option (List PyKey)}
    (hcomponent : component ∈ nx.weaklyConnectedComponents (primaryGraph g))
    (h : corridorOf nx (primaryGraph g) component = .ok result) :
    (∀ corridor ∈ result, corridor.IsChain g.HasEdge) ↔
      (FallsBack nx (primaryGraph g) component →
        SortedAlongEdges g component) := by
  unfold corridorOf at h
  unfold FallsBack
  split at h
  · rename_i nodes hpath
    cases h
    obtain ⟨_, _, hedges⟩ := endpointPath_spec hdocumented hcomponent hpath
    rw [hpath]
    constructor
    · intro _ hfalls
      cases hfalls
    · intro _ corridor hcorridor
      cases hcorridor
      exact hedges.imp fun u v huv =>
        hasEdge_of_primary (hasEdge_subgraph.mp huv).1
  · cases h
  · rename_i hnone
    rw [hnone]
    simp only [true_imp_iff]
    unfold SortedAlongEdges
    split_ifs at h with hempty
    · cases h
      have hnil := List.isEmpty_iff.mp hempty
      constructor
      · intro _ ids hids
        have hperm := sorted_perm hids
        rw [hnil] at hperm
        rw [hperm.eq_nil]
        exact List.IsChain.nil
      · intro _ corridor hcorridor
        cases hcorridor
    · obtain ⟨ids, hids, hcorridor⟩ := bind_eq_ok.mp h
      cases hcorridor
      rw [hids]
      constructor
      · intro hall ids' hids'
        cases hids'
        exact hall ids rfl
      · intro hall corridor hcorridor
        cases hcorridor
        exact hall ids rfl

/-! ## All components -/

theorem corridorsOf_cons {nx : NetworkX} {primary : DiGraph}
    {component : List PyKey} {components corridors : List (List PyKey)}
    (h : corridorsOf nx primary (component :: components) = .ok corridors) :
    ∃ result later, corridorOf nx primary component = .ok result ∧
      corridorsOf nx primary components = .ok later ∧
      corridors = result.toList ++ later := by
  unfold corridorsOf at h
  obtain ⟨result, hresult, h⟩ := bind_eq_ok.mp h
  obtain ⟨later, hlater, h⟩ := bind_eq_ok.mp h
  cases h
  exact ⟨result, later, hresult, hlater, rfl⟩

theorem mem_corridorsOf {nx : NetworkX} {primary : DiGraph}
    (components : List (List PyKey)) :
    ∀ {corridors : List (List PyKey)},
      corridorsOf nx primary components = .ok corridors →
      ∀ corridor, corridor ∈ corridors ↔ ∃ component ∈ components,
        corridorOf nx primary component = .ok (some corridor) := by
  induction components with
  | nil =>
      intro corridors h corridor
      cases h
      simp
  | cons component components ih =>
      intro corridors h corridor
      obtain ⟨result, later, hresult, hlater, rfl⟩ := corridorsOf_cons h
      rw [List.mem_append, ih hlater corridor, Option.mem_toList]
      simp only [List.mem_cons, exists_eq_or_imp, hresult, Except.ok.injEq]

theorem corridorsOf_total {nx : NetworkX} {primary : DiGraph}
    (components : List (List PyKey)) :
    ∀ {corridors : List (List PyKey)},
      corridorsOf nx primary components = .ok corridors →
      ∀ component ∈ components, ∃ result,
        corridorOf nx primary component = .ok result := by
  induction components with
  | nil =>
      intro corridors _ component hcomponent
      cases hcomponent
  | cons first components ih =>
      intro corridors h component hcomponent
      obtain ⟨result, later, hresult, hlater, _⟩ := corridorsOf_cons h
      rcases List.mem_cons.mp hcomponent with rfl | hmem
      · exact ⟨result, hresult⟩
      · exact ih hlater component hmem

theorem corridorsOf_disjoint {nx : NetworkX} {primary : DiGraph}
    (components : List (List PyKey)) :
    ∀ {corridors : List (List PyKey)},
      components.Pairwise List.Disjoint →
      (∀ component ∈ components, ∀ corridor,
        corridorOf nx primary component = .ok (some corridor) →
        corridor ⊆ component) →
      corridorsOf nx primary components = .ok corridors →
      corridors.Pairwise List.Disjoint := by
  induction components with
  | nil =>
      intro corridors _ _ h
      cases h
      exact List.Pairwise.nil
  | cons component components ih =>
      intro corridors hdisjoint hsubset h
      rw [List.pairwise_cons] at hdisjoint
      obtain ⟨result, later, hresult, hlater, rfl⟩ := corridorsOf_cons h
      have hrest := ih hdisjoint.2 (fun other hother => hsubset other
        (List.mem_cons_of_mem component hother)) hlater
      cases result with
      | none => exact hrest
      | some corridor =>
          rw [Option.toList_some, List.singleton_append, List.pairwise_cons]
          refine ⟨?_, hrest⟩
          intro other hother
          obtain ⟨otherComponent, hmem, hother⟩ :=
            (mem_corridorsOf components hlater other).mp hother
          have hfirst := hsubset component (List.mem_cons_self ..) corridor
            hresult
          have hsecond := hsubset otherComponent
            (List.mem_cons_of_mem component hmem) other hother
          exact List.disjoint_of_subset_left hfirst
            (List.disjoint_of_subset_right hsecond
              (hdisjoint.1 otherComponent hmem))

/-- The corridors are disjoint lists of distinct intersections; they are paths
of the graph exactly if the sorted identifiers of every component that falls
back on them are joined by edges. -/
theorem realPaths_iff (nx : NetworkX) (g : DiGraph)
    (corridors : List (List PyKey))
    (hdocumented : Documented nx (primaryGraph g))
    (hcorridors : identifyCorridors nx g = .ok corridors) :
    RealPaths g corridors ↔
      ∀ component ∈ nx.weaklyConnectedComponents (primaryGraph g),
        FallsBack nx (primaryGraph g) component →
          SortedAlongEdges g component := by
  have hmem := mem_corridorsOf _ hcorridors
  constructor
  · intro hreal component hcomponent
    obtain ⟨result, hresult⟩ :=
      corridorsOf_total _ hcorridors component hcomponent
    apply (corridorOf_edges_iff hdocumented hcomponent hresult).mp
    rintro corridor rfl
    exact hreal.edges corridor
      ((hmem corridor).mpr ⟨component, hcomponent, hresult⟩)
  · intro hsorted
    exact
      { nodup := fun corridor hcorridor => by
          obtain ⟨component, hcomponent, hresult⟩ :=
            (hmem corridor).mp hcorridor
          exact (corridorOf_subset hdocumented hcomponent hresult).1
        edges := fun corridor hcorridor => by
          obtain ⟨component, hcomponent, hresult⟩ :=
            (hmem corridor).mp hcorridor
          exact (corridorOf_edges_iff hdocumented hcomponent hresult).mpr
            (hsorted component hcomponent) corridor rfl
        disjoint := corridorsOf_disjoint _ hdocumented.components_disjoint
          (fun component hcomponent corridor hresult =>
            (corridorOf_subset hdocumented hcomponent hresult).2)
          hcorridors }

/-! ## Three intersections in a row -/

/-- The roads from A to C and from C to B. -/
def rowFile (oneWay : Bool) : PyJson :=
  roadFile [roadEntry "r1" "A" "C" 100 oneWay, roadEntry "r2" "C" "B" 100 oneWay]

def rowGraph (oneWay : Bool) : DiGraph :=
  [recordOf "A" "C" 100 oneWay, recordOf "C" "B" 100 oneWay].foldl addRoad {}

def rowNodes : List PyKey := [.str "A", .str "C", .str "B"]

/-- `networkx` on these graphs. -/
def rowNetworkX : NetworkX where
  weaklyConnectedComponents _ := [rowNodes]
  nodes g := g.nodes
  shortestPath _ source target :=
    if source = .str "A" ∧ target = .str "B" then .path rowNodes else .noPath

theorem rowNetworkX_documented (oneWay : Bool) :
    Documented rowNetworkX (primaryGraph (rowGraph oneWay)) where
  components_nodup := by
    intro component hcomponent
    rw [List.mem_singleton.mp hcomponent]
    decide
  components_disjoint := List.pairwise_singleton ..
  nodes_perm := by
    intro component hcomponent
    rw [List.mem_singleton.mp hcomponent]
    cases oneWay <;> decide +kernel
  shortestPath_path := by
    intro component hcomponent source target nodes hpath
    rw [List.mem_singleton.mp hcomponent]
    change (if source = .str "A" ∧ target = .str "B" then
      PathSearch.path rowNodes else .noPath) = .path nodes at hpath
    split_ifs at hpath with hends
    cases hpath
    obtain ⟨rfl, rfl⟩ := hends
    have hedges : rowNodes.IsChain
        ((primaryGraph (rowGraph oneWay)).subgraph rowNodes).HasEdge := by
      cases oneWay <;> decide +kernel
    exact ⟨by decide, rfl, rfl, hedges⟩

theorem twoWayRow_not_path :
    loadTopology (some (rowFile false)) = .ok (rowGraph false) ∧
      Documented rowNetworkX (primaryGraph (rowGraph false)) ∧
      identifyCorridors rowNetworkX (rowGraph false) =
        .ok [[.str "A", .str "B", .str "C"]] ∧
      ¬ RealPaths (rowGraph false) [[.str "A", .str "B", .str "C"]] := by
  refine ⟨rfl, rowNetworkX_documented false, by decide +kernel, ?_⟩
  intro hreal
  have hedges := hreal.edges _ (List.mem_singleton_self _)
  revert hedges
  decide +kernel

theorem oneWayRow_realPaths_iff :
    RealPaths (rowGraph true) [rowNodes] ↔
      ∀ component ∈ rowNetworkX.weaklyConnectedComponents
          (primaryGraph (rowGraph true)),
        FallsBack rowNetworkX (primaryGraph (rowGraph true)) component →
          SortedAlongEdges (rowGraph true) component :=
  realPaths_iff rowNetworkX (rowGraph true) [rowNodes]
    (rowNetworkX_documented true) (by decide +kernel)

end NetworkGraphManager

end Semaforo
