import Semaforo.CorridorNetwork
import Mathlib

/-!
# Driving through the corridor

A route is a list of edge ids, and a vehicle can follow it if each edge is in
the network and begins where the one before it ends.  The through routes and the
cross streets of the corridor file are drawn for its own number of
intersections, the two partial routes only for three.
-/

namespace Semaforo

open NetworkGenerator

theorem isChain_map_range {α : Type*} {R : α → α → Prop} {f : ℕ → α} {m : ℕ}
    (h : ∀ i, i + 1 < m → R (f i) (f (i + 1))) :
    ((List.range m).map f).IsChain R := by
  rw [List.isChain_iff_getElem]
  intro i hi
  rw [List.length_map, List.length_range] at hi
  simpa using h i hi

def SumoNetwork.Drivable (net : SumoNetwork) (route : List String) : Prop :=
  ∃ path : List SumoEdge, path.map SumoEdge.id = route ∧
    (∀ e ∈ path, e ∈ net.edges) ∧
    path.IsChain fun e e' => e.toNode = e'.fromNode

/-- A drive through the streets of a corridor. -/
structure Drive (n : ℕ) (path : List Street) : Prop where
  streets : ∀ s ∈ path, s.InCorridor n
  chain : path.IsChain fun s t => s.target = t.source

section Corridor

variable {n : ℕ} {shape : CorridorShape} {path : List Street}

theorem Drive.drivable (shape : CorridorShape) (hpath : Drive n path) :
    (generateCorridor n shape).Drivable (path.map Street.id) := by
  refine ⟨path.map (Street.toEdge shape), ?_, ?_, ?_⟩
  · rw [List.map_map]
    rfl
  · intro e he
    obtain ⟨s, hs, rfl⟩ := List.mem_map.mp he
    change s.toEdge shape ∈ corridorEdges n shape
    rw [corridorEdges_eq]
    exact List.mem_map_of_mem (mem_streets.mpr (hpath.streets s hs))
  · rw [List.isChain_map]
    exact hpath.chain.imp fun s t h => congrArg Place.id h

theorem Drive.back (hpath : Drive n path) :
    Drive n (path.map Street.back).reverse where
  streets := by
    intro s hs
    obtain ⟨t, ht, rfl⟩ := List.mem_map.mp (List.mem_reverse.mp hs)
    exact (hpath.streets t ht).back
  chain := by
    rw [List.isChain_reverse, List.isChain_map]
    refine hpath.chain.imp fun s t h => ?_
    exact t.target_back.trans (h.symm.trans s.source_back.symm)

/-- From the western to the eastern entry. -/
def throughPath (n : ℕ) : List Street :=
  [.link .west (.crossing 0)] ++
    (List.range (n - 1)).map
      (fun (i : ℕ) => .link (.crossing i) (.crossing (i + 1))) ++
    [.link (.crossing (lastI n)) .east]

theorem throughPath_drive (hn : 1 ≤ n) : Drive n (throughPath n) where
  streets := by
    intro s hs
    simp only [throughPath, List.mem_append, List.mem_singleton,
      List.mem_map, List.mem_range] at hs
    rcases hs with (rfl | ⟨i, hi, rfl⟩) | rfl
    · exact .fromWest
    · exact .onward i (by omega)
    · exact .toEast
  chain := by
    have hinner : ((List.range (n - 1)).map (fun (i : ℕ) =>
        Street.link (.crossing i) (.crossing (i + 1)))).IsChain
          (fun s t => s.target = t.source) :=
      isChain_map_range fun i _ => by simp [Street.source, Street.target]
    unfold throughPath
    rw [lastI_eq hn]
    obtain ⟨m, rfl⟩ := Nat.exists_eq_add_of_le' hn
    rw [Nat.add_sub_cancel] at hinner ⊢
    cases m with
    | zero => simp [Street.source, Street.target]
    | succ m =>
        refine List.isChain_append.mpr ⟨List.isChain_append.mpr
          ⟨List.isChain_singleton _, hinner, ?_⟩, List.isChain_singleton _, ?_⟩
        · intro s hs t ht
          simp only [List.getLast?_singleton, Option.mem_some_iff] at hs
          simp only [List.range_succ_eq_map, List.map_cons, List.head?_cons,
            Option.mem_some_iff] at ht
          subst hs ht
          simp [Street.source, Street.target]
        · intro s hs t ht
          simp only [List.range_succ, List.map_append, List.map_singleton,
            ← List.append_assoc, List.getLast?_append, List.getLast?_singleton,
            Option.some_or, Option.mem_some_iff] at hs
          simp only [List.head?_cons, Option.mem_some_iff] at ht
          subst hs ht
          simp [Street.source, Street.target]

theorem throughPath_id (n : ℕ) : (throughPath n).map Street.id =
    ["west_entry_to_c0"] ++
      (List.range (n - 1)).map (fun (i : ℕ) => c i ++ "_to_" ++ c (i + 1)) ++
      [c (lastI n) ++ "_to_east_entry"] := by
  simp only [throughPath, List.map_append, List.map_map, List.map_cons,
    List.map_nil, toEast_id]
  rfl

theorem throughPath_back_id (n : ℕ) :
    ((throughPath n).map Street.back).reverse.map Street.id =
      ["east_entry_to_" ++ c (lastI n)] ++
        (List.range (n - 1)).reverse.map
          (fun (i : ℕ) => c (i + 1) ++ "_to_" ++ c i) ++
        ["c0_to_west_entry"] := by
  simp only [throughPath, List.map_append, List.map_map, List.map_cons,
    List.map_nil, List.reverse_append, List.map_reverse, List.reverse_cons,
    List.reverse_nil, List.nil_append, List.append_assoc]
  rfl

theorem sideDrive {s t : Street} (hs : s.InCorridor n) (ht : t.InCorridor n)
    (hmeet : s.target = t.source) : Drive n [s, t] where
  streets := by
    intro x hx
    rcases List.mem_cons.mp hx with rfl | hx
    · exact hs
    · rw [List.mem_singleton.mp hx]
      exact ht
  chain := List.isChain_pair.mpr hmeet

def wToC1n : SumoRoute where
  id := "w_to_c1n"
  edges := ["west_entry_to_c0", "c0_to_c1", "c1_north_out"]

def c0sToE (n : ℕ) : SumoRoute where
  id := "c0s_to_e"
  edges :=
    ["c0_south_in", "c0_to_c1", "c1_to_c2", c (lastI n) ++ "_to_east_entry"]

theorem drivable_or_partial (shape : CorridorShape) (hn : 1 ≤ n)
    {r : SumoRoute} (hr : r ∈ generateCorridorRoutes n) :
    (generateCorridor n shape).Drivable r.edges ∨ r = wToC1n ∨
      r = c0sToE n := by
  simp only [generateCorridorRoutes, List.mem_append, List.mem_flatMap,
    List.mem_range, List.mem_cons, List.not_mem_nil, or_false] at hr
  rcases hr with ((rfl | rfl) | ⟨i, hi, rfl | rfl⟩) | hpartial
  · have hdrive := (throughPath_drive hn).drivable shape
    rw [throughPath_id] at hdrive
    exact .inl hdrive
  · have hdrive := (throughPath_drive hn).back.drivable shape
    rw [throughPath_back_id] at hdrive
    exact .inl hdrive
  · exact .inl ((sideDrive (.northIn i hi) (.southOut i hi) rfl).drivable shape)
  · exact .inl ((sideDrive (.southIn i hi) (.northOut i hi) rfl).drivable shape)
  · exact .inr hpartial

theorem wToC1n_drivable (hn : 2 ≤ n) (shape : CorridorShape) :
    (generateCorridor n shape).Drivable wToC1n.edges := by
  have hdrive : Drive n [.link .west (.crossing 0),
      .link (.crossing (0 : ℕ)) (.crossing ((0 : ℕ) + 1)), .northOut (1 : ℕ)] := by
    refine ⟨?_, by simp [Street.source, Street.target]⟩
    intro s hs
    simp only [List.mem_cons, List.not_mem_nil, or_false] at hs
    rcases hs with rfl | rfl | rfl
    · exact .fromWest
    · exact .onward 0 hn
    · exact .northOut 1 hn
  exact hdrive.drivable shape

theorem c0sToE_drivable (shape : CorridorShape) :
    (generateCorridor 3 shape).Drivable (c0sToE 3).edges := by
  have hdrive : Drive 3 [.southIn (0 : ℕ),
      .link (.crossing (0 : ℕ)) (.crossing ((0 : ℕ) + 1)),
      .link (.crossing (1 : ℕ)) (.crossing ((1 : ℕ) + 1)),
      .link (.crossing (lastI 3)) .east] := by
    refine ⟨?_, by simp [Street.source, Street.target, lastI]⟩
    intro s hs
    simp only [List.mem_cons, List.not_mem_nil, or_false] at hs
    rcases hs with rfl | rfl | rfl | rfl
    · exact .southIn 0 (by decide)
    · exact .onward 0 (by decide)
    · exact .onward 1 (by decide)
    · exact .toEast
  exact hdrive.drivable shape

theorem drivable_three (shape : CorridorShape) {r : SumoRoute}
    (hr : r ∈ generateCorridorRoutes 3) :
    (generateCorridor 3 shape).Drivable r.edges := by
  rcases drivable_or_partial shape (by decide) hr with hdrive | rfl | rfl
  · exact hdrive
  · exact wToC1n_drivable (by decide) shape
  · exact c0sToE_drivable shape

theorem street_of_mem {e : SumoEdge} {s : Street}
    (he : e ∈ (generateCorridor n shape).edges) (hid : e.id = s.id) :
    s.InCorridor n ∧ e = s.toEdge shape := by
  change e ∈ corridorEdges n shape at he
  rw [corridorEdges_eq] at he
  obtain ⟨t, ht, rfl⟩ := List.mem_map.mp he
  obtain rfl := Street.id_injective hid
  exact ⟨mem_streets.mp ht, rfl⟩

/-- The route from the first cross street to the east goes on from the third
crossing to the eastern entry. -/
theorem eq_three_of_drivable {shape : CorridorShape}
    (h : (generateCorridor n shape).Drivable (c0sToE n).edges) : n = 3 := by
  obtain ⟨path, hids, hedges, hchain⟩ := h
  obtain ⟨e, e', second, last, rfl⟩ :
      ∃ e e' second last, path = [e, e', second, last] := by
    have hlength := congrArg List.length hids
    rw [List.length_map] at hlength
    exact List.length_eq_four.mp hlength
  simp only [c0sToE, List.map_cons, List.map_nil, List.cons.injEq,
    and_true] at hids
  obtain ⟨_, _, hsecond, hlast⟩ := hids
  rw [toEast_id] at hlast
  obtain ⟨_, rfl⟩ := street_of_mem
    (s := .link (.crossing 1) (.crossing 2)) (hedges second (by simp)) hsecond
  obtain ⟨_, rfl⟩ := street_of_mem (hedges last (by simp)) hlast
  have hmeet : (Place.main (.crossing 2)).id =
      (Place.main (.crossing (lastI n))).id := by
    simp only [List.isChain_cons_cons] at hchain
    exact hchain.2.2.1
  have hplace := Place.id_injective hmeet
  simp only [Place.main.injEq, Junction.crossing.injEq, lastI] at hplace
  omega

/-- The through routes and the cross streets can be driven in the network that
is generated with them, for every positive number of intersections; all routes
of the file can exactly for three. -/
theorem corridorRoutes_drivable_iff (n : ℕ) (shape : CorridorShape) :
    (1 ≤ n → ∀ r ∈ generateCorridorRoutes n, r.id ≠ "w_to_c1n" →
        r.id ≠ "c0s_to_e" → (generateCorridor n shape).Drivable r.edges) ∧
      ((∀ r ∈ generateCorridorRoutes n,
          (generateCorridor n shape).Drivable r.edges) ↔ n = 3) := by
  refine ⟨fun hn r hr hw hs => ?_, fun h => ?_, ?_⟩
  · rcases drivable_or_partial shape hn hr with hdrive | rfl | rfl
    · exact hdrive
    · exact absurd rfl hw
    · exact absurd rfl hs
  · have hmem : c0sToE n ∈ generateCorridorRoutes n := by
      simp [generateCorridorRoutes, c0sToE]
    exact eq_three_of_drivable (h (c0sToE n) hmem)
  · rintro rfl r hr
    exact drivable_three shape hr

end Corridor

end Semaforo
