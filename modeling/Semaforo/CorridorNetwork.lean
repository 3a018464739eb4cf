import Semaforo.GreenWave
import Mathlib

/-!
# The generated corridor

A translation of `generate_corridor` from
`brain/sumo_networks/network_generator.py` and of the routes that
`brain/scripts/generate_corridor.py` writes for it.  A file is the list of its
records; the XML around them and the compilation by `netconvert` are left out.
-/

namespace Semaforo

structure SumoNode where
  id : String
  x : ℚ
  y : ℚ
  type : String
  deriving DecidableEq, Repr

structure SumoEdge where
  id : String
  fromNode : String
  toNode : String
  numLanes : ℕ
  speed : ℚ
  deriving DecidableEq, Repr

structure SumoNetwork where
  nodes : List SumoNode
  edges : List SumoEdge
  deriving DecidableEq, Repr

structure SumoRoute where
  id : String
  edges : List String
  deriving DecidableEq, Repr

structure CorridorShape where
  spacingM : ℚ := 300
  numLanes : ℕ := 2
  speedKmh : ℚ := 50
  approachLength : ℚ := 200
  deriving DecidableEq, Repr

namespace NetworkGenerator

/-- `f"c{i}"`. -/
def c (i : ℤ) : String := s!"c{i}"

/-- `num_intersections - 1`. -/
def lastI (n : ℕ) : ℤ := n - 1

def corridorNodes (n : ℕ) (shape : CorridorShape) : List SumoNode :=
  let approach := shape.approachLength
  [⟨"west_entry", -approach, 0, "priority"⟩] ++
    (List.range n).flatMap (fun (i : ℕ) =>
      let cx := i * shape.spacingM
      [⟨c i, cx, 0, "traffic_light"⟩,
        ⟨c i ++ "_north", cx, approach, "priority"⟩,
        ⟨c i ++ "_south", cx, -approach, "priority"⟩]) ++
    [⟨"east_entry", lastI n * shape.spacingM + approach, 0, "priority"⟩]

def corridorEdges (n : ℕ) (shape : CorridorShape) : List SumoEdge :=
  let edge (id fromNode toNode : String) : SumoEdge :=
    ⟨id, fromNode, toNode, shape.numLanes, GreenWave.round2 (shape.speedKmh / (36 / 10))⟩
  [edge "west_entry_to_c0" "west_entry" "c0",
    edge "c0_to_west_entry" "c0" "west_entry"] ++
    (List.range n).flatMap (fun (i : ℕ) =>
      [edge (c i ++ "_north_in") (c i ++ "_north") (c i),
        edge (c i ++ "_north_out") (c i) (c i ++ "_north"),
        edge (c i ++ "_south_in") (c i ++ "_south") (c i),
        edge (c i ++ "_south_out") (c i) (c i ++ "_south")] ++
        if (i : ℤ) < lastI n then
          [edge (c i ++ "_to_" ++ c (i + 1)) (c i) (c (i + 1)),
            edge (c (i + 1) ++ "_to_" ++ c i) (c (i + 1)) (c i)]
        else []) ++
    [edge (c (lastI n) ++ "_to_east_entry") (c (lastI n)) "east_entry",
      edge ("east_entry_to_" ++ c (lastI n)) "east_entry" (c (lastI n))]

def generateCorridor (n : ℕ) (shape : CorridorShape) : SumoNetwork where
  nodes := corridorNodes n shape
  edges := corridorEdges n shape

/-- `generate_corridor_routes`: the routes of the file, in order. -/
def generateCorridorRoutes (n : ℕ) : List SumoRoute :=
  let ewEdges := ["west_entry_to_c0"] ++
    (List.range (n - 1)).map (fun (i : ℕ) => c i ++ "_to_" ++ c (i + 1)) ++
    [c (lastI n) ++ "_to_east_entry"]
  -- `range(last_i, 0, -1)`
  let weEdges := ["east_entry_to_" ++ c (lastI n)] ++
    (List.range (n - 1)).reverse.map (fun (i : ℕ) => c (i + 1) ++ "_to_" ++ c i) ++
    ["c0_to_west_entry"]
  [⟨"ew_through", ewEdges⟩, ⟨"we_through", weEdges⟩] ++
    (List.range n).flatMap (fun (i : ℕ) =>
      [⟨"ns_" ++ c i, [c i ++ "_north_in", c i ++ "_south_out"]⟩,
        ⟨"sn_" ++ c i, [c i ++ "_south_in", c i ++ "_north_out"]⟩]) ++
    [⟨"w_to_c1n", ["west_entry_to_c0", "c0_to_c1", "c1_north_out"]⟩,
      ⟨"c0s_to_e", ["c0_south_in", "c0_to_c1", "c1_to_c2",
        c (lastI n) ++ "_to_east_entry"]⟩]

end NetworkGenerator

/-! ## Streets and their names -/

/-- A junction of the main line. -/
inductive Junction where
  | west
  | east
  | crossing (i : ℤ)
  deriving DecidableEq, Repr

inductive Place where
  | main (j : Junction)
  | north (i : ℤ)
  | south (i : ℤ)
  deriving DecidableEq, Repr

inductive Street where
  | northIn (i : ℤ)
  | northOut (i : ℤ)
  | southIn (i : ℤ)
  | southOut (i : ℤ)
  | link (a b : Junction)
  deriving DecidableEq, Repr

open NetworkGenerator

def Junction.id : Junction → String
  | west => "west_entry"
  | east => "east_entry"
  | crossing i => c i

def Place.id : Place → String
  | main j => j.id
  | north i => c i ++ "_north"
  | south i => c i ++ "_south"

namespace Street

def id : Street → String
  | northIn i => c i ++ "_north_in"
  | northOut i => c i ++ "_north_out"
  | southIn i => c i ++ "_south_in"
  | southOut i => c i ++ "_south_out"
  | link a b => a.id ++ "_to_" ++ b.id

def source : Street → Place
  | northIn i => .north i
  | northOut i => .main (.crossing i)
  | southIn i => .south i
  | southOut i => .main (.crossing i)
  | link a _ => .main a

def target : Street → Place
  | northIn i => .main (.crossing i)
  | northOut i => .north i
  | southIn i => .main (.crossing i)
  | southOut i => .south i
  | link _ b => .main b

/-- The street in the other direction. -/
def back : Street → Street
  | northIn i => northOut i
  | northOut i => northIn i
  | southIn i => southOut i
  | southOut i => southIn i
  | link a b => link b a

def toEdge (shape : CorridorShape) (s : Street) : SumoEdge where
  id := s.id
  fromNode := s.source.id
  toNode := s.target.id
  numLanes := shape.numLanes
  speed := GreenWave.round2 (shape.speedKmh / (36 / 10))

end Street

theorem append_inj_of_stop {α : Type*} {p : α → Prop} {a b s t : List α}
    (ha : ∀ x ∈ a, p x) (hb : ∀ x ∈ b, p x) (hs : ∀ x ∈ s.head?, ¬ p x)
    (ht : ∀ x ∈ t.head?, ¬ p x) (h : a ++ s = b ++ t) : a = b ∧ s = t := by
  induction a generalizing b with
  | nil =>
      cases b with
      | nil => exact ⟨rfl, h⟩
      | cons y b =>
          have hhead : s.head? = some y := by
            rw [List.nil_append] at h
            rw [h]
            rfl
          exact absurd (hb y (List.mem_cons_self ..)) (hs y hhead)
  | cons x a ih =>
      cases b with
      | nil =>
          have hhead : t.head? = some x := by
            rw [List.nil_append] at h
            rw [← h]
            rfl
          exact absurd (ha x (List.mem_cons_self ..)) (ht x hhead)
      | cons y b =>
          obtain ⟨rfl, htail⟩ := List.cons.inj h
          obtain ⟨rfl, hst⟩ := ih (fun z hz => ha z (List.mem_cons_of_mem _ hz))
            (fun z hz => hb z (List.mem_cons_of_mem _ hz)) htail
          exact ⟨rfl, hst⟩

theorem c_toList (i : ℤ) : (c i).toList = 'c' :: (Int.repr i).toList := by
  have h : c i = "c" ++ Int.repr i := by
    simp [c]
    rfl
  rw [h, String.toList_append]
  rfl

theorem c_injective : Function.Injective c := by
  intro i j h
  have hlist := congrArg String.toList h
  rw [c_toList, c_toList] at hlist
  exact Int.repr_injective (String.toList_injective (List.cons.inj hlist).2)

theorem underscore_not_mem_c (i : ℤ) : ∀ x ∈ (c i).toList, x ≠ '_' := by
  intro x hx
  rw [c_toList] at hx
  rintro rfl
  rcases List.mem_cons.mp hx with h | h
  · cases h
  · cases i with
    | ofNat m => simp [Int.repr] at h
    | negSucc m => simp [Int.repr] at h

/-- A name whose first part is `stem`; the rest begins with an underscore. -/
structure Named (name : String) (stem rest : List Char) : Prop where
  eq : name.toList = stem ++ rest
  stem : ∀ x ∈ stem, x ≠ '_'
  rest : ∀ x ∈ rest.head?, ¬ x ≠ '_'

theorem Named.inj {name : String} {stem rest stem' rest' : List Char}
    (h : Named name stem rest) (h' : Named name stem' rest') :
    stem = stem' ∧ rest = rest' :=
  append_inj_of_stop h.stem h'.stem h.rest h'.rest (h.eq.symm.trans h'.eq)

theorem named_c (i : ℤ) (rest : String)
    (hrest : ∀ x ∈ rest.toList.head?, ¬ x ≠ '_') :
    Named (c i ++ rest) (c i).toList rest.toList where
  eq := String.toList_append
  stem := underscore_not_mem_c i
  rest := hrest

namespace Junction

def stem : Junction → List Char
  | west => "west".toList
  | east => "east".toList
  | crossing i => (c i).toList

def rest : Junction → List Char
  | west => "_entry".toList
  | east => "_entry".toList
  | crossing _ => []

theorem stem_injective : Function.Injective stem := by
  intro a b h
  cases a with
  | west =>
      cases b with
      | west => rfl
      | east => exact absurd h (by decide)
      | crossing j => simp [stem, c_toList] at h
  | east =>
      cases b with
      | west => exact absurd h (by decide)
      | east => rfl
      | crossing j => simp [stem, c_toList] at h
  | crossing i =>
      cases b with
      | west => simp [stem, c_toList] at h
      | east => simp [stem, c_toList] at h
      | crossing j => rw [c_injective (String.toList_injective h)]

theorem named (j : Junction) : Named j.id j.stem j.rest := by
  cases j with
  | west => exact ⟨rfl, by simp [stem], by simp [rest]⟩
  | east => exact ⟨rfl, by simp [stem], by simp [rest]⟩
  | crossing i =>
      refine ⟨(List.append_nil _).symm, underscore_not_mem_c i, ?_⟩
      intro x hx
      cases hx

theorem id_injective : Function.Injective id := by
  intro a b h
  exact stem_injective (a.named.inj (h ▸ b.named)).1

end Junction

theorem Place.id_injective : Function.Injective Place.id := by
  intro p q h
  have hnorth : ∀ i, Named (north i).id (c i).toList "_north".toList :=
    fun i => named_c i "_north" (by simp)
  have hsouth : ∀ i, Named (south i).id (c i).toList "_south".toList :=
    fun i => named_c i "_south" (by simp)
  have hmain : ∀ (j : Junction) (i : ℤ) (rest : List Char), rest ≠ [] →
      j.stem = (c i).toList → j.rest ≠ rest := by
    intro j i rest hne hstem
    have hj : j = .crossing i := Junction.stem_injective hstem
    rw [hj]
    exact hne.symm
  cases p with
  | main a =>
      cases q with
      | main b => rw [Junction.id_injective h]
      | north i =>
          obtain ⟨hstem, hrest⟩ := a.named.inj (h ▸ hnorth i)
          exact absurd hrest (hmain a i _ (by decide) hstem)
      | south i =>
          obtain ⟨hstem, hrest⟩ := a.named.inj (h ▸ hsouth i)
          exact absurd hrest (hmain a i _ (by decide) hstem)
  | north i =>
      cases q with
      | main b =>
          obtain ⟨hstem, hrest⟩ := b.named.inj (h ▸ hnorth i)
          exact absurd hrest (hmain b i _ (by decide) hstem)
      | north j =>
          have hstem := ((hnorth i).inj (h ▸ hnorth j)).1
          rw [c_injective (String.toList_injective hstem)]
      | south j =>
          have hrest := ((hnorth i).inj (h ▸ hsouth j)).2
          exact absurd hrest (by decide)
  | south i =>
      cases q with
      | main b =>
          obtain ⟨hstem, hrest⟩ := b.named.inj (h ▸ hsouth i)
          exact absurd hrest (hmain b i _ (by decide) hstem)
      | north j =>
          have hrest := ((hsouth i).inj (h ▸ hnorth j)).2
          exact absurd hrest (by decide)
      | south j =>
          have hstem := ((hsouth i).inj (h ▸ hsouth j)).1
          rw [c_injective (String.toList_injective hstem)]

namespace Street

/-- The crossing of a side street and what follows it in the name. -/
def corner : Street → Option (ℤ × String)
  | northIn i => some (i, "_north_in")
  | northOut i => some (i, "_north_out")
  | southIn i => some (i, "_south_in")
  | southOut i => some (i, "_south_out")
  | link _ _ => none

theorem named_of_corner {s : Street} {i : ℤ} {rest : String}
    (h : s.corner = some (i, rest)) :
    Named s.id (c i).toList rest.toList ∧ rest.toList[1]? ≠ some 't' := by
  cases s with
  | northIn j =>
      obtain ⟨rfl, rfl⟩ := Prod.mk.inj (Option.some.inj h)
      exact ⟨named_c _ _ (by simp), by simp⟩
  | northOut j =>
      obtain ⟨rfl, rfl⟩ := Prod.mk.inj (Option.some.inj h)
      exact ⟨named_c _ _ (by simp), by simp⟩
  | southIn j =>
      obtain ⟨rfl, rfl⟩ := Prod.mk.inj (Option.some.inj h)
      exact ⟨named_c _ _ (by simp), by simp⟩
  | southOut j =>
      obtain ⟨rfl, rfl⟩ := Prod.mk.inj (Option.some.inj h)
      exact ⟨named_c _ _ (by simp), by simp⟩
  | link a b => cases h

theorem corner_inj {s t : Street} {x : ℤ × String} (hs : s.corner = some x)
    (ht : t.corner = some x) : s = t := by
  cases s <;> cases t <;>
    simp only [corner, Option.some.injEq, reduceCtorEq] at hs ht <;>
    subst hs <;> simp_all

theorem named_link (a b : Junction) :
    Named (link a b).id a.stem (a.rest ++ ("_to_".toList ++ b.id.toList)) where
  eq := by
    rw [id, String.toList_append, String.toList_append, a.named.eq,
      List.append_assoc, List.append_assoc]
  stem := a.named.stem
  rest := by
    intro x hx
    cases a with
    | west => exact not_not.mpr (Option.some.inj hx).symm
    | east => exact not_not.mpr (Option.some.inj hx).symm
    | crossing i => exact not_not.mpr (Option.some.inj hx).symm

theorem link_id_ne {a b : Junction} {s : Street} {i : ℤ} {rest : String}
    (h : s.corner = some (i, rest)) : (link a b).id ≠ s.id := by
  intro hid
  obtain ⟨hnamed, hsecond⟩ := named_of_corner h
  obtain ⟨hstem, hrest⟩ := (named_link a b).inj (hid ▸ hnamed)
  have ha : a = .crossing i := Junction.stem_injective hstem
  rw [ha] at hrest
  exact hsecond (by rw [← hrest]; rfl)

theorem id_injective : Function.Injective id := by
  intro s t h
  cases hs : s.corner with
  | some x =>
      obtain ⟨i, rest⟩ := x
      cases ht : t.corner with
      | some y =>
          obtain ⟨j, rest'⟩ := y
          obtain ⟨hstem, hrest⟩ :=
            (named_of_corner hs).1.inj (h ▸ (named_of_corner ht).1)
          rw [← c_injective (String.toList_injective hstem),
            ← String.toList_injective hrest] at ht
          exact corner_inj hs ht
      | none =>
          cases t with
          | link a b => exact absurd h.symm (link_id_ne hs)
          | northIn j => cases ht
          | northOut j => cases ht
          | southIn j => cases ht
          | southOut j => cases ht
  | none =>
      cases s with
      | northIn i => cases hs
      | northOut i => cases hs
      | southIn i => cases hs
      | southOut i => cases hs
      | link a b =>
          cases ht : t.corner with
          | some y => exact absurd h (link_id_ne ht)
          | none =>
              cases t with
              | northIn j => cases ht
              | northOut j => cases ht
              | southIn j => cases ht
              | southOut j => cases ht
              | link a' b' =>
                  obtain ⟨hstem, hrest⟩ :=
                    (named_link a b).inj (h ▸ named_link a' b')
                  obtain rfl := Junction.stem_injective hstem
                  have hid := List.append_cancel_left
                    (List.append_cancel_left hrest)
                  rw [Junction.id_injective (String.toList_injective hid)]

end Street

/-! ## The corridor as streets -/

def places (n : ℕ) : List Place :=
  [Place.main .west] ++
    (List.range n).flatMap (fun (i : ℕ) =>
      [Place.main (.crossing i), .north i, .south i]) ++
    [Place.main .east]

def streets (n : ℕ) : List Street :=
  [Street.link .west (.crossing 0), .link (.crossing 0) .west] ++
    (List.range n).flatMap (fun (i : ℕ) =>
      [Street.northIn i, .northOut i, .southIn i, .southOut i] ++
        if (i : ℤ) < lastI n then
          [Street.link (.crossing i) (.crossing (i + 1)),
            .link (.crossing (i + 1)) (.crossing i)]
        else []) ++
    [Street.link (.crossing (lastI n)) .east, .link .east (.crossing (lastI n))]

theorem map_id_corridorNodes (n : ℕ) (shape : CorridorShape) :
    (corridorNodes n shape).map SumoNode.id = (places n).map Place.id := by
  simp [corridorNodes, places, List.map_flatMap, Place.id, Junction.id]

theorem toEast_id (i : ℤ) :
    c i ++ "_to_east_entry" = (Street.link (.crossing i) .east).id := by
  change _ = c i ++ "_to_" ++ "east_entry"
  rw [String.append_assoc]
  rfl

theorem corridorEdges_eq (n : ℕ) (shape : CorridorShape) :
    corridorEdges n shape = (streets n).map (Street.toEdge shape) := by
  simp only [corridorEdges, streets, List.map_append, List.map_flatMap,
    List.map_cons, List.map_nil, toEast_id]
  congr 1
  congr 1
  refine List.flatMap_congr fun i _ => ?_
  split_ifs <;> rfl

/-- The streets of a corridor with `n` intersections. -/
inductive Street.InCorridor (n : ℕ) : Street → Prop where
  | fromWest : InCorridor n (.link .west (.crossing 0))
  | toWest : InCorridor n (.link (.crossing 0) .west)
  | northIn (i : ℕ) (hi : i < n) : InCorridor n (.northIn i)
  | northOut (i : ℕ) (hi : i < n) : InCorridor n (.northOut i)
  | southIn (i : ℕ) (hi : i < n) : InCorridor n (.southIn i)
  | southOut (i : ℕ) (hi : i < n) : InCorridor n (.southOut i)
  | onward (i : ℕ) (hi : i + 1 < n) :
      InCorridor n (.link (.crossing i) (.crossing (i + 1)))
  | backward (i : ℕ) (hi : i + 1 < n) :
      InCorridor n (.link (.crossing (i + 1)) (.crossing i))
  | toEast : InCorridor n (.link (.crossing (lastI n)) .east)
  | fromEast : InCorridor n (.link .east (.crossing (lastI n)))

theorem lt_lastI_iff (i n : ℕ) : (i : ℤ) < lastI n ↔ i + 1 < n := by
  unfold lastI
  omega

theorem mem_streets {n : ℕ} {s : Street} :
    s ∈ streets n ↔ s.InCorridor n := by
  constructor
  · intro hs
    simp only [streets, List.mem_append, List.mem_flatMap, List.mem_range,
      List.mem_cons, List.not_mem_nil, or_false] at hs
    rcases hs with (hwest | ⟨i, hi, hside | hlink⟩) | heast
    · rcases hwest with rfl | rfl
      · exact .fromWest
      · exact .toWest
    · rcases hside with rfl | rfl | rfl | rfl
      · exact .northIn i hi
      · exact .northOut i hi
      · exact .southIn i hi
      · exact .southOut i hi
    · split_ifs at hlink with hlast
      · rw [lt_lastI_iff] at hlast
        rcases List.mem_cons.mp hlink with rfl | hlink
        · exact .onward i hlast
        · rw [List.mem_singleton.mp hlink]
          exact .backward i hlast
      · cases hlink
    · rcases heast with rfl | rfl
      · exact .toEast
      · exact .fromEast
  · intro hs
    simp only [streets, List.mem_append, List.mem_flatMap, List.mem_range]
    cases hs with
    | fromWest => simp
    | toWest => simp
    | northIn i hi => exact .inl (.inr ⟨i, hi, .inl (by simp)⟩)
    | northOut i hi => exact .inl (.inr ⟨i, hi, .inl (by simp)⟩)
    | southIn i hi => exact .inl (.inr ⟨i, hi, .inl (by simp)⟩)
    | southOut i hi => exact .inl (.inr ⟨i, hi, .inl (by simp)⟩)
    | onward i hi =>
        refine .inl (.inr ⟨i, by omega, .inr ?_⟩)
        rw [if_pos ((lt_lastI_iff i n).mpr hi)]
        exact List.mem_cons_self ..
    | backward i hi =>
        refine .inl (.inr ⟨i, by omega, .inr ?_⟩)
        rw [if_pos ((lt_lastI_iff i n).mpr hi)]
        simp
    | toEast => simp
    | fromEast => simp

theorem Street.InCorridor.back {n : ℕ} {s : Street} (hs : s.InCorridor n) :
    s.back.InCorridor n := by
  cases hs with
  | fromWest => exact .toWest
  | toWest => exact .fromWest
  | northIn i hi => exact .northOut i hi
  | northOut i hi => exact .northIn i hi
  | southIn i hi => exact .southOut i hi
  | southOut i hi => exact .southIn i hi
  | onward i hi => exact .backward i hi
  | backward i hi => exact .onward i hi
  | toEast => exact .fromEast
  | fromEast => exact .toEast

theorem Street.source_back (s : Street) : s.back.source = s.target := by
  cases s <;> rfl

theorem Street.target_back (s : Street) : s.back.target = s.source := by
  cases s <;> rfl

theorem places_nodup (n : ℕ) : (places n).Nodup := by
  have hblocks : ((List.range n).flatMap (fun (i : ℕ) =>
      [Place.main (.crossing i), .north i, .south i])).Nodup := by
    rw [List.nodup_flatMap]
    refine ⟨fun i _ => by simp, List.nodup_range.imp ?_⟩
    intro i j hij
    simp [Function.onFun, hij.symm]
  rw [places, List.nodup_append, List.nodup_append]
  refine ⟨⟨List.nodup_singleton _, hblocks, ?_⟩, List.nodup_singleton _, ?_⟩
  · simp only [List.mem_flatMap, List.mem_cons, List.not_mem_nil, or_false]
    grind
  · simp only [List.mem_append, List.mem_flatMap, List.mem_cons,
      List.not_mem_nil, or_false]
    grind

theorem streets_nodup (n : ℕ) : (streets n).Nodup := by
  have hblocks : ((List.range n).flatMap (fun (i : ℕ) =>
      [Street.northIn i, .northOut i, .southIn i, .southOut i] ++
        if (i : ℤ) < lastI n then
          [.link (.crossing i) (.crossing (i + 1)),
            .link (.crossing (i + 1)) (.crossing i)]
        else [])).Nodup := by
    rw [List.nodup_flatMap]
    refine ⟨fun i _ => ?_, List.pairwise_lt_range.imp ?_⟩
    · split_ifs <;> simp
    · intro i j hij
      simp only [Function.onFun]
      split_ifs <;> simp <;> omega
  rw [streets, List.nodup_append, List.nodup_append]
  refine ⟨⟨by simp, hblocks, ?_⟩, by simp, ?_⟩
  · simp only [List.mem_flatMap, List.mem_append, List.mem_ite_nil_right,
      List.mem_cons, List.not_mem_nil, or_false]
    grind
  · simp only [List.mem_flatMap, List.mem_append, List.mem_ite_nil_right,
      List.mem_cons, List.not_mem_nil, or_false]
    grind

/-! ## Well-formedness -/

namespace SumoNetwork

/-- Some street leads from one node to the other. -/
def Joined (net : SumoNetwork) (a b : String) : Prop :=
  ∃ e ∈ net.edges, e.fromNode = a ∧ e.toNode = b

structure WellFormed (net : SumoNetwork) : Prop where
  nodeIds : (net.nodes.map SumoNode.id).Nodup
  edgeIds : (net.edges.map SumoEdge.id).Nodup
  declared : ∀ e ∈ net.edges, e.fromNode ∈ net.nodes.map SumoNode.id ∧
    e.toNode ∈ net.nodes.map SumoNode.id
  noLoop : ∀ e ∈ net.edges, e.fromNode ≠ e.toNode
  twoWay : ∀ a b, net.Joined a b → net.Joined b a
  /-- One can drive from every node to every other one. -/
  connected : ∀ a ∈ net.nodes, ∀ b ∈ net.nodes,
    Relation.ReflTransGen net.Joined a.id b.id

end SumoNetwork

section Corridor

variable {n : ℕ} {shape : CorridorShape}

theorem joined_iff {a b : String} :
    (generateCorridor n shape).Joined a b ↔
      ∃ s : Street, s.InCorridor n ∧ s.source.id = a ∧ s.target.id = b := by
  unfold SumoNetwork.Joined generateCorridor
  simp only [corridorEdges_eq, List.mem_map]
  constructor
  · rintro ⟨_, ⟨s, hs, rfl⟩, ha, hb⟩
    exact ⟨s, mem_streets.mp hs, ha, hb⟩
  · rintro ⟨s, hs, ha, hb⟩
    exact ⟨s.toEdge shape, ⟨s, mem_streets.mpr hs, rfl⟩, ha, hb⟩

theorem joined_of_street (shape : CorridorShape) {s : Street}
    (hs : s.InCorridor n) :
    (generateCorridor n shape).Joined s.source.id s.target.id :=
  joined_iff.mpr ⟨s, hs, rfl, rfl⟩

instance joined_symm : Std.Symm (generateCorridor n shape).Joined where
  symm a b h := by
    obtain ⟨s, hs, rfl, rfl⟩ := joined_iff.mp h
    have hback := joined_of_street shape hs.back
    rwa [s.source_back, s.target_back] at hback

theorem mem_places {p : Place} :
    p ∈ places n ↔ p = .main .west ∨ p = .main .east ∨
      ∃ i < n, p = .main (.crossing i) ∨ p = .north i ∨ p = .south i := by
  simp only [places, List.mem_append, List.mem_flatMap, List.mem_range,
    List.mem_cons, List.not_mem_nil, or_false]
  constructor
  · rintro ((hwest | hside) | heast)
    · exact .inl hwest
    · exact .inr (.inr hside)
    · exact .inr (.inl heast)
  · rintro (hwest | heast | hside)
    · exact .inl (.inl hwest)
    · exact .inr heast
    · exact .inl (.inr hside)

theorem lastI_eq (hn : 1 ≤ n) : lastI n = ((n - 1 : ℕ) : ℤ) := by
  unfold lastI
  omega

theorem crossing_mem_places {i : ℕ} (hi : i < n) :
    Place.main (.crossing i) ∈ places n :=
  mem_places.mpr (.inr (.inr ⟨i, hi, .inl rfl⟩))

theorem source_mem_places (hn : 1 ≤ n) {s : Street} (hs : s.InCorridor n) :
    s.source ∈ places n := by
  cases hs with
  | fromWest => exact mem_places.mpr (.inl rfl)
  | toWest => exact crossing_mem_places hn
  | northIn i hi => exact mem_places.mpr (.inr (.inr ⟨i, hi, .inr (.inl rfl)⟩))
  | northOut i hi => exact crossing_mem_places hi
  | southIn i hi => exact mem_places.mpr (.inr (.inr ⟨i, hi, .inr (.inr rfl)⟩))
  | southOut i hi => exact crossing_mem_places hi
  | onward i hi => exact crossing_mem_places (by omega)
  | backward i hi => exact crossing_mem_places hi
  | toEast =>
      rw [lastI_eq hn]
      exact crossing_mem_places (by omega)
  | fromEast => exact mem_places.mpr (.inr (.inl rfl))

theorem Street.source_ne_target {s : Street} (hs : s.InCorridor n) :
    s.source ≠ s.target := by
  cases hs <;> simp [source, target]

/-- Every place is connected with the first crossing. -/
theorem reaches_first (hn : 1 ≤ n) {p : Place} (hp : p ∈ places n) :
    Relation.ReflTransGen (generateCorridor n shape).Joined p.id
      (Place.main (.crossing 0)).id := by
  have hcrossing : ∀ i : ℕ, i < n → Relation.ReflTransGen
      (generateCorridor n shape).Joined (Place.main (.crossing i)).id
      (Place.main (.crossing 0)).id := by
    intro i
    induction i with
    | zero => exact fun _ => .refl
    | succ i ih =>
        intro hi
        have hstep := joined_of_street shape
          (Street.InCorridor.backward i hi)
        exact .head hstep (ih (by omega))
  rcases mem_places.mp hp with rfl | rfl | ⟨i, hi, rfl | rfl | rfl⟩
  · exact .single (joined_of_street shape .fromWest)
  · have hstep := joined_of_street shape
      (Street.InCorridor.fromEast (n := n))
    have hlast := hcrossing (n - 1) (by omega)
    rw [← lastI_eq hn] at hlast
    exact .head hstep hlast
  · exact hcrossing i hi
  · exact .head (joined_of_street shape (.northIn i hi)) (hcrossing i hi)
  · exact .head (joined_of_street shape (.southIn i hi)) (hcrossing i hi)

/-- The generated corridor is well formed for every positive number of
intersections.  For none the western entry leads to a crossing that the node
file does not have. -/
theorem corridor_wellFormed_iff (n : ℕ) (shape : CorridorShape) :
    (generateCorridor n shape).WellFormed ↔ 1 ≤ n := by
  constructor
  · intro hnet
    by_contra hn
    obtain rfl : n = 0 := by omega
    have hwest := (hnet.declared _ (List.mem_cons_self ..)).2
    simp [generateCorridor, corridorNodes] at hwest
  · intro hn
    have hnodes : (generateCorridor n shape).nodes.map SumoNode.id =
        (places n).map Place.id := map_id_corridorNodes n shape
    have hedges : (generateCorridor n shape).edges =
        (streets n).map (Street.toEdge shape) := corridorEdges_eq n shape
    have hplace : ∀ x ∈ (generateCorridor n shape).nodes,
        ∃ p ∈ places n, p.id = x.id := by
      intro x hx
      have hid := List.mem_map_of_mem (f := SumoNode.id) hx
      rw [hnodes] at hid
      exact List.mem_map.mp hid
    refine
      { nodeIds := ?_, edgeIds := ?_, declared := ?_, noLoop := ?_
        twoWay := joined_symm.symm, connected := ?_ }
    · rw [hnodes]
      exact (places_nodup n).map Place.id_injective
    · rw [hedges, List.map_map]
      exact (streets_nodup n).map Street.id_injective
    · intro e he
      rw [hedges] at he
      obtain ⟨s, hs, rfl⟩ := List.mem_map.mp he
      have hsource := source_mem_places hn (mem_streets.mp hs)
      have htarget := source_mem_places hn (mem_streets.mp hs).back
      rw [s.source_back] at htarget
      rw [hnodes]
      exact ⟨List.mem_map_of_mem hsource, List.mem_map_of_mem htarget⟩
    · intro e he
      rw [hedges] at he
      obtain ⟨s, hs, rfl⟩ := List.mem_map.mp he
      exact fun heq => Street.source_ne_target (mem_streets.mp hs)
        (Place.id_injective heq)
    · intro a ha b hb
      obtain ⟨p, hp, hpa⟩ := hplace a ha
      obtain ⟨q, hq, hqb⟩ := hplace b hb
      rw [← hpa, ← hqb]
      exact (reaches_first hn hp).trans (symm (reaches_first hn hq))

end Corridor

end Semaforo
