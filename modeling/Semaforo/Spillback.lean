import Semaforo.NumpyClip
import Mathlib.Order.Hom.Basic
import Mathlib.Tactic

/-!
# The spillback penalty

`brain/src/rewards/spillback.py` in exact arithmetic.  The rounding of the
occupancies to single precision is a parameter, any monotone function.
-/

namespace Semaforo

namespace Spillback

open Numpy

/-- A connection of `getControlledLinks`: the lane it leaves, the lane it leads
into and the lane across the junction. -/
structure Connection where
  inLane : String
  outLane : String
  viaLane : String
  deriving DecidableEq, Repr

/-- What is read of a `sumo_rl` signal. -/
structure TrafficSignal where
  redYellowGreenState : List Char
  controlledLinks : List (List Connection)
  outLanes : List String
  outLanesDensity : List ℚ
  deriving DecidableEq, Repr

/-- `dict(zip(ts.out_lanes, ts.get_out_lanes_density()))`. -/
def outDensity (ts : TrafficSignal) (lane : String) : Option ℚ :=
  -- the last pair of a lane is the one that stays
  (ts.outLanes.zip ts.outLanesDensity).reverse.lookup lane

def isGreen (signalChar : Char) : Bool :=
  signalChar = 'G' || signalChar = 'g'

def servedDownstreamOccupancies (ts : TrafficSignal) : List ℚ :=
  (ts.redYellowGreenState.zip ts.controlledLinks).filterMap
    fun (signalChar, link) =>
      if isGreen signalChar then
        match link with
        | [] => none
        | connection :: _ => outDensity ts connection.outLane
      else none

section

variable (toFloat32 : ℚ →o ℚ)

def computeSpillbackPenalty (occupancies : Option (List ℚ))
    (rhoCrit : ℚ := 85 / 100) : ℚ :=
  match occupancies with
  | none => 0
  | some occupancies =>
      match (occupancies.map fun o => clip (toFloat32 o) 0 1).max? with
      | none => 0
      | some worst =>
          -clip ((worst - rhoCrit) / max (1 - rhoCrit) (1 / 1000000)) 0 1

/-- The penalty that one lane of this occupancy is worth. -/
def lanePenalty (rhoCrit occupancy : ℚ) : ℚ :=
  -clip ((clip (toFloat32 occupancy) 0 1 - rhoCrit) /
    max (1 - rhoCrit) (1 / 1000000)) 0 1

end

/-! ## The lanes that a phase discharges into -/

/-- The connections of a signal index that shows green. -/
def GreenLink (ts : TrafficSignal) (link : List Connection) : Prop :=
  ∃ (i : ℕ) (signalChar : Char), ts.redYellowGreenState[i]? = some signalChar ∧
    isGreen signalChar ∧ ts.controlledLinks[i]? = some link

def Feeds (ts : TrafficSignal) (lane : String) : Prop :=
  ∃ link, GreenLink ts link ∧ ∃ connection ∈ link, connection.outLane = lane

/-- By the first connection of a green index. -/
def FeedsFirst (ts : TrafficSignal) (lane : String) : Prop :=
  ∃ link, GreenLink ts link ∧
    ∃ connection ∈ link.head?, connection.outLane = lane

/-- By a connection behind the first one. -/
def FeedsLater (ts : TrafficSignal) (lane : String) : Prop :=
  ∃ link, GreenLink ts link ∧
    ∃ connection ∈ link.tail, connection.outLane = lane

structure SeesServed (toFloat32 : ℚ →o ℚ) (ts : TrafficSignal) : Prop where
  complete : ∀ lane density, Feeds ts lane →
    outDensity ts lane = some density →
      density ∈ servedDownstreamOccupancies ts
  sound : ∀ density ∈ servedDownstreamOccupancies ts,
    ∃ lane, Feeds ts lane ∧ outDensity ts lane = some density
  fullest : ∀ rhoCrit lane density, Feeds ts lane →
    outDensity ts lane = some density →
      (∀ lane' density', Feeds ts lane' →
        outDensity ts lane' = some density' → density' ≤ density) →
        computeSpillbackPenalty toFloat32
            (some (servedDownstreamOccupancies ts)) rhoCrit =
          lanePenalty toFloat32 rhoCrit density
  idle : ∀ rhoCrit, (∀ lane, Feeds ts lane → outDensity ts lane = none) →
    computeSpillbackPenalty toFloat32
      (some (servedDownstreamOccupancies ts)) rhoCrit = 0

/-- No connection behind the first one brings in a density of its own. -/
def Covered (ts : TrafficSignal) : Prop :=
  ∀ lane density, FeedsLater ts lane → outDensity ts lane = some density →
    ∃ lane', FeedsFirst ts lane' ∧ outDensity ts lane' = some density

theorem feeds_iff {ts : TrafficSignal} {lane : String} :
    Feeds ts lane ↔ FeedsFirst ts lane ∨ FeedsLater ts lane := by
  constructor
  · rintro ⟨link, hgreen, connection, hmem, hlane⟩
    cases link with
    | nil => exact absurd hmem List.not_mem_nil
    | cons first later =>
        rcases List.mem_cons.mp hmem with rfl | hlater
        · exact Or.inl ⟨_, hgreen, connection, rfl, hlane⟩
        · exact Or.inr ⟨_, hgreen, connection, hlater, hlane⟩
  · rintro (⟨link, hgreen, connection, hmem, hlane⟩ |
      ⟨link, hgreen, connection, hmem, hlane⟩)
    · exact ⟨link, hgreen, connection, List.mem_of_mem_head? hmem, hlane⟩
    · exact ⟨link, hgreen, connection, List.mem_of_mem_tail hmem, hlane⟩

theorem greenLink_iff {ts : TrafficSignal} {link : List Connection} :
    GreenLink ts link ↔ ∃ signalChar, isGreen signalChar ∧
      (signalChar, link) ∈ ts.redYellowGreenState.zip ts.controlledLinks := by
  simp only [GreenLink, List.mem_iff_getElem?, List.getElem?_zip_eq_some]
  constructor
  · rintro ⟨i, signalChar, hchar, hgreen, hlink⟩
    exact ⟨signalChar, hgreen, i, hchar, hlink⟩
  · rintro ⟨signalChar, hgreen, i, hchar, hlink⟩
    exact ⟨i, signalChar, hchar, hgreen, hlink⟩

/-- The occupancies are those of the first connections. -/
theorem mem_servedDownstreamOccupancies {ts : TrafficSignal} {density : ℚ} :
    density ∈ servedDownstreamOccupancies ts ↔
      ∃ lane, FeedsFirst ts lane ∧ outDensity ts lane = some density := by
  simp only [servedDownstreamOccupancies, List.mem_filterMap, FeedsFirst,
    greenLink_iff]
  constructor
  · rintro ⟨⟨signalChar, link⟩, hmem, hdensity⟩
    dsimp only at hdensity
    split_ifs at hdensity with hgreen
    cases link with
    | nil => cases hdensity
    | cons first later =>
        exact ⟨first.outLane, ⟨_, ⟨signalChar, hgreen, hmem⟩, first, rfl, rfl⟩,
          hdensity⟩
  · rintro ⟨lane, ⟨link, ⟨signalChar, hgreen, hmem⟩, first, hfirst, rfl⟩,
      hdensity⟩
    refine ⟨(signalChar, link), hmem, ?_⟩
    cases link with
    | nil => cases hfirst
    | cons first' later =>
        obtain rfl : first' = first := Option.some.inj hfirst
        simpa only [hgreen, if_true] using hdensity

/-! ## The penalty of the fullest lane -/

section

variable (toFloat32 : ℚ →o ℚ) (rhoCrit : ℚ)

theorem computeSpillbackPenalty_of_fullest {occupancies : List ℚ}
    {occupancy : ℚ} (hmem : occupancy ∈ occupancies)
    (hmax : ∀ o ∈ occupancies, o ≤ occupancy) :
    computeSpillbackPenalty toFloat32 (some occupancies) rhoCrit =
      lanePenalty toFloat32 rhoCrit occupancy := by
  have hworst : (occupancies.map fun o => clip (toFloat32 o) 0 1).max? =
      some (clip (toFloat32 occupancy) 0 1) := by
    rw [List.max?_eq_some_iff]
    refine ⟨List.mem_map_of_mem hmem, fun worst hworst => ?_⟩
    obtain ⟨o, ho, rfl⟩ := List.mem_map.mp hworst
    exact clip_mono (toFloat32.monotone (hmax o ho)) 0 1
  rw [computeSpillbackPenalty, hworst, lanePenalty]

end

/-! ## When every served lane is seen -/

theorem exists_feeds_of_mem {ts : TrafficSignal} {density : ℚ}
    (hmem : density ∈ servedDownstreamOccupancies ts) :
    ∃ lane, Feeds ts lane ∧ outDensity ts lane = some density := by
  obtain ⟨lane, hfirst, hdensity⟩ := mem_servedDownstreamOccupancies.mp hmem
  exact ⟨lane, feeds_iff.mpr (Or.inl hfirst), hdensity⟩

theorem seesServed_iff_covered (toFloat32 : ℚ →o ℚ) (ts : TrafficSignal) :
    SeesServed toFloat32 ts ↔ Covered ts := by
  constructor
  · intro h lane density hlater hdensity
    exact mem_servedDownstreamOccupancies.mp
      (h.complete lane density (feeds_iff.mpr (Or.inr hlater)) hdensity)
  · intro hcovered
    have hcomplete : ∀ lane density, Feeds ts lane →
        outDensity ts lane = some density →
          density ∈ servedDownstreamOccupancies ts := by
      intro lane density hfeeds hdensity
      rw [mem_servedDownstreamOccupancies]
      rcases feeds_iff.mp hfeeds with hfirst | hlater
      · exact ⟨lane, hfirst, hdensity⟩
      · exact hcovered lane density hlater hdensity
    refine ⟨hcomplete, fun density => exists_feeds_of_mem, ?_, ?_⟩
    · intro rhoCrit lane density hfeeds hdensity hmax
      refine computeSpillbackPenalty_of_fullest toFloat32 rhoCrit
        (hcomplete lane density hfeeds hdensity) fun o ho => ?_
      obtain ⟨lane', hfeeds', hdensity'⟩ := exists_feeds_of_mem ho
      exact hmax lane' o hfeeds' hdensity'
    · intro rhoCrit hnone
      have hempty : servedDownstreamOccupancies ts = [] := by
        refine List.eq_nil_iff_forall_not_mem.mpr fun density hmem => ?_
        obtain ⟨lane, hfeeds, hdensity⟩ := exists_feeds_of_mem hmem
        rw [hnone lane hfeeds] at hdensity
        cases hdensity
      rw [hempty]
      rfl

/-- One green index leads into two lanes, of which the second is full. -/
def sharedGreen : TrafficSignal where
  redYellowGreenState := ['G', 'r']
  controlledLinks :=
    [[⟨"ew_in_0", "arterial_out", "via0"⟩, ⟨"ew_in_0", "cross_out", "via1"⟩],
      [⟨"ns_in_0", "cross_out", "via2"⟩]]
  outLanes := ["arterial_out", "cross_out"]
  outLanesDensity := [0, 1]

theorem full_cross_street_unseen :
    servedDownstreamOccupancies sharedGreen = [0] ∧
      computeSpillbackPenalty OrderHom.id
          (some (servedDownstreamOccupancies sharedGreen)) = 0 ∧
        lanePenalty OrderHom.id (85 / 100) 1 = -1 ∧
          ¬ ∀ ts, SeesServed OrderHom.id ts := by
  have hserved : servedDownstreamOccupancies sharedGreen = [0] := by
    decide +kernel
  refine ⟨hserved, by decide +kernel, by decide +kernel, fun hall => ?_⟩
  have hgreen : GreenLink sharedGreen (sharedGreen.controlledLinks.head
      (List.cons_ne_nil _ _)) := ⟨0, 'G', rfl, rfl, rfl⟩
  have hfeeds : Feeds sharedGreen "cross_out" :=
    ⟨_, hgreen, _, List.mem_cons_of_mem _ List.mem_cons_self, rfl⟩
  have hseen := (hall sharedGreen).complete "cross_out" 1 hfeeds
    (by decide +kernel)
  rw [hserved] at hseen
  exact absurd (List.mem_singleton.mp hseen) one_ne_zero

/-! ## Signals that are seen whatever the traffic -/

theorem mem_of_outDensity {ts : TrafficSignal} {lane : String} {density : ℚ}
    (h : outDensity ts lane = some density) :
    (lane, density) ∈ ts.outLanes.zip ts.outLanesDensity := by
  obtain ⟨before, after, heq, -⟩ := List.lookup_eq_some_iff.mp h
  rw [← List.mem_reverse, heq]
  exact List.mem_append_right before List.mem_cons_self

theorem mem_zip_map {lanes : List String} {f : String → ℚ} {lane : String}
    {density : ℚ} : (lane, density) ∈ lanes.zip (lanes.map f) ↔
      lane ∈ lanes ∧ f lane = density := by
  have hzip := List.zip_map' (f := id) (g := f) (l := lanes)
  rw [List.map_id] at hzip
  rw [hzip, List.mem_map]
  constructor
  · rintro ⟨lane', hmem, heq⟩
    obtain ⟨rfl, rfl⟩ := Prod.mk.inj heq
    exact ⟨hmem, rfl⟩
  · rintro ⟨hmem, rfl⟩
    exact ⟨lane, hmem, rfl⟩

theorem outDensity_map {ts : TrafficSignal} {f : String → ℚ} {lane : String}
    {density : ℚ} :
    outDensity { ts with outLanesDensity := ts.outLanes.map f } lane =
        some density ↔ lane ∈ ts.outLanes ∧ f lane = density := by
  constructor
  · intro h
    exact mem_zip_map.mp (mem_of_outDensity h)
  · rintro ⟨hmem, rfl⟩
    cases h : outDensity { ts with outLanesDensity := ts.outLanes.map f } lane with
    | none =>
        have hpair : (lane, f lane) ∈ ts.outLanes.zip (ts.outLanes.map f) :=
          mem_zip_map.mpr ⟨hmem, rfl⟩
        have hne := List.lookup_eq_none_iff.mp h _ (List.mem_reverse.mpr hpair)
        exact absurd hne (by simp)
    | some density =>
        rw [(mem_zip_map.mp (mem_of_outDensity h)).2]

theorem seesServed_forall_iff (toFloat32 : ℚ →o ℚ) (ts : TrafficSignal) :
    (∀ densities : List ℚ, densities.length = ts.outLanes.length →
        SeesServed toFloat32 { ts with outLanesDensity := densities }) ↔
      ∀ lane ∈ ts.outLanes, FeedsLater ts lane → FeedsFirst ts lane := by
  simp only [seesServed_iff_covered]
  constructor
  · intro hall lane hmem hlater
    -- this lane full, all others empty
    let full : String → ℚ := fun lane' => if lane' = lane then 1 else 0
    have hcovered := hall (ts.outLanes.map full) (List.length_map full)
    obtain ⟨lane', hfirst, hdensity⟩ := hcovered lane 1 hlater
      (outDensity_map.mpr ⟨hmem, if_pos rfl⟩)
    have hfull : full lane' = 1 := (outDensity_map.mp hdensity).2
    obtain rfl : lane' = lane := by
      by_contra hne
      rw [show full lane' = 0 from if_neg hne] at hfull
      exact zero_ne_one hfull
    exact hfirst
  · intro hlanes densities _ lane density hlater hdensity
    have hmem := (List.of_mem_zip (mem_of_outDensity hdensity)).1
    exact ⟨lane, hlanes lane hmem hlater, hdensity⟩

end Spillback

end Semaforo
