import Semaforo.BinaryRounding
import Semaforo.PyJson
import Mathlib.Tactic

/-!
# Green-wave offsets

`compute_offsets` and `compute_bidirectional_offsets` of
`brain/src/coordination/green_wave.py`, in exact arithmetic but for the rounding
to hundredths of a second.  The reverse direction is the forward computation on
the reversed list, so its distances are measured upstream and come out
negative.
-/

namespace Semaforo

namespace GreenWave

open BinaryRounding

structure Intersection where
  id : String
  positionM : ℚ
  cycleLength : ℚ := 60
  deriving DecidableEq, Repr

/-- `round(x, 2)`. -/
def round2 (x : ℚ) : ℚ := roundHalfEven (100 * x) / 100

def computeOffsets (corridor : List Intersection)
    (targetSpeedKmh : ℚ := 50) : Except PyError (List ℚ) :=
  match corridor with
  | first :: second :: later =>
      if targetSpeedKmh ≤ 0 then
        .error (.valueError "target_speed_kmh must be positive.")
      else
        let speedMs := targetSpeedKmh / (36 / 10)
        let origin := first.positionM
        .ok ((first :: second :: later).map fun intersection =>
          round2 ((intersection.positionM - origin) / speedMs))
  | _ => .error (.valueError "At least two intersections are required.")

def computeBidirectionalOffsets (corridor : List Intersection)
    (targetSpeedKmh : ℚ := 50) : Except PyError (List ℚ × List ℚ) := do
  let forward ← computeOffsets corridor targetSpeedKmh
  let reverse ← computeOffsets corridor.reverse targetSpeedKmh
  return (forward, reverse)

/-! ## What the two lists should be -/

/-- The times after which a vehicle that starts at the first intersection of
the list reaches each of them. -/
def travelTimes (corridor : List Intersection) (targetSpeedKmh : ℚ) : List ℚ :=
  match corridor.head? with
  | none => []
  | some first =>
      corridor.map fun intersection =>
        |intersection.positionM - first.positionM| /
          (targetSpeedKmh / (36 / 10))

/-- Two lists of offsets of one corridor, one for each direction. -/
structure Mirrored (forward reverse : List ℚ) : Prop where
  nonneg : ∀ t ∈ forward ++ reverse, 0 ≤ t
  forward_increasing : forward.Pairwise (· ≤ ·)
  reverse_increasing : reverse.Pairwise (· ≤ ·)
  starts : forward.head? = some 0 ∧ reverse.head? = some 0
  total : forward.getLast? = reverse.getLast?
  mirror : reverse = forward.reverse.map fun t => forward.getLastD 0 - t

/-- Up to the rounding, both lists are the travel times of their direction. -/
def BidirectionalWave (corridor : List Intersection) (targetSpeedKmh : ℚ) :
    Prop :=
  ∃ forward reverse,
    computeBidirectionalOffsets corridor targetSpeedKmh =
        .ok (forward.map round2, reverse.map round2) ∧
      forward = travelTimes corridor targetSpeedKmh ∧
      reverse = travelTimes corridor.reverse targetSpeedKmh ∧
      Mirrored forward reverse

def Sorted (corridor : List Intersection) : Prop :=
  corridor.Pairwise fun x y => x.positionM ≤ y.positionM

/-- The whole corridor takes at most half a hundredth of a second. -/
def Negligible (corridor : List Intersection) (targetSpeedKmh : ℚ) : Prop :=
  ∀ first ∈ corridor.head?, ∀ last ∈ corridor.getLast?,
    (last.positionM - first.positionM) / (targetSpeedKmh / (36 / 10)) ≤ 1 / 200

/-! ## Rounding -/

theorem roundHalfEven_zero_of_small {x : ℚ} (hlow : -(1 / 2) < x)
    (hhigh : x < 1 / 2) : roundHalfEven x = 0 := by
  obtain ⟨hle, hge⟩ := roundHalfEven_near x
  have hlower : (-1 : ℚ) < roundHalfEven x := by linarith
  have hupper : (roundHalfEven x : ℚ) < 1 := by linarith
  have hlower' : -1 < roundHalfEven x := by exact_mod_cast hlower
  have hupper' : roundHalfEven x < 1 := by exact_mod_cast hupper
  omega

/-- A time and its negation round to the same value exactly if it is at most
half a hundredth. -/
theorem round2_neg_eq_iff {t : ℚ} (ht : 0 ≤ t) :
    round2 (-t) = round2 t ↔ t ≤ 1 / 200 := by
  constructor
  · intro hround
    by_contra hlarge
    have hpos := (roundHalfEven_near (100 * t)).1
    have hneg := (roundHalfEven_near (100 * -t)).2
    unfold round2 at hround
    have heq : (roundHalfEven (100 * -t) : ℚ) = roundHalfEven (100 * t) := by
      linarith
    linarith [not_le.mp hlarge]
  · intro hsmall
    unfold round2
    rcases hsmall.lt_or_eq with hlt | rfl
    · rw [roundHalfEven_zero_of_small (by linarith) (by linarith),
        roundHalfEven_zero_of_small (by linarith) (by linarith)]
    · decide +kernel

/-! ## Both directions -/

theorem computeOffsets_eq_ok {corridor : List Intersection}
    {first : Intersection} {targetSpeedKmh : ℚ}
    (hlength : 2 ≤ corridor.length) (hfirst : corridor.head? = some first)
    (hspeed : 0 < targetSpeedKmh) :
    computeOffsets corridor targetSpeedKmh =
      .ok (corridor.map fun x => round2
        ((x.positionM - first.positionM) / (targetSpeedKmh / (36 / 10)))) := by
  match corridor, hlength with
  | x :: y :: later, _ =>
      obtain rfl : x = first := by simpa using hfirst
      rw [computeOffsets, if_neg (not_le.mpr hspeed)]

theorem Sorted.first_le {corridor : List Intersection} (h : Sorted corridor)
    {first : Intersection} (hfirst : corridor.head? = some first) :
    ∀ x ∈ corridor, first.positionM ≤ x.positionM := by
  obtain ⟨later, rfl⟩ := List.head?_eq_some_iff.mp hfirst
  exact List.forall_mem_cons.mpr ⟨le_rfl, (List.pairwise_cons.mp h).1⟩

theorem Sorted.le_last {corridor : List Intersection} (h : Sorted corridor)
    {last : Intersection} (hlast : corridor.getLast? = some last) :
    ∀ x ∈ corridor, x.positionM ≤ last.positionM := by
  obtain ⟨earlier, rfl⟩ := List.getLast?_eq_some_iff.mp hlast
  intro x hx
  rcases List.mem_append.mp hx with hmem | hmem
  · exact (List.pairwise_append.mp h).2.2 x hmem last
      (List.mem_singleton_self last)
  · rw [List.mem_singleton.mp hmem]

section

variable {corridor : List Intersection} {first last : Intersection}
  {targetSpeedKmh : ℚ}

theorem travelTimes_forward (hsorted : Sorted corridor)
    (hfirst : corridor.head? = some first) :
    travelTimes corridor targetSpeedKmh =
      corridor.map fun x =>
        (x.positionM - first.positionM) / (targetSpeedKmh / (36 / 10)) := by
  rw [travelTimes, hfirst]
  apply List.map_congr_left
  intro x hx
  rw [abs_of_nonneg (sub_nonneg.mpr (hsorted.first_le hfirst x hx))]

theorem travelTimes_reverse (hsorted : Sorted corridor)
    (hlast : corridor.getLast? = some last) :
    travelTimes corridor.reverse targetSpeedKmh =
      corridor.reverse.map fun x =>
        (last.positionM - x.positionM) / (targetSpeedKmh / (36 / 10)) := by
  rw [travelTimes, List.head?_reverse, hlast]
  apply List.map_congr_left
  intro x hx
  have hle := hsorted.le_last hlast x (List.mem_reverse.mp hx)
  rw [abs_sub_comm, abs_of_nonneg (sub_nonneg.mpr hle)]

/-- The travel times of the two directions mirror each other. -/
theorem mirrored_travelTimes (hsorted : Sorted corridor)
    (hspeed : 0 < targetSpeedKmh) (hfirst : corridor.head? = some first)
    (hlast : corridor.getLast? = some last) :
    Mirrored (travelTimes corridor targetSpeedKmh)
      (travelTimes corridor.reverse targetSpeedKmh) := by
  have hspeedMs : 0 < targetSpeedKmh / (36 / 10) :=
    div_pos hspeed (by norm_num)
  have hforwardLast : (corridor.map fun x =>
      (x.positionM - first.positionM) / (targetSpeedKmh / (36 / 10))).getLast? =
        some ((last.positionM - first.positionM) /
          (targetSpeedKmh / (36 / 10))) := by
    rw [List.getLast?_map, hlast, Option.map_some]
  rw [travelTimes_forward hsorted hfirst, travelTimes_reverse hsorted hlast]
  constructor
  · intro t ht
    rcases List.mem_append.mp ht with hmem | hmem
    · obtain ⟨x, hx, rfl⟩ := List.mem_map.mp hmem
      exact div_nonneg (sub_nonneg.mpr (hsorted.first_le hfirst x hx)) hspeedMs.le
    · obtain ⟨x, hx, rfl⟩ := List.mem_map.mp hmem
      exact div_nonneg (sub_nonneg.mpr
        (hsorted.le_last hlast x (List.mem_reverse.mp hx))) hspeedMs.le
  · rw [List.pairwise_map]
    refine hsorted.imp fun {x y} hle => ?_
    exact div_le_div_of_nonneg_right (sub_le_sub_right hle _) hspeedMs.le
  · rw [List.pairwise_map, List.pairwise_reverse]
    refine hsorted.imp fun {x y} hle => ?_
    exact div_le_div_of_nonneg_right (sub_le_sub_left hle _) hspeedMs.le
  · rw [List.head?_map, List.head?_map, hfirst, List.head?_reverse, hlast]
    simp
  · rw [hforwardLast, List.getLast?_map, List.getLast?_reverse, hfirst]
    rfl
  · rw [List.getLastD_eq_getLast?, hforwardLast, ← List.map_reverse,
      List.map_map]
    apply List.map_congr_left
    intro x _
    simp only [Option.getD_some, Function.comp_apply]
    ring

theorem computeBidirectionalOffsets_eq_ok (hlength : 2 ≤ corridor.length)
    (hspeed : 0 < targetSpeedKmh) (hfirst : corridor.head? = some first)
    (hlast : corridor.getLast? = some last) :
    computeBidirectionalOffsets corridor targetSpeedKmh =
      .ok (corridor.map (fun x => round2
          ((x.positionM - first.positionM) / (targetSpeedKmh / (36 / 10)))),
        corridor.reverse.map fun x => round2
          ((x.positionM - last.positionM) / (targetSpeedKmh / (36 / 10)))) := by
  rw [computeBidirectionalOffsets, computeOffsets_eq_ok hlength hfirst hspeed,
    computeOffsets_eq_ok (by rwa [List.length_reverse])
      (by rw [List.head?_reverse, hlast]) hspeed]
  rfl

/-- The negated travel times of the upstream direction are told from the travel
times unless all of them round to zero. -/
theorem reverse_rounded_iff (hsorted : Sorted corridor)
    (hspeed : 0 < targetSpeedKmh) (hlast : corridor.getLast? = some last) :
    (corridor.reverse.map fun x => round2
        ((x.positionM - last.positionM) / (targetSpeedKmh / (36 / 10)))) =
      (travelTimes corridor.reverse targetSpeedKmh).map round2 ↔
    ∀ x ∈ corridor, (last.positionM - x.positionM) /
      (targetSpeedKmh / (36 / 10)) ≤ 1 / 200 := by
  rw [travelTimes_reverse hsorted hlast, List.map_map, List.map_inj_left]
  simp only [List.mem_reverse]
  refine forall₂_congr fun x hx => ?_
  have hnonneg : 0 ≤ (last.positionM - x.positionM) /
      (targetSpeedKmh / (36 / 10)) :=
    div_nonneg (sub_nonneg.mpr (hsorted.le_last hlast x hx))
      (div_pos hspeed (by norm_num)).le
  rw [← round2_neg_eq_iff hnonneg, ← neg_div, neg_sub]
  rfl

theorem bidirectionalWave_iff_negligible (corridor : List Intersection)
    (targetSpeedKmh : ℚ) (hlength : 2 ≤ corridor.length)
    (hsorted : Sorted corridor) (hspeed : 0 < targetSpeedKmh) :
    BidirectionalWave corridor targetSpeedKmh ↔
      Negligible corridor targetSpeedKmh := by
  have hne : corridor ≠ [] := List.ne_nil_of_length_pos (by omega)
  obtain ⟨first, hfirst⟩ := Option.ne_none_iff_exists'.mp
    (mt List.head?_eq_none_iff.mp hne)
  obtain ⟨last, hlast⟩ := Option.ne_none_iff_exists'.mp
    (mt List.getLast?_eq_none_iff.mp hne)
  have hcompute := computeBidirectionalOffsets_eq_ok hlength hspeed hfirst hlast
  have hforward : (travelTimes corridor targetSpeedKmh).map round2 =
      corridor.map fun x => round2
        ((x.positionM - first.positionM) / (targetSpeedKmh / (36 / 10))) := by
    rw [travelTimes_forward hsorted hfirst, List.map_map]
    rfl
  constructor
  · rintro ⟨_, _, hok, rfl, rfl, -⟩ f hf l hl
    rw [hcompute, Except.ok.injEq, Prod.mk.injEq] at hok
    obtain rfl : first = f := Option.some.inj (hfirst.symm.trans hf)
    obtain rfl : last = l := Option.some.inj (hlast.symm.trans hl)
    exact (reverse_rounded_iff hsorted hspeed hlast).mp hok.2 first
      (List.mem_of_mem_head? hfirst)
  · intro hshort
    refine ⟨_, _, ?_, rfl, rfl, mirrored_travelTimes hsorted hspeed hfirst hlast⟩
    rw [hcompute, hforward, (reverse_rounded_iff hsorted hspeed hlast).mpr]
    intro x hx
    calc
      (last.positionM - x.positionM) / (targetSpeedKmh / (36 / 10)) ≤
          (last.positionM - first.positionM) / (targetSpeedKmh / (36 / 10)) :=
        div_le_div_of_nonneg_right
          (sub_le_sub_left (hsorted.first_le hfirst x hx) _)
          (div_pos hspeed (by norm_num)).le
      _ ≤ 1 / 200 := hshort first hfirst last hlast

end

/-- Half a kilometre between neighbours, at ten metres a second. -/
def threeIntersections : List Intersection :=
  [⟨"a", 0, 60⟩, ⟨"b", 500, 60⟩, ⟨"c", 1000, 60⟩]

theorem threeIntersections_sorted : Sorted threeIntersections := by
  unfold Sorted
  decide +kernel

theorem bidirectionalWave_iff_negligible_three :
    BidirectionalWave threeIntersections 36 ↔ Negligible threeIntersections 36 :=
  bidirectionalWave_iff_negligible threeIntersections 36 (by decide)
    threeIntersections_sorted (by norm_num)

theorem threeIntersections_upstream_negative :
    computeBidirectionalOffsets threeIntersections 36 =
        .ok ([0, 50, 100], [0, -50, -100]) ∧
      ¬ ∀ (corridor : List Intersection) (targetSpeedKmh : ℚ),
        2 ≤ corridor.length → Sorted corridor → 0 < targetSpeedKmh →
          BidirectionalWave corridor targetSpeedKmh := by
  have hcompute : computeBidirectionalOffsets threeIntersections 36 =
      .ok ([0, 50, 100], [0, -50, -100]) := by decide +kernel
  refine ⟨hcompute, fun hall => ?_⟩
  obtain ⟨forward, reverse, hok, -, hreverse, -⟩ :=
    hall threeIntersections 36 (by decide) threeIntersections_sorted
      (by norm_num)
  have htimes : (travelTimes threeIntersections.reverse 36).map round2 =
      [0, 50, 100] := by decide +kernel
  rw [hcompute, Except.ok.injEq, Prod.mk.injEq, hreverse, htimes] at hok
  exact absurd hok.2 (by decide +kernel)

end GreenWave

end Semaforo
