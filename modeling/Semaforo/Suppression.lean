import Semaforo.Detector
import Semaforo.GreedySelection
import Semaforo.Tracker
import Mathlib.Tactic

/-!
# Non-maximum suppression

`ObjectPool` and `Detector::Impl::apply_nms`: the detections in an order of
non-increasing confidence, one suppression flag for each, the survivors acquired
from a pool that never grows beyond its capacity.
-/

namespace Semaforo

/-! ## The pool -/

structure ObjectPool (α : Type) where
  slots : List α
  capacity : ℕ
  bounded : slots.length ≤ capacity

namespace ObjectPool

variable {α : Type}

def clear (pool : ObjectPool α) : ObjectPool α where
  slots := []
  capacity := pool.capacity
  bounded := Nat.zero_le pool.capacity

/-- `acquire`, and the value its caller puts into the slot. -/
def acquire (pool : ObjectPool α) (value : α) : Option (ObjectPool α) :=
  if hfull : pool.capacity ≤ pool.slots.length then none
  else
    some
      { slots := pool.slots ++ [value]
        capacity := pool.capacity
        bounded := by
          rw [List.length_append, List.length_singleton]
          omega }

theorem acquire_full {pool : ObjectPool α} (value : α)
    (hfull : ¬ pool.slots.length < pool.capacity) :
    pool.acquire value = none := by
  unfold acquire
  rw [dif_pos (not_lt.mp hfull)]

theorem acquire_room {pool : ObjectPool α} (value : α)
    (hroom : pool.slots.length < pool.capacity) :
    ∃ next, pool.acquire value = some next ∧
      next.slots = pool.slots ++ [value] ∧ next.capacity = pool.capacity := by
  unfold acquire
  rw [dif_neg (not_le.mpr hroom)]
  exact ⟨_, rfl, rfl, rfl⟩

end ObjectPool

/-! ## The suppression -/

namespace Suppression

section Loops

variable {α : Type} [Zero α] [Add α] [Sub α] [Mul α] [Div α] [LT α]
variable [DecidableLT α]

/-- What `std::sort` may leave in the vector: some order of its detections in
which no confidence is greater than an earlier one. -/
structure SortedDetections (detections : List (Detection α)) where
  list : List (Detection α)
  perm : list.Perm detections
  ordered : list.Pairwise fun a b => ¬ a.confidence < b.confidence

/-- The test of the inner loop. -/
def suppresses (nmsThreshold : α) (a b : Detection α) : Bool :=
  a.classId = b.classId ∧ nmsThreshold < computeIou a.bbox b.bbox

/-- The inner loop of `d` over the detections behind it and their flags. -/
def suppressBy (nmsThreshold : α) (d : Detection α)
    (rest : List (Detection α)) (suppressed : List Bool) : List Bool :=
  List.zipWith (fun e flag => if flag then flag else suppresses nmsThreshold d e)
    rest suppressed

/-- The outer loop from some index on, with the flags from there on. -/
def nmsLoop (nmsThreshold : α) :
    List (Detection α) → List Bool → ObjectPool (Detection α) →
      ObjectPool (Detection α)
  | d :: rest, flag :: suppressed, out =>
      if flag then nmsLoop nmsThreshold rest suppressed out
      else
        match out.acquire d with
        | none => out
        | some next =>
            nmsLoop nmsThreshold rest
              (suppressBy nmsThreshold d rest suppressed) next
  | _, _, out => out

def applyNms (nmsThreshold : α) {detections : List (Detection α)}
    (sorted : SortedDetections detections)
    (out : ObjectPool (Detection α)) : ObjectPool (Detection α) :=
  if detections.isEmpty then out
  else
    nmsLoop nmsThreshold sorted.list
      (List.replicate sorted.list.length false) out

open GreedySelection

theorem suppressBy_blocked (nmsThreshold : α) (kept : List (Detection α))
    (d : Detection α) (rest : List (Detection α)) :
    suppressBy nmsThreshold d rest
      (rest.map (blocked (suppresses nmsThreshold) kept)) =
      rest.map (blocked (suppresses nmsThreshold) (kept ++ [d])) := by
  unfold suppressBy
  rw [List.zipWith_map_right, List.zipWith_self]
  apply List.map_congr_left
  intro e _
  unfold blocked
  rw [List.any_append]
  cases kept.any fun x => suppresses nmsThreshold x e with
  | true => rfl
  | false => simp

/-- The flags say which detections are blocked by an emitted one, so the loops
are a greedy selection. -/
theorem nmsLoop_slots (nmsThreshold : α) :
    ∀ (sorted : List (Detection α)) (out : ObjectPool (Detection α)),
      (nmsLoop nmsThreshold sorted
        (sorted.map (blocked (suppresses nmsThreshold) out.slots)) out).slots =
        selectUpTo (suppresses nmsThreshold) out.capacity out.slots sorted := by
  intro sorted
  induction sorted with
  | nil =>
      intro out
      rfl
  | cons d rest ih =>
      intro out
      rw [List.map_cons]
      unfold nmsLoop selectUpTo
      by_cases hblocked : blocked (suppresses nmsThreshold) out.slots d = true
      · rw [if_pos hblocked, if_pos hblocked]
        exact ih out
      rw [if_neg hblocked, if_neg hblocked]
      by_cases hroom : out.slots.length < out.capacity
      · obtain ⟨next, hnext, hslots, hcapacity⟩ :=
          ObjectPool.acquire_room d hroom
        rw [if_pos hroom, hnext]
        dsimp only
        rw [suppressBy_blocked, ← hslots, ← hcapacity]
        exact ih next
      · rw [if_neg hroom, ObjectPool.acquire_full d hroom]

theorem applyNms_slots (nmsThreshold : α) {detections : List (Detection α)}
    (sorted : SortedDetections detections) (pool : ObjectPool (Detection α)) :
    (applyNms nmsThreshold sorted pool.clear).slots =
      selectUpTo (suppresses nmsThreshold) pool.capacity [] sorted.list := by
  have hloop := nmsLoop_slots nmsThreshold sorted.list pool.clear
  have hflags : sorted.list.map (blocked (suppresses nmsThreshold) []) =
      List.replicate sorted.list.length false := by
    rw [List.eq_replicate_iff]
    refine ⟨List.length_map .., ?_⟩
    intro flag hflag
    obtain ⟨d, _, rfl⟩ := List.mem_map.mp hflag
    rfl
  unfold applyNms
  split_ifs with hempty
  · have hnil : sorted.list = [] := by
      apply List.length_eq_zero_iff.mp
      calc
        sorted.list.length = detections.length := sorted.perm.length_eq
        _ = 0 := List.length_eq_zero_iff.mpr (List.isEmpty_iff.mp hempty)
    rw [hnil]
    rfl
  · rw [← hflags]
    exact hloop

end Loops

/-! ## Exact arithmetic -/

section Exact

variable {α : Type} [Field α] [LinearOrder α]

open GreedySelection

omit [Field α] in
theorem stdMax_eq (x y : α) : stdMax x y = max x y := by
  unfold stdMax
  split_ifs with hlt
  · exact (max_eq_right hlt.le).symm
  · exact (max_eq_left (not_lt.mp hlt)).symm

omit [Field α] in
theorem stdMin_eq (x y : α) : stdMin x y = min x y := by
  unfold stdMin
  split_ifs with hlt
  · exact (min_eq_right hlt.le).symm
  · exact (min_eq_left (not_lt.mp hlt)).symm

theorem computeIou_comm (a b : BBox α) : computeIou a b = computeIou b a := by
  unfold computeIou
  simp only [stdMax_eq, stdMin_eq, max_comm b.x a.x, max_comm b.y a.y,
    min_comm (b.x + b.width) (a.x + a.width),
    min_comm (b.y + b.height) (a.y + a.height),
    add_comm (b.width * b.height) (a.width * a.height)]

theorem suppresses_iff (nmsThreshold : α) (a b : Detection α) :
    suppresses nmsThreshold a b = true ↔
      a.classId = b.classId ∧ nmsThreshold < computeIou a.bbox b.bbox := by
  unfold suppresses
  rw [decide_eq_true_eq]

/-- A sort that keeps the order of equal confidences is one `std::sort`. -/
def stableSort (detections : List (Detection α)) :
    SortedDetections detections where
  list := detections.mergeSort fun a b => decide (b.confidence ≤ a.confidence)
  perm := List.mergeSort_perm ..
  ordered := by
    have htrans : ∀ a b c : Detection α,
        decide (b.confidence ≤ a.confidence) = true →
        decide (c.confidence ≤ b.confidence) = true →
        decide (c.confidence ≤ a.confidence) = true := by
      intro a b c hab hbc
      rw [decide_eq_true_eq] at *
      exact hbc.trans hab
    have htotal : ∀ a b : Detection α,
        (decide (b.confidence ≤ a.confidence) ||
          decide (a.confidence ≤ b.confidence)) = true := by
      intro a b
      rw [Bool.or_eq_true, decide_eq_true_eq, decide_eq_true_eq]
      exact le_total b.confidence a.confidence
    have hsorted := List.pairwise_mergeSort htrans htotal detections
    exact hsorted.imp fun hle => not_lt.mpr (of_decide_eq_true hle)

/-- The survivors are detections of the frame in order of confidence, no more
than the pool holds and independent within each class.  Every other detection
overlaps a survivor of its class that is at least as confident, or the pool is
full.  A pool of greater capacity starts with the same survivors. -/
theorem applyNms_spec (nmsThreshold : α) (detections : List (Detection α))
    (sorted : SortedDetections detections) (pool : ObjectPool (Detection α)) :
    let emitted := (applyNms nmsThreshold sorted pool.clear).slots
    (∃ dropped, (emitted ++ dropped).Perm detections ∧
      ∀ d ∈ dropped,
        (∃ e ∈ emitted, e.classId = d.classId ∧
          d.confidence ≤ e.confidence ∧
          nmsThreshold < computeIou e.bbox d.bbox) ∨
        emitted.length = pool.capacity) ∧
    emitted.Pairwise (fun a b => b.confidence ≤ a.confidence) ∧
    emitted.length ≤ pool.capacity ∧
    emitted.Pairwise (fun a b => a.classId = b.classId →
      computeIou a.bbox b.bbox ≤ nmsThreshold ∧
      computeIou b.bbox a.bbox ≤ nmsThreshold) ∧
    ∀ larger : ObjectPool (Detection α), pool.capacity ≤ larger.capacity →
      emitted = (applyNms nmsThreshold sorted larger.clear).slots.take
        pool.capacity := by
  intro emitted
  have hslots : emitted = selectUpTo (suppresses nmsThreshold) pool.capacity
      [] sorted.list := applyNms_slots nmsThreshold sorted pool
  have hordered : sorted.list.Pairwise
      (fun a b => b.confidence ≤ a.confidence) :=
    sorted.ordered.imp fun hlt => not_lt.mp hlt
  have hlength : emitted.length ≤ pool.capacity := by
    rw [hslots]
    exact selectUpTo_length_le _ _ _ _ (Nat.zero_le _)
  obtain ⟨chosen, dropped, hchosen, hsublist, hperm, hdropped⟩ :=
    selectUpTo_outcome (suppresses nmsThreshold) pool.capacity sorted.list []
      hordered (by
        intro e he
        cases he)
  rw [← hslots, List.nil_append] at hchosen
  rw [← hslots] at hdropped
  refine ⟨⟨dropped, ?_, ?_⟩, ?_, hlength, ?_, ?_⟩
  · rw [hchosen]
    exact hperm.trans sorted.perm
  · intro d hd
    cases hdropped d hd with
    | inl hconflict =>
        left
        obtain ⟨e, he, hconflict, hconfidence⟩ := hconflict
        rw [suppresses_iff] at hconflict
        exact ⟨e, he, hconflict.1, hconfidence, hconflict.2⟩
    | inr hfull =>
        right
        exact le_antisymm hlength hfull
  · rw [hchosen]
    exact hordered.sublist hsublist
  · have hindependent := selectUpTo_independent (suppresses nmsThreshold)
      pool.capacity sorted.list [] List.Pairwise.nil
    rw [← hslots] at hindependent
    apply hindependent.imp
    intro a b hconflict hclass
    have hiou : ¬ nmsThreshold < computeIou a.bbox b.bbox := by
      intro hlt
      rw [(suppresses_iff nmsThreshold a b).mpr ⟨hclass, hlt⟩] at hconflict
      cases hconflict
    rw [computeIou_comm b.bbox a.bbox]
    exact ⟨not_lt.mp hiou, not_lt.mp hiou⟩
  · intro larger hle
    rw [hslots, applyNms_slots nmsThreshold sorted larger]
    exact selectUpTo_eq_take _ hle _ _ (Nat.zero_le _)

end Exact

end Suppression

end Semaforo
