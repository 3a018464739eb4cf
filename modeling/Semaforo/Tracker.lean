import Mathlib.Data.List.GetD
import Mathlib.Tactic
import Semaforo.Detector
import Semaforo.HungarianSolver
import Semaforo.UnorderedMap

/-!
# `VehicleTracker::update`

One update predicts every track, associates the detections of the frame by the
assignment solver, corrects the matched tracks, spawns the others, erases what
was unseen too long and emits the confirmed tracks into the pool.  Boxes are
over any arithmetic; the Kalman filter is a parameter.
-/

namespace Semaforo

section Iou

variable {α : Type} [Zero α] [Add α] [Sub α] [Mul α] [Div α] [LT α]
variable [DecidableLT α]

def stdMax (x y : α) : α := if x < y then y else x

def stdMin (x y : α) : α := if y < x then y else x

def computeIou (a b : BBox α) : α :=
  let x1 := stdMax a.x b.x
  let y1 := stdMax a.y b.y
  let x2 := stdMin (a.x + a.width) (b.x + b.width)
  let y2 := stdMin (a.y + a.height) (b.y + b.height)
  let interArea := stdMax 0 (x2 - x1) * stdMax 0 (y2 - y1)
  let unionArea := a.width * a.height + b.width * b.height - interArea
  if 0 < unionArea then interArea / unionArea else 0

end Iou

/-- The operations of `KalmanBoxFilter`. -/
structure BoxFilter (α Φ : Type) where
  init : BBox α → Φ
  predict : Φ → α → Φ
  update : Φ → BBox α → Φ
  bbox : Φ → BBox α
  vx : Φ → α
  vy : Φ → α

/-- The filter together with the number format of the boxes: a `float` ratio
of areas is never negative and never above `2 ^ 24`, exceptional boxes included. -/
structure BoxModel (α Φ K : Type) [Zero α] [Add α] [Sub α] [Mul α] [Div α] [LT α]
    [DecidableLT α] [Field K] [LinearOrder K] extends BoxFilter α Φ where
  toDouble : α → K
  iou_nonneg : ∀ a b, 0 ≤ toDouble (computeIou a b)
  iou_le : ∀ a b, toDouble (computeIou a b) ≤ 2 ^ 24

structure TrackedObject (α : Type) where
  trackId : ℕ
  detection : Detection α
  age : ℤ
  framesSinceSeen : ℤ
  velocityX : α
  velocityY : α
  firstSeen : ℤ
  lastSeen : ℤ
  deriving DecidableEq, Repr

structure Track (α Φ : Type) where
  obj : TrackedObject α
  kf : Φ
  deriving DecidableEq, Repr

structure TrackerConfig (α : Type) where
  iouThreshold : α
  maxAge : ℤ := 30
  minHits : ℤ := 3
  deriving DecidableEq, Repr

structure VehicleTracker (α Φ : Type) where
  tracks : UnorderedMap ℕ (Track α Φ) := .empty
  nextId : ℕ := 0

/-- What one call of `update` is given; the map may be rearranged by the
insertions of the call. -/
structure TrackerFrame (α Φ : Type) where
  detections : List (Detection α)
  dt : α
  now : ℤ
  capacity : ℕ
  order : UnorderedMap.Rearrangement ℕ (Track α Φ)

/-- What a detection did. -/
inductive Outcome where
  | updated (id : ℕ)
  | created (id : ℕ)
  deriving DecidableEq, Repr

def Outcome.id : Outcome → ℕ
  | .updated id => id
  | .created id => id

def createdIds (outcomes : List Outcome) : List ℕ :=
  outcomes.filterMap fun
    | .created id => some id
    | .updated _ => none

def updatedIds (outcomes : List Outcome) : List ℕ :=
  outcomes.filterMap fun
    | .updated id => some id
    | .created _ => none

/-- The state after an update, what its detections did, and the pool. -/
structure TrackerUpdate (α Φ : Type) where
  tracker : VehicleTracker α Φ
  outcomes : List Outcome
  emitted : List (TrackedObject α)

namespace VehicleTracker

variable {α Φ K : Type} [Zero α] [Add α] [Sub α] [Mul α] [Div α] [LT α]
variable [DecidableLT α] [Field K] [LinearOrder K]

def kInfeasibleCost : K := 10 ^ 6

/-- The prediction step of one track. -/
def advance (filter : BoxFilter α Φ) (dt : α) (track : Track α Φ) : Track α Φ :=
  let kf := filter.predict track.kf dt
  { kf := kf
    obj := { track.obj with
      detection := { track.obj.detection with bbox := filter.bbox kf }
      age := track.obj.age + 1
      framesSinceSeen := track.obj.framesSinceSeen + 1 } }

def predicted (filter : BoxFilter α Φ) (s : VehicleTracker α Φ) (dt : α) :
    UnorderedMap ℕ (Track α Φ) :=
  s.tracks.transform (advance filter dt)

/-- `cost_`, row-major. -/
def costMatrix (model : BoxModel α Φ K) (cfg : TrackerConfig α)
    (tracks : List (Track α Φ)) (detections : List (Detection α)) (k d : ℕ) : K :=
  match tracks[k]?, detections[d]? with
  | some track, some detection =>
      if detection.classId ≠ track.obj.detection.classId then kInfeasibleCost
      else
        let iou := computeIou detection.bbox track.obj.detection.bbox
        if cfg.iouThreshold < iou then 1 - model.toDouble iou else kInfeasibleCost
  | _, _ => kInfeasibleCost

def rowOfCol (cost : ℕ → ℕ → K) (nTracks nDets : ℕ) : Option (List ℤ) :=
  if 0 < nTracks ∧ 0 < nDets then solveAssignment cost (max nTracks nDets)
  else some (List.replicate nDets (-1))

def matched (cost : ℕ → ℕ → K) (nTracks : ℕ) (row : ℤ) (d : ℕ) : Bool :=
  0 ≤ row ∧ row.toNat < nTracks ∧ cost row.toNat d < kInfeasibleCost

def matchedIds (cost : ℕ → ℕ → K) (trackIds : List ℕ) (nDets : ℕ)
    (rows : List ℤ) : List (Option ℕ) :=
  (List.range nDets).map fun d =>
    let row := rows.getD d (-1)
    if matched cost trackIds.length row d then trackIds[row.toNat]? else none

def associate (model : BoxModel α Φ K) (cfg : TrackerConfig α)
    (tracks : UnorderedMap ℕ (Track α Φ)) (detections : List (Detection α)) :
    Option (List (Option ℕ)) :=
  let cost := costMatrix model cfg (tracks.entries.map Prod.snd) detections
  (rowOfCol cost tracks.keys.length detections.length).map
    (matchedIds cost tracks.keys detections.length)

def correct (filter : BoxFilter α Φ) (now : ℤ) (detection : Detection α)
    (track : Track α Φ) : Track α Φ :=
  let kf := filter.update track.kf detection.bbox
  { kf := kf
    obj := { track.obj with
      detection := { detection with bbox := filter.bbox kf }
      velocityX := filter.vx kf
      velocityY := filter.vy kf
      framesSinceSeen := 0
      lastSeen := now } }

def newTrack (filter : BoxFilter α Φ) (now : ℤ) (newId : ℕ)
    (detection : Detection α) : Track α Φ where
  kf := filter.init detection.bbox
  obj :=
    { trackId := newId
      detection := detection
      age := 1
      framesSinceSeen := 0
      velocityX := 0
      velocityY := 0
      firstSeen := now
      lastSeen := now }

/-- One round of the loop over the detections. -/
def absorbOne (filter : BoxFilter α Φ) (now : ℤ) (s : VehicleTracker α Φ)
    (detection : Detection α) : Option ℕ → VehicleTracker α Φ × Outcome
  | some id =>
      ({ s with tracks := s.tracks.modify id (correct filter now detection) },
        .updated id)
  | none =>
      let newId := s.nextId + 1
      ({ tracks := s.tracks.assign newId (newTrack filter now newId detection)
         nextId := newId }, .created newId)

def absorb (filter : BoxFilter α Φ) (now : ℤ) : VehicleTracker α Φ →
    List (Detection α × Option ℕ) → VehicleTracker α Φ × List Outcome
  | s, [] => (s, [])
  | s, (detection, id) :: rest =>
      let (s', outcome) := absorbOne filter now s detection id
      let (s'', outcomes) := absorb filter now s' rest
      (s'', outcome :: outcomes)

def dead (cfg : TrackerConfig α) (track : Track α Φ) : Bool :=
  track.obj.framesSinceSeen > cfg.maxAge

def confirmed (cfg : TrackerConfig α) (track : Track α Φ) : Bool :=
  track.obj.age ≥ cfg.minHits

/-- The emission loop over the walked tracks, into a pool with room for so many. -/
def emit (cfg : TrackerConfig α) : ℕ → List (Track α Φ) → List (TrackedObject α)
  | _, [] => []
  | 0, track :: rest => if confirmed cfg track then [] else emit cfg 0 rest
  | room + 1, track :: rest =>
      if confirmed cfg track then track.obj :: emit cfg room rest
      else emit cfg (room + 1) rest

/-- The update once the association is known. -/
def finish (filter : BoxFilter α Φ) (cfg : TrackerConfig α)
    (s : VehicleTracker α Φ) (frame : TrackerFrame α Φ) (ids : List (Option ℕ)) :
    TrackerUpdate α Φ :=
  let (s', outcomes) := absorb filter frame.now
    { s with tracks := s.predicted filter frame.dt } (frame.detections.zip ids)
  let tracks := (s'.tracks.rearrange frame.order).eraseIf (dead cfg)
  { tracker := { s' with tracks := tracks }
    outcomes := outcomes
    emitted := emit cfg frame.capacity (tracks.entries.map Prod.snd) }

def update (model : BoxModel α Φ K) (cfg : TrackerConfig α)
    (s : VehicleTracker α Φ) (frame : TrackerFrame α Φ) :
    Option (TrackerUpdate α Φ) :=
  (associate model cfg (s.predicted model.toBoxFilter frame.dt)
    frame.detections).map (finish model.toBoxFilter cfg s frame)

/-! ## The association -/

/-- The class check and the gate of a predicted track and a detection. -/
def Gate (cfg : TrackerConfig α) (track : Track α Φ) (detection : Detection α) :
    Prop :=
  detection.classId = track.obj.detection.classId ∧
    cfg.iouThreshold < computeIou detection.bbox track.obj.detection.bbox

section Association

variable [IsStrictOrderedRing K] (model : BoxModel α Φ K) (cfg : TrackerConfig α)

theorem one_lt_kInfeasibleCost : (1 : K) < kInfeasibleCost := by
  norm_num [kInfeasibleCost]

omit [IsStrictOrderedRing K] in
theorem costMatrix_of_gate {tracks : List (Track α Φ)}
    {detections : List (Detection α)} {k d : ℕ} {track : Track α Φ}
    {detection : Detection α} (htrack : tracks[k]? = some track)
    (hdetection : detections[d]? = some detection)
    (hgate : Gate cfg track detection) :
    costMatrix model cfg tracks detections k d =
      1 - model.toDouble (computeIou detection.bbox track.obj.detection.bbox) := by
  simp only [costMatrix, htrack, hdetection]
  rw [if_neg (not_not.mpr hgate.1), if_pos hgate.2]

omit [IsStrictOrderedRing K] in
theorem costMatrix_of_not_gate {tracks : List (Track α Φ)}
    {detections : List (Detection α)} {k d : ℕ}
    (hnot : ¬ ∃ track detection, tracks[k]? = some track ∧
      detections[d]? = some detection ∧ Gate cfg track detection) :
    costMatrix model cfg tracks detections k d = kInfeasibleCost := by
  unfold costMatrix
  split
  · rename_i track detection htrack hdetection
    by_cases hclass : detection.classId = track.obj.detection.classId
    · rw [if_neg (not_not.mpr hclass)]
      exact if_neg fun hiou =>
        hnot ⟨track, detection, htrack, hdetection, hclass, hiou⟩
    · exact if_pos hclass
  · rfl

/-- An entry is below the padding exactly for a feasible pair. -/
theorem costMatrix_lt_iff (tracks : List (Track α Φ))
    (detections : List (Detection α)) (k d : ℕ) :
    costMatrix model cfg tracks detections k d < kInfeasibleCost ↔
      ∃ track detection, tracks[k]? = some track ∧
        detections[d]? = some detection ∧ Gate cfg track detection := by
  constructor
  · intro hlt
    by_contra hnot
    exact absurd (costMatrix_of_not_gate model cfg hnot) hlt.ne
  · rintro ⟨track, detection, htrack, hdetection, hgate⟩
    rw [costMatrix_of_gate model cfg htrack hdetection hgate]
    have hnonneg := model.iou_nonneg detection.bbox track.obj.detection.bbox
    have hone := one_lt_kInfeasibleCost (K := K)
    linarith

theorem costMatrix_eq_of_not_lt {tracks : List (Track α Φ)}
    {detections : List (Detection α)} {k d : ℕ}
    (h : ¬ costMatrix model cfg tracks detections k d < kInfeasibleCost) :
    costMatrix model cfg tracks detections k d = kInfeasibleCost :=
  costMatrix_of_not_gate model cfg
    (mt (costMatrix_lt_iff model cfg tracks detections k d).mpr h)

theorem costMatrix_moderate (tracks : List (Track α Φ))
    (detections : List (Detection α)) :
    Hungarian.Moderate (costMatrix model cfg tracks detections) (1 - 2 ^ 24)
      kInfeasibleCost := by
  have hpadding : (1 : K) - 2 ^ 24 ≤ kInfeasibleCost := by
    norm_num [kInfeasibleCost]
  refine ⟨fun k d => ?_, fun k d => ?_, by norm_num, ?_, ?_⟩
  · by_cases hlt : costMatrix model cfg tracks detections k d < kInfeasibleCost
    · obtain ⟨track, detection, htrack, hdetection, hgate⟩ :=
        (costMatrix_lt_iff model cfg tracks detections k d).mp hlt
      rw [costMatrix_of_gate model cfg htrack hdetection hgate]
      exact sub_le_sub_left (model.iou_le _ _) 1
    · rw [costMatrix_eq_of_not_lt model cfg hlt]
      exact hpadding
  · by_cases hlt : costMatrix model cfg tracks detections k d < kInfeasibleCost
    · exact hlt.le
    · exact (costMatrix_eq_of_not_lt model cfg hlt).le
  · exact (zero_lt_one.trans one_lt_kInfeasibleCost).le
  · rw [kInfeasibleCost, Hungarian.kInf]
    calc 2 * (10 : K) ^ 6 - (1 - 2 ^ 24) < (2 ^ 53 - 1) * 1 := by norm_num
      _ ≤ (2 ^ 53 - 1) * 2 ^ 969 :=
          mul_le_mul_of_nonneg_left (one_le_pow₀ one_le_two) (by norm_num)

def frameCost (tracks : UnorderedMap ℕ (Track α Φ))
    (detections : List (Detection α)) : ℕ → ℕ → K :=
  costMatrix model cfg (tracks.entries.map Prod.snd) detections

omit [Zero α] [Add α] [Sub α] [Mul α] [Div α] [LT α] [DecidableLT α]
  [IsStrictOrderedRing K] in
theorem matchedIds_getElem? (cost : ℕ → ℕ → K) (trackIds : List ℕ) {nDets d : ℕ}
    (rows : List ℤ) (hd : d < nDets) :
    (matchedIds cost trackIds nDets rows)[d]? =
      some (if matched cost trackIds.length (rows.getD d (-1)) d then
        trackIds[(rows.getD d (-1)).toNat]? else none) := by
  rw [matchedIds, List.getElem?_map, List.getElem?_range hd, Option.map_some]

omit [IsStrictOrderedRing K] in
theorem matchedIds_length (cost : ℕ → ℕ → K) (trackIds : List ℕ) (nDets : ℕ)
    (rows : List ℤ) : (matchedIds cost trackIds nDets rows).length = nDets := by
  rw [matchedIds, List.length_map, List.length_range]

theorem matched_frameCost_iff (tracks : UnorderedMap ℕ (Track α Φ))
    (detections : List (Detection α)) (r d : ℕ) :
    matched (frameCost model cfg tracks detections) tracks.keys.length (r : ℤ) d =
        true ↔
      frameCost model cfg tracks detections r d < kInfeasibleCost := by
  simp only [matched, decide_eq_true_eq, Int.toNat_natCast, Int.natCast_nonneg,
    true_and, and_iff_right_iff_imp]
  intro hlt
  obtain ⟨track, -, htrack, -⟩ :=
    (costMatrix_lt_iff model cfg _ detections _ d).mp hlt
  have hbound := (List.getElem?_eq_some_iff.mp htrack).1
  rwa [List.length_map, ← List.length_map (f := Prod.fst)] at hbound

/-- Without tracks or detections nothing is matched; else an optimal assignment
decides. -/
inductive Decided (tracks : UnorderedMap ℕ (Track α Φ))
    (detections : List (Detection α)) (ids : List (Option ℕ)) : Prop
  | nothing (h : tracks.entries = [] ∨ detections = [])
      (hids : ∀ d < detections.length, ids[d]? = some none)
  | assigned (σ : Equiv.Perm (Fin (max tracks.entries.length detections.length)))
      (hoptimal : Assignment.IsOptimal
        (fun r j => frameCost model cfg tracks detections r.val j.val) σ)
      (hids : ∀ d, (hd : d < max tracks.entries.length detections.length) →
        d < detections.length → ids[d]? =
          some (if frameCost model cfg tracks detections (σ ⟨d, hd⟩).val d <
            kInfeasibleCost then tracks.keys[(σ ⟨d, hd⟩).val]? else none))

theorem associate_decided (tracks : UnorderedMap ℕ (Track α Φ))
    (detections : List (Detection α)) :
    ∃ ids, associate model cfg tracks detections = some ids ∧
      ids.length = detections.length ∧ Decided model cfg tracks detections ids := by
  have hkeys : tracks.keys.length = tracks.entries.length := List.length_map ..
  have hassociate : associate model cfg tracks detections =
      (rowOfCol (frameCost model cfg tracks detections) tracks.keys.length
        detections.length).map (matchedIds (frameCost model cfg tracks detections)
          tracks.keys detections.length) := rfl
  by_cases hboth : 0 < tracks.keys.length ∧ 0 < detections.length
  · obtain ⟨σ, hsolve, hoptimal⟩ := solveAssignment_spec
      (costMatrix_moderate model cfg (tracks.entries.map Prod.snd) detections)
      (max tracks.entries.length detections.length)
    rw [hassociate, rowOfCol, if_pos hboth, hkeys]
    refine ⟨_, congrArg _ hsolve, matchedIds_length .., .assigned σ hoptimal ?_⟩
    intro d hd hd'
    have hrow : (List.ofFn fun j => ((σ j : ℕ) : ℤ)).getD d (-1) =
        ((σ ⟨d, hd⟩).val : ℤ) := by
      rw [List.getD_eq_getElem _ _ (by simpa using hd), List.getElem_ofFn]
    rw [matchedIds_getElem? _ _ _ hd', hrow, Int.toNat_natCast]
    congr 1
    exact if_congr (matched_frameCost_iff model cfg tracks detections _ d) rfl rfl
  · rw [hassociate, rowOfCol, if_neg hboth]
    refine ⟨_, rfl, matchedIds_length .., .nothing ?_ ?_⟩
    · by_contra hne
      push Not at hne
      rw [hkeys] at hboth
      exact hboth ⟨List.length_pos_iff.mpr hne.1, List.length_pos_iff.mpr hne.2⟩
    · intro d hd
      rw [matchedIds_getElem? _ _ _ hd]
      have hrow : (List.replicate detections.length (-1 : ℤ)).getD d (-1) = -1 := by
        rw [List.getD_eq_getElem _ _ (by simpa using hd), List.getElem_replicate]
      rw [hrow]
      rfl

/-- What every use of the matched ids relies on. -/
structure Associated (tracks : UnorderedMap ℕ (Track α Φ))
    (detections : List (Detection α)) (ids : List (Option ℕ)) : Prop where
  length_eq : ids.length = detections.length
  gate : ∀ d id : ℕ, ids[d]? = some (some id) → ∃ track detection,
    (id, track) ∈ tracks.entries ∧ detections[d]? = some detection ∧
      Gate cfg track detection
  injective : ∀ d d' id : ℕ, ids[d]? = some (some id) → ids[d']? = some (some id) →
    d = d'

omit [IsStrictOrderedRing K] in
theorem assigned_some {tracks : UnorderedMap ℕ (Track α Φ)}
    {detections : List (Detection α)} {ids : List (Option ℕ)}
    {σ : Equiv.Perm (Fin (max tracks.entries.length detections.length))}
    (hlength : ids.length = detections.length)
    (hids : ∀ d, (hd : d < max tracks.entries.length detections.length) →
      d < detections.length → ids[d]? =
        some (if frameCost model cfg tracks detections (σ ⟨d, hd⟩).val d <
          kInfeasibleCost then tracks.keys[(σ ⟨d, hd⟩).val]? else none))
    {d id : ℕ} (hid : ids[d]? = some (some id)) :
    ∃ hd : d < max tracks.entries.length detections.length,
      frameCost model cfg tracks detections (σ ⟨d, hd⟩).val d < kInfeasibleCost ∧
        tracks.keys[(σ ⟨d, hd⟩).val]? = some id := by
  have hd' : d < detections.length := by
    rw [← hlength]
    exact (List.getElem?_eq_some_iff.mp hid).1
  have hd := lt_max_of_lt_right (b := tracks.entries.length) hd'
  refine ⟨hd, ?_⟩
  rw [hids d hd hd'] at hid
  have hid := Option.some.inj hid
  split_ifs at hid with hlt
  exact ⟨hlt, hid⟩

theorem Decided.associated {tracks : UnorderedMap ℕ (Track α Φ)}
    {detections : List (Detection α)} {ids : List (Option ℕ)}
    (hlength : ids.length = detections.length)
    (h : Decided model cfg tracks detections ids) :
    Associated cfg tracks detections ids := by
  cases h with
  | nothing _ hids =>
      have hnone : ∀ (d id : ℕ), ids[d]? = some (some id) → False := by
        intro d id hid
        have hd : d < detections.length := by
          rw [← hlength]
          exact (List.getElem?_eq_some_iff.mp hid).1
        rw [hids d hd] at hid
        exact Option.some_ne_none id (Option.some.inj hid).symm
      exact ⟨hlength, fun d id hid => (hnone d id hid).elim,
        fun d _ id hid _ => (hnone d id hid).elim⟩
  | assigned σ _ hids =>
      refine ⟨hlength, fun d id hid => ?_, fun d d' id hid hid' => ?_⟩
      · obtain ⟨hd, hlt, hkey⟩ := assigned_some model cfg hlength hids hid
        obtain ⟨track, detection, htrack, hdetection, hgate⟩ :=
          (costMatrix_lt_iff model cfg _ detections _ d).mp hlt
        refine ⟨track, detection, ?_, hdetection, hgate⟩
        rw [UnorderedMap.keys, List.getElem?_map, Option.map_eq_some_iff] at hkey
        rw [List.getElem?_map, Option.map_eq_some_iff] at htrack
        obtain ⟨entry, hentry, rfl⟩ := hkey
        obtain ⟨entry', hentry', rfl⟩ := htrack
        rw [hentry] at hentry'
        rw [← Option.some.inj hentry']
        exact List.mem_of_getElem? hentry
      · obtain ⟨hd, -, hkey⟩ := assigned_some model cfg hlength hids hid
        obtain ⟨hd', -, hkey'⟩ := assigned_some model cfg hlength hids hid'
        have hrow := (List.getElem?_inj (List.getElem?_eq_some_iff.mp hkey).1
          tracks.nodup).mp (hkey.trans hkey'.symm)
        have hcolumn := σ.injective (Fin.ext hrow)
        exact congrArg Fin.val hcolumn

end Association

/-! ## The loop over the detections -/

section Absorb

variable (filter : BoxFilter α Φ) (now : ℤ)

/-- A track once the pair that names it, if any, is through the loop. -/
def settled (pairs : List (Detection α × Option ℕ)) (k : ℕ) (track : Track α Φ) :
    Track α Φ :=
  match pairs.find? fun q => q.2 = some k with
  | some q => correct filter now q.1 track
  | none => track

def spawned : ℕ → List (Detection α × Option ℕ) → List (ℕ × Track α Φ)
  | _, [] => []
  | n, (detection, none) :: rest =>
      (n + 1, newTrack filter now (n + 1) detection) :: spawned (n + 1) rest
  | n, (_, some _) :: rest => spawned n rest

def outcomesOf : ℕ → List (Detection α × Option ℕ) → List Outcome
  | _, [] => []
  | n, (_, none) :: rest => .created (n + 1) :: outcomesOf (n + 1) rest
  | n, (_, some id) :: rest => .updated id :: outcomesOf n rest

omit [Add α] [Sub α] [Mul α] [Div α] [LT α] [DecidableLT α] in
theorem absorb_outcomes (pairs : List (Detection α × Option ℕ)) :
    ∀ s : VehicleTracker α Φ,
      (absorb filter now s pairs).2 = outcomesOf s.nextId pairs ∧
        (absorb filter now s pairs).1.nextId =
          s.nextId + (spawned filter now s.nextId pairs).length := by
  induction pairs with
  | nil => exact fun s => ⟨rfl, rfl⟩
  | cons q pairs ih =>
      intro s
      obtain ⟨detection, id⟩ := q
      cases id with
      | some id =>
          obtain ⟨houtcomes, hnextId⟩ := ih (absorbOne filter now s detection (some id)).1
          exact ⟨congrArg (_ :: ·) houtcomes, hnextId⟩
      | none =>
          obtain ⟨houtcomes, hnextId⟩ := ih (absorbOne filter now s detection none).1
          refine ⟨congrArg (_ :: ·) houtcomes, hnextId.trans ?_⟩
          change s.nextId + 1 + (spawned filter now (s.nextId + 1) pairs).length =
            s.nextId + ((spawned filter now (s.nextId + 1) pairs).length + 1)
          omega

omit [Zero α] [Add α] [Sub α] [Mul α] [Div α] [LT α] [DecidableLT α] in
theorem settled_of_notMem {pairs : List (Detection α × Option ℕ)} {k : ℕ}
    (h : k ∉ pairs.filterMap Prod.snd) (track : Track α Φ) :
    settled filter now pairs k track = track := by
  have hnone : pairs.find? (fun q => q.2 = some k) = none := by
    rw [List.find?_eq_none]
    intro q hq hsome
    exact h (List.mem_filterMap.mpr ⟨q, hq, of_decide_eq_true hsome⟩)
  rw [settled, hnone]

omit [Add α] [Sub α] [Mul α] [Div α] [LT α] [DecidableLT α] in
theorem absorb_entries (pairs : List (Detection α × Option ℕ)) :
    ∀ s : VehicleTracker α Φ, (∀ k ∈ s.tracks.keys, k ≤ s.nextId) →
      (∀ k ∈ pairs.filterMap Prod.snd, k ≤ s.nextId) →
      (pairs.filterMap Prod.snd).Nodup →
      (absorb filter now s pairs).1.tracks.entries =
        s.tracks.entries.map (fun e => (e.1, settled filter now pairs e.1 e.2)) ++
          spawned filter now s.nextId pairs := by
  induction pairs with
  | nil =>
      intro s _ _ _
      change s.tracks.entries = s.tracks.entries.map (fun e => (e.1, e.2)) ++ []
      rw [List.append_nil]
      exact (List.map_id _).symm
  | cons q pairs ih =>
      intro s hkeys hids hnodup
      obtain ⟨detection, id⟩ := q
      cases id with
      | some id =>
          obtain ⟨hnew, hnodup⟩ := List.nodup_cons.mp hnodup
          refine (ih (absorbOne filter now s detection (some id)).1 ?_
            (fun k hk => hids k (List.mem_cons_of_mem _ hk)) hnodup).trans ?_
          · intro k hk
            exact hkeys k (UnorderedMap.keys_modify id _ s.tracks ▸ hk)
          · change (s.tracks.entries.map fun e => (e.1,
              if e.1 = id then correct filter now detection e.2 else e.2)).map
              (fun e => (e.1, settled filter now pairs e.1 e.2)) ++
              spawned filter now s.nextId pairs = _
            rw [List.map_map]
            congr 1
            refine List.map_congr_left fun e _ => Prod.ext rfl ?_
            by_cases he : e.1 = id
            · have hsettled : settled filter now ((detection, some id) :: pairs)
                  e.1 e.2 = correct filter now detection e.2 := by
                rw [settled, List.find?_cons_of_pos (by simp [he])]
              rw [hsettled]
              simp only [Function.comp_apply, if_pos he]
              exact settled_of_notMem filter now (he ▸ hnew) _
            · have hskip : settled filter now ((detection, some id) :: pairs)
                  e.1 e.2 = settled filter now pairs e.1 e.2 := by
                rw [settled, List.find?_cons_of_neg (by simpa using Ne.symm he)]
                rfl
              rw [hskip]
              simp only [Function.comp_apply, if_neg he]
      | none =>
          have hfresh : s.nextId + 1 ∉ s.tracks.keys := fun hmem =>
            absurd (hkeys _ hmem) (by omega)
          refine (ih (absorbOne filter now s detection none).1 ?_
            (fun k hk => (hids k hk).trans (Nat.le_succ _)) hnodup).trans ?_
          · intro k hk
            change k ∈ (s.tracks.assign (s.nextId + 1)
              (newTrack filter now (s.nextId + 1) detection)).keys at hk
            rw [UnorderedMap.keys_assign _ hfresh, List.mem_append,
              List.mem_singleton] at hk
            rcases hk with hk | rfl
            · exact (hkeys k hk).trans (Nat.le_succ _)
            · exact le_rfl
          · change ((s.tracks.assign (s.nextId + 1)
              (newTrack filter now (s.nextId + 1) detection)).entries.map
              fun e => (e.1, settled filter now pairs e.1 e.2)) ++
              spawned filter now (s.nextId + 1) pairs = _
            have hnewest : settled filter now pairs (s.nextId + 1)
                (newTrack filter now (s.nextId + 1) detection) =
                newTrack filter now (s.nextId + 1) detection := by
              refine settled_of_notMem filter now (fun hmem => ?_) _
              have hle := hids _ hmem
              omega
            rw [UnorderedMap.entries_assign _ hfresh, List.map_append, List.map_singleton,
              hnewest, List.append_assoc]
            rfl

omit [Zero α] [Add α] [Sub α] [Mul α] [Div α] [LT α] [DecidableLT α] in
theorem outcomesOf_length (pairs : List (Detection α × Option ℕ)) :
    ∀ n, (outcomesOf n pairs).length = pairs.length := by
  induction pairs with
  | nil => exact fun _ => rfl
  | cons q pairs ih =>
      intro n
      obtain ⟨detection, id⟩ := q
      cases id with
      | some id => exact congrArg Nat.succ (ih n)
      | none => exact congrArg Nat.succ (ih (n + 1))

omit [Zero α] [Add α] [Sub α] [Mul α] [Div α] [LT α] [DecidableLT α] in
theorem updatedIds_outcomesOf (pairs : List (Detection α × Option ℕ)) :
    ∀ n, updatedIds (outcomesOf n pairs) = pairs.filterMap Prod.snd := by
  induction pairs with
  | nil => exact fun _ => rfl
  | cons q pairs ih =>
      intro n
      obtain ⟨detection, id⟩ := q
      cases id with
      | some id => exact congrArg (List.cons id) (ih n)
      | none => exact ih (n + 1)

omit [Add α] [Sub α] [Mul α] [Div α] [LT α] [DecidableLT α] in
theorem createdIds_outcomesOf (pairs : List (Detection α × Option ℕ)) :
    ∀ n, createdIds (outcomesOf n pairs) =
      (spawned filter now n pairs).map Prod.fst := by
  induction pairs with
  | nil => exact fun _ => rfl
  | cons q pairs ih =>
      intro n
      obtain ⟨detection, id⟩ := q
      cases id with
      | some id => exact ih n
      | none => exact congrArg (List.cons (n + 1)) (ih (n + 1))

omit [Add α] [Sub α] [Mul α] [Div α] [LT α] [DecidableLT α] in
theorem spawned_keys (pairs : List (Detection α × Option ℕ)) :
    ∀ n, (spawned filter now n pairs).map Prod.fst =
      List.range' (n + 1) (spawned filter now n pairs).length := by
  induction pairs with
  | nil => exact fun _ => rfl
  | cons q pairs ih =>
      intro n
      obtain ⟨detection, id⟩ := q
      cases id with
      | some id => exact ih n
      | none => exact congrArg (List.cons (n + 1)) (ih (n + 1))

omit [Add α] [Sub α] [Mul α] [Div α] [LT α] [DecidableLT α] in
theorem mem_spawned (pairs : List (Detection α × Option ℕ)) {k : ℕ}
    {track : Track α Φ} : ∀ {n}, (k, track) ∈ spawned filter now n pairs →
      ∃ detection, (detection, none) ∈ pairs ∧
        track = newTrack filter now k detection := by
  induction pairs with
  | nil => exact fun h => absurd h List.not_mem_nil
  | cons q pairs ih =>
      intro n h
      obtain ⟨detection, id⟩ := q
      have hrest : ∀ {n}, (k, track) ∈ spawned filter now n pairs →
          ∃ detection', (detection', none) ∈ (detection, id) :: pairs ∧
            track = newTrack filter now k detection' := by
        intro n h
        obtain ⟨detection', hmem, heq⟩ := ih h
        exact ⟨detection', List.mem_cons_of_mem _ hmem, heq⟩
      cases id with
      | some id => exact hrest h
      | none =>
          rcases List.mem_cons.mp h with heq | h
          · obtain ⟨rfl, rfl⟩ := Prod.mk.inj heq
            exact ⟨detection, List.mem_cons_self, rfl⟩
          · exact hrest h

omit [Zero α] [Add α] [Sub α] [Mul α] [Div α] [LT α] [DecidableLT α] in
theorem outcomesOf_getElem? (pairs : List (Detection α × Option ℕ)) (id : ℕ) :
    ∀ n d : ℕ, (outcomesOf n pairs)[d]? = some (Outcome.updated id) ↔
      (pairs.map Prod.snd)[d]? = some (some id) := by
  induction pairs with
  | nil => intro n d; simp [outcomesOf]
  | cons q pairs ih =>
      intro n d
      obtain ⟨detection, id'⟩ := q
      cases id' with
      | some id' =>
          cases d with
          | zero => simp [outcomesOf]
          | succ d => simpa [outcomesOf] using ih n d
      | none =>
          cases d with
          | zero => simp [outcomesOf]
          | succ d => simpa [outcomesOf] using ih (n + 1) d

omit [Add α] [Sub α] [Mul α] [Div α] [LT α] [DecidableLT α] in
theorem created_getElem? (pairs : List (Detection α × Option ℕ)) {k : ℕ} :
    ∀ {n d : ℕ}, (outcomesOf n pairs)[d]? = some (Outcome.created k) →
      ∃ detection, pairs[d]? = some (detection, none) ∧
        (k, newTrack filter now k detection) ∈ spawned filter now n pairs := by
  induction pairs with
  | nil => intro n d h; simp [outcomesOf] at h
  | cons q pairs ih =>
      intro n d h
      obtain ⟨detection, id⟩ := q
      cases id with
      | some id =>
          cases d with
          | zero => simp [outcomesOf] at h
          | succ d =>
              obtain ⟨detection', hpair, hmem⟩ := ih h
              exact ⟨detection', hpair, hmem⟩
      | none =>
          cases d with
          | zero =>
              obtain rfl : n + 1 = k := Outcome.created.inj (Option.some.inj h)
              exact ⟨detection, rfl, List.mem_cons_self⟩
          | succ d =>
              obtain ⟨detection', hpair, hmem⟩ := ih h
              exact ⟨detection', hpair, List.mem_cons_of_mem _ hmem⟩

end Absorb

omit [Zero α] [Add α] [Sub α] [Mul α] [Div α] [LT α] [DecidableLT α] in
theorem emit_eq (cfg : TrackerConfig α) (tracks : List (Track α Φ)) :
    ∀ room, emit cfg room tracks =
      ((tracks.filter (confirmed cfg)).map Track.obj).take room := by
  induction tracks with
  | nil => intro room; simp [emit]
  | cons track rest ih =>
      intro room
      cases hconfirmed : confirmed cfg track with
      | true =>
          rw [List.filter_cons_of_pos hconfirmed]
          cases room with
          | zero => simp [emit, hconfirmed]
          | succ room => simp [emit, hconfirmed, ih room]
      | false =>
          rw [List.filter_cons_of_neg (by simp [hconfirmed]), ← ih room]
          cases room with
          | zero => simp [emit, hconfirmed]
          | succ room => simp [emit, hconfirmed]

/-! ## One update -/

section Update

variable [IsStrictOrderedRing K] (model : BoxModel α Φ K) (cfg : TrackerConfig α)

/-- What an update does to the tracks, given the ids its detections are matched
with. -/
structure Updates (s : VehicleTracker α Φ) (frame : TrackerFrame α Φ)
    (ids : List (Option ℕ)) (u : TrackerUpdate α Φ) : Prop where
  outcomes_eq : u.outcomes = outcomesOf s.nextId (frame.detections.zip ids)
  nextId_eq : u.tracker.nextId = s.nextId + (spawned model.toBoxFilter frame.now
    s.nextId (frame.detections.zip ids)).length
  mem_tracks : (∀ k ∈ s.tracks.keys, k ≤ s.nextId) → ∀ k track,
    (k, track) ∈ u.tracker.tracks.entries ↔ dead cfg track = false ∧
      ((∃ track₀, (k, track₀) ∈ s.tracks.entries ∧
          track = settled model.toBoxFilter frame.now (frame.detections.zip ids) k
            (advance model.toBoxFilter frame.dt track₀)) ∨
        (k, track) ∈ spawned model.toBoxFilter frame.now s.nextId
          (frame.detections.zip ids))
  emitted_eq : u.emitted = (((u.tracker.tracks.entries.map Prod.snd).filter
    (confirmed cfg)).map Track.obj).take frame.capacity

omit [IsStrictOrderedRing K] in
theorem Associated.zip_snd {tracks : UnorderedMap ℕ (Track α Φ)}
    {detections : List (Detection α)} {ids : List (Option ℕ)}
    (h : Associated cfg tracks detections ids) :
    (detections.zip ids).map Prod.snd = ids :=
  List.map_snd_zip h.length_eq.le

omit [IsStrictOrderedRing K] in
theorem Associated.matched_nodup {tracks : UnorderedMap ℕ (Track α Φ)}
    {detections : List (Detection α)} {ids : List (Option ℕ)}
    (h : Associated cfg tracks detections ids) :
    ((detections.zip ids).filterMap Prod.snd).Nodup := by
  have hids : (detections.zip ids).filterMap Prod.snd = ids.filterMap id := by
    conv_rhs => rw [← h.zip_snd, List.filterMap_map]
    rfl
  rw [hids, List.Nodup, List.pairwise_filterMap, List.pairwise_iff_getElem]
  rintro d d' hd hd' hlt id hid id' hid' rfl
  have heq := h.injective d d' id ((List.getElem?_eq_getElem hd).trans
    (congrArg some hid)) ((List.getElem?_eq_getElem hd').trans (congrArg some hid'))
  omega

omit [IsStrictOrderedRing K] in
theorem Associated.matched_mem {tracks : UnorderedMap ℕ (Track α Φ)}
    {detections : List (Detection α)} {ids : List (Option ℕ)}
    (h : Associated cfg tracks detections ids) {detection : Detection α} {id : ℕ}
    (hmem : (detection, some id) ∈ detections.zip ids) :
    ∃ track, (id, track) ∈ tracks.entries ∧ Gate cfg track detection := by
  obtain ⟨d, hd⟩ := List.mem_iff_getElem?.mp hmem
  rw [List.getElem?_zip_eq_some] at hd
  obtain ⟨track, detection', hentry, hdetection, hgate⟩ := h.gate d id hd.2
  obtain rfl : detection = detection' := Option.some.inj (hd.1.symm.trans hdetection)
  exact ⟨track, hentry, hgate⟩

omit [IsStrictOrderedRing K] in
theorem finish_updates {s : VehicleTracker α Φ} {frame : TrackerFrame α Φ}
    {ids : List (Option ℕ)}
    (h : Associated cfg (s.predicted model.toBoxFilter frame.dt) frame.detections
      ids) :
    Updates model cfg s frame ids (finish model.toBoxFilter cfg s frame ids) := by
  obtain ⟨houtcomes, hnextId⟩ := absorb_outcomes model.toBoxFilter frame.now
    (frame.detections.zip ids)
    { s with tracks := s.predicted model.toBoxFilter frame.dt }
  refine ⟨houtcomes, hnextId, fun hkeys k track => ?_, emit_eq ..⟩
  have hkeys' : ∀ k ∈ (s.predicted model.toBoxFilter frame.dt).keys, k ≤ s.nextId := by
    intro k hk
    rw [predicted, UnorderedMap.keys_transform] at hk
    exact hkeys k hk
  have hentries := absorb_entries model.toBoxFilter frame.now
    (frame.detections.zip ids)
    { s with tracks := s.predicted model.toBoxFilter frame.dt } hkeys' ?_
    h.matched_nodup
  · change (k, track) ∈ ((UnorderedMap.rearrange frame.order _).eraseIf _).entries ↔ _
    rw [UnorderedMap.mem_eraseIf, UnorderedMap.mem_rearrange, hentries,
      List.mem_append, and_comm]
    refine and_congr_right fun _ => or_congr_left ?_
    constructor
    · intro hmem
      obtain ⟨e, he, heq⟩ := List.mem_map.mp hmem
      obtain ⟨k', track'⟩ := e
      obtain ⟨rfl, rfl⟩ := Prod.mk.inj heq
      obtain ⟨track₀, hmem₀, rfl⟩ := UnorderedMap.mem_transform.mp he
      exact ⟨track₀, hmem₀, rfl⟩
    · rintro ⟨track₀, hmem₀, rfl⟩
      exact List.mem_map.mpr
        ⟨_, UnorderedMap.mem_transform.mpr ⟨track₀, hmem₀, rfl⟩, rfl⟩
  · intro k hk
    obtain ⟨⟨detection, id⟩, hmem, rfl⟩ := List.mem_filterMap.mp hk
    obtain ⟨track, hentry, -⟩ := h.matched_mem cfg hmem
    exact hkeys' k (UnorderedMap.mem_keys_of_mem hentry)

theorem update_spec (s : VehicleTracker α Φ) (frame : TrackerFrame α Φ) :
    ∃ ids u, update model cfg s frame = some u ∧
      associate model cfg (s.predicted model.toBoxFilter frame.dt)
        frame.detections = some ids ∧
      ids.length = frame.detections.length ∧
      Decided model cfg (s.predicted model.toBoxFilter frame.dt) frame.detections
        ids ∧
      Updates model cfg s frame ids u := by
  obtain ⟨ids, hassociate, hlength, hdecided⟩ := associate_decided model cfg
    (s.predicted model.toBoxFilter frame.dt) frame.detections
  refine ⟨ids, _, ?_, hassociate, hlength, hdecided,
    finish_updates model cfg (hdecided.associated model cfg hlength)⟩
  rw [update, hassociate]
  rfl

end Update

end VehicleTracker

end Semaforo
