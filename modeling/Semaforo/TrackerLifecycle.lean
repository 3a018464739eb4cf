import Mathlib.Tactic
import Semaforo.EventHistory
import Semaforo.TrackerAssociation

/-!
# The life of a track

A run is the list of the updates so far.  Ids count the tracks ever created, so
none is handed out twice; every detection updates one live track or creates one;
the frames a track goes unseen are counted exactly, which makes a track vanish
at the update that leaves it unseen once more than `max_age`.
-/

namespace Semaforo

namespace VehicleTracker

variable {α Φ K : Type} [Zero α] [Add α] [Sub α] [Mul α] [Div α] [LT α]
variable [DecidableLT α] [Field K] [LinearOrder K]

/-- The tracker after the updates so far. -/
def current (past : List (TrackerUpdate α Φ)) : VehicleTracker α Φ :=
  (past.getLast?.map TrackerUpdate.tracker).getD {}

def updates (model : BoxModel α Φ K) (cfg : TrackerConfig α)
    (frames : List (TrackerFrame α Φ)) : Option (List (TrackerUpdate α Φ)) :=
  frames.foldlM (fun past frame =>
    (update model cfg (current past) frame).map fun u => past ++ [u]) []

def created (past : List (TrackerUpdate α Φ)) : List ℕ :=
  past.flatMap fun u => createdIds u.outcomes

def seen (u : TrackerUpdate α Φ) (id : ℕ) : Bool := id ∈ u.outcomes.map Outcome.id

/-- For how many updates up to the last an id went without a detection. -/
def unseenFor (past : List (TrackerUpdate α Φ)) (id : ℕ) : ℕ :=
  (past.reverse.takeWhile fun u => !seen u id).length

def unseenNow (track : Track α Φ) : Bool := track.obj.framesSinceSeen = 0

/-- The laws of one update of a run. -/
structure Lifecycle (cfg : TrackerConfig α) (past : List (TrackerUpdate α Φ))
    (frame : TrackerFrame α Φ) (u : TrackerUpdate α Φ) : Prop where
  created_eq : created (past ++ [u]) = List.range' 1 u.tracker.nextId
  live_created : ∀ k ∈ u.tracker.tracks.keys, k ∈ created (past ++ [u])
  live_id : ∀ k track, (k, track) ∈ u.tracker.tracks.entries →
    track.obj.trackId = k
  live_nodup : (u.tracker.tracks.entries.map fun e => e.2.obj.trackId).Nodup
  live_from : ∀ k ∈ u.tracker.tracks.keys,
    k ∈ (current past).tracks.keys ∨ k ∈ createdIds u.outcomes
  outcomes_length : u.outcomes.length = frame.detections.length
  outcomes_nodup : (u.outcomes.map Outcome.id).Nodup
  updated_live : ∀ k ∈ updatedIds u.outcomes, k ∈ (current past).tracks.keys
  outcome_track : ∀ (d : ℕ) detection outcome, frame.detections[d]? = some detection →
    u.outcomes[d]? = some outcome → ∃ track,
      (outcome.id, track) ∈ u.tracker.tracks.entries ∧
        track.obj.framesSinceSeen = 0 ∧
        track.obj.detection.classId = detection.classId
  seen_length : (u.tracker.tracks.entries.filter fun e =>
    unseenNow e.2).length = frame.detections.length
  class_eq : ∀ earlier ∈ past, ∀ k track track',
    (k, track) ∈ earlier.tracker.tracks.entries →
      (k, track') ∈ u.tracker.tracks.entries →
        track'.obj.detection.classId = track.obj.detection.classId
  unseen_eq : ∀ k track, (k, track) ∈ u.tracker.tracks.entries →
    track.obj.framesSinceSeen = unseenFor (past ++ [u]) k
  unseen_le : ∀ k track, (k, track) ∈ u.tracker.tracks.entries →
    0 ≤ track.obj.framesSinceSeen ∧ track.obj.framesSinceSeen ≤ cfg.maxAge
  gone_iff : ∀ k ∈ (current past).tracks.keys,
    k ∉ u.tracker.tracks.keys ↔ (unseenFor (past ++ [u]) k : ℤ) = cfg.maxAge + 1
  emitted_nodup : (u.emitted.map TrackedObject.trackId).Nodup
  emitted_live : ∀ obj ∈ u.emitted, ∃ track,
    (obj.trackId, track) ∈ u.tracker.tracks.entries ∧ track.obj = obj ∧
      cfg.minHits ≤ obj.age
  emitted_length : u.emitted.length = min frame.capacity
    (u.tracker.tracks.entries.filter fun e => confirmed cfg e.2).length

/-- What a run has established before its next update. -/
structure Tracked (cfg : TrackerConfig α) (past : List (TrackerUpdate α Φ)) :
    Prop where
  created_eq : created past = List.range' 1 (current past).nextId
  live_created : ∀ k ∈ (current past).tracks.keys, k ∈ created past
  past_le : ∀ u ∈ past, ∀ k ∈ u.tracker.tracks.keys, k ≤ (current past).nextId
  live_id : ∀ k track, (k, track) ∈ (current past).tracks.entries →
    track.obj.trackId = k
  class_eq : ∀ earlier ∈ past, ∀ k track track',
    (k, track) ∈ earlier.tracker.tracks.entries →
      (k, track') ∈ (current past).tracks.entries →
        track'.obj.detection.classId = track.obj.detection.classId
  unseen_eq : ∀ k track, (k, track) ∈ (current past).tracks.entries →
    track.obj.framesSinceSeen = unseenFor past k
  unseen_le : ∀ k track, (k, track) ∈ (current past).tracks.entries →
    track.obj.framesSinceSeen ≤ cfg.maxAge

omit [Zero α] [Add α] [Sub α] [Mul α] [Div α] [LT α] [DecidableLT α] in
@[simp] theorem current_append (past : List (TrackerUpdate α Φ))
    (u : TrackerUpdate α Φ) : current (past ++ [u]) = u.tracker := by
  simp [current]

omit [Zero α] [Add α] [Sub α] [Mul α] [Div α] [LT α] [DecidableLT α] in
theorem created_append (past : List (TrackerUpdate α Φ)) (u : TrackerUpdate α Φ) :
    created (past ++ [u]) = created past ++ createdIds u.outcomes := by
  simp [created]

omit [Zero α] [Add α] [Sub α] [Mul α] [Div α] [LT α] [DecidableLT α] in
theorem unseenFor_append (past : List (TrackerUpdate α Φ)) (u : TrackerUpdate α Φ)
    (id : ℕ) : unseenFor (past ++ [u]) id =
      if id ∈ u.outcomes.map Outcome.id then 0 else unseenFor past id + 1 := by
  rw [unseenFor, List.reverse_append, List.reverse_singleton,
    List.singleton_append, List.takeWhile_cons]
  by_cases hseen : id ∈ u.outcomes.map Outcome.id
  · simp only [seen, hseen, decide_true, Bool.not_true, if_true]
    rfl
  · simp only [seen, hseen, decide_false, Bool.not_false, if_true, if_false]
    rfl

theorem mem_outcomes_iff {outcomes : List Outcome} {id : ℕ} :
    id ∈ outcomes.map Outcome.id ↔
      id ∈ updatedIds outcomes ∨ id ∈ createdIds outcomes := by
  induction outcomes with
  | nil => simp [updatedIds, createdIds]
  | cons outcome rest ih =>
      rw [List.map_cons, List.mem_cons, ih]
      cases outcome with
      | updated k =>
          change id = k ∨ _ ↔ id ∈ k :: updatedIds rest ∨ id ∈ createdIds rest
          rw [List.mem_cons, or_assoc]
      | created k =>
          change id = k ∨ _ ↔ id ∈ updatedIds rest ∨ id ∈ k :: createdIds rest
          rw [List.mem_cons, or_left_comm]

theorem outcomes_perm (outcomes : List Outcome) :
    (outcomes.map Outcome.id).Perm (updatedIds outcomes ++ createdIds outcomes) := by
  induction outcomes with
  | nil => exact List.Perm.refl _
  | cons outcome rest ih =>
      cases outcome with
      | updated k => exact ih.cons k
      | created k => exact (ih.cons k).trans List.perm_middle.symm

section Step

variable {model : BoxModel α Φ K} {cfg : TrackerConfig α}
variable {s : VehicleTracker α Φ} {frame : TrackerFrame α Φ}
variable {ids : List (Option ℕ)} {u : TrackerUpdate α Φ}

omit [Zero α] [Add α] [Sub α] [Mul α] [Div α] [LT α] [DecidableLT α] in
theorem settled_of_mem (filter : BoxFilter α Φ) (now : ℤ)
    {pairs : List (Detection α × Option ℕ)} {k : ℕ}
    (h : k ∈ pairs.filterMap Prod.snd) (track : Track α Φ) :
    ∃ detection, (detection, some k) ∈ pairs ∧
      settled filter now pairs k track = correct filter now detection track := by
  cases hfind : pairs.find? fun q => q.2 = some k with
  | none =>
      obtain ⟨q, hq, hsome⟩ := List.mem_filterMap.mp h
      exact absurd (decide_eq_true hsome) (List.find?_eq_none.mp hfind q hq)
  | some q =>
      obtain ⟨detection, id⟩ := q
      obtain rfl : id = some k := of_decide_eq_true
        (List.find?_some (p := fun q : Detection α × Option ℕ => q.2 = some k) hfind)
      refine ⟨detection, List.mem_of_find?_eq_some hfind, ?_⟩
      rw [settled, hfind]

/-- A track that was live before, after the update: what the association leaves
alone, and what it resets. -/
structure Carried (s : VehicleTracker α Φ) (u : TrackerUpdate α Φ) (k : ℕ)
    (track₀ track : Track α Φ) : Prop where
  trackId_eq : track.obj.trackId = track₀.obj.trackId
  class_eq : track.obj.detection.classId = track₀.obj.detection.classId
  age_eq : track.obj.age = track₀.obj.age + 1
  unseen_eq : track.obj.framesSinceSeen =
    if k ∈ updatedIds u.outcomes then 0 else track₀.obj.framesSinceSeen + 1

theorem Updates.updatedIds_eq (hu : Updates model cfg s frame ids u) :
    updatedIds u.outcomes = (frame.detections.zip ids).filterMap Prod.snd := by
  rw [hu.outcomes_eq, updatedIds_outcomesOf]

theorem Updates.createdIds_eq (hu : Updates model cfg s frame ids u) :
    createdIds u.outcomes = List.range' (s.nextId + 1)
      (u.tracker.nextId - s.nextId) := by
  rw [hu.outcomes_eq, createdIds_outcomesOf model.toBoxFilter frame.now,
    spawned_keys, hu.nextId_eq, Nat.add_sub_cancel_left]

theorem Updates.carried
    (hids : Associated cfg (s.predicted model.toBoxFilter frame.dt)
      frame.detections ids) (hu : Updates model cfg s frame ids u) {k : ℕ}
    {track₀ : Track α Φ} (hmem : (k, track₀) ∈ s.tracks.entries) :
    Carried s u k track₀ (settled model.toBoxFilter frame.now
      (frame.detections.zip ids) k (advance model.toBoxFilter frame.dt track₀)) := by
  have hupdated := hu.updatedIds_eq
  by_cases hk : k ∈ (frame.detections.zip ids).filterMap Prod.snd
  · obtain ⟨detection, hpair, hsettled⟩ := settled_of_mem model.toBoxFilter
      frame.now hk (advance model.toBoxFilter frame.dt track₀)
    obtain ⟨track, hentry, hgate⟩ := hids.matched_mem cfg hpair
    obtain ⟨track₁, hmem₁, rfl⟩ := UnorderedMap.mem_transform.mp hentry
    obtain rfl := UnorderedMap.eq_of_mem hmem hmem₁
    rw [hsettled]
    refine ⟨rfl, hgate.1, rfl, ?_⟩
    rw [hupdated, if_pos hk]
    rfl
  · rw [settled_of_notMem model.toBoxFilter frame.now hk]
    refine ⟨rfl, rfl, rfl, ?_⟩
    rw [hupdated, if_neg hk]
    rfl

theorem Updates.mem_cases
    (hids : Associated cfg (s.predicted model.toBoxFilter frame.dt)
      frame.detections ids) (hu : Updates model cfg s frame ids u)
    (hkeys : ∀ k ∈ s.tracks.keys, k ≤ s.nextId) {k : ℕ} {track : Track α Φ}
    (h : (k, track) ∈ u.tracker.tracks.entries) :
    (∃ track₀, (k, track₀) ∈ s.tracks.entries ∧ Carried s u k track₀ track) ∨
      (k ∈ createdIds u.outcomes ∧ ∃ detection,
        (detection, none) ∈ frame.detections.zip ids ∧
          track = newTrack model.toBoxFilter frame.now k detection) := by
  obtain ⟨-, ⟨track₀, hmem, rfl⟩ | hnew⟩ := (hu.mem_tracks hkeys k track).mp h
  · exact .inl ⟨track₀, hmem, hu.carried hids hmem⟩
  · refine .inr ⟨?_, mem_spawned _ _ _ hnew⟩
    rw [hu.outcomes_eq, createdIds_outcomesOf model.toBoxFilter frame.now]
    exact List.mem_map_of_mem hnew

/-- A track that was live before stays unless it is now unseen too long. -/
theorem Updates.exists_carried
    (hids : Associated cfg (s.predicted model.toBoxFilter frame.dt)
      frame.detections ids) (hu : Updates model cfg s frame ids u)
    (hkeys : ∀ k ∈ s.tracks.keys, k ≤ s.nextId) {k : ℕ} {track₀ : Track α Φ}
    (hmem : (k, track₀) ∈ s.tracks.entries) :
    ∃ track, Carried s u k track₀ track ∧
      (dead cfg track = false → (k, track) ∈ u.tracker.tracks.entries) :=
  ⟨_, hu.carried hids hmem, fun halive =>
    (hu.mem_tracks hkeys k _).mpr ⟨halive, .inl ⟨track₀, hmem, rfl⟩⟩⟩

theorem Updates.updated_live
    (hids : Associated cfg (s.predicted model.toBoxFilter frame.dt)
      frame.detections ids) (hu : Updates model cfg s frame ids u) {k : ℕ}
    (hk : k ∈ updatedIds u.outcomes) : k ∈ s.tracks.keys := by
  rw [hu.updatedIds_eq] at hk
  obtain ⟨⟨detection, id⟩, hpair, hsome⟩ := List.mem_filterMap.mp hk
  obtain rfl : id = some k := hsome
  obtain ⟨track, hentry, -⟩ := hids.matched_mem cfg hpair
  have hmem := UnorderedMap.mem_keys_of_mem hentry
  rwa [predicted, UnorderedMap.keys_transform] at hmem

theorem Updates.outcome_track (hage : 0 ≤ cfg.maxAge)
    (hids : Associated cfg (s.predicted model.toBoxFilter frame.dt)
      frame.detections ids) (hu : Updates model cfg s frame ids u)
    (hkeys : ∀ k ∈ s.tracks.keys, k ≤ s.nextId) {d : ℕ} {detection : Detection α}
    {outcome : Outcome} (hdetection : frame.detections[d]? = some detection)
    (houtcome : u.outcomes[d]? = some outcome) :
    ∃ track, (outcome.id, track) ∈ u.tracker.tracks.entries ∧
      track.obj.framesSinceSeen = 0 ∧
      track.obj.detection.classId = detection.classId := by
  have halive : ∀ track : Track α Φ, track.obj.framesSinceSeen = 0 →
      dead cfg track = false := by
    intro track hzero
    rw [dead, hzero]
    exact decide_eq_false (not_lt.mpr hage)
  cases outcome with
  | created k =>
      rw [hu.outcomes_eq] at houtcome
      obtain ⟨detection', hpair, hmem⟩ :=
        created_getElem? model.toBoxFilter frame.now _ houtcome
      rw [List.getElem?_zip_eq_some] at hpair
      obtain rfl : detection = detection' :=
        Option.some.inj (hdetection.symm.trans hpair.1)
      exact ⟨_, (hu.mem_tracks hkeys _ _).mpr ⟨halive _ rfl, .inr hmem⟩, rfl, rfl⟩
  | updated k =>
      have hid : ids[d]? = some (some k) := by
        rwa [hu.outcomes_eq, outcomesOf_getElem?, hids.zip_snd] at houtcome
      obtain ⟨track₁, detection', hentry, hdetection', hgate⟩ := hids.gate d k hid
      obtain rfl : detection = detection' :=
        Option.some.inj (hdetection.symm.trans hdetection')
      obtain ⟨track₀, hmem, rfl⟩ := UnorderedMap.mem_transform.mp hentry
      obtain ⟨track, hcarried, hstays⟩ := hu.exists_carried hids hkeys hmem
      have hk : k ∈ updatedIds u.outcomes := by
        rw [hu.updatedIds_eq]
        exact List.mem_filterMap.mpr ⟨(detection, some k), List.mem_of_getElem?
          (List.getElem?_zip_eq_some.mpr ⟨hdetection, hid⟩), rfl⟩
      have hzero : track.obj.framesSinceSeen = 0 := by
        rw [hcarried.unseen_eq, if_pos hk]
      exact ⟨track, hstays (halive track hzero), hzero,
        hcarried.class_eq.trans hgate.1.symm⟩

theorem Updates.seen_iff (hage : 0 ≤ cfg.maxAge)
    (hids : Associated cfg (s.predicted model.toBoxFilter frame.dt)
      frame.detections ids) (hu : Updates model cfg s frame ids u)
    (hkeys : ∀ k ∈ s.tracks.keys, k ≤ s.nextId)
    (hnonneg : ∀ k track, (k, track) ∈ s.tracks.entries →
      0 ≤ track.obj.framesSinceSeen) (k : ℕ) :
    k ∈ u.outcomes.map Outcome.id ↔ ∃ track,
      (k, track) ∈ u.tracker.tracks.entries ∧ track.obj.framesSinceSeen = 0 := by
  constructor
  · intro hk
    obtain ⟨outcome, houtcome, rfl⟩ := List.mem_map.mp hk
    obtain ⟨d, hd⟩ := List.mem_iff_getElem?.mp houtcome
    have hlength : d < frame.detections.length := by
      have hbound := (List.getElem?_eq_some_iff.mp hd).1
      rw [hu.outcomes_eq, outcomesOf_length, List.length_zip] at hbound
      omega
    obtain ⟨track, hmem, hzero, -⟩ := hu.outcome_track hage hids hkeys
      (List.getElem?_eq_getElem hlength) hd
    exact ⟨track, hmem, hzero⟩
  · rintro ⟨track, hmem, hzero⟩
    rw [mem_outcomes_iff]
    rcases hu.mem_cases hids hkeys hmem with ⟨track₀, hmem₀, hcarried⟩ | ⟨hnew, -⟩
    · left
      by_contra hk
      have hunseen := hcarried.unseen_eq
      rw [if_neg hk, hzero] at hunseen
      have hpositive := hnonneg k track₀ hmem₀
      omega
    · exact .inr hnew

theorem Updates.outcomes_nodup
    (hids : Associated cfg (s.predicted model.toBoxFilter frame.dt)
      frame.detections ids) (hu : Updates model cfg s frame ids u)
    (hkeys : ∀ k ∈ s.tracks.keys, k ≤ s.nextId) :
    (u.outcomes.map Outcome.id).Nodup := by
  rw [(outcomes_perm u.outcomes).nodup_iff, List.nodup_append, hu.createdIds_eq]
  refine ⟨?_, List.nodup_range' .., ?_⟩
  · rw [hu.updatedIds_eq]
    exact hids.matched_nodup
  · intro k hk k' hk' heq
    have hle := hkeys k (hu.updated_live hids hk)
    have hlt := (List.mem_range'_1.mp hk').1
    omega

end Step

/-! ## Runs -/

section Run

variable {model : BoxModel α Φ K} {cfg : TrackerConfig α}
variable {past : List (TrackerUpdate α Φ)} {frame : TrackerFrame α Φ}
variable {ids : List (Option ℕ)} {u : TrackerUpdate α Φ}

omit [Zero α] [Add α] [Sub α] [Mul α] [Div α] [LT α] [DecidableLT α] in
theorem Tracked.keys_le (h : Tracked cfg past) :
    ∀ k ∈ (current past).tracks.keys, k ≤ (current past).nextId := by
  intro k hk
  have hmem := h.live_created k hk
  rw [h.created_eq, List.mem_range'_1] at hmem
  omega

omit [Zero α] [Add α] [Sub α] [Mul α] [Div α] [LT α] [DecidableLT α] in
theorem Tracked.nonneg (h : Tracked cfg past) :
    ∀ k track, (k, track) ∈ (current past).tracks.entries →
      0 ≤ track.obj.framesSinceSeen := by
  intro k track hmem
  rw [h.unseen_eq k track hmem]
  exact Int.natCast_nonneg _

theorem Updates.nextId_le {s : VehicleTracker α Φ}
    (hu : Updates model cfg s frame ids u) : s.nextId ≤ u.tracker.nextId := by
  rw [hu.nextId_eq]
  exact Nat.le_add_right _ _

theorem Tracked.created_append (h : Tracked cfg past)
    (hu : Updates model cfg (current past) frame ids u) :
    created (past ++ [u]) = List.range' 1 u.tracker.nextId := by
  have hle := hu.nextId_le
  rw [VehicleTracker.created_append, h.created_eq, hu.createdIds_eq, Nat.add_comm,
    List.range'_append_1, Nat.add_sub_cancel' hle]

theorem Tracked.live_from (h : Tracked cfg past)
    (hids : Associated cfg ((current past).predicted model.toBoxFilter frame.dt)
      frame.detections ids) (hu : Updates model cfg (current past) frame ids u) :
    ∀ k ∈ u.tracker.tracks.keys,
      k ∈ (current past).tracks.keys ∨ k ∈ createdIds u.outcomes := by
  intro k hk
  obtain ⟨track, hmem⟩ := UnorderedMap.mem_keys.mp hk
  rcases hu.mem_cases hids h.keys_le hmem with ⟨track₀, hmem₀, -⟩ | ⟨hnew, -⟩
  · exact .inl (UnorderedMap.mem_keys_of_mem hmem₀)
  · exact .inr hnew

theorem Tracked.live_created_append (h : Tracked cfg past)
    (hids : Associated cfg ((current past).predicted model.toBoxFilter frame.dt)
      frame.detections ids) (hu : Updates model cfg (current past) frame ids u) :
    ∀ k ∈ u.tracker.tracks.keys, k ∈ created (past ++ [u]) := by
  intro k hk
  rw [VehicleTracker.created_append, List.mem_append]
  exact (h.live_from hids hu k hk).imp (h.live_created k) id

theorem Tracked.live_id_append (h : Tracked cfg past)
    (hids : Associated cfg ((current past).predicted model.toBoxFilter frame.dt)
      frame.detections ids) (hu : Updates model cfg (current past) frame ids u) :
    ∀ k track, (k, track) ∈ u.tracker.tracks.entries → track.obj.trackId = k := by
  intro k track hmem
  rcases hu.mem_cases hids h.keys_le hmem with
    ⟨track₀, hmem₀, hcarried⟩ | ⟨-, detection, -, rfl⟩
  · exact hcarried.trackId_eq.trans (h.live_id k track₀ hmem₀)
  · rfl

theorem Updates.created_gt {s : VehicleTracker α Φ}
    (hu : Updates model cfg s frame ids u) {k : ℕ}
    (hk : k ∈ createdIds u.outcomes) : s.nextId < k := by
  rw [hu.createdIds_eq, List.mem_range'_1] at hk
  exact hk.1

theorem Tracked.class_eq_append (h : Tracked cfg past)
    (hids : Associated cfg ((current past).predicted model.toBoxFilter frame.dt)
      frame.detections ids) (hu : Updates model cfg (current past) frame ids u) :
    ∀ earlier ∈ past, ∀ k track track',
      (k, track) ∈ earlier.tracker.tracks.entries →
        (k, track') ∈ u.tracker.tracks.entries →
          track'.obj.detection.classId = track.obj.detection.classId := by
  intro earlier hearlier k track track' hmem hmem'
  rcases hu.mem_cases hids h.keys_le hmem' with
    ⟨track₀, hmem₀, hcarried⟩ | ⟨hnew, -⟩
  · exact hcarried.class_eq.trans (h.class_eq earlier hearlier k track track₀ hmem hmem₀)
  · have hle := h.past_le earlier hearlier k (UnorderedMap.mem_keys_of_mem hmem)
    exact absurd (hu.created_gt hnew) (not_lt.mpr hle)

theorem Tracked.carried_unseen (h : Tracked cfg past)
    (hu : Updates model cfg (current past) frame ids u) {k : ℕ}
    {track₀ track : Track α Φ} (hmem : (k, track₀) ∈ (current past).tracks.entries)
    (hcarried : Carried (current past) u k track₀ track) :
    track.obj.framesSinceSeen = unseenFor (past ++ [u]) k := by
  have hold : k ∉ createdIds u.outcomes := fun hnew =>
    absurd (hu.created_gt hnew)
      (not_lt.mpr (h.keys_le k (UnorderedMap.mem_keys_of_mem hmem)))
  rw [hcarried.unseen_eq, unseenFor_append]
  by_cases hk : k ∈ updatedIds u.outcomes
  · rw [if_pos hk, if_pos (mem_outcomes_iff.mpr (.inl hk))]
    rfl
  · have hnone : k ∉ u.outcomes.map Outcome.id := fun hmem' =>
      (mem_outcomes_iff.mp hmem').elim hk hold
    rw [if_neg hk, if_neg hnone, h.unseen_eq k track₀ hmem]
    rfl

theorem Tracked.unseen_eq_append (h : Tracked cfg past)
    (hids : Associated cfg ((current past).predicted model.toBoxFilter frame.dt)
      frame.detections ids) (hu : Updates model cfg (current past) frame ids u) :
    ∀ k track, (k, track) ∈ u.tracker.tracks.entries →
      track.obj.framesSinceSeen = unseenFor (past ++ [u]) k := by
  intro k track hmem
  rcases hu.mem_cases hids h.keys_le hmem with
    ⟨track₀, hmem₀, hcarried⟩ | ⟨hnew, detection, -, rfl⟩
  · exact h.carried_unseen hu hmem₀ hcarried
  · rw [unseenFor_append, if_pos (mem_outcomes_iff.mpr (.inr hnew))]
    rfl

theorem Tracked.unseen_le_append (h : Tracked cfg past)
    (hu : Updates model cfg (current past) frame ids u) :
    ∀ k track, (k, track) ∈ u.tracker.tracks.entries →
      track.obj.framesSinceSeen ≤ cfg.maxAge := by
  intro k track hmem
  have halive := ((hu.mem_tracks h.keys_le k track).mp hmem).1
  exact not_lt.mp (of_decide_eq_false halive)

/-- A track vanishes at the update that makes it unseen once too often. -/
theorem Tracked.gone_iff (h : Tracked cfg past)
    (hids : Associated cfg ((current past).predicted model.toBoxFilter frame.dt)
      frame.detections ids) (hu : Updates model cfg (current past) frame ids u) :
    ∀ k ∈ (current past).tracks.keys, k ∉ u.tracker.tracks.keys ↔
      (unseenFor (past ++ [u]) k : ℤ) = cfg.maxAge + 1 := by
  intro k hk
  obtain ⟨track₀, hmem₀⟩ := UnorderedMap.mem_keys.mp hk
  obtain ⟨track, hcarried, hstays⟩ := hu.exists_carried hids h.keys_le hmem₀
  have hunseen := h.carried_unseen hu hmem₀ hcarried
  constructor
  · intro hgone
    have hdead : dead cfg track = true := by
      by_contra halive
      exact hgone (UnorderedMap.mem_keys_of_mem
        (hstays (Bool.not_eq_true _ ▸ halive)))
    have hlt : cfg.maxAge < track.obj.framesSinceSeen := of_decide_eq_true hdead
    have hle := h.unseen_le k track₀ hmem₀
    have hnonneg := h.nonneg k track₀ hmem₀
    have hcount := hcarried.unseen_eq
    split_ifs at hcount <;> omega
  · intro hcount hlive
    obtain ⟨track', hmem'⟩ := UnorderedMap.mem_keys.mp hlive
    have hle := h.unseen_le_append hu k track' hmem'
    rw [h.unseen_eq_append hids hu k track' hmem'] at hle
    omega

theorem Tracked.append (h : Tracked cfg past)
    (hids : Associated cfg ((current past).predicted model.toBoxFilter frame.dt)
      frame.detections ids) (hu : Updates model cfg (current past) frame ids u) :
    Tracked cfg (past ++ [u]) := by
  have hcreated := h.created_append hu
  have hlive := h.live_created_append hids hu
  refine ⟨?_, ?_, ?_, ?_, ?_, ?_, ?_⟩ <;> rw [current_append]
  · exact hcreated
  · exact hlive
  · intro earlier hearlier k hk
    rcases List.mem_append.mp hearlier with hearlier | hearlier
    · exact (h.past_le earlier hearlier k hk).trans hu.nextId_le
    · rw [List.mem_singleton.mp hearlier] at hk
      have hmem := hlive k hk
      rw [hcreated, List.mem_range'_1] at hmem
      omega
  · exact h.live_id_append hids hu
  · intro earlier hearlier k track track' hmem hmem'
    rcases List.mem_append.mp hearlier with hearlier | hearlier
    · exact h.class_eq_append hids hu earlier hearlier k track track' hmem hmem'
    · rw [List.mem_singleton.mp hearlier] at hmem
      rw [UnorderedMap.eq_of_mem hmem hmem']
  · exact h.unseen_eq_append hids hu
  · exact h.unseen_le_append hu

omit [Zero α] [Add α] [Sub α] [Mul α] [Div α] [LT α] [DecidableLT α] in
theorem tracked_nil : Tracked cfg ([] : List (TrackerUpdate α Φ)) := by
  constructor <;> simp [current, created, UnorderedMap.empty, UnorderedMap.keys]

theorem Tracked.seen_length (hage : 0 ≤ cfg.maxAge) (h : Tracked cfg past)
    (hids : Associated cfg ((current past).predicted model.toBoxFilter frame.dt)
      frame.detections ids) (hu : Updates model cfg (current past) frame ids u) :
    (u.tracker.tracks.entries.filter fun e => unseenNow e.2).length =
      u.outcomes.length := by
  have hperm : ((u.tracker.tracks.entries.filter fun e => unseenNow e.2).map
      Prod.fst).Perm (u.outcomes.map Outcome.id) := by
    refine (List.perm_ext_iff_of_nodup (u.tracker.tracks.keys_filter_nodup _)
      (hu.outcomes_nodup hids h.keys_le)).mpr fun k => ?_
    rw [hu.seen_iff hage hids h.keys_le h.nonneg k]
    simp [List.mem_filter, unseenNow]
  have hlength := hperm.length_eq
  rwa [List.length_map, List.length_map] at hlength

omit [Zero α] [Add α] [Sub α] [Mul α] [Div α] [LT α] [DecidableLT α] in
theorem mem_emitted {tracks : UnorderedMap ℕ (Track α Φ)} {room : ℕ}
    {obj : TrackedObject α} (h : obj ∈ (((tracks.entries.map Prod.snd).filter
      (confirmed cfg)).map Track.obj).take room) :
    ∃ e ∈ tracks.entries, cfg.minHits ≤ e.2.obj.age ∧ e.2.obj = obj := by
  obtain ⟨track, htrack, rfl⟩ := List.mem_map.mp (List.mem_of_mem_take h)
  obtain ⟨htrack, hconfirmed⟩ := List.mem_filter.mp htrack
  obtain ⟨e, he, rfl⟩ := List.mem_map.mp htrack
  exact ⟨e, he, of_decide_eq_true hconfirmed, rfl⟩

theorem Tracked.laws (hage : 0 ≤ cfg.maxAge) (h : Tracked cfg past)
    (hids : Associated cfg ((current past).predicted model.toBoxFilter frame.dt)
      frame.detections ids) (hu : Updates model cfg (current past) frame ids u) :
    Lifecycle cfg past frame u := by
  have hlength : u.outcomes.length = frame.detections.length := by
    rw [hu.outcomes_eq, outcomesOf_length, List.length_zip, hids.length_eq, min_self]
  have hid := h.live_id_append hids hu
  have hids_eq : (u.tracker.tracks.entries.map fun e => e.2.obj.trackId) =
      u.tracker.tracks.keys :=
    List.map_congr_left fun e he => hid e.1 e.2 he
  have hnodup : (u.tracker.tracks.entries.map fun e => e.2.obj.trackId).Nodup := by
    rw [hids_eq]
    exact u.tracker.tracks.nodup
  refine {
    created_eq := h.created_append hu
    live_created := h.live_created_append hids hu
    live_id := hid
    live_nodup := hnodup
    live_from := h.live_from hids hu
    outcomes_length := hlength
    outcomes_nodup := hu.outcomes_nodup hids h.keys_le
    updated_live := fun k => hu.updated_live hids
    outcome_track := fun d detection outcome => hu.outcome_track hage hids h.keys_le
    seen_length := (h.seen_length hage hids hu).trans hlength
    class_eq := h.class_eq_append hids hu
    unseen_eq := h.unseen_eq_append hids hu
    unseen_le := fun k track hmem => ⟨?_, h.unseen_le_append hu k track hmem⟩
    gone_iff := h.gone_iff hids hu
    emitted_nodup := ?_
    emitted_live := fun obj hobj => ?_
    emitted_length := ?_ }
  · rw [h.unseen_eq_append hids hu k track hmem]
    exact Int.natCast_nonneg _
  · rw [hu.emitted_eq, List.map_take, List.map_map]
    refine List.Nodup.sublist (List.take_sublist _ _) ?_
    have hsublist := ((u.tracker.tracks.entries.map Prod.snd).filter_sublist
      (p := confirmed cfg)).map fun track => track.obj.trackId
    rw [List.map_map] at hsublist
    exact hnodup.sublist hsublist
  · rw [hu.emitted_eq] at hobj
    obtain ⟨⟨k, track⟩, he, hconfirmed, rfl⟩ := mem_emitted hobj
    refine ⟨track, ?_, rfl, hconfirmed⟩
    rw [hid k track he]
    exact he
  · rw [hu.emitted_eq, List.length_take, List.length_map, List.filter_map,
      List.length_map]
    rfl

end Run

section Lifecycle

variable [IsStrictOrderedRing K] (model : BoxModel α Φ K) (cfg : TrackerConfig α)

omit [IsStrictOrderedRing K] in
theorem updates_append (frames : List (TrackerFrame α Φ)) (frame : TrackerFrame α Φ) :
    updates model cfg (frames ++ [frame]) = (updates model cfg frames).bind
      fun past => (update model cfg (current past) frame).map fun u => past ++ [u] := by
  rw [updates, List.foldlM_append]
  simp only [List.foldlM_cons, List.foldlM_nil, bind_pure]
  rfl

theorem updates_tracked (hage : 0 ≤ cfg.maxAge) (frames : List (TrackerFrame α Φ)) :
    ∃ run, updates model cfg frames = some run ∧ run.length = frames.length ∧
      Tracked cfg run ∧ ∀ past u rest, run = past ++ u :: rest →
        ∃ frame, frames[past.length]? = some frame ∧ Lifecycle cfg past frame u := by
  induction frames using List.reverseRecOn with
  | nil => exact ⟨[], rfl, rfl, tracked_nil, fun past u rest h => by simp at h⟩
  | append_singleton frames frame ih =>
      obtain ⟨run, hrun, hlength, htracked, hlaws⟩ := ih
      obtain ⟨ids, u, hupdate, -, hids, hdecided, hu⟩ :=
        update_spec model cfg (current run) frame
      have hassociated := hdecided.associated model cfg hids
      refine ⟨run ++ [u], ?_, ?_, htracked.append hassociated hu, ?_⟩
      · rw [updates_append, hrun, Option.bind_some, hupdate]
        rfl
      · rw [List.length_append, List.length_append, hlength]
        rfl
      · intro past u' rest heq
        rcases EventHistory.append_singleton_eq_append_cons heq with
          ⟨-, rfl, rfl⟩ | ⟨rest', -, hrun'⟩
        · refine ⟨frame, ?_, htracked.laws hage hassociated hu⟩
          rw [hlength, List.getElem?_concat_length]
        · obtain ⟨frame', hframe, hlaw⟩ := hlaws past u' rest' hrun'
          refine ⟨frame', ?_, hlaw⟩
          rw [List.getElem?_append_left (List.getElem?_eq_some_iff.mp hframe).1]
          exact hframe

/-- Every update of every run obeys the laws of the life of a track. -/
theorem run_lifecycle (hage : 0 ≤ cfg.maxAge) (frames : List (TrackerFrame α Φ)) :
    ∃ run, updates model cfg frames = some run ∧ run.length = frames.length ∧
      ∀ past u rest, run = past ++ u :: rest →
        ∃ frame, frames[past.length]? = some frame ∧ Lifecycle cfg past frame u := by
  obtain ⟨run, hrun, hlength, -, hlaws⟩ := updates_tracked model cfg hage frames
  exact ⟨run, hrun, hlength, hlaws⟩

theorem run_lifecycle_adversarial :
    ∃ run, updates (exactBoxes standingFilter) ⟨3 / 10, 30, 1⟩
        [adversarialFrame, adversarialFrame] = some run ∧ run.length = 2 ∧
      ∀ past u rest, run = past ++ u :: rest →
        ∃ frame, [adversarialFrame, adversarialFrame][past.length]? = some frame ∧
          Lifecycle ⟨3 / 10, 30, 1⟩ past frame u :=
  run_lifecycle (exactBoxes standingFilter) ⟨3 / 10, 30, 1⟩ (by decide)
    [adversarialFrame, adversarialFrame]

end Lifecycle

end VehicleTracker

end Semaforo
