import Semaforo.EventHistory
import Semaforo.KalmanChannels
import Semaforo.LaneMembership
import Semaforo.LoneTrack
import Semaforo.TrackerLifecycle
import Mathlib.Tactic

/-!
# Time in view and time stationary

The perception loop updates the tracker and hands the pool to the estimator.  The
wait of a stopped vehicle is counted from the instant it was first seen, however
long it drove since.  It is the time that the vehicle has been stationary exactly
when no earlier estimate found the vehicle moving.
-/

namespace Semaforo

namespace WaitTimes

open QueueEstimator VehicleTracker EventHistory

/-- A call of the perception loop, with what the clock says in it. -/
inductive Call (α Φ : Type) where
  | update (frame : TrackerFrame α Φ)
  | estimate (timestamp : ℤ) (now : ℕ → ℕ → ℤ) (laneConfig : LaneConfig α)

def Call.time {α Φ : Type} : Call α Φ → ℤ
  | .update frame => frame.now
  | .estimate timestamp _ _ => timestamp

/-- What a call of `estimate` was given and what the clock said in it. -/
structure Estimate (α : Type) where
  timestamp : ℤ
  now : ℕ → ℕ → ℤ
  laneConfig : LaneConfig α
  trackedObjects : List (TrackedObject α)

/-- A call that is done. -/
inductive Event (α Φ : Type) where
  | updated (now : ℤ) (u : TrackerUpdate α Φ)
  | estimated (e : Estimate α)

section Histories

variable {α Φ : Type}

def Event.time : Event α Φ → ℤ
  | .updated now _ => now
  | .estimated e => e.timestamp

def Event.update? : Event α Φ → Option (TrackerUpdate α Φ)
  | .updated _ u => some u
  | .estimated _ => none

def trackerUpdates (history : List (Event α Φ)) : List (TrackerUpdate α Φ) :=
  history.filterMap Event.update?

/-- The pool as the last update left it. -/
def trackPool (history : List (Event α Φ)) : List (TrackedObject α) :=
  ((trackerUpdates history).getLast?.map TrackerUpdate.emitted).getD []

/-- The vehicle was first seen by an update at that time. -/
def Appeared (history : List (Event α Φ)) (id : ℕ) (t : ℤ) : Prop :=
  ∃ u, .updated t u ∈ history ∧ id ∈ createdIds u.outcomes

@[simp] theorem trackerUpdates_updated (history : List (Event α Φ)) (now : ℤ)
    (u : TrackerUpdate α Φ) :
    trackerUpdates (history ++ [.updated now u]) = trackerUpdates history ++ [u] := by
  rw [trackerUpdates, List.filterMap_append]
  rfl

@[simp] theorem trackerUpdates_estimated (history : List (Event α Φ))
    (e : Estimate α) :
    trackerUpdates (history ++ [.estimated e]) = trackerUpdates history := by
  rw [trackerUpdates, List.filterMap_append]
  exact List.append_nil _

theorem appeared_updated {history : List (Event α Φ)} {now : ℤ}
    {u : TrackerUpdate α Φ} {id : ℕ} {t : ℤ} :
    Appeared (history ++ [.updated now u]) id t ↔
      Appeared history id t ∨ (t = now ∧ id ∈ createdIds u.outcomes) := by
  constructor
  · rintro ⟨u', hmem, hid⟩
    rcases List.mem_append.mp hmem with hmem | hmem
    · exact .inl ⟨u', hmem, hid⟩
    · obtain ⟨rfl, rfl⟩ := Event.updated.inj (List.mem_singleton.mp hmem)
      exact .inr ⟨rfl, hid⟩
  · rintro (⟨u', hmem, hid⟩ | ⟨rfl, hid⟩)
    · exact ⟨u', List.mem_append_left _ hmem, hid⟩
    · exact ⟨u, List.mem_append_right _ (List.mem_singleton_self _), hid⟩

theorem appeared_estimated {history : List (Event α Φ)} {e : Estimate α} {id : ℕ}
    {t : ℤ} : Appeared (history ++ [.estimated e]) id t ↔ Appeared history id t := by
  constructor
  · rintro ⟨u, hmem, hid⟩
    rcases List.mem_append.mp hmem with hmem | hmem
    · exact ⟨u, hmem, hid⟩
    · cases List.mem_singleton.mp hmem
  · rintro ⟨u, hmem, hid⟩
    exact ⟨u, List.mem_append_left _ hmem, hid⟩

theorem Appeared.mem_created {history : List (Event α Φ)} {id : ℕ} {t : ℤ}
    (h : Appeared history id t) : id ∈ created (trackerUpdates history) := by
  obtain ⟨u, hmem, hid⟩ := h
  exact List.mem_flatMap.mpr ⟨u, List.mem_filterMap.mpr ⟨_, hmem, rfl⟩, hid⟩

end Histories

section Waits

variable {α Φ : Type} [IntCast α] [Add α] [Sub α] [Mul α] [Div α] [LT α]
variable [DecidableLT α] (m : FloatMath α) (stoppedThreshold : α)

def Estimate.state (e : Estimate α) : QueueReport :=
  QueueEstimator.estimate m stoppedThreshold e.now e.trackedObjects e.laneConfig

/-- The stopped vehicles of a lane, each with what the clock says at it. -/
def waiting (lane : LaneRegion α) (now : ℕ → ℤ)
    (trackedObjects : List (TrackedObject α)) : List (TrackedObject α × ℤ) :=
  (trackedObjects.zipIdx.filter fun object =>
    inLane lane object.1 && decide (velocity m object.1 < stoppedThreshold)).map
      fun object => (object.1, now object.2)

/-- What a stopped vehicle contributes to the average of its lane. -/
def wait (stopped : TrackedObject α × ℤ) : ℤ := stopped.2 - stopped.1.firstSeen

/-- An estimate found the vehicle at or above the threshold. -/
def movingAt (e : Estimate α) (id : ℕ) : Bool :=
  e.trackedObjects.any fun obj =>
    obj.trackId == id && !decide (velocity m obj < stoppedThreshold)

/-- From when an event lets the vehicle be stationary: it appears or is found
moving. -/
def standsFrom (id : ℕ) : Event α Φ → Option ℤ
  | .updated now u => if id ∈ createdIds u.outcomes then some now else none
  | .estimated e =>
      if movingAt m stoppedThreshold e id then some e.timestamp else none

def standingSince (history : List (Event α Φ)) (id : ℕ) : Option ℤ :=
  latest (standsFrom m stoppedThreshold id) history

/-- No stopped vehicle brings more than the time since it was last found moving, or
since it was first seen, into the average of its lane. -/
def CountsStoppedTime (before : List (Event α Φ)) (e : Estimate α) : Prop :=
  ∀ lane ∈ e.laneConfig.lanes.zipIdx,
    ∀ stopped ∈ waiting m stoppedThreshold lane.1 (e.now lane.2) e.trackedObjects,
      ∃ t ∈ standingSince m stoppedThreshold before stopped.1.trackId,
        wait stopped ≤ stopped.2 - t

/-- No vehicle that is stopped in a lane was found moving after it appeared. -/
def NeverDrove (before : List (Event α Φ)) (e : Estimate α) : Prop :=
  ∀ lane ∈ e.laneConfig.lanes, ∀ obj ∈ e.trackedObjects, inLane lane obj = true →
    velocity m obj < stoppedThreshold → ∀ e', .estimated e' ∈ before →
      movingAt m stoppedThreshold e' obj.trackId = true →
        e'.timestamp ≤ obj.firstSeen

instance (before : List (Event α Φ)) (e : Estimate α) :
    Decidable (CountsStoppedTime m stoppedThreshold before e) :=
  inferInstanceAs (Decidable (∀ lane ∈ e.laneConfig.lanes.zipIdx,
    ∀ stopped ∈ waiting m stoppedThreshold lane.1 (e.now lane.2) e.trackedObjects,
      ∃ t ∈ standingSince m stoppedThreshold before stopped.1.trackId,
        wait stopped ≤ stopped.2 - t))

end Waits

/-! ## The averages -/

section Averages

variable {α : Type} [IntCast α] [Add α] [Sub α] [Mul α] [Div α] [LT α]
variable [DecidableLT α] (m : FloatMath α) (stoppedThreshold : α)

theorem measure_waits (lane : LaneRegion α) (now : ℕ → ℤ) :
    ∀ (objects : List (TrackedObject α × ℕ)) (measured : ℤ × List α),
      (objects.foldl (measureObject m stoppedThreshold lane now) measured).2 =
        measured.2 ++ ((objects.filter fun object => inLane lane object.1 &&
          decide (velocity m object.1 < stoppedThreshold)).map fun object =>
            m.seconds (now object.2 - object.1.firstSeen)) := by
  intro objects
  induction objects with
  | nil => exact fun measured => (List.append_nil _).symm
  | cons object rest ih =>
      intro measured
      rw [List.foldl_cons, ih, measureObject, List.filter_cons]
      by_cases hlane : inLane lane object.1 = true
      · by_cases hstopped : velocity m object.1 < stoppedThreshold
        · simp [hlane, hstopped]
        · simp [hlane, hstopped]
      · simp [hlane]

theorem measureLane_avgWaitS (lane : LaneRegion α) (now : ℕ → ℤ)
    (trackedObjects : List (TrackedObject α)) :
    (measureLane m stoppedThreshold now trackedObjects lane).avgWaitS =
      m.value (averageWait ((waiting m stoppedThreshold lane now
        trackedObjects).map fun stopped => m.seconds (wait stopped))) := by
  have hwaits := measure_waits m stoppedThreshold lane now trackedObjects.zipIdx
    (0, [])
  rw [List.nil_append] at hwaits
  rw [waiting, List.map_map]
  exact congrArg (fun waitTimes => m.value (averageWait waitTimes)) hwaits

theorem Estimate.avgWaits (e : Estimate α) :
    (e.state m stoppedThreshold).lanes.map LaneQueueState.avgWaitS =
      e.laneConfig.lanes.zipIdx.map fun lane =>
        m.value (averageWait ((waiting m stoppedThreshold lane.1 (e.now lane.2)
          e.trackedObjects).map fun stopped => m.seconds (wait stopped))) := by
  rw [Estimate.state, estimate_lanes, List.map_map]
  exact List.map_congr_left fun lane _ =>
    measureLane_avgWaitS m stoppedThreshold lane.1 (e.now lane.2) e.trackedObjects

end Averages

/-! ## One estimate -/

section Estimates

variable {α Φ : Type} [IntCast α] [Add α] [Sub α] [Mul α] [Div α] [LT α]
variable [DecidableLT α] {m : FloatMath α} {stoppedThreshold : α}
variable {before : List (Event α Φ)} {e : Estimate α}

theorem mem_waiting {lane : LaneRegion α} {now : ℕ → ℤ}
    {trackedObjects : List (TrackedObject α)} {stopped : TrackedObject α × ℤ} :
    stopped ∈ waiting m stoppedThreshold lane now trackedObjects ↔
      ∃ i, trackedObjects[i]? = some stopped.1 ∧ stopped.2 = now i ∧
        inLane lane stopped.1 = true ∧ velocity m stopped.1 < stoppedThreshold := by
  rw [waiting, List.mem_map]
  constructor
  · rintro ⟨⟨obj, i⟩, hmem, rfl⟩
    obtain ⟨hobj, htest⟩ := List.mem_filter.mp hmem
    obtain ⟨hlane, hstopped⟩ := Bool.and_eq_true_iff.mp htest
    exact ⟨i, List.mk_mem_zipIdx_iff_getElem?.mp hobj, rfl, hlane,
      of_decide_eq_true hstopped⟩
  · rintro ⟨i, hobj, hnow, hlane, hstopped⟩
    refine ⟨(stopped.1, i), List.mem_filter.mpr
      ⟨List.mk_mem_zipIdx_iff_getElem?.mpr hobj, ?_⟩, Prod.ext rfl hnow.symm⟩
    rw [hlane, Bool.true_and]
    exact decide_eq_true hstopped

omit [IntCast α] [Sub α] [Div α] in
theorem standsFrom_time {id : ℕ} {event : Event α Φ} {t : ℤ}
    (h : standsFrom m stoppedThreshold id event = some t) : t = event.time := by
  cases event with
  | updated now u =>
      rw [standsFrom] at h
      split_ifs at h
      exact (Option.some.inj h).symm
  | estimated e =>
      rw [standsFrom] at h
      split_ifs at h
      exact (Option.some.inj h).symm

omit [IntCast α] [Sub α] [Div α] in
theorem standsFrom_ordered
    (htimes : (before.map Event.time).Pairwise (· ≤ ·)) (id : ℕ) :
    Ordered (standsFrom m stoppedThreshold id) before := by
  rw [List.pairwise_map] at htimes
  refine htimes.imp fun hle t ht t' ht' => ?_
  rw [standsFrom_time ht, standsFrom_time ht']
  exact hle

omit [IntCast α] [Sub α] [Div α] in
/-- A vehicle has been stationary since it appeared unless it was found moving
later. -/
theorem standingSince_le_iff
    (htimes : (before.map Event.time).Pairwise (· ≤ ·)) {obj : TrackedObject α}
    (hfirst : ∀ t, Appeared before obj.trackId t ↔ t = obj.firstSeen) :
    (∃ t ∈ standingSince m stoppedThreshold before obj.trackId,
        t ≤ obj.firstSeen) ↔
      ∀ e', .estimated e' ∈ before →
        movingAt m stoppedThreshold e' obj.trackId = true →
          e'.timestamp ≤ obj.firstSeen := by
  have hordered : Ordered (standsFrom m stoppedThreshold obj.trackId) before :=
    standsFrom_ordered htimes obj.trackId
  constructor
  · rintro ⟨t, hsince, hle⟩ e' hmem hmoving
    obtain ⟨t', hlatest, hle'⟩ := exists_latest (t := e'.timestamp) hordered hmem
      (if_pos hmoving)
    obtain rfl := Option.some.inj (hlatest.symm.trans hsince)
    exact hle'.trans hle
  · intro hnever
    obtain ⟨u, hmem, hid⟩ := (hfirst obj.firstSeen).mpr rfl
    obtain ⟨t, hlatest, -⟩ := exists_latest (t := obj.firstSeen) hordered hmem
      (if_pos hid)
    refine ⟨t, hlatest, ?_⟩
    obtain ⟨event, hevent, htime⟩ := exists_event hlatest
    cases event with
    | updated now u' =>
        rw [standsFrom] at htime
        split_ifs at htime with hid'
        obtain rfl := Option.some.inj htime
        exact ((hfirst now).mp ⟨u', hevent, hid'⟩).le
    | estimated e' =>
        rw [standsFrom] at htime
        split_ifs at htime with hmoving
        obtain rfl := Option.some.inj htime
        exact hnever e' hevent hmoving

theorem countsStoppedTime_iff_neverDrove
    (htimes : (before.map Event.time).Pairwise (· ≤ ·))
    (hfirst : ∀ obj ∈ e.trackedObjects,
      ∀ t, Appeared before obj.trackId t ↔ t = obj.firstSeen) :
    CountsStoppedTime m stoppedThreshold before e ↔
      NeverDrove m stoppedThreshold before e := by
  have hwait : ∀ (stopped : TrackedObject α × ℤ) (t : ℤ),
      wait stopped ≤ stopped.2 - t ↔ t ≤ stopped.1.firstSeen := by
    intro stopped t
    rw [wait, sub_le_sub_iff_left]
  constructor
  · intro hcounts lane hlane obj hobj hin hstopped
    obtain ⟨k, hk⟩ := List.mem_iff_getElem?.mp hlane
    obtain ⟨i, hi⟩ := List.mem_iff_getElem?.mp hobj
    obtain ⟨t, hsince, hle⟩ := hcounts (lane, k)
      (List.mk_mem_zipIdx_iff_getElem?.mpr hk) (obj, e.now k i)
      (mem_waiting.mpr ⟨i, hi, rfl, hin, hstopped⟩)
    exact (standingSince_le_iff htimes (hfirst obj hobj)).mp
      ⟨t, hsince, (hwait (obj, e.now k i) t).mp hle⟩
  · intro hnever lane hlane stopped hmem
    obtain ⟨i, hi, -, hin, hstopped⟩ := mem_waiting.mp hmem
    have hobj := List.mem_of_getElem? hi
    obtain ⟨t, hsince, hle⟩ := (standingSince_le_iff htimes
      (hfirst stopped.1 hobj)).mpr (hnever lane.1
        (List.fst_mem_of_mem_zipIdx hlane) stopped.1 hobj hin hstopped)
    exact ⟨t, hsince, (hwait stopped t).mpr hle⟩

end Estimates

/-! ## Runs -/

section Run

variable {α Φ K : Type} [Zero α] [IntCast α] [Add α] [Sub α] [Mul α] [Div α]
variable [LT α] [DecidableLT α] [Field K] [LinearOrder K]

section

variable (model : BoxModel α Φ K) (cfg : TrackerConfig α)

def perceiveOne (history : List (Event α Φ)) :
    Call α Φ → Option (List (Event α Φ))
  | .update frame =>
      (update model cfg (current (trackerUpdates history)) frame).map fun u =>
        history ++ [.updated frame.now u]
  | .estimate timestamp now laneConfig =>
      some (history ++ [.estimated
        { timestamp := timestamp
          now := now
          laneConfig := laneConfig
          trackedObjects := trackPool history }])

def perceive (calls : List (Call α Φ)) : Option (List (Event α Φ)) :=
  calls.foldlM (perceiveOne model cfg) []

end

variable {model : BoxModel α Φ K} {cfg : TrackerConfig α}
variable {history : List (Event α Φ)} {frame : TrackerFrame α Φ}
variable {ids : List (Option ℕ)} {u : TrackerUpdate α Φ}

/-- What a run has established of the live tracks, the pool and the estimates. -/
structure Perceived (cfg : TrackerConfig α) (history : List (Event α Φ)) : Prop where
  tracked : Tracked cfg (trackerUpdates history)
  firstSeen : ∀ k track, (k, track) ∈ (current (trackerUpdates history)).tracks.entries →
    ∀ t, Appeared history k t ↔ t = track.obj.firstSeen
  pool : ∀ obj ∈ trackPool history,
    ∀ t, Appeared history obj.trackId t ↔ t = obj.firstSeen
  estimates : ∀ before e after, history = before ++ .estimated e :: after →
    ∀ obj ∈ e.trackedObjects,
      ∀ t, Appeared before obj.trackId t ↔ t = obj.firstSeen

omit [Zero α] [IntCast α] [Add α] [Sub α] [Mul α] [Div α] [LT α]
  [DecidableLT α] in
theorem perceived_nil : Perceived cfg ([] : List (Event α Φ)) where
  tracked := tracked_nil
  firstSeen k track hmem := absurd hmem List.not_mem_nil
  pool obj hmem := absurd hmem List.not_mem_nil
  estimates before e after h := by simp at h

omit [Add α] [Sub α] [Mul α] [Div α] [LT α] [DecidableLT α] [IntCast α]
  [Zero α] in
/-- Neither a prediction nor a detection moves the instant of the first sight. -/
theorem settled_firstSeen (filter : BoxFilter α Φ) (now : ℤ)
    (pairs : List (Detection α × Option ℕ)) (k : ℕ) (track : Track α Φ) :
    (settled filter now pairs k track).obj.firstSeen = track.obj.firstSeen := by
  rw [settled]
  split <;> rfl

omit [IntCast α] in
theorem Perceived.firstSeen_updated (h : Perceived cfg history)
    (hu : Updates model cfg (current (trackerUpdates history)) frame ids u)
    {k : ℕ} {track : Track α Φ} (hmem : (k, track) ∈ u.tracker.tracks.entries)
    (t : ℤ) : Appeared (history ++ [.updated frame.now u]) k t ↔
      t = track.obj.firstSeen := by
  rw [appeared_updated]
  obtain ⟨-, ⟨track₀, hmem₀, rfl⟩ | hnew⟩ :=
    (hu.mem_tracks h.tracked.keys_le k track).mp hmem
  · have hold : k ∉ createdIds u.outcomes := fun hid =>
      absurd (hu.created_gt hid) (not_lt.mpr
        (h.tracked.keys_le k (UnorderedMap.mem_keys_of_mem hmem₀)))
    rw [h.firstSeen k track₀ hmem₀, settled_firstSeen]
    exact or_iff_left fun hcreated => hold hcreated.2
  · have hid : k ∈ createdIds u.outcomes := by
      rw [hu.outcomes_eq, createdIds_outcomesOf model.toBoxFilter frame.now]
      exact List.mem_map_of_mem hnew
    have hfresh : ¬ Appeared history k t := by
      intro happeared
      have hmem' := happeared.mem_created
      rw [h.tracked.created_eq, List.mem_range'_1] at hmem'
      have hlt := hu.created_gt hid
      omega
    obtain ⟨detection, -, rfl⟩ := mem_spawned _ _ _ hnew
    constructor
    · exact fun hcase => (hcase.resolve_left hfresh).1
    · exact fun hnow => .inr ⟨hnow, hid⟩

omit [IntCast α] in
theorem Perceived.updated (h : Perceived cfg history)
    (hids : Associated cfg ((current (trackerUpdates history)).predicted
      model.toBoxFilter frame.dt) frame.detections ids)
    (hu : Updates model cfg (current (trackerUpdates history)) frame ids u) :
    Perceived cfg (history ++ [.updated frame.now u]) := by
  have htracked := h.tracked.append hids hu
  refine ⟨?_, ?_, ?_, ?_⟩
  · rw [trackerUpdates_updated]
    exact htracked
  · rw [trackerUpdates_updated, current_append]
    exact fun k track hmem => h.firstSeen_updated hu hmem
  · intro obj hobj
    have hpool : trackPool (history ++ [.updated frame.now u]) = u.emitted := by
      rw [trackPool, trackerUpdates_updated, List.getLast?_concat]
      rfl
    rw [hpool, hu.emitted_eq] at hobj
    obtain ⟨⟨k, track⟩, hmem, -, rfl⟩ := mem_emitted hobj
    rw [h.tracked.live_id_append hids hu k track hmem]
    exact h.firstSeen_updated hu hmem
  · intro before e after heq
    rcases append_singleton_eq_append_cons heq with ⟨-, -, hlast⟩ | ⟨rest, -, heq'⟩
    · cases hlast
    · exact h.estimates before e rest heq'

omit [Zero α] [IntCast α] [Add α] [Sub α] [Mul α] [Div α] [LT α]
  [DecidableLT α] in
theorem Perceived.estimated (h : Perceived cfg history) {e : Estimate α}
    (hpool : e.trackedObjects = trackPool history) :
    Perceived cfg (history ++ [.estimated e]) := by
  have hsame : trackPool (history ++ [.estimated e]) = trackPool history := by
    rw [trackPool, trackPool, trackerUpdates_estimated]
  refine ⟨?_, ?_, ?_, ?_⟩
  · rw [trackerUpdates_estimated]
    exact h.tracked
  · rw [trackerUpdates_estimated]
    intro k track hmem t
    rw [appeared_estimated]
    exact h.firstSeen k track hmem t
  · rw [hsame]
    intro obj hobj t
    rw [appeared_estimated]
    exact h.pool obj hobj t
  · intro before e' after heq
    rcases append_singleton_eq_append_cons heq with
      ⟨-, rfl, hlast⟩ | ⟨rest, -, heq'⟩
    · obtain rfl := Event.estimated.inj hlast
      rw [hpool]
      exact h.pool
    · exact h.estimates before e' rest heq'

omit [IntCast α] in
theorem perceive_append (calls : List (Call α Φ)) (call : Call α Φ) :
    perceive model cfg (calls ++ [call]) =
      (perceive model cfg calls).bind fun history =>
        perceiveOne model cfg history call := by
  rw [perceive, List.foldlM_append]
  simp only [List.foldlM_cons, List.foldlM_nil, bind_pure]
  rfl

variable [IsStrictOrderedRing K] (model cfg)

omit [IntCast α] in
variable {cfg} in
theorem perceiveOne_spec (h : Perceived cfg history) (call : Call α Φ) :
    ∃ event : Event α Φ, perceiveOne model cfg history call =
        some (history ++ [event]) ∧ event.time = call.time ∧
      Perceived cfg (history ++ [event]) := by
  cases call with
  | update frame =>
      obtain ⟨ids, u, hupdate, -, hlength, hdecided, hu⟩ :=
        update_spec model cfg (current (trackerUpdates history)) frame
      refine ⟨.updated frame.now u, ?_, rfl,
        h.updated (hdecided.associated model cfg hlength) hu⟩
      rw [perceiveOne, hupdate]
      rfl
  | estimate timestamp now laneConfig =>
      exact ⟨.estimated ⟨timestamp, now, laneConfig, trackPool history⟩, rfl, rfl,
        h.estimated rfl⟩

omit [IntCast α] in
theorem perceive_spec (calls : List (Call α Φ)) :
    ∃ history, perceive model cfg calls = some history ∧
      history.map Event.time = calls.map Call.time ∧ Perceived cfg history := by
  induction calls using List.reverseRecOn with
  | nil => exact ⟨[], rfl, rfl, perceived_nil⟩
  | append_singleton calls call ih =>
      obtain ⟨history, hrun, htimes, hperceived⟩ := ih
      obtain ⟨event, hstep, htime, hnext⟩ := perceiveOne_spec model hperceived call
      refine ⟨history ++ [event], ?_, ?_, hnext⟩
      · rw [perceive_append, hrun, Option.bind_some, hstep]
      · rw [List.map_append, List.map_append, htimes, List.map_singleton, htime,
          List.map_singleton]

/-- At every estimate of every run the waits are of stopped time exactly when no
vehicle drove before it stopped. -/
theorem countsStoppedTime_iff (m : FloatMath α) (stoppedThreshold : α)
    (calls : List (Call α Φ))
    (hclock : (calls.map Call.time).Pairwise (· ≤ ·)) :
    ∃ history, perceive model cfg calls = some history ∧
      ∀ before e after, history = before ++ .estimated e :: after →
        (e.state m stoppedThreshold).lanes.map LaneQueueState.avgWaitS =
            e.laneConfig.lanes.zipIdx.map (fun lane =>
              m.value (averageWait ((waiting m stoppedThreshold lane.1
                (e.now lane.2) e.trackedObjects).map fun stopped =>
                  m.seconds (wait stopped)))) ∧
          (CountsStoppedTime m stoppedThreshold before e ↔
            NeverDrove m stoppedThreshold before e) := by
  obtain ⟨history, hrun, htimes, hperceived⟩ := perceive_spec model cfg calls
  refine ⟨history, hrun, fun before e after heq => ⟨e.avgWaits m stoppedThreshold,
    countsStoppedTime_iff_neverDrove ?_ (hperceived.estimates before e after heq)⟩⟩
  rw [← htimes, heq, List.map_append] at hclock
  exact (List.pairwise_append.mp hclock).1

end Run

/-! ## A car that has just stopped -/

open KalmanBoxFilter (Channels)

/-- The tracker with its own filter, in exact arithmetic. -/
def exactModel : BoxModel ℚ (KalmanBoxFilter ℚ) ℚ :=
  exactBoxes (KalmanBoxFilter.filter KalmanBoxFilter.matxInv exactMath.sqrt)

def defaultConfig : TrackerConfig ℚ where
  iouThreshold := 3 / 10

def carBox (x : ℚ) : BBox ℚ := ⟨x, 0, 100, 50⟩

/-- The car is seen at that place, so many milliseconds in. -/
def carFrame (x : ℚ) (ms : ℤ) : TrackerFrame ℚ (KalmanBoxFilter ℚ) where
  detections := [⟨carBox x, 2, 1⟩]
  dt := 1
  now := ms * 10 ^ 6
  capacity := 256
  order := ⟨id, fun _ => List.Perm.refl _⟩

def northLane : LaneConfig ℚ where
  lanes := [⟨"NS_lane_1", [⟨0, 0⟩, ⟨400, 0⟩, ⟨400, 100⟩, ⟨0, 100⟩], "NS"⟩]

def estimateAt (ms : ℤ) : Call ℚ (KalmanBoxFilter ℚ) :=
  .estimate (ms * 10 ^ 6) (fun _ _ => ms * 10 ^ 6) northLane

/-- Three pixels a frame, found moving in the third, and then it stands. -/
def drivesThenStops : List (Call ℚ (KalmanBoxFilter ℚ)) :=
  [.update (carFrame 0 0), .update (carFrame 3 33), .update (carFrame 6 66),
    estimateAt 67, .update (carFrame 6 99), estimateAt 100]

/-- The track of the car, from the channels of its filter. -/
def carTrack (c : Channels ℚ) (age ms : ℤ) : Track ℚ (KalmanBoxFilter ℚ) where
  kf := c.toFilter
  obj :=
    { trackId := 1
      detection := ⟨KalmanBoxFilter.bbox exactMath.sqrt c.toFilter, 2, 1⟩
      age := age
      framesSinceSeen := 0
      velocityX := c.x.velocity
      velocityY := c.y.velocity
      firstSeen := 0
      lastSeen := ms * 10 ^ 6 }

def seenAgain (c : Channels ℚ) (x : ℚ) : Channels ℚ :=
  (c.predict 1).correct (carBox x)

def atFirst : Channels ℚ := .init (carBox 0)

def atSecond : Channels ℚ := seenAgain atFirst 3

def atThird : Channels ℚ := seenAgain atSecond 6

def atFourth : Channels ℚ := seenAgain atThird 6

theorem newTrack_car : newTrack exactModel.toBoxFilter 0 1 ⟨carBox 0, 2, 1⟩ =
    carTrack atFirst 1 0 := by
  have hbox : KalmanBoxFilter.bbox exactMath.sqrt atFirst.toFilter = carBox 0 := by
    decide +kernel
  rw [carTrack, hbox, atFirst, Channels.init_toFilter]
  rfl

theorem correct_car {c : Channels ℚ} (h : (c.predict 1).Observable) (x : ℚ)
    (age before ms : ℤ) :
    correct exactModel.toBoxFilter (ms * 10 ^ 6) ⟨carBox x, 2, 1⟩
        (advance exactModel.toBoxFilter 1 (carTrack c age before)) =
      carTrack (seenAgain c x) (age + 1) ms := by
  have hkf : exactModel.update (exactModel.predict c.toFilter 1) (carBox x) =
      (seenAgain c x).toFilter := by
    change (c.toFilter.predict 1).update KalmanBoxFilter.matxInv (carBox x) = _
    rw [← Channels.predict_toFilter,
      ← Channels.correct_toFilter KalmanBoxFilter.inverts_matxInv h, seenAgain]
  simp only [correct, advance, carTrack, hkf]
  rfl

theorem gate_car {c : Channels ℚ} {x : ℚ} (age before : ℤ)
    (h : 3 / 10 < computeIou (carBox x)
      (KalmanBoxFilter.bbox exactMath.sqrt (c.predict 1).toFilter)) :
    Gate defaultConfig (advance exactModel.toBoxFilter 1 (carTrack c age before))
      ⟨carBox x, 2, 1⟩ := by
  rw [Channels.predict_toFilter] at h
  exact ⟨rfl, h⟩

def sight (outcome : Outcome) (c : Channels ℚ) (age ms : ℤ) :
    Event ℚ (KalmanBoxFilter ℚ) :=
  .updated (ms * 10 ^ 6) (loneUpdate defaultConfig 256 outcome (carTrack c age ms))

theorem perceiveOne_car (history : List (Event ℚ (KalmanBoxFilter ℚ)))
    (c : Channels ℚ) (x : ℚ) {age before : ℤ} (ms : ℤ)
    (hcurrent : current (trackerUpdates history) = lone (carTrack c age before))
    (hobservable : (c.predict 1).Observable)
    (hgate : 3 / 10 < computeIou (carBox x)
      (KalmanBoxFilter.bbox exactMath.sqrt (c.predict 1).toFilter)) :
    perceiveOne exactModel defaultConfig history (.update (carFrame x ms)) =
      some (history ++ [sight (.updated 1) (seenAgain c x) (age + 1) ms]) := by
  have hupdate : update exactModel defaultConfig (lone (carTrack c age before))
      (carFrame x ms) = some (loneUpdate defaultConfig 256 (.updated 1)
        (correct exactModel.toBoxFilter (ms * 10 ^ 6) ⟨carBox x, 2, 1⟩
          (advance exactModel.toBoxFilter 1 (carTrack c age before)))) :=
    update_lone (by decide) rfl (gate_car age before hgate)
  rw [perceiveOne, hcurrent, hupdate, correct_car hobservable]
  rfl

def estimateOf (track : Track ℚ (KalmanBoxFilter ℚ)) (ms : ℤ) : Estimate ℚ where
  timestamp := ms * 10 ^ 6
  now := fun _ _ => ms * 10 ^ 6
  laneConfig := northLane
  trackedObjects := emit defaultConfig 256 [track]

def firstSight : Event ℚ (KalmanBoxFilter ℚ) := sight (.created 1) atFirst 1 0

def secondSight : Event ℚ (KalmanBoxFilter ℚ) := sight (.updated 1) atSecond 2 33

def thirdSight : Event ℚ (KalmanBoxFilter ℚ) := sight (.updated 1) atThird 3 66

def foundMoving : Estimate ℚ := estimateOf (carTrack atThird 3 66) 67

def fourthSight : Event ℚ (KalmanBoxFilter ℚ) := sight (.updated 1) atFourth 4 99

def foundStopped : Estimate ℚ := estimateOf (carTrack atFourth 4 99) 100

/-- What has happened before the car is found standing. -/
def driven : List (Event ℚ (KalmanBoxFilter ℚ)) :=
  [firstSight, secondSight, thirdSight, .estimated foundMoving, fourthSight]

theorem perceive_drivesThenStops :
    perceive exactModel defaultConfig drivesThenStops =
      some (driven ++ [.estimated foundStopped]) := by
  have hfirst : perceiveOne exactModel defaultConfig [] (.update (carFrame 0 0)) =
      some [firstSight] := by
    have hupdate : update exactModel defaultConfig {} (carFrame 0 0) =
        some (loneUpdate defaultConfig 256 (.created 1)
          (newTrack exactModel.toBoxFilter 0 1 ⟨carBox 0, 2, 1⟩)) :=
      update_first (by decide) rfl
    have hcurrent : current (trackerUpdates
        ([] : List (Event ℚ (KalmanBoxFilter ℚ)))) = {} := rfl
    rw [perceiveOne, hcurrent, hupdate, newTrack_car]
    rfl
  have hsecond : perceiveOne exactModel defaultConfig [firstSight]
      (.update (carFrame 3 33)) = some [firstSight, secondSight] :=
    perceiveOne_car [firstSight] atFirst 3 33 rfl (by decide +kernel)
      (by decide +kernel)
  have hthird : perceiveOne exactModel defaultConfig [firstSight, secondSight]
      (.update (carFrame 6 66)) = some [firstSight, secondSight, thirdSight] :=
    perceiveOne_car [firstSight, secondSight] atSecond 6 66 rfl (by decide +kernel)
      (by decide +kernel)
  have hmoving : perceiveOne exactModel defaultConfig
      [firstSight, secondSight, thirdSight] (estimateAt 67) =
        some [firstSight, secondSight, thirdSight, .estimated foundMoving] := rfl
  have hfourth : perceiveOne exactModel defaultConfig
      [firstSight, secondSight, thirdSight, .estimated foundMoving]
        (.update (carFrame 6 99)) = some driven :=
    perceiveOne_car [firstSight, secondSight, thirdSight, .estimated foundMoving]
      atThird 6 99 rfl (by decide +kernel) (by decide +kernel)
  have hstopped : perceiveOne exactModel defaultConfig driven (estimateAt 100) =
      some (driven ++ [.estimated foundStopped]) := rfl
  rw [perceive, drivesThenStops, foldlM_cons_of_some hfirst,
    foldlM_cons_of_some hsecond, foldlM_cons_of_some hthird,
    foldlM_cons_of_some hmoving, foldlM_cons_of_some hfourth,
    foldlM_cons_of_some hstopped, List.foldlM_nil]
  rfl

/-- The car was found moving 33 milliseconds ago and brings in a wait of 100. -/
theorem drive_counts_as_wait :
    (drivesThenStops.map Call.time).Pairwise (· ≤ ·) ∧
      ∃ before e, perceive exactModel defaultConfig drivesThenStops =
          some (before ++ [.estimated e]) ∧
        ¬ CountsStoppedTime exactMath 2 before e :=
  ⟨by decide +kernel, driven, foundStopped, perceive_drivesThenStops,
    by decide +kernel⟩

theorem countsStoppedTime_iff_drives :
    ∃ history, perceive exactModel defaultConfig drivesThenStops = some history ∧
      ∀ before e after, history = before ++ .estimated e :: after →
        (e.state exactMath 2).lanes.map LaneQueueState.avgWaitS =
            e.laneConfig.lanes.zipIdx.map (fun lane =>
              exactMath.value (averageWait ((waiting exactMath 2 lane.1
                (e.now lane.2) e.trackedObjects).map fun stopped =>
                  exactMath.seconds (wait stopped)))) ∧
          (CountsStoppedTime exactMath 2 before e ↔
            NeverDrove exactMath 2 before e) :=
  countsStoppedTime_iff exactModel defaultConfig exactMath 2 drivesThenStops
    (by decide +kernel)

end WaitTimes

end Semaforo
