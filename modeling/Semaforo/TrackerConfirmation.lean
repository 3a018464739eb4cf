import Mathlib.Tactic
import Semaforo.TrackerLifecycle

/-!
# Confirmed means detected?

A track is emitted once its `age` has reached `min_hits`, but the age is moved by
the prediction step and not by detections.  A track that coasts through its
first frames is therefore confirmed with fewer detections than the configuration
asks for.  As long as every track meets a detection in each update up to its
confirmation, emitted tracks have the detections they should have.
-/

namespace Semaforo

namespace VehicleTracker

variable {α Φ K : Type} [Zero α] [Add α] [Sub α] [Mul α] [Div α] [LT α]
variable [DecidableLT α] [Field K] [LinearOrder K]

/-- The detections an id was created from or updated with. -/
def hits (past : List (TrackerUpdate α Φ)) (id : ℕ) : ℕ :=
  (past.flatMap fun u => u.outcomes.map Outcome.id).count id

/-- Every track an update emits has met at least `min_hits` detections. -/
def DetectedEnough (cfg : TrackerConfig α) (run : List (TrackerUpdate α Φ)) : Prop :=
  ∀ past u rest, run = past ++ u :: rest → ∀ obj ∈ u.emitted,
    cfg.minHits ≤ hits (past ++ [u]) obj.trackId

/-- No update that left the track alive went without a detection for it. -/
def NeverMissed (past : List (TrackerUpdate α Φ)) (id : ℕ) : Prop :=
  ∀ u ∈ past, id ∈ u.tracker.tracks.keys → seen u id = true

def Matches (model : BoxModel α Φ K) (cfg : TrackerConfig α)
    (s : VehicleTracker α Φ) (frame : TrackerFrame α Φ) (id : ℕ) : Prop :=
  ∃ ids, associate model cfg (s.predicted model.toBoxFilter frame.dt)
    frame.detections = some ids ∧ some id ∈ ids

/-- A track in its last unconfirmed frame was never missed and is not missed now,
unless it has been unseen so long that the update erases it. -/
def NoneCoasts (model : BoxModel α Φ K) (cfg : TrackerConfig α)
    (past : List (TrackerUpdate α Φ)) (frame : TrackerFrame α Φ) : Prop :=
  ∀ k track, (k, track) ∈ (current past).tracks.entries →
    track.obj.age + 1 = cfg.minHits →
      NeverMissed past k ∧ Matches model cfg (current past) frame k ∨
        ¬ Matches model cfg (current past) frame k ∧
          cfg.maxAge ≤ track.obj.framesSinceSeen

/-- What a run without coasting has established of its live tracks. -/
structure Counted (cfg : TrackerConfig α) (past : List (TrackerUpdate α Φ)) :
    Prop where
  confirmed_hits : ∀ k track, (k, track) ∈ (current past).tracks.entries →
    cfg.minHits ≤ track.obj.age → cfg.minHits ≤ hits past k
  age_le : ∀ k track, (k, track) ∈ (current past).tracks.entries →
    NeverMissed past k → track.obj.age ≤ hits past k

omit [Zero α] [Add α] [Sub α] [Mul α] [Div α] [LT α] [DecidableLT α] in
theorem hits_append (past : List (TrackerUpdate α Φ)) (u : TrackerUpdate α Φ)
    (id : ℕ) : hits (past ++ [u]) id =
      hits past id + (u.outcomes.map Outcome.id).count id := by
  simp [hits]

omit [Zero α] [Add α] [Sub α] [Mul α] [Div α] [LT α] [DecidableLT α] in
theorem hits_append_of_mem (past : List (TrackerUpdate α Φ))
    {u : TrackerUpdate α Φ} {id : ℕ} (h : id ∈ u.outcomes.map Outcome.id) :
    hits past id + 1 ≤ hits (past ++ [u]) id := by
  rw [hits_append]
  exact Nat.add_le_add_left (List.one_le_count_iff.mpr h) _

section Step

variable {model : BoxModel α Φ K} {cfg : TrackerConfig α}
variable {past : List (TrackerUpdate α Φ)} {frame : TrackerFrame α Φ}
variable {ids : List (Option ℕ)} {u : TrackerUpdate α Φ}

theorem Updates.matches_iff
    (hassociate : associate model cfg
      ((current past).predicted model.toBoxFilter frame.dt) frame.detections = some ids)
    (hids : Associated cfg ((current past).predicted model.toBoxFilter frame.dt)
      frame.detections ids) (hu : Updates model cfg (current past) frame ids u)
    (k : ℕ) : Matches model cfg (current past) frame k ↔
      k ∈ updatedIds u.outcomes := by
  have hzip : some k ∈ ids ↔ k ∈ updatedIds u.outcomes := by
    rw [hu.updatedIds_eq]
    conv_lhs => rw [← hids.zip_snd]
    simp [List.mem_filterMap]
  rw [← hzip]
  constructor
  · rintro ⟨ids', hassociate', hmem⟩
    rwa [Option.some.inj (hassociate.symm.trans hassociate')]
  · exact fun hmem => ⟨ids, hassociate, hmem⟩

theorem Counted.append (h : Counted cfg past) (htracked : Tracked cfg past)
    (hassociate : associate model cfg
      ((current past).predicted model.toBoxFilter frame.dt) frame.detections = some ids)
    (hids : Associated cfg ((current past).predicted model.toBoxFilter frame.dt)
      frame.detections ids) (hu : Updates model cfg (current past) frame ids u)
    (hcoast : NoneCoasts model cfg past frame) : Counted cfg (past ++ [u]) := by
  have hseen : ∀ k ∈ updatedIds u.outcomes, hits past k + 1 ≤ hits (past ++ [u]) k :=
    fun k hk => hits_append_of_mem past (mem_outcomes_iff.mpr (.inl hk))
  constructor <;> rw [current_append]
  · intro k track hmem hage
    rcases hu.mem_cases hids htracked.keys_le hmem with
      ⟨track₀, hmem₀, hcarried⟩ | ⟨hnew, detection, -, rfl⟩
    · rw [hcarried.age_eq] at hage
      have hmono : hits past k ≤ hits (past ++ [u]) k := by
        rw [hits_append]
        exact Nat.le_add_right _ _
      rcases lt_or_eq_of_le hage with hlt | heq
      · have hold := h.confirmed_hits k track₀ hmem₀ (by omega)
        omega
      · rcases hcoast k track₀ hmem₀ heq.symm with ⟨hnever, hmatches⟩ | ⟨hmissed, hold⟩
        · have hk := (hu.matches_iff hassociate hids k).mp hmatches
          have hold := h.age_le k track₀ hmem₀ hnever
          have hmore := hseen k hk
          omega
        · have hk := fun hk => hmissed ((hu.matches_iff hassociate hids k).mpr hk)
          have hle := htracked.unseen_le_append hu k track hmem
          rw [hcarried.unseen_eq, if_neg hk] at hle
          omega
    · have hmore := hits_append_of_mem past (mem_outcomes_iff.mpr (.inr hnew))
      change cfg.minHits ≤ 1 at hage
      omega
  · intro k track hmem hnever
    rcases hu.mem_cases hids htracked.keys_le hmem with
      ⟨track₀, hmem₀, hcarried⟩ | ⟨hnew, detection, -, rfl⟩
    · have hold := h.age_le k track₀ hmem₀ fun v hv =>
        hnever v (List.mem_append_left _ hv)
      have hnow := hnever u (List.mem_append_right _ (List.mem_singleton_self u))
        (UnorderedMap.mem_keys_of_mem hmem)
      have hmore := hits_append_of_mem past (of_decide_eq_true hnow)
      rw [hcarried.age_eq]
      omega
    · have hmore := hits_append_of_mem past (mem_outcomes_iff.mpr (.inr hnew))
      change (1 : ℤ) ≤ _
      omega

end Step

omit [Zero α] [Add α] [Sub α] [Mul α] [Div α] [LT α] [DecidableLT α] in
theorem Counted.detected {cfg : TrackerConfig α} {past : List (TrackerUpdate α Φ)}
    {u : TrackerUpdate α Φ} {room : ℕ} (h : Counted cfg (past ++ [u]))
    (htracked : Tracked cfg (past ++ [u]))
    (hemitted : u.emitted = (((u.tracker.tracks.entries.map Prod.snd).filter
      (confirmed cfg)).map Track.obj).take room) :
    ∀ obj ∈ u.emitted, cfg.minHits ≤ hits (past ++ [u]) obj.trackId := by
  intro obj hobj
  rw [hemitted] at hobj
  obtain ⟨⟨k, track⟩, hmem, hage, rfl⟩ := mem_emitted hobj
  have hlive : (k, track) ∈ (current (past ++ [u])).tracks.entries := by
    rwa [current_append]
  rw [htracked.live_id k track hlive]
  exact h.confirmed_hits k track hlive hage

section Run

variable [IsStrictOrderedRing K] (model : BoxModel α Φ K) (cfg : TrackerConfig α)

theorem updates_counted (frames : List (TrackerFrame α Φ)) :
    ∃ run, updates model cfg frames = some run ∧ run.length = frames.length ∧
      Tracked cfg run ∧
      ((∀ (n : ℕ) frame, frames[n]? = some frame →
          NoneCoasts model cfg (run.take n) frame) →
        Counted cfg run ∧ DetectedEnough cfg run) := by
  induction frames using List.reverseRecOn with
  | nil =>
      refine ⟨[], rfl, rfl, tracked_nil, fun _ => ⟨?_, fun past u rest h => ?_⟩⟩
      · constructor <;> simp [current, UnorderedMap.empty]
      · simp at h
  | append_singleton frames frame ih =>
      obtain ⟨run, hrun, hlength, htracked, hcounted⟩ := ih
      obtain ⟨ids, u, hupdate, hassociate, hids, hdecided, hu⟩ :=
        update_spec model cfg (current run) frame
      have hassociated := hdecided.associated model cfg hids
      have htracked' := htracked.append hassociated hu
      refine ⟨run ++ [u], ?_, ?_, htracked', fun hcoast => ?_⟩
      · rw [updates_append, hrun, Option.bind_some, hupdate]
        rfl
      · rw [List.length_append, List.length_append, hlength]
        rfl
      · obtain ⟨hcounted, hdetected⟩ := hcounted fun n frame' hframe => by
          have hn := (List.getElem?_eq_some_iff.mp hframe).1
          have hsame := hcoast n frame' (by rwa [List.getElem?_append_left hn])
          rwa [List.take_append_of_le_length (by omega)] at hsame
        have hlast := hcoast frames.length frame List.getElem?_concat_length
        rw [List.take_left' hlength] at hlast
        have hcounted' := hcounted.append htracked hassociate hassociated hu hlast
        refine ⟨hcounted', fun past u' rest heq => ?_⟩
        rcases EventHistory.append_singleton_eq_append_cons heq with
          ⟨-, rfl, rfl⟩ | ⟨rest', -, hrun'⟩
        · exact hcounted'.detected htracked' hu.emitted_eq
        · exact hdetected past u' rest' hrun'

/-- If no track coasts before it is confirmed, emitted tracks have met as many
detections as the configuration asks for. -/
theorem detected_of_noneCoasts (frames : List (TrackerFrame α Φ))
    (run : List (TrackerUpdate α Φ)) (hrun : updates model cfg frames = some run)
    (hcoast : ∀ (n : ℕ) frame, frames[n]? = some frame →
      NoneCoasts model cfg (run.take n) frame) : DetectedEnough cfg run := by
  obtain ⟨run', hrun', -, -, hcounted⟩ := updates_counted model cfg frames
  obtain rfl := Option.some.inj (hrun.symm.trans hrun')
  exact (hcounted hcoast).2

end Run

/-! ## One detection and empty frames -/

def emptyFrame : TrackerFrame ℚ (BBox ℚ) :=
  { adversarialFrame with detections := [] }

def falsePositive : TrackerFrame ℚ (BBox ℚ) :=
  { adversarialFrame with detections := [⟨⟨40, 0, 100, 100⟩, 2, 1⟩] }

def coastingRun (cfg : TrackerConfig ℚ) : List (TrackerUpdate ℚ (BBox ℚ)) :=
  let born := finish standingFilter cfg {} falsePositive [none]
  let second := finish standingFilter cfg born.tracker emptyFrame []
  [born, second, finish standingFilter cfg second.tracker emptyFrame []]

theorem false_positive_emitted :
    updates (exactBoxes standingFilter) ⟨3 / 10, 30, 3⟩
        [falsePositive, emptyFrame, emptyFrame] =
      some (coastingRun ⟨3 / 10, 30, 3⟩) ∧
      ¬ DetectedEnough ⟨3 / 10, 30, 3⟩ (coastingRun ⟨3 / 10, 30, 3⟩) := by
  refine ⟨rfl, fun hdetected => ?_⟩
  have hemitted := hdetected ((coastingRun ⟨3 / 10, 30, 3⟩).take 2) _ [] rfl
    ⟨1, ⟨⟨40, 0, 100, 100⟩, 2, 1⟩, 3, 2, 0, 0, 33, 33⟩ (List.mem_singleton.mpr rfl)
  exact absurd hemitted (by decide)

def confirmedRun (cfg : TrackerConfig ℚ) : List (TrackerUpdate ℚ (BBox ℚ)) :=
  let born := finish standingFilter cfg {} falsePositive [none]
  let second := finish standingFilter cfg born.tracker falsePositive [some 1]
  [born, second, finish standingFilter cfg second.tracker emptyFrame []]

theorem associate_again : associate (exactBoxes standingFilter) ⟨3 / 10, 30, 2⟩
    ((current ((confirmedRun ⟨3 / 10, 30, 2⟩).take 1)).predicted standingFilter 1)
      falsePositive.detections = some [some 1] := by
  decide +kernel

theorem updates_confirmedRun : updates (exactBoxes standingFilter) ⟨3 / 10, 30, 2⟩
    [falsePositive, falsePositive, emptyFrame] =
      some (confirmedRun ⟨3 / 10, 30, 2⟩) := by
  have hsecond : update (exactBoxes standingFilter) ⟨3 / 10, 30, 2⟩
      (current ((confirmedRun ⟨3 / 10, 30, 2⟩).take 1)) falsePositive = some
        (finish standingFilter _ (current ((confirmedRun ⟨3 / 10, 30, 2⟩).take 1))
          falsePositive [some 1]) := congrArg (Option.map _) associate_again
  have htwo : updates (exactBoxes standingFilter) ⟨3 / 10, 30, 2⟩
      ([falsePositive] ++ [falsePositive]) =
        some ((confirmedRun ⟨3 / 10, 30, 2⟩).take 2) := by
    rw [updates_append, show updates (exactBoxes standingFilter) ⟨3 / 10, 30, 2⟩
      [falsePositive] = some ((confirmedRun ⟨3 / 10, 30, 2⟩).take 1) from rfl,
      Option.bind_some, hsecond]
    rfl
  rw [show [falsePositive, falsePositive, emptyFrame] =
    ([falsePositive] ++ [falsePositive]) ++ [emptyFrame] from rfl, updates_append, htwo]
  rfl

theorem detected_of_noneCoasts_twice :
    DetectedEnough ⟨3 / 10, 30, 2⟩ (confirmedRun ⟨3 / 10, 30, 2⟩) := by
  refine detected_of_noneCoasts (exactBoxes standingFilter) _
    [falsePositive, falsePositive, emptyFrame] _ updates_confirmedRun ?_
  intro n frame hframe k track hmem hage
  have hn : n < 3 := (List.getElem?_eq_some_iff.mp hframe).1
  interval_cases n
  · exact absurd hmem List.not_mem_nil
  · obtain ⟨rfl, -⟩ := Prod.mk.inj (List.mem_singleton.mp hmem)
    obtain rfl : falsePositive = frame := Option.some.inj hframe
    refine .inl ⟨fun u hu _ => ?_, [some 1], associate_again, List.mem_singleton_self _⟩
    rw [List.mem_singleton.mp hu]
    rfl
  · obtain ⟨-, rfl⟩ := Prod.mk.inj (List.mem_singleton.mp hmem)
    exact absurd hage (by decide)

end VehicleTracker

end Semaforo
