import Mathlib.Tactic
import Semaforo.Tracker

/-!
# One vehicle in view

With one live track and one detection that passes its gate the association has
no choice, whatever the filter: an update carries the track on.
-/

namespace Semaforo

theorem UnorderedMap.rearrange_singleton {κ β : Type}
    (order : UnorderedMap.Rearrangement κ β) {e : κ × β}
    (h : ([e].map Prod.fst).Nodup) :
    UnorderedMap.rearrange order ⟨[e], h⟩ = ⟨[e], h⟩ := by
  have hplace : order.place [e] = [e] := List.perm_singleton.mp (order.perm [e])
  simp only [UnorderedMap.rearrange, hplace]

namespace VehicleTracker

variable {α Φ K : Type} [Zero α] [Add α] [Sub α] [Mul α] [Div α] [LT α]
variable [DecidableLT α] [Field K] [LinearOrder K]

/-- A tracker of one vehicle, the first that it has seen. -/
def lone (track : Track α Φ) : VehicleTracker α Φ where
  tracks := ⟨[(1, track)], List.nodup_singleton 1⟩
  nextId := 1

/-- An update that left one track, by what became of its detection. -/
def loneUpdate (cfg : TrackerConfig α) (capacity : ℕ) (outcome : Outcome)
    (track : Track α Φ) : TrackerUpdate α Φ where
  tracker := lone track
  outcomes := [outcome]
  emitted := emit cfg capacity [track]

section

variable [IsStrictOrderedRing K] {model : BoxModel α Φ K} {cfg : TrackerConfig α}
variable {track : Track α Φ} {detection : Detection α} {frame : TrackerFrame α Φ}

theorem associate_lone (hgate : Gate cfg track detection) :
    associate model cfg (lone track).tracks [detection] = some [some 1] := by
  obtain ⟨ids, hassociate, hlength, hdecided⟩ :=
    associate_decided model cfg (lone track).tracks [detection]
  cases hdecided with
  | nothing hempty _ =>
      rcases hempty with hempty | hempty
      · exact absurd hempty (List.cons_ne_nil _ _)
      · exact absurd hempty (List.cons_ne_nil _ _)
  | assigned σ _ hids =>
      have hrow : ∀ k : Fin (max (lone track).tracks.entries.length
          [detection].length), k.val = 0 := by
        intro k
        have hlt : k.val < 1 := k.isLt
        omega
      have hcost : frameCost model cfg (lone track).tracks [detection] 0 0 <
          kInfeasibleCost :=
        (costMatrix_lt_iff model cfg _ _ _ _).mpr
          ⟨track, detection, rfl, rfl, hgate⟩
      have hfirst := hids 0 Nat.one_pos Nat.one_pos
      rw [hrow, if_pos hcost] at hfirst
      obtain ⟨id, rfl⟩ := List.length_eq_one_iff.mp hlength
      rw [hassociate, Option.some.inj hfirst]
      rfl

omit [Zero α] [Add α] [Sub α] [Mul α] [Div α] [LT α] [DecidableLT α] in
theorem kept_lone (hage : 0 ≤ cfg.maxAge)
    (order : UnorderedMap.Rearrangement ℕ (Track α Φ))
    (hseen : track.obj.framesSinceSeen = 0) :
    ((lone track).tracks.rearrange order).eraseIf (dead cfg) =
      (lone track).tracks := by
  have halive : dead cfg track = false := by
    rw [dead, hseen]
    exact decide_eq_false (not_lt.mpr hage)
  rw [lone, UnorderedMap.rearrange_singleton]
  simp [UnorderedMap.eraseIf, halive]

omit [Add α] [Sub α] [Mul α] [Div α] [LT α] [DecidableLT α] in
theorem finish_lone {filter : BoxFilter α Φ} {s : VehicleTracker α Φ}
    {ids : List (Option ℕ)} {outcome : Outcome} (hage : 0 ≤ cfg.maxAge)
    (hseen : track.obj.framesSinceSeen = 0)
    (habsorb : absorb filter frame.now
      { s with tracks := s.predicted filter frame.dt } (frame.detections.zip ids) =
        (lone track, [outcome])) :
    finish filter cfg s frame ids = loneUpdate cfg frame.capacity outcome track := by
  rw [finish, habsorb]
  dsimp only
  rw [kept_lone hage frame.order hseen]
  rfl

/-- The vehicle is seen again where it can be told from nothing else. -/
theorem update_lone (hage : 0 ≤ cfg.maxAge) (hseen : frame.detections = [detection])
    (hgate : Gate cfg (advance model.toBoxFilter frame.dt track) detection) :
    update model cfg (lone track) frame =
      some (loneUpdate cfg frame.capacity (.updated 1)
        (correct model.toBoxFilter frame.now detection
          (advance model.toBoxFilter frame.dt track))) := by
  have hassociate : associate model cfg
      ((lone track).predicted model.toBoxFilter frame.dt) frame.detections =
        some [some 1] := by
    rw [hseen]
    exact associate_lone hgate
  have habsorb : absorb model.toBoxFilter frame.now
      { lone track with
        tracks := (lone track).predicted model.toBoxFilter frame.dt }
      (frame.detections.zip [some 1]) =
        (lone (correct model.toBoxFilter frame.now detection
          (advance model.toBoxFilter frame.dt track)), [.updated 1]) := by
    rw [hseen]
    rfl
  rw [update, hassociate, Option.map_some]
  exact congrArg some (finish_lone hage rfl habsorb)

omit [IsStrictOrderedRing K] in
theorem update_first (hage : 0 ≤ cfg.maxAge)
    (hseen : frame.detections = [detection]) :
    update model cfg {} frame =
      some (loneUpdate cfg frame.capacity (.created 1)
        (newTrack model.toBoxFilter frame.now 1 detection)) := by
  have hassociate : associate model cfg (({} : VehicleTracker α Φ).predicted
      model.toBoxFilter frame.dt) frame.detections = some [none] := by
    rw [hseen]
    rfl
  have habsorb : absorb model.toBoxFilter frame.now
      { nextId := 0
        tracks := ({} : VehicleTracker α Φ).predicted model.toBoxFilter frame.dt }
      (frame.detections.zip [none]) =
        (lone (newTrack model.toBoxFilter frame.now 1 detection),
          [.created 1]) := by
    rw [hseen]
    rfl
  rw [update, hassociate, Option.map_some]
  exact congrArg some (finish_lone hage rfl habsorb)

end

end VehicleTracker

end Semaforo
