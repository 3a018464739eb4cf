import Semaforo.PolicyEngine
import Mathlib.Tactic

/-!
# The densest lane and the fallback policy

`fallback_decide` keeps a running maximum over all lanes but a phase only of
the lanes whose id it recognises.  What it returns is the phase of the last
recognised lane that is denser than every lane before it; this is the phase of
the densest recognised lane unless an unrecognised lane stands in its way.
-/

namespace Semaforo

namespace PolicyEngine

/-- The phases of the recognised lanes that are denser than all lanes before
them. -/
def recordPhases (lanes : List LaneQueueState) : List Phase :=
  (List.range lanes.length).filterMap fun i => do
    let lane ← lanes[i]?
    if ∀ o ∈ lanes.take i, o.density < lane.density then lanePhase lane.laneId
    else none

/-- The lane between the two parts is the first of maximum density among the
recognised ones. -/
structure Densest (before : List LaneQueueState) (lane : LaneQueueState)
    (after : List LaneQueueState) : Prop where
  recognised : (lanePhase lane.laneId).isSome
  first : ∀ o ∈ before, (lanePhase o.laneId).isSome → o.density < lane.density
  maximal : ∀ o ∈ after, (lanePhase o.laneId).isSome →
    ¬ lane.density < o.density

def recognisedLanes (state : QueueState) : QueueState :=
  { state with
    lanes := state.lanes.filter fun lane => (lanePhase lane.laneId).isSome }

structure ServesDensest (state : QueueState) : Prop where
  default : (∀ lane ∈ state.lanes, lanePhase lane.laneId = none) →
    fallbackDecide state = .greenNS
  densest : ∀ before lane after, state.lanes = before ++ lane :: after →
    Densest before lane after →
      lanePhase lane.laneId = some (fallbackDecide state)
  unrecognised : fallbackDecide state = fallbackDecide (recognisedLanes state)

/-- No unrecognised lane that is at least as dense comes before the densest
recognised lane; or one does, but what comes before the first such lane
happens to ask for the same phase. -/
def Unmasked (state : QueueState) : Prop :=
  ∀ before lane after, state.lanes = before ++ lane :: after →
    Densest before lane after →
      (∀ o ∈ before, lanePhase o.laneId = none → o.density < lane.density) ∨
        ∃ earlier mask rest, before = earlier ++ mask :: rest ∧
          lanePhase mask.laneId = none ∧ ¬ mask.density < lane.density ∧
          (∀ o ∈ earlier, o.density < lane.density) ∧
          lanePhase lane.laneId = some ((recordPhases earlier).getLastD .greenNS)

def DensitiesInRange (state : QueueState) : Prop :=
  ∀ lane ∈ state.lanes, ∃ q, lane.density = .fin q ∧ 0 ≤ q ∧ q ≤ 1

/-! ## The loop -/

theorem recordPhases_append_singleton (lanes : List LaneQueueState)
    (lane : LaneQueueState) :
    recordPhases (lanes ++ [lane]) =
      recordPhases lanes ++
        (if ∀ o ∈ lanes, o.density < lane.density then
          (lanePhase lane.laneId).toList
        else []) := by
  have hearlier : ∀ i ∈ List.range lanes.length,
      (lanes ++ [lane])[i]? = lanes[i]? ∧
        (lanes ++ [lane]).take i = lanes.take i := by
    intro i hi
    have hlt := List.mem_range.mp hi
    exact ⟨List.getElem?_append_left hlt,
      List.take_append_of_le_length hlt.le⟩
  rw [recordPhases, List.length_append, List.length_singleton,
    List.range_succ, List.filterMap_append]
  congr 1
  · apply List.filterMap_congr
    intro i hi
    rw [(hearlier i hi).1, (hearlier i hi).2]
  · rw [List.filterMap_cons, List.filterMap_nil]
    simp only [List.getElem?_concat_length, Option.bind_eq_bind,
      Option.bind_some, List.take_left]
    split_ifs with hrecord
    · cases lanePhase lane.laneId <;> rfl
    · rfl

/-- Lanes of which no recognised one is denser than all before it add no
phase. -/
theorem recordPhases_append_of_covered (lanes : List LaneQueueState)
    {later : List LaneQueueState}
    (hcovered : ∀ o ∈ later, (lanePhase o.laneId).isSome →
      ∃ x ∈ lanes, ¬ x.density < o.density) :
    recordPhases (lanes ++ later) = recordPhases lanes := by
  induction later using List.reverseRecOn with
  | nil => rw [List.append_nil]
  | append_singleton later o ih =>
      have hbefore := ih fun x hx => hcovered x (List.mem_append_left _ hx)
      rw [← List.append_assoc, recordPhases_append_singleton, hbefore]
      have hnone : (if ∀ x ∈ lanes ++ later, x.density < o.density then
          (lanePhase o.laneId).toList else []) = [] := by
        split_ifs with hrecord
        · cases hphase : lanePhase o.laneId with
          | none => rfl
          | some phase =>
              obtain ⟨x, hx, hdense⟩ := hcovered o
                (List.mem_append_right _ (List.mem_singleton_self o))
                (by rw [hphase]; rfl)
              exact absurd (hrecord x (List.mem_append_left _ hx)) hdense
        · rfl
      rw [hnone, List.append_nil]

/-- The running maximum is below a density exactly if all lanes so far are. -/
theorem foldl_considerLane_lt {lanes : List LaneQueueState}
    (hfinite : ∀ lane ∈ lanes, ∃ q, lane.density = .fin q) {d : ℚ}
    (hd : 0 ≤ d) :
    (∃ m, (lanes.foldl considerLane (.greenNS, .fin (-1))).2 = .fin m) ∧
      ((lanes.foldl considerLane (.greenNS, .fin (-1))).2 < .fin d ↔
        ∀ lane ∈ lanes, lane.density < .fin d) := by
  induction lanes using List.reverseRecOn with
  | nil =>
      refine ⟨⟨-1, rfl⟩, iff_of_true ?_ fun _ h => absurd h List.not_mem_nil⟩
      exact FloatValue.fin_lt_fin.mpr (by linarith)
  | append_singleton lanes lane ih =>
      obtain ⟨⟨m, hm⟩, hlt⟩ := ih fun o ho =>
        hfinite o (List.mem_append_left _ ho)
      obtain ⟨q, hq⟩ := hfinite lane
        (List.mem_append_right _ (List.mem_singleton_self lane))
      rw [List.foldl_append, List.foldl_cons, List.foldl_nil, considerLane]
      rw [hm, FloatValue.fin_lt_fin] at hlt
      simp only [List.forall_mem_append, List.forall_mem_singleton, ← hlt, hm,
        hq, FloatValue.fin_lt_fin]
      split_ifs with hdenser
      · refine ⟨⟨q, rfl⟩, ?_⟩
        rw [FloatValue.fin_lt_fin]
        exact ⟨fun h => ⟨hdenser.trans h, h⟩, fun h => h.2⟩
      · refine ⟨⟨m, hm⟩, ?_⟩
        rw [hm, FloatValue.fin_lt_fin]
        exact ⟨fun h => ⟨h, (not_lt.mp hdenser).trans_lt h⟩, fun h => h.1⟩

theorem fallbackDecide_eq {state : QueueState} (h : DensitiesInRange state) :
    fallbackDecide state = (recordPhases state.lanes).getLastD .greenNS := by
  have hfold : ∀ lanes : List LaneQueueState,
      (∀ lane ∈ lanes, ∃ q, lane.density = .fin q ∧ 0 ≤ q ∧ q ≤ 1) →
        (lanes.foldl considerLane (.greenNS, .fin (-1))).1 =
          (recordPhases lanes).getLastD .greenNS := by
    intro lanes hlanes
    induction lanes using List.reverseRecOn with
    | nil => rfl
    | append_singleton lanes lane ih =>
        have hbefore := fun o ho => hlanes o (List.mem_append_left _ ho)
        obtain ⟨d, hd, hpos, -⟩ := hlanes lane
          (List.mem_append_right _ (List.mem_singleton_self lane))
        obtain ⟨-, hlt⟩ := foldl_considerLane_lt
          (fun o ho => (hbefore o ho).imp fun _ h => h.1) hpos
        rw [List.foldl_append, List.foldl_cons, List.foldl_nil, considerLane,
          recordPhases_append_singleton]
        rw [← hd] at hlt
        by_cases hrecord : ∀ o ∈ lanes, o.density < lane.density
        · rw [if_pos (hlt.mpr hrecord), if_pos hrecord]
          cases lanePhase lane.laneId with
          | none => simpa using ih hbefore
          | some phase => simp
        · rw [if_neg (mt hlt.mp hrecord), if_neg hrecord, List.append_nil]
          exact ih hbefore
  exact hfold state.lanes h

/-! ## The densest lane -/

theorem Densest.phase {before after : List LaneQueueState}
    {lane : LaneQueueState} (h : Densest before lane after) :
    ∃ phase, lanePhase lane.laneId = some phase :=
  Option.isSome_iff_exists.mp h.recognised

theorem Densest.not_lt {before after : List LaneQueueState}
    {lane : LaneQueueState} (h : Densest before lane after) {o : LaneQueueState}
    (ho : o ∈ before ++ lane :: after) (hphase : (lanePhase o.laneId).isSome) :
    ¬ lane.density < o.density := by
  rcases List.mem_append.mp ho with hmem | hmem
  · exact FloatValue.lt_asymm (h.first o hmem hphase)
  · rcases List.mem_cons.mp hmem with rfl | hmem
    · exact FloatValue.lt_irrefl _
    · exact h.maximal o hmem hphase

theorem exists_densest {lanes : List LaneQueueState}
    (hfinite : ∀ lane ∈ lanes, ∃ q, lane.density = .fin q)
    (hsome : ∃ lane ∈ lanes, (lanePhase lane.laneId).isSome) :
    ∃ before lane after, lanes = before ++ lane :: after ∧
      Densest before lane after := by
  induction lanes using List.reverseRecOn with
  | nil =>
      obtain ⟨lane, hlane, -⟩ := hsome
      exact absurd hlane List.not_mem_nil
  | append_singleton lanes o ih =>
      have hbefore := fun x hx => hfinite x (List.mem_append_left _ hx)
      by_cases hrecord : ∀ x ∈ lanes, (lanePhase x.laneId).isSome →
          x.density < o.density
      · by_cases ho : (lanePhase o.laneId).isSome
        · exact ⟨lanes, o, [], rfl, ho, hrecord,
            fun _ hx => absurd hx List.not_mem_nil⟩
        · have hold : ∃ lane ∈ lanes, (lanePhase lane.laneId).isSome := by
            obtain ⟨lane, hlane, hphase⟩ := hsome
            rcases List.mem_append.mp hlane with hmem | hmem
            · exact ⟨lane, hmem, hphase⟩
            · rw [List.mem_singleton.mp hmem] at hphase
              exact absurd hphase ho
          obtain ⟨before, lane, after, rfl, hdensest⟩ := ih hbefore hold
          refine ⟨before, lane, after ++ [o], by simp, hdensest.recognised,
            hdensest.first, ?_⟩
          intro x hx hphase
          rcases List.mem_append.mp hx with hmem | hmem
          · exact hdensest.maximal x hmem hphase
          · rw [List.mem_singleton.mp hmem] at hphase
            exact absurd hphase ho
      · push Not at hrecord
        obtain ⟨x, hx, hphase, hdense⟩ := hrecord
        obtain ⟨before, lane, after, rfl, hdensest⟩ := ih hbefore ⟨x, hx, hphase⟩
        refine ⟨before, lane, after ++ [o], by simp, hdensest.recognised,
          hdensest.first, ?_⟩
        have hle := hdensest.not_lt hx hphase
        obtain ⟨q, hq⟩ := hbefore x hx
        rw [hq] at hle hdense
        intro y hy hyphase
        rcases List.mem_append.mp hy with hmem | hmem
        · exact hdensest.maximal y hmem hyphase
        · rw [List.mem_singleton.mp hmem]
          exact FloatValue.not_lt_trans hle hdense

theorem getLastD_recordPhases_of_record {before after : List LaneQueueState}
    {lane : LaneQueueState} {phase : Phase}
    (hphase : lanePhase lane.laneId = some phase)
    (hrecord : ∀ o ∈ before, o.density < lane.density)
    (hmaximal : ∀ o ∈ after, (lanePhase o.laneId).isSome →
      ¬ lane.density < o.density) (default : Phase) :
    (recordPhases (before ++ lane :: after)).getLastD default = phase := by
  have hsplit : before ++ lane :: after = before ++ [lane] ++ after := by simp
  rw [hsplit, recordPhases_append_of_covered, recordPhases_append_singleton,
    if_pos hrecord, hphase]
  · simp
  · intro o ho hsome
    exact ⟨lane, List.mem_append_right _ (List.mem_singleton_self lane),
      hmaximal o ho hsome⟩

/-- An unrecognised lane that is as dense as the densest recognised lane, or
denser, hides that lane and everything after it. -/
theorem recordPhases_of_masked {earlier rest after : List LaneQueueState}
    {mask lane : LaneQueueState}
    (hfinite : ∃ q, lane.density = .fin q)
    (hdensest : Densest (earlier ++ mask :: rest) lane after)
    (hmask : lanePhase mask.laneId = none)
    (hdense : ¬ mask.density < lane.density) :
    recordPhases (earlier ++ mask :: rest ++ lane :: after) =
      recordPhases earlier := by
  have hsplit : earlier ++ mask :: rest ++ lane :: after =
      earlier ++ [mask] ++ (rest ++ lane :: after) := by simp
  have hhidden : recordPhases (earlier ++ [mask]) = recordPhases earlier := by
    rw [recordPhases_append_singleton, hmask]
    simp
  rw [hsplit, recordPhases_append_of_covered _ ?_, hhidden]
  intro o ho hsome
  refine ⟨mask, List.mem_append_right _ (List.mem_singleton_self mask), ?_⟩
  have hle : ¬ lane.density < o.density := by
    refine hdensest.not_lt ?_ hsome
    rcases List.mem_append.mp ho with hmem | hmem
    · exact List.mem_append_left _
        (List.mem_append_right _ (List.mem_cons_of_mem _ hmem))
    · exact List.mem_append_right _ hmem
  obtain ⟨d, hd⟩ := hfinite
  rw [hd] at hle hdense
  exact FloatValue.not_lt_trans hdense hle

theorem Densest.filter {before after : List LaneQueueState}
    {lane : LaneQueueState} (h : Densest before lane after) :
    Densest (before.filter fun o => (lanePhase o.laneId).isSome) lane
      (after.filter fun o => (lanePhase o.laneId).isSome) where
  recognised := h.recognised
  first o ho := h.first o (List.mem_of_mem_filter ho)
  maximal o ho := h.maximal o (List.mem_of_mem_filter ho)

theorem DensitiesInRange.recognisedLanes {state : QueueState}
    (h : DensitiesInRange state) :
    DensitiesInRange (recognisedLanes state) :=
  fun lane hlane => h lane (List.mem_of_mem_filter hlane)

/-- Among recognised lanes only, the densest one decides. -/
theorem fallbackDecide_recognisedLanes {state : QueueState}
    (h : DensitiesInRange state) {before after : List LaneQueueState}
    {lane : LaneQueueState} (hlanes : state.lanes = before ++ lane :: after)
    (hdensest : Densest before lane after) :
    lanePhase lane.laneId = some (fallbackDecide (recognisedLanes state)) := by
  obtain ⟨phase, hphase⟩ := hdensest.phase
  have hfilter : (recognisedLanes state).lanes =
      before.filter (fun o => (lanePhase o.laneId).isSome) ++ lane ::
        after.filter fun o => (lanePhase o.laneId).isSome := by
    show state.lanes.filter (fun o => (lanePhase o.laneId).isSome) = _
    rw [hlanes, List.filter_append, List.filter_cons, if_pos hdensest.recognised]
  rw [fallbackDecide_eq h.recognisedLanes, hfilter,
    getLastD_recordPhases_of_record hphase _ hdensest.filter.maximal, hphase]
  intro o ho
  exact hdensest.filter.first o ho (by simpa using (List.mem_filter.mp ho).2)

theorem fallbackDecide_of_unrecognised {state : QueueState}
    (hnone : ∀ lane ∈ state.lanes, lanePhase lane.laneId = none) :
    fallbackDecide state = .greenNS := by
  have hfold : ∀ (lanes : List LaneQueueState) (best : Phase × FloatValue ℚ),
      (∀ lane ∈ lanes, lanePhase lane.laneId = none) →
        (lanes.foldl considerLane best).1 = best.1 := by
    intro lanes
    induction lanes with
    | nil => exact fun _ _ => rfl
    | cons lane lanes ih =>
        intro best hlanes
        rw [List.foldl_cons, ih _ fun o ho =>
          hlanes o (List.mem_cons_of_mem _ ho), considerLane]
        split_ifs
        · rw [hlanes lane List.mem_cons_self]
          rfl
        · rfl
  exact hfold state.lanes _ hnone

/-! ## When the policy serves the densest lane -/

/-- The first lane that is at least as dense as `lane`. -/
theorem exists_first_dense {before : List LaneQueueState}
    {lane : LaneQueueState} (hdense : ∃ o ∈ before, ¬ o.density < lane.density) :
    ∃ earlier mask rest, before = earlier ++ mask :: rest ∧
      (∀ o ∈ earlier, o.density < lane.density) ∧
      ¬ mask.density < lane.density := by
  induction before with
  | nil =>
      obtain ⟨o, ho, -⟩ := hdense
      exact absurd ho List.not_mem_nil
  | cons o before ih =>
      by_cases hless : o.density < lane.density
      · obtain ⟨x, hx, hxdense⟩ := hdense
        have hlater : x ∈ before := by
          rcases List.mem_cons.mp hx with rfl | hmem
          · exact absurd hless hxdense
          · exact hmem
        obtain ⟨earlier, mask, rest, rfl, hearlier, hmask⟩ :=
          ih ⟨x, hlater, hxdense⟩
        exact ⟨o :: earlier, mask, rest, rfl,
          List.forall_mem_cons.mpr ⟨hless, hearlier⟩, hmask⟩
      · exact ⟨[], o, before, rfl, fun _ h => absurd h List.not_mem_nil, hless⟩

theorem fallbackDecide_of_unmasked {state : QueueState}
    (hdensities : DensitiesInRange state) (hunmasked : Unmasked state)
    {before after : List LaneQueueState} {lane : LaneQueueState}
    (hlanes : state.lanes = before ++ lane :: after)
    (hdensest : Densest before lane after) :
    lanePhase lane.laneId = some (fallbackDecide state) := by
  have hfinite : ∀ o ∈ before ++ lane :: after, ∃ q, o.density = .fin q := by
    rw [← hlanes]
    exact fun o ho => (hdensities o ho).imp fun _ h => h.1
  rw [fallbackDecide_eq hdensities, hlanes]
  rcases hunmasked before lane after hlanes hdensest with
    hclear | ⟨earlier, mask, rest, rfl, hmask, hdense, _, hphase⟩
  · obtain ⟨phase, hphase⟩ := hdensest.phase
    rw [getLastD_recordPhases_of_record hphase _ hdensest.maximal, hphase]
    intro o ho
    cases ho' : lanePhase o.laneId with
    | none => exact hclear o ho ho'
    | some _ => exact hdensest.first o ho (by rw [ho']; rfl)
  · rw [recordPhases_of_masked (hfinite lane (by simp)) hdensest hmask hdense]
    exact hphase

theorem servesDensest_iff_unmasked (state : QueueState)
    (hdensities : DensitiesInRange state) :
    ServesDensest state ↔ Unmasked state := by
  have hfinite : ∀ lane ∈ state.lanes, ∃ q, lane.density = .fin q :=
    fun lane hlane => (hdensities lane hlane).imp fun _ h => h.1
  constructor
  · intro hserves before lane after hlanes hdensest
    by_cases hclear : ∀ o ∈ before, lanePhase o.laneId = none →
        o.density < lane.density
    · exact Or.inl hclear
    · push Not at hclear
      obtain ⟨o, ho, -, hodense⟩ := hclear
      obtain ⟨earlier, mask, rest, rfl, hearlier, hdense⟩ :=
        exists_first_dense ⟨o, ho, hodense⟩
      have hmask : lanePhase mask.laneId = none := by
        cases hphase : lanePhase mask.laneId with
        | none => rfl
        | some _ => exact absurd (hdensest.first mask (by simp)
            (by rw [hphase]; rfl)) hdense
      refine Or.inr ⟨earlier, mask, rest, rfl, hmask, hdense, hearlier, ?_⟩
      rw [hserves.densest _ lane after hlanes hdensest,
        fallbackDecide_eq hdensities, hlanes,
        recordPhases_of_masked (hfinite lane (by simp [hlanes])) hdensest hmask
          hdense]
  · intro hunmasked
    refine ⟨fallbackDecide_of_unrecognised, ?_, ?_⟩
    · exact fun before lane after hlanes hdensest =>
        fallbackDecide_of_unmasked hdensities hunmasked hlanes hdensest
    · by_cases hsome : ∃ lane ∈ state.lanes, (lanePhase lane.laneId).isSome
      · obtain ⟨before, lane, after, hlanes, hdensest⟩ :=
          exists_densest hfinite hsome
        have hserved := fallbackDecide_of_unmasked hdensities hunmasked hlanes
          hdensest
        rw [fallbackDecide_recognisedLanes hdensities hlanes hdensest] at hserved
        exact (Option.some.inj hserved).symm
      · have hnone : ∀ lane ∈ state.lanes, lanePhase lane.laneId = none := by
          intro lane hlane
          by_contra hphase
          exact hsome ⟨lane, hlane, Option.isSome_iff_ne_none.mpr hphase⟩
        rw [fallbackDecide_of_unrecognised hnone,
          fallbackDecide_of_unrecognised fun lane hlane =>
            hnone lane (List.mem_of_mem_filter hlane)]

/-- A dense lane that serves no direction of the policy comes before a
recognised one. -/
def busLaneState : QueueState where
  lanes := [⟨"NS_lane_1", 1, .fin (2 / 10), .fin 0⟩,
    ⟨"bus_lane", 9, .fin (9 / 10), .fin 0⟩,
    ⟨"EW_lane_1", 5, .fin (5 / 10), .fin 0⟩]
  totalCount := 15
  maxWaitS := .fin 0

theorem busLaneState_inRange : DensitiesInRange busLaneState := by
  intro lane hlane
  rw [busLaneState] at hlane
  simp only [List.mem_cons, List.not_mem_nil, or_false] at hlane
  rcases hlane with rfl | rfl | rfl
  · exact ⟨2 / 10, rfl, by norm_num, by norm_num⟩
  · exact ⟨9 / 10, rfl, by norm_num, by norm_num⟩
  · exact ⟨5 / 10, rfl, by norm_num, by norm_num⟩

theorem servesDensest_iff_unmasked_busLane :
    ServesDensest busLaneState ↔ Unmasked busLaneState :=
  servesDensest_iff_unmasked busLaneState busLaneState_inRange

theorem busLane_hides_densest :
    ¬ ∀ state, DensitiesInRange state → ServesDensest state := by
  intro hall
  have hserves := hall busLaneState busLaneState_inRange
  have hdensest : Densest (busLaneState.lanes.take 2)
      ⟨"EW_lane_1", 5, .fin (5 / 10), .fin 0⟩ [] := by
    refine ⟨by decide +kernel, ?_, fun _ h => absurd h List.not_mem_nil⟩
    decide +kernel
  have hphase := hserves.densest _ _ _ rfl hdensest
  have hns : fallbackDecide busLaneState = .greenNS := by decide +kernel
  have hew : lanePhase "EW_lane_1" = some .greenEW := by decide +kernel
  rw [hns, hew] at hphase
  cases hphase

end PolicyEngine

end Semaforo
