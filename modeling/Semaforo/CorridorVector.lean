import Semaforo.CorridorNetwork
import Semaforo.SingleIntersection
import Mathlib.Tactic

/-!
# The corridor environment

`brain/src/environments/corridor_env.py`: one agent for each signal of the
network, in the order of the sorted identifiers, that sees its own state and
four entries of the state of the signal on either side: its phase, its elapsed
time and its queue towards the agent.  The simulator is outside and answers with
its signals; the arithmetic is exact.
-/

namespace Semaforo

open Numpy Rewards

/-- The signals of the simulator by their identifiers. -/
abbrev Signals := String → SignalReading

/-- The side that a neighbour's traffic flows to, on its way to this signal. -/
inductive Heading where
  | east
  | west
  deriving DecidableEq, Repr

namespace CorridorVecEnv

def obsSizeOwn : ℕ := 16

def obsSizeNeighbor : ℕ := 4

def obsSizeTotal : ℕ := obsSizeOwn + obsSizeNeighbor * 2

/-! ## The observations -/

def readOwn (obs : List ℚ) (ts : SignalReading) : List ℚ :=
  match ts.lanesQueue with
  | none => obs
  | some queuesRaw =>
      let obs := setSlice obs 0 (aggregateDirections queuesRaw 20)
      match ts.lanesDensity with
      | none => obs
      | some densitiesRaw =>
          let obs := setSlice obs 4 (aggregateDirections densitiesRaw 1)
          let obs := setSlice obs (8 + ts.greenPhase % 2) [1]
          let obs := setSlice obs 10 [elapsedShare ts.timeSinceLastPhaseChange]
          match ts.outLanesDensity with
          | none => obs
          | some downRaw =>
              let obs := setSlice obs 11 (aggregateDirections downRaw 1)
              setSlice obs 15 [queueImbalance obs]

def buildOwnState (ts : SignalReading) : List ℚ :=
  (readOwn (List.replicate obsSizeOwn 0) ts).map fun x => clip x 0 1

/-- The index of the queue that flows to this signal. -/
def Heading.queue : Heading → ℕ
  | .east => 1
  | .west => 3

def readNeighbor (obs : List ℚ) (ts : SignalReading) (directionToMe : Heading) :
    List ℚ :=
  let obs := setSlice obs (ts.greenPhase % 2) [1]
  let obs := setSlice obs 2 [elapsedShare ts.timeSinceLastPhaseChange]
  match ts.lanesQueue with
  | none => obs
  | some queuesRaw =>
      let queues := aggregateDirections queuesRaw 20
      setSlice obs 3 [queues.getD (Heading.queue directionToMe) 0]

def buildNeighborState (ts : SignalReading) (directionToMe : Heading) :
    List ℚ :=
  (readNeighbor (List.replicate obsSizeNeighbor 0) ts directionToMe).map
    fun x => clip x 0 1

/-- The row of the agent at position `i`. -/
def buildRow (tsIds : List String) (signals : Signals) (i : ℕ) (tsId : String) :
    List ℚ :=
  let row := setSlice (List.replicate obsSizeTotal 0) 0
    (buildOwnState (signals tsId))
  let row :=
    if 0 < i then
      setSlice row obsSizeOwn
        (buildNeighborState (signals (tsIds.getD (i - 1) "")) .east)
    else row
  if i < tsIds.length - 1 then
    setSlice row (obsSizeOwn + obsSizeNeighbor)
      (buildNeighborState (signals (tsIds.getD (i + 1) "")) .west)
  else row

def buildObservations (tsIds : List String) (signals : Signals) :
    List (List ℚ) :=
  tsIds.zipIdx.map fun x => buildRow tsIds signals x.2 x.1

end CorridorVecEnv

/-! ## The steps -/

/-- The answer of the simulator to a reset. -/
structure ResetAnswer where
  /-- The keys of the dictionary of observations that the call returns. -/
  obs : List String
  signals : Signals

/-- The answer of the simulator to a step; the episode that ends in it brings a
reset. -/
structure CorridorAnswer where
  signals : Signals
  dones : List (String × Bool)
  reset : ResetAnswer

structure CorridorStep where
  obs : List (List ℚ)
  rewards : List ℚ
  dones : List Bool

/-- What the trainer calls, with the simulator's answer. -/
inductive CorridorCall where
  | reset (answer : ResetAnswer)
  | step (actions : List ℤ) (answer : CorridorAnswer)

structure CorridorVecEnv where
  tsIds : List String
  signals : Signals
  actions : List (String × ℤ) := []

namespace CorridorVecEnv

/-- `sorted(...)` of the signals of the network. -/
def signalIds (network : SumoNetwork) : List String :=
  ((network.nodes.filter fun x => x.type = "traffic_light").map SumoNode.id)
    |>.insertionSort (· ≤ ·)

def construct (network : SumoNetwork) (signals : Signals) : CorridorVecEnv where
  tsIds := signalIds network
  signals := signals

/-- `raw_obs_dict, _, info_dict = ...` takes three values, and a dictionary gives
its keys; `none` is the `ValueError`, after which the simulator has started
again all the same. -/
def reset (e : CorridorVecEnv) (answer : ResetAnswer) :
    Option (List (List ℚ)) × CorridorVecEnv :=
  let e := { e with signals := answer.signals }
  match answer.obs with
  | [_, _, _] => (some (buildObservations e.tsIds answer.signals), e)
  | _ => (none, e)

def stepAsync (e : CorridorVecEnv) (actions : List ℤ) : CorridorVecEnv :=
  { e with
    actions := (e.tsIds.zip actions).map fun x =>
      (x.1, correctAction (e.signals x.1).greenPhase
        (e.signals x.1).numGreenPhases x.2) }

/-- The loop over the signals finds that the episode has ended. -/
def globalDone (e : CorridorVecEnv) (answer : CorridorAnswer) : Prop :=
  e.tsIds ≠ [] ∧ (answer.dones.lookup "__all__").getD false

instance (e : CorridorVecEnv) (answer : CorridorAnswer) :
    Decidable (e.globalDone answer) :=
  inferInstanceAs (Decidable (_ ∧ _))

def stepWait (e : CorridorVecEnv) (answer : CorridorAnswer) :
    Option CorridorStep × CorridorVecEnv :=
  let obs := buildObservations e.tsIds answer.signals
  let rewards := (e.tsIds.zip obs).map fun x =>
    computeSmartDelayReward
      (answer.signals x.1).accumulatedWaitingTimePerLane
      (answer.signals x.1).greenPhase (x.2.take obsSizeOwn)
  let dones := e.tsIds.map fun tsId => (answer.dones.lookup tsId).getD false
  if e.globalDone answer then
    let (obs, e) := e.reset answer.reset
    (obs.map fun obs => ⟨obs, rewards, List.replicate e.tsIds.length true⟩, e)
  else
    (some ⟨obs, rewards, dones⟩, { e with signals := answer.signals })

def call (e : CorridorVecEnv) : CorridorCall → CorridorVecEnv
  | .reset answer => (e.reset answer).2
  | .step actions answer => ((e.stepAsync actions).stepWait answer).2

/-- The trainer's calls; a call that raises does not end the run. -/
def machine : Machine CorridorVecEnv CorridorCall Unit where
  step := call
  time _ := ()

/-! ## The own state -/

theorem length_readOwn {obs : List ℚ} (h : obs.length = 16) (ts : SignalReading) :
    (readOwn obs ts).length = 16 := by
  cases hqueue : ts.lanesQueue with
  | none => simpa only [readOwn, hqueue] using h
  | some queues =>
      have hqueues := length_setSlice h 0 (aggregateDirections queues 20) (by simp)
      cases hdensity : ts.lanesDensity with
      | none => simpa only [readOwn, hqueue, hdensity] using hqueues
      | some densities =>
          have hphase := length_setSlice
            (length_setSlice hqueues 4 (aggregateDirections densities 1) (by simp))
            (8 + ts.greenPhase % 2) [1] (by rw [List.length_singleton]; omega)
          have helapsed := length_setSlice hphase 10
            [elapsedShare ts.timeSinceLastPhaseChange] (by simp)
          cases hout : ts.outLanesDensity with
          | none =>
              simpa only [readOwn, hqueue, hdensity, hout] using helapsed
          | some down =>
              have hdown := length_setSlice helapsed 11
                (aggregateDirections down 1) (by simp)
              simpa only [readOwn, hqueue, hdensity, hout] using
                length_setSlice hdown 15 [queueImbalance _] (by simp)

@[simp] theorem length_buildOwnState (ts : SignalReading) :
    (buildOwnState ts).length = 16 := by
  rw [buildOwnState, List.length_map]
  exact length_readOwn (List.length_replicate ..) ts

theorem unitEntries_buildOwnState (ts : SignalReading) :
    UnitEntries (buildOwnState ts) :=
  unitEntries_map_clip id _

/-- On zeros, setting the one entry is writing the one-hot. -/
theorem setSlice_one {written : List ℚ} {start : ℕ} (h : written.length = start)
    (greenPhase k : ℕ) :
    setSlice (written ++ List.replicate (k + 2) 0) (start + greenPhase % 2) [1] =
      setSlice (written ++ List.replicate (k + 2) 0) start
        (phaseOneHot greenPhase) := by
  rw [setSlice_written _ _ _ h, length_phaseOneHot]
  unfold phaseOneHot
  have hzeros : List.replicate (k + 2) (0 : ℚ) = 0 :: 0 :: List.replicate k 0 := rfl
  split_ifs with heven
  · have hstart : written.length = start + 0 := h
    rw [heven, setSlice_written _ _ _ hstart, hzeros]
    simp
  · have hodd : greenPhase % 2 = 1 := by omega
    have hone : (written ++ [0]).length = start + 1 := by
      rw [List.length_append, h, List.length_singleton]
    rw [hodd, hzeros, ← List.singleton_append, ← List.append_assoc,
      setSlice_written _ _ _ hone]
    simp

/-- The slots that the neighbours see of a signal with queues and densities. -/
theorem readOwn_of_timed {ts : SignalReading} {queues densities : List ℚ}
    (hqueues : ts.lanesQueue = some queues)
    (hdensities : ts.lanesDensity = some densities) :
    readOwn (List.replicate 16 0) ts =
      aggregateDirections queues 20 ++ aggregateDirections densities 1 ++
          phaseOneHot ts.greenPhase ++
          [elapsedShare ts.timeSinceLastPhaseChange] ++
        match ts.outLanesDensity with
        | none => List.replicate 5 0
        | some down => aggregateDirections down 1 ++
            [queueImbalance (aggregateDirections queues 20)] := by
  have hq := length_aggregateDirections queues 20
  have hd := length_aggregateDirections densities 1
  have hp := length_phaseOneHot ts.greenPhase
  have hphase : setSlice (setSlice (setSlice (List.replicate 16 0) 0
        (aggregateDirections queues 20)) 4 (aggregateDirections densities 1))
        (8 + ts.greenPhase % 2) [1] =
      setSlice (setSlice (setSlice (List.replicate 16 0) 0
        (aggregateDirections queues 20)) 4 (aggregateDirections densities 1))
        8 (phaseOneHot ts.greenPhase) := by
    have hfirst := @setSlice_written [] (List.replicate 16 0)
      (aggregateDirections queues 20) 0 rfl
    rw [List.nil_append, List.nil_append, hq] at hfirst
    rw [hfirst, setSlice_written _ _ _ hq, hd, List.drop_replicate,
      List.drop_replicate]
    exact setSlice_one (by rw [List.length_append, hq, hd]) ts.greenPhase 6
  simp only [readOwn, hqueues, hdensities]
  rw [hphase, setSlice_layout hq hd hp, List.drop_replicate]
  cases ts.outLanesDensity with
  | none => rfl
  | some down =>
      have ho := length_aggregateDirections down 1
      dsimp only
      rw [setSlice_written _ _ _ (by
          simp only [List.length_append, hq, hd, hp, List.length_singleton]),
        setSlice_written _ _ _ (by
          simp only [List.length_append, hq, hd, hp, ho, List.length_singleton])]
      simp only [List.append_assoc, queueImbalance_append hq,
        List.length_singleton, ho, List.drop_replicate]
      simp

/-! ## The neighbours -/

@[simp] theorem length_buildNeighborState (ts : SignalReading)
    (directionToMe : Heading) :
    (buildNeighborState ts directionToMe).length = 4 := by
  rw [buildNeighborState, List.length_map]
  have hphase := length_setSlice (List.length_replicate (n := 4) (a := (0 : ℚ)))
    (ts.greenPhase % 2) [1] (by rw [List.length_singleton]; omega)
  have helapsed := length_setSlice hphase 2
    [elapsedShare ts.timeSinceLastPhaseChange] (by simp)
  unfold readNeighbor
  cases ts.lanesQueue with
  | none => exact helapsed
  | some queues => exact length_setSlice helapsed 3 [_] (by simp)

theorem unitEntries_buildNeighborState (ts : SignalReading)
    (directionToMe : Heading) : UnitEntries (buildNeighborState ts directionToMe) :=
  unitEntries_map_clip id _

theorem readNeighbor_of_some {ts : SignalReading} {queues : List ℚ}
    (hqueues : ts.lanesQueue = some queues) (directionToMe : Heading) :
    readNeighbor (List.replicate 4 0) ts directionToMe =
      phaseOneHot ts.greenPhase ++ [elapsedShare ts.timeSinceLastPhaseChange,
        (aggregateDirections queues 20).getD (Heading.queue directionToMe) 0] := by
  have hp := length_phaseOneHot ts.greenPhase
  have hone : setSlice (List.replicate 4 0) (ts.greenPhase % 2) [1] =
      phaseOneHot ts.greenPhase ++ List.replicate 2 0 := by
    have hset := @setSlice_one [] 0 rfl ts.greenPhase 2
    rw [Nat.zero_add, @setSlice_written [] _ (phaseOneHot _) 0 rfl, hp,
      List.nil_append, List.nil_append, List.drop_replicate] at hset
    exact hset
  simp only [readNeighbor, hqueues]
  rw [hone, setSlice_written _ _ _ hp, setSlice_written _ _ _ (by
    rw [List.length_append, hp, List.length_singleton])]
  simp

theorem getD_map_clip (values : List ℚ) (i : ℕ) :
    (values.map fun x => clip x 0 1).getD i 0 = clip (values.getD i 0) 0 1 := by
  rw [List.getD_eq_getElem?_getD, List.getD_eq_getElem?_getD, List.getElem?_map]
  cases values[i]? with
  | none => exact (clip_eq_self le_rfl zero_le_one).symm
  | some x => rfl

/-- What a signal with queues and densities shows its neighbour is in its own
row. -/
theorem buildNeighborState_eq {ts : SignalReading}
    (htimed : SingleIntersectionEnv.Timed ts) (directionToMe : Heading) :
    buildNeighborState ts directionToMe =
      [8, 9, 10, Heading.queue directionToMe].map
        fun slot => (buildOwnState ts).getD slot 0 := by
  obtain ⟨hqueues, hdensities⟩ := Bool.and_eq_true_iff.mp htimed
  obtain ⟨queues, hqueues⟩ := Option.isSome_iff_exists.mp hqueues
  obtain ⟨densities, hdensities⟩ := Option.isSome_iff_exists.mp hdensities
  have hown := readOwn_of_timed hqueues hdensities
  have hneighbor := readNeighbor_of_some hqueues directionToMe
  unfold buildNeighborState buildOwnState
  simp only [getD_map_clip]
  change (readNeighbor (List.replicate 4 0) ts directionToMe).map _ =
    [8, 9, 10, Heading.queue directionToMe].map fun slot =>
      clip ((readOwn (List.replicate 16 0) ts).getD slot 0) 0 1
  rw [hown, hneighbor]
  obtain ⟨q0, q1, q2, q3, hq⟩ := List.length_eq_four.mp
    (length_aggregateDirections queues 20)
  obtain ⟨d0, d1, d2, d3, hd⟩ := List.length_eq_four.mp
    (length_aggregateDirections densities 1)
  obtain ⟨p0, p1, hp⟩ := List.length_eq_two.mp
    (length_phaseOneHot ts.greenPhase)
  rw [hq, hd, hp]
  cases directionToMe <;> rfl

/-! ## The rows -/

theorem buildRow_eq (tsIds : List String) (signals : Signals) (i : ℕ)
    (tsId : String) :
    buildRow tsIds signals i tsId =
      buildOwnState (signals tsId) ++
        (if 0 < i then
          buildNeighborState (signals (tsIds.getD (i - 1) "")) .east
        else List.replicate 4 0) ++
        (if i < tsIds.length - 1 then
          buildNeighborState (signals (tsIds.getD (i + 1) "")) .west
        else List.replicate 4 0) := by
  have hown := length_buildOwnState (signals tsId)
  have hup := length_buildNeighborState (signals (tsIds.getD (i - 1) "")) .east
  have hdown := length_buildNeighborState (signals (tsIds.getD (i + 1) "")) .west
  have hfirst : setSlice (List.replicate obsSizeTotal 0) 0
      (buildOwnState (signals tsId)) =
      buildOwnState (signals tsId) ++ List.replicate 8 0 := by
    have hset := @setSlice_written [] (List.replicate 24 0)
      (buildOwnState (signals tsId)) 0 rfl
    rw [List.nil_append, List.nil_append, hown, List.drop_replicate] at hset
    exact hset
  have hupstream : (if 0 < i then
        setSlice (buildOwnState (signals tsId) ++ List.replicate 8 0) obsSizeOwn
          (buildNeighborState (signals (tsIds.getD (i - 1) "")) .east)
      else buildOwnState (signals tsId) ++ List.replicate 8 0) =
      buildOwnState (signals tsId) ++ (if 0 < i then
          buildNeighborState (signals (tsIds.getD (i - 1) "")) .east
        else List.replicate 4 0) ++ List.replicate 4 0 := by
    split_ifs
    · have hwritten : (buildOwnState (signals tsId)).length = obsSizeOwn := hown
      rw [setSlice_written _ _ _ hwritten, hup, List.drop_replicate]
    · rw [List.append_assoc]
      rfl
  unfold buildRow
  dsimp only
  rw [hfirst, hupstream]
  have hwidth : (buildOwnState (signals tsId) ++ if 0 < i then
      buildNeighborState (signals (tsIds.getD (i - 1) "")) .east
    else List.replicate 4 0).length = obsSizeOwn + obsSizeNeighbor := by
    split_ifs <;> simp [obsSizeOwn, obsSizeNeighbor]
  by_cases hlast : i < tsIds.length - 1
  · rw [if_pos hlast, if_pos hlast, setSlice_written _ _ _ hwidth, hdown,
      List.drop_replicate, List.replicate_zero, List.append_nil]
  · rw [if_neg hlast, if_neg hlast]

theorem getElem?_buildObservations (tsIds : List String) (signals : Signals)
    (i : ℕ) :
    (buildObservations tsIds signals)[i]? =
      tsIds[i]?.map (buildRow tsIds signals i) := by
  rw [buildObservations, List.getElem?_map, List.getElem?_zipIdx, Nat.zero_add,
    Option.map_map]
  rfl

/-- Every row is a vector of the declared box. -/
theorem buildRow_mem (tsIds : List String) (signals : Signals) (i : ℕ)
    (tsId : String) :
    (buildRow tsIds signals i tsId).length = obsSizeTotal ∧
      UnitEntries (buildRow tsIds signals i tsId) := by
  rw [buildRow_eq]
  constructor
  · split_ifs <;> simp [obsSizeTotal, obsSizeOwn, obsSizeNeighbor]
  · refine ((unitEntries_buildOwnState _).append ?_).append ?_
    · split_ifs
      · exact unitEntries_buildNeighborState _ _
      · exact unitEntries_replicate_zero 4
    · split_ifs
      · exact unitEntries_buildNeighborState _ _
      · exact unitEntries_replicate_zero 4

/-- The slots of a row in which the neighbour on either side is seen. -/
def upstreamSlots (row : List ℚ) : List ℚ := (row.drop 16).take 4

def downstreamSlots (row : List ℚ) : List ℚ := (row.drop 20).take 4

theorem getD_buildRow {tsIds : List String} {signals : Signals} {i : ℕ}
    {tsId : String} {slot : ℕ} (hslot : slot < 16) :
    (buildRow tsIds signals i tsId).getD slot 0 =
      (buildOwnState (signals tsId)).getD slot 0 := by
  rw [buildRow_eq, List.append_assoc, List.getD_eq_getElem?_getD,
    List.getElem?_append_left (by rwa [length_buildOwnState]),
    List.getD_eq_getElem?_getD]

theorem upstreamSlots_buildRow (tsIds : List String) (signals : Signals) (i : ℕ)
    (tsId : String) :
    upstreamSlots (buildRow tsIds signals i tsId) =
      if 0 < i then buildNeighborState (signals (tsIds.getD (i - 1) "")) .east
      else List.replicate 4 0 := by
  rw [buildRow_eq, upstreamSlots, List.append_assoc,
    List.drop_left' (length_buildOwnState _)]
  by_cases hfirst : 0 < i
  · rw [if_pos hfirst, List.take_left' (length_buildNeighborState _ _)]
  · rw [if_neg hfirst, List.take_left' (List.length_replicate ..)]

theorem downstreamSlots_buildRow (tsIds : List String) (signals : Signals)
    (i : ℕ) (tsId : String) :
    downstreamSlots (buildRow tsIds signals i tsId) =
      if i < tsIds.length - 1 then
        buildNeighborState (signals (tsIds.getD (i + 1) "")) .west
      else List.replicate 4 0 := by
  rw [buildRow_eq, downstreamSlots]
  rw [List.drop_left' (by split_ifs <;> simp)]
  split_ifs
  · exact List.take_of_length_le (length_buildNeighborState _ _).le
  · exact List.take_of_length_le (List.length_replicate ..).le

/-- What the rows of one observation have to do with each other. -/
structure RowsAgree (tsIds : List String) (signals : Signals)
    (obs : List (List ℚ)) : Prop where
  length : obs.length = tsIds.length
  declared : ∀ row ∈ obs, row.length = obsSizeTotal ∧ UnitEntries row
  west : ∀ row ∈ obs.head?, upstreamSlots row = List.replicate 4 0
  east : ∀ row ∈ obs.getLast?, downstreamSlots row = List.replicate 4 0
  upstream : ∀ i tsId row next, tsIds[i]? = some tsId → obs[i]? = some row →
    obs[i + 1]? = some next → SingleIntersectionEnv.Timed (signals tsId) →
      upstreamSlots next = [8, 9, 10, 1].map fun slot => row.getD slot 0
  downstream : ∀ i tsId row next, tsIds[i + 1]? = some tsId →
    obs[i]? = some row → obs[i + 1]? = some next →
      SingleIntersectionEnv.Timed (signals tsId) →
        downstreamSlots row = [8, 9, 10, 3].map fun slot => next.getD slot 0

theorem rowsAgree (tsIds : List String) (signals : Signals) :
    RowsAgree tsIds signals (buildObservations tsIds signals) where
  length := by rw [buildObservations, List.length_map, List.length_zipIdx]
  declared row hrow := by
    obtain ⟨x, _, rfl⟩ := List.mem_map.mp hrow
    exact buildRow_mem tsIds signals x.2 x.1
  west row hrow := by
    rw [List.head?_eq_getElem?, getElem?_buildObservations] at hrow
    obtain ⟨tsId, _, rfl⟩ := Option.map_eq_some_iff.mp hrow
    exact upstreamSlots_buildRow tsIds signals 0 tsId
  east row hrow := by
    rw [List.getLast?_eq_getElem?, getElem?_buildObservations] at hrow
    obtain ⟨tsId, _, rfl⟩ := Option.map_eq_some_iff.mp hrow
    rw [downstreamSlots_buildRow, buildObservations, List.length_map,
      List.length_zipIdx, if_neg (lt_irrefl _)]
  upstream i tsId row next htsId hrow hnext htimed := by
    rw [getElem?_buildObservations] at hrow hnext
    obtain ⟨id, hid, rfl⟩ := Option.map_eq_some_iff.mp hrow
    obtain ⟨id', _, rfl⟩ := Option.map_eq_some_iff.mp hnext
    obtain rfl : tsId = id := Option.some.inj (htsId.symm.trans hid)
    have hget : tsIds.getD (i + 1 - 1) "" = tsId := by
      rw [Nat.add_sub_cancel, List.getD_eq_getElem?_getD, hid, Option.getD_some]
    rw [upstreamSlots_buildRow, if_pos i.succ_pos, hget,
      buildNeighborState_eq htimed]
    refine List.map_congr_left fun slot hslot => ?_
    rw [getD_buildRow]
    fin_cases hslot <;> decide
  downstream i tsId row next htsId hrow hnext htimed := by
    rw [getElem?_buildObservations] at hrow hnext
    obtain ⟨id, hid, rfl⟩ := Option.map_eq_some_iff.mp hrow
    obtain ⟨id', hid', rfl⟩ := Option.map_eq_some_iff.mp hnext
    obtain rfl : tsId = id' := Option.some.inj (htsId.symm.trans hid')
    have hget : tsIds.getD (i + 1) "" = tsId := by
      rw [List.getD_eq_getElem?_getD, hid', Option.getD_some]
    have hlast : i < tsIds.length - 1 := by
      have hlt := (List.getElem?_eq_some_iff.mp hid').1
      omega
    rw [downstreamSlots_buildRow, if_pos hlast, hget,
      buildNeighborState_eq htimed]
    refine List.map_congr_left fun slot hslot => ?_
    rw [getD_buildRow]
    fin_cases hslot <;> decide

theorem reset_tsIds (e : CorridorVecEnv) (answer : ResetAnswer) :
    (e.reset answer).2.tsIds = e.tsIds := by
  unfold reset
  dsimp only
  split <;> rfl

theorem reset_signals (e : CorridorVecEnv) (answer : ResetAnswer) :
    (e.reset answer).2.signals = answer.signals := by
  unfold reset
  dsimp only
  split <;> rfl

/-- A reset returns the rows, unless the unpacking fails. -/
theorem reset_fst (e : CorridorVecEnv) (answer : ResetAnswer) :
    (e.reset answer).1 =
      if answer.obs.length = 3 then
        some (buildObservations e.tsIds answer.signals)
      else none := by
  unfold reset
  dsimp only
  split
  next hobs => rw [hobs, if_pos (by rfl)]
  next hobs =>
    rw [if_neg]
    intro hthree
    obtain ⟨a, b, c, habc⟩ := List.length_eq_three.mp hthree
    exact hobs a b c habc

theorem stepWait_tsIds (e : CorridorVecEnv) (answer : CorridorAnswer) :
    (e.stepWait answer).2.tsIds = e.tsIds := by
  unfold stepWait
  dsimp only
  split_ifs
  · exact reset_tsIds e answer.reset
  · rfl

theorem run_tsIds (e : CorridorVecEnv) (calls : List CorridorCall) :
    (machine.run e calls).tsIds = e.tsIds := by
  induction calls generalizing e with
  | nil => rfl
  | cons c calls ih =>
      refine (ih _).trans ?_
      cases c with
      | reset answer => exact reset_tsIds e answer
      | step actions answer => exact stepWait_tsIds (e.stepAsync actions) answer

theorem stepWait_isSome_iff (e : CorridorVecEnv) (answer : CorridorAnswer) :
    (e.stepWait answer).1.isSome ↔
      (e.globalDone answer → answer.reset.obs.length = 3) := by
  unfold stepWait
  dsimp only
  split_ifs with hdone
  · rw [Option.isSome_map, reset_fst]
    split_ifs with hthree <;> simp [hdone, hthree]
  · simp [hdone]

theorem stepWait_rowsAgree {e : CorridorVecEnv} {answer : CorridorAnswer}
    {step : CorridorStep} (hstep : step ∈ (e.stepWait answer).1) :
    RowsAgree e.tsIds (e.stepWait answer).2.signals step.obs := by
  unfold stepWait at hstep ⊢
  dsimp only at hstep ⊢
  split_ifs at hstep ⊢
  · obtain ⟨obs, hobs, rfl⟩ := Option.map_eq_some_iff.mp hstep
    rw [reset_fst, Option.ite_none_right_eq_some] at hobs
    obtain ⟨-, hobs⟩ := hobs
    obtain rfl := Option.some.inj hobs
    rw [reset_signals]
    exact rowsAgree e.tsIds answer.reset.signals
  · obtain rfl := Option.some.inj hstep
    exact rowsAgree e.tsIds answer.signals

theorem stepWait_rewards {e : CorridorVecEnv} {answer : CorridorAnswer}
    {step : CorridorStep} (hstep : step ∈ (e.stepWait answer).1) :
    step.rewards =
      (e.tsIds.zip (buildObservations e.tsIds answer.signals)).map fun x =>
        computeSmartDelayReward
          (answer.signals x.1).accumulatedWaitingTimePerLane
          (answer.signals x.1).greenPhase (x.2.take obsSizeOwn) := by
  unfold stepWait at hstep
  dsimp only at hstep
  split_ifs at hstep
  · obtain ⟨obs, -, rfl⟩ := Option.map_eq_some_iff.mp hstep
    rfl
  · obtain rfl := Option.some.inj hstep
    rfl

/-- In every run a reset returns the rows of the signals exactly if the simulator
answers with three keys, and a step returns a row and a reward for every signal
unless it ends the episode and that reset fails.  The rows agree with each other
and with the signals that the simulator is left with. -/
theorem rows_of_run (network : SumoNetwork) (signals : Signals)
    (calls : List CorridorCall) :
    let tsIds := signalIds network
    let e := machine.run (construct network signals) calls
    (∀ answer : ResetAnswer,
      ((e.reset answer).1.isSome ↔ answer.obs.length = 3) ∧
        ∀ rows ∈ (e.reset answer).1, RowsAgree tsIds answer.signals rows) ∧
      ∀ (actions : List ℤ) (answer : CorridorAnswer),
        let r := (e.stepAsync actions).stepWait answer
        (r.1.isSome ↔ (e.globalDone answer → answer.reset.obs.length = 3)) ∧
          ∀ step ∈ r.1, RowsAgree tsIds r.2.signals step.obs ∧
            step.rewards.length = tsIds.length ∧
            ∀ reward ∈ step.rewards, -1 ≤ reward ∧ reward ≤ 0 := by
  intro tsIds e
  have hids : e.tsIds = tsIds := run_tsIds (construct network signals) calls
  constructor
  · intro answer
    rw [reset_fst, hids]
    split_ifs with hthree
    · exact ⟨by simp [hthree], fun rows hrows => by
        obtain rfl := Option.some.inj hrows
        exact rowsAgree tsIds answer.signals⟩
    · exact ⟨by simp [hthree], fun rows hrows => by simp at hrows⟩
  · intro actions answer r
    refine ⟨stepWait_isSome_iff (e.stepAsync actions) answer, fun step hstep => ?_⟩
    have hrows := stepWait_rowsAgree hstep
    have hrewards := stepWait_rewards hstep
    rw [show (e.stepAsync actions).tsIds = tsIds from hids] at hrows hrewards
    refine ⟨hrows, ?_, ?_⟩
    · rw [hrewards, List.length_map, List.length_zip,
        (rowsAgree tsIds answer.signals).length, min_self]
    · intro reward hreward
      rw [hrewards] at hreward
      obtain ⟨x, _, rfl⟩ := List.mem_map.mp hreward
      exact smartDelay_mem _ _ _

/-! ## The observation of the other environment -/

/-- The corridor environment leaves out no occupied lane, or none that would
still show. -/
def Kept (perLane : List ℚ) (maxVal : ℚ) : Prop :=
  (perLane.drop (4 * (perLane.length / 4))).sum = 0 ∨
    maxVal ≤ sliceSum perLane
      (3 * (perLane.length / 4), 4 * (perLane.length / 4))

instance (perLane : List ℚ) (maxVal : ℚ) : Decidable (Kept perLane maxVal) :=
  inferInstanceAs (Decidable (_ ∨ _))

/-- The calls of the observation are answered, without negative readings. -/
structure Answered (ts : SignalReading) (queues densities down : List ℚ)
    (links : Spillback.TrafficSignal) : Prop where
  queues_eq : ts.lanesQueue = some queues
  densities_eq : ts.lanesDensity = some densities
  down_eq : ts.outLanesDensity = some down
  links_eq : ts.links = some links
  queues_nonneg : ∀ x ∈ queues, 0 ≤ x
  densities_nonneg : ∀ x ∈ densities, 0 ≤ x
  down_nonneg : ∀ x ∈ down, 0 ≤ x

theorem unitEntries_layout {queues densities down : List ℚ}
    (hqueues : UnitEntries queues) (hdensities : UnitEntries densities)
    (hdown : UnitEntries down) (greenPhase : ℕ) (elapsed : ℚ) (obs : List ℚ) :
    UnitEntries (queues ++ densities ++ phaseOneHot greenPhase ++
      [elapsedShare elapsed] ++ down ++ [queueImbalance obs]) :=
  ((((hqueues.append hdensities).append (unitEntries_phaseOneHot greenPhase)).append
    (unitEntries_singleton (clip_unit _))).append hdown).append
    (unitEntries_singleton (clip_unit _))

theorem layout_inj {queues queues' densities densities' phase down down' : List ℚ}
    {elapsed imbalance imbalance' : ℚ} (hqueues : queues.length = queues'.length)
    (hdensities : densities.length = densities'.length)
    (hdown : down.length = down'.length)
    (heq : queues ++ densities ++ phase ++ [elapsed] ++ down ++ [imbalance] =
      queues' ++ densities' ++ phase ++ [elapsed] ++ down' ++ [imbalance']) :
    queues = queues' ∧ densities = densities' ∧ down = down' := by
  simp only [List.append_assoc] at heq
  obtain ⟨hq, hrest⟩ := List.append_inj heq hqueues
  obtain ⟨hd, hrest⟩ := List.append_inj hrest hdensities
  have hlast := List.append_cancel_left (List.append_cancel_left hrest)
  exact ⟨hq, hd, (List.append_inj hlast hdown).1⟩

/-- A signal gives an agent of the corridor the observation that it gives the
agent of a single intersection exactly if the corridor leaves out no occupied
lane that would show. -/
theorem observation_eq_ownState_iff {ts : SignalReading}
    {queues densities down : List ℚ} {links : Spillback.TrafficSignal}
    (h : Answered ts queues densities down links) (rawObs : List ℚ)
    (phaseElapsed : Option ℚ) :
    (SingleIntersectionEnv.transformObservation rawObs phaseElapsed ts).obs =
        buildOwnState ts ↔
      Kept queues 20 ∧ Kept densities 1 ∧ Kept down 1 := by
  have hqueues : SingleIntersectionEnv.aggregateDirections queues 20 =
      aggregateDirections queues 20 ↔ Kept queues 20 :=
    aggregateDirections_eq_iff h.queues_nonneg (by norm_num)
  have hdensities : SingleIntersectionEnv.aggregateDirections densities 1 =
      aggregateDirections densities 1 ↔ Kept densities 1 :=
    aggregateDirections_eq_iff h.densities_nonneg zero_lt_one
  have hdown : SingleIntersectionEnv.aggregateDirections down 1 =
      aggregateDirections down 1 ↔ Kept down 1 :=
    aggregateDirections_eq_iff h.down_nonneg zero_lt_one
  have hobs : (SingleIntersectionEnv.transformObservation rawObs phaseElapsed
      ts).obs =
      SingleIntersectionEnv.aggregateDirections queues 20 ++
        SingleIntersectionEnv.aggregateDirections densities 1 ++
        phaseOneHot ts.greenPhase ++ [elapsedShare ts.timeSinceLastPhaseChange] ++
        SingleIntersectionEnv.aggregateDirections down 1 ++
        [queueImbalance (SingleIntersectionEnv.aggregateDirections queues 20)] := by
    unfold SingleIntersectionEnv.transformObservation
    rw [SingleIntersectionEnv.readSignal_of_answered
      (SingleIntersectionEnv.length_rawStart rawObs) phaseElapsed h.queues_eq
      h.densities_eq h.down_eq h.links_eq]
    exact (unitEntries_layout
      (SingleIntersectionEnv.unitEntries_aggregateDirections queues (by norm_num))
      (SingleIntersectionEnv.unitEntries_aggregateDirections densities zero_lt_one)
      (SingleIntersectionEnv.unitEntries_aggregateDirections down zero_lt_one)
      _ _ _).map_clip
  have hown : buildOwnState ts =
      aggregateDirections queues 20 ++ aggregateDirections densities 1 ++
        phaseOneHot ts.greenPhase ++ [elapsedShare ts.timeSinceLastPhaseChange] ++
        aggregateDirections down 1 ++
        [queueImbalance (aggregateDirections queues 20)] := by
    have hread := readOwn_of_timed h.queues_eq h.densities_eq
    rw [h.down_eq, ← List.append_assoc] at hread
    rw [buildOwnState, obsSizeOwn, hread]
    exact (unitEntries_layout (unitEntries_aggregateDirections queues 20)
      (unitEntries_aggregateDirections densities 1)
      (unitEntries_aggregateDirections down 1) _ _ _).map_clip
  rw [hobs, hown, ← hqueues, ← hdensities, ← hdown]
  constructor
  · intro heq
    exact layout_inj (by simp) (by simp) (by simp) heq
  · rintro ⟨hq, hd, ho⟩
    rw [hq, hd, ho]

/-- Ten vehicles wait on the fifth of five lanes. -/
def fiveLanes : SignalReading where
  greenPhase := 0
  numGreenPhases := 2
  timeSinceLastPhaseChange := 0
  lanesQueue := some [0, 0, 0, 0, 10]
  lanesDensity := some []
  outLanesDensity := some []
  links := some ⟨[], [], [], []⟩
  accumulatedWaitingTimePerLane := none

theorem observation_ne_ownState_five :
    (SingleIntersectionEnv.transformObservation [] none fiveLanes).obs ≠
      buildOwnState fiveLanes := by
  have hanswered : Answered fiveLanes [0, 0, 0, 0, 10] [] [] ⟨[], [], [], []⟩ :=
    ⟨rfl, rfl, rfl, rfl, by decide +kernel, by simp, by simp⟩
  have hiff := observation_eq_ownState_iff hanswered [] none
  exact fun heq => absurd (hiff.mp heq).1 (by decide +kernel)

/-! ## The order of the agents -/

theorem trafficLights_eq (n : ℕ) (shape : CorridorShape) :
    ((NetworkGenerator.generateCorridor n shape).nodes.filter
        fun x => x.type = "traffic_light").map SumoNode.id =
      (List.range n).map fun (i : ℕ) => NetworkGenerator.c i := by
  simp [NetworkGenerator.generateCorridor, NetworkGenerator.corridorNodes,
    List.filter_append, List.filter_flatMap, List.map_flatMap]
  exact List.map_eq_flatMap.symm

/-- The agents stand in the order of the generated corridor for up to ten
intersections.  From eleven on `c10` sorts before `c2`. -/
theorem signalIds_eq_iff (n : ℕ) (shape : CorridorShape) :
    signalIds (NetworkGenerator.generateCorridor n shape) =
        ((List.range n).map fun (i : ℕ) => NetworkGenerator.c i) ↔ n ≤ 10 := by
  rw [signalIds, trafficLights_eq]
  constructor
  · intro hsorted
    by_contra hn
    have hpairwise := List.pairwise_insertionSort (· ≤ ·)
      ((List.range n).map fun (i : ℕ) => NetworkGenerator.c i)
    rw [hsorted] at hpairwise
    have hle := List.pairwise_iff_getElem.mp hpairwise 2 10
      (by rw [List.length_map, List.length_range]; omega)
      (by rw [List.length_map, List.length_range]; omega) (by decide)
    rw [List.getElem_map, List.getElem_map, List.getElem_range,
      List.getElem_range] at hle
    have hlt : ¬ NetworkGenerator.c (2 : ℕ) ≤ NetworkGenerator.c (10 : ℕ) := by
      decide +kernel
    exact hlt hle
  · intro hn
    have hten : ((List.range 10).map fun (i : ℕ) =>
        NetworkGenerator.c i).Pairwise (· ≤ ·) := by decide +kernel
    exact List.Pairwise.insertionSort_eq
      (hten.sublist ((List.range_sublist.mpr hn).map _))

end CorridorVecEnv

end Semaforo
