import Semaforo.NumpyClip
import Mathlib.Algebra.Order.Ring.Rat
import Mathlib.Tactic

/-!
# The corridor as a parallel environment

A translation of `MultiIntersectionEnv` from
`brain/src/environments/multi_intersection.py`.  The simulator reports an agent
only in the steps in which its signal may act; the wrapper keeps the last
observation of the others, so that every agent is reported in every step.  What
the simulator returns is an input, in exact numbers.
-/

namespace Semaforo

namespace MultiIntersectionEnv

open Numpy

def fixedObsSize : ℕ := 17

inductive Agent where
  | c0
  | c1
  | c2
  deriving DecidableEq, Repr

def Agent.name : Agent → String
  | .c0 => "c0"
  | .c1 => "c1"
  | .c2 => "c2"

def possibleAgents : List Agent := [.c0, .c1, .c2]

/-- The agent that a key of a dictionary stands for. -/
def Agent.ofName? (key : String) : Option Agent :=
  possibleAgents.find? fun a => a.name = key

/-- A dictionary that the simulator returns. -/
structure Report (α : Type) where
  items : List (String × α)
  nodup : (items.map Prod.fst).Nodup

def Report.get {α : Type} (d : Report α) (key : String) : Option α :=
  d.items.lookup key

structure AgentObservation where
  obs : List ℚ
  /-- The global state, when it is included. -/
  state : Option (List ℚ)
  deriving DecidableEq, Repr

structure StepResult where
  observations : List (Agent × AgentObservation)
  rewards : List (Agent × ℚ)
  terminations : List (Agent × Bool)
  truncations : List (Agent × Bool)
  deriving DecidableEq, Repr

/-- The vector that `_absorb` stores. -/
def canonical (vec : List ℚ) : List ℚ :=
  let n := min vec.length fixedObsSize
  let buf := vec.take n ++ List.replicate (fixedObsSize - n) 0
  buf.map fun x => clip x 0 1

end MultiIntersectionEnv

open MultiIntersectionEnv

structure MultiIntersectionEnv where
  includeGlobalState : Bool
  agents : List Agent
  obsCache : Agent → List ℚ

namespace MultiIntersectionEnv

open Numpy

def zeros : List ℚ := List.replicate fixedObsSize 0

def construct (includeGlobalState : Bool) : MultiIntersectionEnv where
  includeGlobalState := includeGlobalState
  agents := possibleAgents
  obsCache _ := zeros

/-- `_absorb`: the keys that are no agents are skipped. -/
def absorb (cache : Agent → List ℚ) (rawObs : Report (List ℚ)) :
    Agent → List ℚ :=
  rawObs.items.foldl
    (fun cache item =>
      match Agent.ofName? item.1 with
      | some a => Function.update cache a (canonical item.2)
      | none => cache)
    cache

def globalState (e : MultiIntersectionEnv) : List ℚ :=
  possibleAgents.flatMap e.obsCache

def buildObservations (e : MultiIntersectionEnv) (agents : List Agent) :
    List (Agent × AgentObservation) :=
  if ¬ e.includeGlobalState then agents.map fun a => (a, ⟨e.obsCache a, none⟩)
  else agents.map fun a => (a, ⟨e.obsCache a, some e.globalState⟩)

def reset (e : MultiIntersectionEnv) (rawObs : Report (List ℚ)) :
    List (Agent × AgentObservation) × MultiIntersectionEnv :=
  let e := { e with
    agents := possibleAgents
    obsCache := absorb (fun _ => zeros) rawObs }
  (e.buildObservations e.agents, e)

def step (e : MultiIntersectionEnv) (rawObs : Report (List ℚ))
    (rawRewards : Report ℚ) (dones : Report Bool) :
    StepResult × MultiIntersectionEnv :=
  let e := { e with obsCache := absorb e.obsCache rawObs }
  let doneAll := (dones.get "__all__").getD false
  let result : StepResult :=
    { observations := e.buildObservations possibleAgents
      rewards := possibleAgents.map fun a =>
        (a, (rawRewards.get a.name).getD 0)
      terminations := possibleAgents.map fun a => (a, false)
      truncations := possibleAgents.map fun a => (a, doneAll) }
  (result, if doneAll then { e with agents := [] } else e)

/-- The simulator's answer to a `reset` or a `step`. -/
inductive EnvEvent where
  | reset (rawObs : Report (List ℚ))
  | step (rawObs : Report (List ℚ)) (rawRewards : Report ℚ) (dones : Report Bool)

def apply (e : MultiIntersectionEnv) : EnvEvent → MultiIntersectionEnv
  | .reset rawObs => (e.reset rawObs).2
  | .step rawObs rawRewards dones => (e.step rawObs rawRewards dones).2

def run (e : MultiIntersectionEnv) (events : List EnvEvent) :
    MultiIntersectionEnv :=
  events.foldl apply e

/-! ## What was reported -/

/-- The last vector that the simulator has reported for an agent in the current
episode. -/
def lastReported (a : Agent) : List EnvEvent → Option (List ℚ) :=
  List.foldl
    (fun last event =>
      match event with
      | .reset rawObs => rawObs.get a.name
      | .step rawObs _ _ => (rawObs.get a.name).or last)
    none

/-- The current episode is over. -/
def ended : List EnvEvent → Bool :=
  List.foldl
    (fun finished event =>
      match event with
      | .reset _ => false
      | .step _ _ dones => finished || (dones.get "__all__").getD false)
    false

theorem ofName?_name (a : Agent) : Agent.ofName? a.name = some a := by
  cases a <;> decide

theorem ofName?_eq_some {key : String} {a : Agent}
    (h : Agent.ofName? key = some a) : key = a.name := by
  have hfound := List.find?_some h
  exact (of_decide_eq_true hfound).symm

/-! ## The stored vectors -/

theorem canonical_length (vec : List ℚ) :
    (canonical vec).length = fixedObsSize := by
  simp only [canonical, List.length_map, List.length_append, List.length_take,
    List.length_replicate]
  omega

theorem mem_canonical {vec : List ℚ} {x : ℚ} (hx : x ∈ canonical vec) :
    0 ≤ x ∧ x ≤ 1 := by
  obtain ⟨y, _, rfl⟩ := List.mem_map.mp hx
  exact ⟨low_le_clip y zero_le_one, clip_le_high y 0 1⟩

theorem canonical_nil : canonical [] = zeros := by
  have hzero : clip (0 : ℚ) 0 1 = 0 := clip_eq_self le_rfl zero_le_one
  simp [canonical, zeros, hzero]

/-- What one report does to the cache of an agent. -/
theorem absorb_apply (cache : Agent → List ℚ) (rawObs : Report (List ℚ))
    (a : Agent) :
    absorb cache rawObs a =
      ((rawObs.get a.name).map canonical).getD (cache a) := by
  obtain ⟨items, hnodup⟩ := rawObs
  unfold absorb Report.get
  dsimp only
  induction items generalizing cache with
  | nil => rfl
  | cons item items ih =>
      obtain ⟨key, vec⟩ := item
      rw [List.map_cons, List.nodup_cons] at hnodup
      rw [List.foldl_cons, ih _ hnodup.2]
      by_cases hkey : a.name = key
      · subst hkey
        have hlookup : items.lookup a.name = none := by
          rw [List.lookup_eq_none_iff]
          intro item hitem
          refine bne_iff_ne.mpr fun heq => ?_
          exact hnodup.1 (List.mem_map.mpr ⟨item, hitem, heq.symm⟩)
        simp [hlookup, ofName?_name]
      · have hlookup : ((key, vec) :: items).lookup a.name =
            items.lookup a.name := by
          rw [List.lookup_cons, beq_eq_false_iff_ne.mpr hkey]
        rw [hlookup]
        cases hname : Agent.ofName? key with
        | none => rfl
        | some b =>
            have hne : a ≠ b := by
              rintro rfl
              exact hkey (ofName?_eq_some hname).symm
            simp [Function.update_of_ne hne]

/-! ## Runs -/

theorem run_append_singleton (e : MultiIntersectionEnv)
    (events : List EnvEvent) (event : EnvEvent) :
    e.run (events ++ [event]) = (e.run events).apply event := by
  simp [run]

theorem apply_obsCache (e : MultiIntersectionEnv) (event : EnvEvent) :
    (e.apply event).obsCache =
      match event with
      | .reset rawObs => absorb (fun _ => zeros) rawObs
      | .step rawObs _ _ => absorb e.obsCache rawObs := by
  cases event with
  | reset rawObs => rfl
  | step rawObs rawRewards dones =>
      simp only [apply, step]
      split_ifs <;> rfl

/-- The cache of an agent holds what was last reported for it in the episode,
and zeros if nothing was. -/
theorem run_obsCache (includeGlobalState : Bool) (events : List EnvEvent)
    (a : Agent) :
    ((construct includeGlobalState).run events).obsCache a =
      canonical ((lastReported a events).getD []) := by
  induction events using List.reverseRecOn with
  | nil => exact canonical_nil.symm
  | append_singleton events event ih =>
      rw [run_append_singleton, apply_obsCache, lastReported, List.foldl_append,
        List.foldl_cons, List.foldl_nil]
      change _ = canonical (Option.getD (match event with
        | .reset rawObs => rawObs.get a.name
        | .step rawObs _ _ => (rawObs.get a.name).or (lastReported a events)) [])
      cases event with
      | reset rawObs =>
          simp only [absorb_apply]
          cases rawObs.get a.name with
          | none => exact canonical_nil.symm
          | some vec => rfl
      | step rawObs rawRewards dones =>
          simp only [absorb_apply]
          cases rawObs.get a.name with
          | none => exact ih
          | some vec => rfl

theorem run_includeGlobalState (includeGlobalState : Bool)
    (events : List EnvEvent) :
    ((construct includeGlobalState).run events).includeGlobalState =
      includeGlobalState := by
  induction events using List.reverseRecOn with
  | nil => rfl
  | append_singleton events event ih =>
      rw [run_append_singleton]
      refine Eq.trans ?_ ih
      cases event with
      | reset rawObs => rfl
      | step rawObs rawRewards dones =>
          simp only [apply, step]
          split_ifs <;> rfl

theorem run_agents (includeGlobalState : Bool) (events : List EnvEvent) :
    ((construct includeGlobalState).run events).agents =
      if ended events then [] else possibleAgents := by
  induction events using List.reverseRecOn with
  | nil => rfl
  | append_singleton events event ih =>
      rw [run_append_singleton, ended, List.foldl_append]
      change _ = if (match event with
        | .reset _ => false
        | .step _ _ dones =>
            ended events || (dones.get "__all__").getD false) then _ else _
      cases event with
      | reset rawObs => rfl
      | step rawObs rawRewards dones =>
          simp only [apply, step]
          by_cases hdone : (dones.get "__all__").getD false = true
          · simp [hdone]
          · simpa [hdone] using ih

/-- In every run each step reports every agent, with the vector last reported
for it in the episode, brought to the fixed size and range; the global state
is the three vectors in the order of the corridor. -/
theorem observations_of_run (includeGlobalState : Bool)
    (events : List EnvEvent) (rawObs : Report (List ℚ)) (rawRewards : Report ℚ)
    (dones : Report Bool) :
    let seen (a : Agent) := canonical
      ((lastReported a (events ++ [.step rawObs rawRewards dones])).getD [])
    let result := (((construct includeGlobalState).run events).step rawObs
      rawRewards dones).1
    (result.observations = possibleAgents.map fun a => (a, ⟨seen a,
        if includeGlobalState then some (seen .c0 ++ seen .c1 ++ seen .c2)
        else none⟩)) ∧
      (∀ a, (seen a).length = fixedObsSize ∧ ∀ x ∈ seen a, 0 ≤ x ∧ x ≤ 1) ∧
      ((((construct includeGlobalState).run events).step rawObs rawRewards
          dones).2.agents =
        if ended (events ++ [.step rawObs rawRewards dones]) then []
        else possibleAgents) := by
  intro seen result
  refine ⟨?_, fun a => ⟨canonical_length _, fun x hx => mem_canonical hx⟩, ?_⟩
  · have hcache : ∀ a, absorb ((construct includeGlobalState).run events).obsCache
        rawObs a = seen a := by
      intro a
      have hlast := run_obsCache includeGlobalState
        (events ++ [.step rawObs rawRewards dones]) a
      rw [run_append_singleton, apply_obsCache] at hlast
      exact hlast
    have hglobal := run_includeGlobalState includeGlobalState events
    cases includeGlobalState with
    | false =>
        simp [result, step, buildObservations, hglobal, hcache]
    | true =>
        simp [result, step, buildObservations, hglobal, hcache, globalState,
          possibleAgents]
  · have hagents := run_agents includeGlobalState
      (events ++ [.step rawObs rawRewards dones])
    rw [run_append_singleton] at hagents
    exact hagents

end MultiIntersectionEnv

end Semaforo
