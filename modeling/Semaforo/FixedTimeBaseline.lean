import Semaforo.SingleIntersection
import Mathlib.Tactic

/-!
# The fixed-time baseline

`brain/src/agents/fixed_time_baseline.py`, and the loop of
`brain/scripts/evaluate.py` that runs it in the single-intersection environment.
The decisions of a baseline are one block of decisions for each phase, again and
again; a block is as long as the duration of its phase takes.
-/

namespace Semaforo

structure FixedTimeBaseline where
  phaseDurations : List ℤ
  deltaTime : ℤ
  currentPhase : ℕ := 0
  elapsed : ℤ := 0
  deriving DecidableEq, Repr

namespace FixedTimeBaseline

/-- `phase_durations or [30, 30]`. -/
def orDefault (phaseDurations : List ℤ) : List ℤ :=
  if phaseDurations = [] then [30, 30] else phaseDurations

def new (phaseDurations : List ℤ := []) (deltaTime : ℤ := 5) :
    FixedTimeBaseline where
  phaseDurations := orDefault phaseDurations
  deltaTime := deltaTime

def decide (b : FixedTimeBaseline) : ℕ × FixedTimeBaseline :=
  let elapsed := b.elapsed + b.deltaTime
  if b.phaseDurations.getD b.currentPhase 0 ≤ elapsed then
    (b.currentPhase,
      { b with
        currentPhase := (b.currentPhase + 1) % b.phaseDurations.length
        elapsed := 0 })
  else (b.currentPhase, { b with elapsed := elapsed })

def reset (b : FixedTimeBaseline) : FixedTimeBaseline :=
  { b with currentPhase := 0, elapsed := 0 }

/-- `n` decisions, and the baseline after them. -/
def decisions (b : FixedTimeBaseline) : ℕ → List ℕ × FixedTimeBaseline
  | 0 => ([], b)
  | n + 1 =>
      let later := decisions b.decide.2 n
      (b.decide.1 :: later.1, later.2)

/-- The number of decisions for which a phase is held. -/
def hold (deltaTime duration : ℤ) : ℕ :=
  (max 1 ((duration + deltaTime - 1) / deltaTime)).toNat

/-- The decisions of the phases of a list, the first of which has number `i`. -/
def blocks (deltaTime : ℤ) : ℕ → List ℤ → List ℕ
  | _, [] => []
  | i, duration :: durations =>
      List.replicate (hold deltaTime duration) i ++
        blocks deltaTime (i + 1) durations

/-- The decisions of one cycle. -/
def cycle (phaseDurations : List ℤ) (deltaTime : ℤ) : List ℕ :=
  blocks deltaTime 0 (orDefault phaseDurations)

/-! ## How long a phase is held -/

theorem one_le_hold (deltaTime duration : ℤ) : 1 ≤ hold deltaTime duration := by
  unfold hold
  omega

theorem hold_spec {deltaTime : ℤ} (hdelta : 0 < deltaTime) (duration : ℤ) :
    duration ≤ hold deltaTime duration * deltaTime ∧
      (hold deltaTime duration ≠ 1 →
        (hold deltaTime duration - 1) * deltaTime < duration) := by
  have hdiv := Int.mul_ediv_add_emod (duration + deltaTime - 1) deltaTime
  have hlow := Int.emod_nonneg (duration + deltaTime - 1) hdelta.ne'
  have hhigh := Int.emod_lt_of_pos (duration + deltaTime - 1) hdelta
  set q := (duration + deltaTime - 1) / deltaTime with hq
  have hcast : (hold deltaTime duration : ℤ) = max 1 q := by
    unfold hold
    rw [← hq]
    omega
  rw [hcast]
  have hduration : duration ≤ q * deltaTime := by
    rw [mul_comm q]
    omega
  constructor
  · exact hduration.trans (mul_le_mul_of_nonneg_right (le_max_right 1 q) hdelta.le)
  · intro hne
    have hmax : max 1 q = q := by omega
    rw [hmax, sub_mul, one_mul, mul_comm q]
    omega

/-- From some point of a phase on, it is decided for until its duration is
over. -/
theorem decisions_phase (b : FixedTimeBaseline) (n : ℕ)
    (hlast : b.phaseDurations.getD b.currentPhase 0 ≤
      b.elapsed + (n + 1 : ℕ) * b.deltaTime)
    (hbefore : ∀ i : ℕ, 1 ≤ i → i ≤ n → b.elapsed + i * b.deltaTime <
      b.phaseDurations.getD b.currentPhase 0) :
    b.decisions (n + 1) =
      (List.replicate (n + 1) b.currentPhase,
        { b with
          currentPhase := (b.currentPhase + 1) % b.phaseDurations.length
          elapsed := 0 }) := by
  induction n generalizing b with
  | zero =>
      have hover : b.phaseDurations.getD b.currentPhase 0 ≤
          b.elapsed + b.deltaTime := by simpa using hlast
      simp only [decisions, decide, if_pos hover]
      rfl
  | succ n ih =>
      have hwithin := hbefore 1 le_rfl (by omega)
      rw [Nat.cast_one, one_mul] at hwithin
      have hdecide : b.decide = (b.currentPhase,
          { b with elapsed := b.elapsed + b.deltaTime }) := by
        rw [decide]
        exact if_neg (not_le.mpr hwithin)
      have hrest := ih { b with elapsed := b.elapsed + b.deltaTime }
        (by
          refine hlast.trans_eq ?_
          push_cast
          ring)
        (by
          intro i hi hin
          have hlater := hbefore (i + 1) (by omega) (by omega)
          refine lt_of_eq_of_lt ?_ hlater
          push_cast
          ring)
      rw [decisions, hdecide, hrest, List.replicate_succ (n := n + 1)]

theorem decisions_hold (b : FixedTimeBaseline) (hdelta : 0 < b.deltaTime)
    (helapsed : b.elapsed = 0) :
    b.decisions (hold b.deltaTime (b.phaseDurations.getD b.currentPhase 0)) =
      (List.replicate
          (hold b.deltaTime (b.phaseDurations.getD b.currentPhase 0))
          b.currentPhase,
        { b with
          currentPhase := (b.currentPhase + 1) % b.phaseDurations.length
          elapsed := 0 }) := by
  obtain ⟨hlast, hbefore⟩ := hold_spec hdelta
    (b.phaseDurations.getD b.currentPhase 0)
  obtain ⟨n, hn⟩ := Nat.exists_eq_add_of_le'
    (one_le_hold b.deltaTime (b.phaseDurations.getD b.currentPhase 0))
  rw [hn] at hlast hbefore ⊢
  refine decisions_phase b n (by rw [helapsed, zero_add]; exact hlast) ?_
  intro i hi hin
  have hlt := hbefore (by omega)
  rw [helapsed, zero_add]
  refine lt_of_le_of_lt (mul_le_mul_of_nonneg_right ?_ hdelta.le) hlt
  push_cast
  omega

/-! ## Cycles -/

theorem decisions_add (b : FixedTimeBaseline) (m n : ℕ) :
    b.decisions (m + n) =
      ((b.decisions m).1 ++ ((b.decisions m).2.decisions n).1,
        ((b.decisions m).2.decisions n).2) := by
  induction m generalizing b with
  | zero => rw [Nat.zero_add]; rfl
  | succ m ih => rw [Nat.succ_add, decisions, ih]; rfl

/-- The phases that are left of a cycle. -/
theorem decisions_blocks (b : FixedTimeBaseline) (hdelta : 0 < b.deltaTime)
    (done rest : List ℤ) (hrest : rest ≠ [])
    (hdurations : b.phaseDurations = done ++ rest)
    (hphase : b.currentPhase = done.length) (helapsed : b.elapsed = 0) :
    b.decisions (blocks b.deltaTime done.length rest).length =
      (blocks b.deltaTime done.length rest, b.reset) := by
  induction rest generalizing b done with
  | nil => exact absurd rfl hrest
  | cons duration rest ih =>
      have hduration : b.phaseDurations.getD b.currentPhase 0 = duration := by
        rw [hdurations, hphase, List.getD_eq_getElem?_getD,
          List.getElem?_append_right le_rfl, Nat.sub_self]
        rfl
      have hhold := b.decisions_hold hdelta helapsed
      rw [hduration, hphase] at hhold
      rw [blocks, List.length_append, List.length_replicate, decisions_add, hhold]
      cases rest with
      | nil =>
          have hwrap : (done.length + 1) % b.phaseDurations.length = 0 := by
            rw [hdurations, List.length_append, List.length_singleton,
              Nat.mod_self]
          rw [hwrap]
          simp only [blocks, List.length_nil, decisions, List.append_nil, reset]
      | cons next rest =>
          have hgoes : (done.length + 1) % b.phaseDurations.length =
              (done ++ [duration]).length := by
            rw [hdurations, Nat.mod_eq_of_lt (by simp), List.length_append,
              List.length_singleton]
          have hlater := ih { b with
              currentPhase := (done ++ [duration]).length, elapsed := 0 }
            hdelta (done ++ [duration]) (by simp) (by simp [hdurations]) rfl rfl
          rw [List.length_append, List.length_singleton] at hlater
          rw [hgoes, List.length_append, List.length_singleton, hlater]
          rfl

theorem orDefault_ne_nil (phaseDurations : List ℤ) :
    orDefault phaseDurations ≠ [] := by
  unfold orDefault
  split_ifs with h
  · exact List.cons_ne_nil _ _
  · exact h

theorem held_between {deltaTime duration : ℤ} (hdelta : 0 < deltaTime)
    (hduration : 0 < duration) :
    duration ≤ hold deltaTime duration * deltaTime ∧
      hold deltaTime duration * deltaTime < duration + deltaTime := by
  obtain ⟨hlast, hbefore⟩ := hold_spec hdelta duration
  refine ⟨hlast, ?_⟩
  by_cases hone : hold deltaTime duration = 1
  · rw [hone]
    omega
  · have hlt := hbefore hone
    rw [sub_mul, one_mul] at hlt
    omega

/-- A baseline decides for each phase in turn and is back at its beginning after
each cycle; a phase is held for its duration and for less than one decision
more. -/
theorem decisions_cycles (phaseDurations : List ℤ) (deltaTime : ℤ)
    (hdelta : 0 < deltaTime) (m : ℕ) :
    (new phaseDurations deltaTime).decisions
        (m * (cycle phaseDurations deltaTime).length) =
      ((List.replicate m (cycle phaseDurations deltaTime)).flatten,
        new phaseDurations deltaTime) ∧
      ∀ duration ∈ orDefault phaseDurations, 0 < duration →
        duration ≤ hold deltaTime duration * deltaTime ∧
          hold deltaTime duration * deltaTime < duration + deltaTime := by
  refine ⟨?_, fun duration _ => held_between hdelta⟩
  have hcycle := decisions_blocks (new phaseDurations deltaTime) hdelta []
    (orDefault phaseDurations) (orDefault_ne_nil phaseDurations) rfl rfl rfl
  change (new phaseDurations deltaTime).decisions
    (cycle phaseDurations deltaTime).length =
      (cycle phaseDurations deltaTime, new phaseDurations deltaTime) at hcycle
  induction m with
  | zero => rw [Nat.zero_mul]; rfl
  | succ m ih =>
      rw [Nat.succ_mul, decisions_add, ih, hcycle, List.replicate_succ',
        List.flatten_append, List.flatten_singleton]

/-- A phase of twelve seconds is held for three decisions of five. -/
theorem decisions_cycles_twelve :
    (new [12, 5] 5).decisions 8 = ([0, 0, 0, 1, 0, 0, 0, 1], new [12, 5] 5) :=
  (decisions_cycles [12, 5] 5 (by decide) 2).1

/-! ## In the environment -/

theorem decide_follows (b : FixedTimeBaseline) :
    RingWalk.Follows b.phaseDurations.length b.decide.1
      b.decide.2.currentPhase := by
  unfold decide
  dsimp only
  split_ifs
  · exact Or.inr rfl
  · exact Or.inl rfl

theorem decide_phaseDurations (b : FixedTimeBaseline) :
    b.decide.2.phaseDurations = b.phaseDurations := by
  unfold decide
  dsimp only
  split_ifs <;> rfl

theorem decide_fst (b : FixedTimeBaseline) : b.decide.1 = b.currentPhase := by
  unfold decide
  dsimp only
  split_ifs <;> rfl

end FixedTimeBaseline

/-- The loop of `run_fixed_baseline` on the answers of the simulator: what it
chooses in each step. -/
def fixedChoices (b : FixedTimeBaseline) :
    List SimulatorAnswer → List (ℤ × SimulatorAnswer)
  | [] => []
  | o :: answers => ((b.decide.1 : ℤ), o) :: fixedChoices b.decide.2 answers

namespace SingleIntersectionEnv

/-- The simulator takes the action that it is handed, and the number of phases
does not change. -/
structure Takes (e : SingleIntersectionEnv) (x : ℤ × SimulatorAnswer) : Prop where
  phase : (x.2.signal.greenPhase : ℤ) = e.asked x.1
  numPhases : x.2.signal.numGreenPhases = e.signal.numGreenPhases

theorem correctAction_of_follows {n current action : ℕ} (haction : action < n)
    (hfollows : RingWalk.Follows n current action) :
    correctAction current n action = action := by
  rw [correctAction_eq]
  rcases hfollows with rfl | rfl
  · simp
  · by_cases hsame : (current + 1) % n = current
    · simp [hsame]
    · rw [if_neg]
      rw [not_or]
      constructor
      · exact_mod_cast not_le.mpr haction
      · exact_mod_cast hsame

variable (toFloat32 : ℚ →o ℚ)

theorem askedActions_fixed {b : FixedTimeBaseline} {e : SingleIntersectionEnv}
    {answers : List SimulatorAnswer} {n : ℕ}
    (hlength : b.phaseDurations.length = n) (hn : e.signal.numGreenPhases = n)
    (hphase : b.currentPhase < n)
    (hfollows : RingWalk.Follows n e.signal.greenPhase b.currentPhase)
    (hrun : (machine toFloat32).Admits (fun e _ x => e.Takes x) e ()
      (fixedChoices b answers)) :
    e.askedActions toFloat32 (fixedChoices b answers) =
        (b.decisions answers.length).1.map Nat.cast ∧
      answers.map (fun o => o.signal.greenPhase) =
        (b.decisions answers.length).1 := by
  induction answers generalizing b e with
  | nil => exact ⟨rfl, rfl⟩
  | cons o answers ih =>
      obtain ⟨htakes, hrest⟩ := hrun
      have hasked : e.asked b.decide.1 = b.decide.1 := by
        rw [asked, b.decide_fst, hn]
        exact correctAction_of_follows hphase hfollows
      have htaken : o.signal.greenPhase = b.decide.1 := by
        have h := htakes.phase
        rw [hasked] at h
        exact_mod_cast h
      have hnext := b.decide_follows
      rw [hlength] at hnext
      have hbound : b.decide.2.currentPhase < n := by
        rcases hnext with h | h
        · rwa [h, b.decide_fst]
        · rw [h]
          exact Nat.mod_lt _ (by omega)
      obtain ⟨hactions, hphases⟩ := ih
        (e := (e.step toFloat32 b.decide.1 o).2)
        (b.decide_phaseDurations ▸ hlength) (htakes.numPhases.trans hn) hbound
        (by
          change RingWalk.Follows n o.signal.greenPhase _
          rwa [htaken])
        hrest
      rw [fixedChoices, askedActions, hactions, hasked, List.length_cons,
        FixedTimeBaseline.decisions, List.map_cons, List.map_cons, htaken, hphases]
      exact ⟨rfl, rfl⟩

/-- The environment leaves a fixed-time baseline alone: where the simulator takes
what it is handed, it is handed the baseline's decisions one by one, and the
signal serves them. -/
theorem fixed_baseline_unaltered (e : SingleIntersectionEnv) (rawObs : List ℚ)
    (ts : SignalReading) (phaseDurations : List ℤ) (deltaTime : ℤ)
    (answers : List SimulatorAnswer)
    (hn : ts.numGreenPhases =
      (FixedTimeBaseline.orDefault phaseDurations).length)
    (hfirst : ts.greenPhase = 0)
    (hrun : (machine toFloat32).Admits (fun e _ x => e.Takes x)
      (e.reset rawObs ts).2 ()
      (fixedChoices (FixedTimeBaseline.new phaseDurations deltaTime) answers)) :
    let decisions := ((FixedTimeBaseline.new phaseDurations deltaTime).decisions
      answers.length).1
    (e.reset rawObs ts).2.askedActions toFloat32
        (fixedChoices (FixedTimeBaseline.new phaseDurations deltaTime) answers) =
        decisions.map Nat.cast ∧
      answers.map (fun o => o.signal.greenPhase) = decisions := by
  have hpos := List.length_pos_iff.mpr
    (FixedTimeBaseline.orDefault_ne_nil phaseDurations)
  exact askedActions_fixed toFloat32 rfl hn hpos (Or.inl hfirst.symm) hrun

/-- Three phases of one decision each, taken by the simulator. -/
def alternating : List SimulatorAnswer :=
  [bareAnswer 0 5, bareAnswer 1 5, bareAnswer 2 5, bareAnswer 0 5]

theorem fixed_baseline_unaltered_alternating :
    let e : SingleIntersectionEnv := { rewardFn := .raw, signal := bareSignal 0 0 }
    let b := FixedTimeBaseline.new [5, 5, 5] 5
    (e.reset [] (bareSignal 0 0)).2.askedActions OrderHom.id
        (fixedChoices b alternating) = (b.decisions 4).1.map Nat.cast ∧
      [0, 1, 2, 0] = (b.decisions 4).1 :=
  fixed_baseline_unaltered OrderHom.id
    { rewardFn := .raw, signal := bareSignal 0 0 } [] (bareSignal 0 0) [5, 5, 5] 5
    alternating rfl rfl
    ⟨⟨rfl, rfl⟩, ⟨rfl, rfl⟩, ⟨rfl, rfl⟩, ⟨rfl, rfl⟩, trivial⟩

end SingleIntersectionEnv

end Semaforo
