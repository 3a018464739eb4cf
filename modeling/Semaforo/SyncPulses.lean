import Semaforo.CoordinatorCommands
import Semaforo.PeriodicTrigger
import Mathlib.Tactic

/-!
# The main loop of the coordinator

A translation of `network/coordinator/src/sync_service.py` and of the loop in
`GreenWaveCoordinator.run`: a pass of the loop recomputes the timing plans when
a minute has passed and some telemetry is cached, and then ticks the sync
service.  Both are polled triggers.  Every reading of the clock is an input.
-/

namespace Semaforo

/-! ## The sync service -/

structure SyncPulse where
  timestamp : ℤ
  cycleRef : ℕ
  zoneId : String
  uptimeS : ℤ
  deriving DecidableEq, Repr

structure SyncService where
  zoneId : String := "zone-default"
  intervalS : ℚ := 10
  lastPulseTime : ℚ := 0
  cycleCounter : ℕ := 0
  startTime : ℚ
  /-- What the broker has been given, with the topics. -/
  published : List (String × SyncPulse) := []
  deriving DecidableEq, Repr

/-- A call, with the readings of the clock in their order. -/
inductive SyncCall where
  | tick (now stamp uptime : ℚ)
  | forcePulse (stamp uptime after : ℚ)
  deriving DecidableEq, Repr

namespace SyncService

def topic (zoneId : String) : String := "semaforo/" ++ zoneId ++ "/sync/pulse"

def publishPulse (s : SyncService) (stamp uptime : ℚ) : SyncService :=
  let cycleCounter := s.cycleCounter + 1
  let pulse : SyncPulse :=
    { timestamp := pyInt (stamp * 1000)
      cycleRef := cycleCounter
      zoneId := s.zoneId
      uptimeS := pyInt (uptime - s.startTime) }
  { s with
    cycleCounter := cycleCounter
    published := s.published ++ [(topic s.zoneId, pulse)] }

def tick (s : SyncService) (now stamp uptime : ℚ) : SyncService :=
  if s.intervalS ≤ now - s.lastPulseTime then
    { s.publishPulse stamp uptime with lastPulseTime := now }
  else s

def forcePulse (s : SyncService) (stamp uptime after : ℚ) : SyncService :=
  { s.publishPulse stamp uptime with lastPulseTime := after }

def call (s : SyncService) : SyncCall → SyncService
  | .tick now stamp uptime => s.tick now stamp uptime
  | .forcePulse stamp uptime after => s.forcePulse stamp uptime after

def run (s : SyncService) (calls : List SyncCall) : SyncService :=
  calls.foldl call s

end SyncService

namespace SyncCall

def now : SyncCall → ℚ
  | .tick now _ _ => now
  | .forcePulse stamp _ _ => stamp

def mark : SyncCall → ℚ
  | .tick now _ _ => now
  | .forcePulse _ _ after => after

def isForced : SyncCall → Bool
  | .tick _ _ _ => false
  | .forcePulse _ _ _ => true

/-- The pulse that the call publishes as number `cycleRef`. -/
def pulse (zoneId : String) (startTime : ℚ) (cycleRef : ℕ) :
    SyncCall → SyncPulse
  | .tick _ stamp uptime =>
      ⟨pyInt (stamp * 1000), cycleRef, zoneId, pyInt (uptime - startTime)⟩
  | .forcePulse stamp uptime _ =>
      ⟨pyInt (stamp * 1000), cycleRef, zoneId, pyInt (uptime - startTime)⟩

end SyncCall

namespace SyncService

def trigger (s : SyncService) : Trigger SyncCall ℚ where
  interval := s.intervalS
  now := SyncCall.now
  mark := SyncCall.mark
  ready _ := true
  forced := SyncCall.isForced

/-- The calls that publish a pulse. -/
def pulsing (s : SyncService) (calls : List SyncCall) : List SyncCall :=
  s.trigger.firings s.lastPulseTime calls

/-- What a call leaves, when it publishes and when it does not. -/
theorem call_cases (s : SyncService) (c : SyncCall) :
    s.call c =
      if s.trigger.Fires s.lastPulseTime c then
        { s with
          cycleCounter := s.cycleCounter + 1
          lastPulseTime := c.mark
          published := s.published ++ [(topic s.zoneId,
            c.pulse s.zoneId s.startTime (s.cycleCounter + 1))] }
      else s := by
  cases c with
  | tick now stamp uptime =>
      by_cases hdue : s.intervalS ≤ now - s.lastPulseTime
      · have hfires : s.trigger.Fires s.lastPulseTime (.tick now stamp uptime) :=
          Or.inr ⟨hdue, rfl⟩
        rw [if_pos hfires]
        exact if_pos hdue
      · have hfires :
            ¬ s.trigger.Fires s.lastPulseTime (.tick now stamp uptime) := by
          rintro (hforced | ⟨hdue', _⟩)
          · cases hforced
          · exact hdue hdue'
        rw [if_neg hfires]
        exact if_neg hdue
  | forcePulse stamp uptime after =>
      have hfires :
          s.trigger.Fires s.lastPulseTime (.forcePulse stamp uptime after) :=
        Or.inl rfl
      rw [if_pos hfires]
      rfl

/-- A run publishes one pulse for each pulsing call, numbered on from the
counter. -/
theorem run_published (s : SyncService) (calls : List SyncCall) :
    (s.run calls).published = s.published ++
      (s.pulsing calls).zipIdx.map (fun x =>
        (topic s.zoneId,
          x.1.pulse s.zoneId s.startTime (s.cycleCounter + 1 + x.2))) := by
  induction calls generalizing s with
  | nil => simp [run, pulsing, Trigger.firings]
  | cons c calls ih =>
      have hrun : s.run (c :: calls) = (s.call c).run calls := rfl
      rw [hrun, ih, call_cases]
      split_ifs with hfires
      · have hrest : s.pulsing (c :: calls) =
            c :: s.trigger.firings c.mark calls :=
          Trigger.firings_of_fires hfires calls
        rw [hrest, List.zipIdx_cons', List.map_cons, List.map_map,
          List.append_assoc, List.singleton_append]
        refine congrArg (s.published ++ ·) (congrArg₂ List.cons rfl ?_)
        refine List.map_congr_left fun x _ => ?_
        simp only [Function.comp, Prod.map, id, Nat.add_assoc, Nat.add_comm x.2]
      · have hrest : s.pulsing (c :: calls) = s.pulsing calls :=
          Trigger.firings_of_not_fires hfires calls
        rw [hrest]

/-- In a loop that ticks at most `period` apart the pulses are numbered without a
gap, and pulse `i + k` follows pulse `i` after `k` intervals at the earliest and
after `k` intervals and `k` periods at the latest. -/
theorem pulses_paced (s : SyncService) (period : ℚ) (calls : List SyncCall)
    (i k : ℕ) (c c' : SyncCall) (hinterval : 0 < s.intervalS)
    (hticks : ∀ c ∈ calls, c.isForced = false)
    (hpolled : s.trigger.Polled period calls)
    (hi : (s.pulsing calls)[i]? = some c)
    (hk : (s.pulsing calls)[i + k]? = some c') :
    (s.run calls).published[s.published.length + i]? =
        some (topic s.zoneId,
          c.pulse s.zoneId s.startTime (s.cycleCounter + 1 + i)) ∧
      k * s.intervalS ≤ c'.now - c.now ∧
      c'.now - c.now ≤ k * (s.intervalS + period) := by
  have hmark : ∀ c ∈ calls, c.mark = c.now := by
    intro c hc
    have htick := hticks c hc
    cases c with
    | tick now stamp uptime => rfl
    | forcePulse stamp uptime after => cases htick
  have hpulsing : ∀ c ∈ s.pulsing calls, c.mark = c.now :=
    fun c hc => hmark c (Trigger.mem_firings hc).1
  have hlower : (s.pulsing calls).IsChain
      fun p q => s.intervalS ≤ q.now - p.now := by
    refine List.IsChain.imp_of_mem_imp ?_
      (Trigger.isChain_firings s.lastPulseTime calls)
    intro p q hp hq hfires
    rcases hfires with hforced | ⟨hdue, _⟩
    · have htick := hticks q (Trigger.mem_firings hq).1
      exact absurd hforced (by simp [trigger, htick])
    · have hstep : s.intervalS ≤ q.now - p.mark := hdue
      rw [hpulsing p hp] at hstep
      exact hstep
  have hupper : (s.pulsing calls).IsChain
      fun p q => q.now - p.now ≤ s.intervalS + period := by
    refine List.IsChain.imp_of_mem_imp ?_
      (Trigger.isChain_firings_lt hinterval hpolled (fun _ _ => rfl)
        (fun p hp => (hmark p hp).ge) s.lastPulseTime)
    intro p q hp hq hlt
    have hstep : q.now - p.mark < s.intervalS + period := hlt
    rw [hpulsing p hp] at hstep
    exact hstep.le
  refine ⟨?_, mul_le_sub_of_isChain hlower hi hk,
    sub_le_mul_of_isChain hupper hi hk⟩
  rw [run_published, List.getElem?_append_right (Nat.le_add_right _ _),
    Nat.add_sub_cancel_left, List.getElem?_map, List.getElem?_zipIdx, hi]
  simp

def quietService : SyncService :=
  { zoneId := "zone-1", intervalS := 10, startTime := 100 }

def quietTicks : List SyncCall :=
  [100, 105, 111, 121].map fun now => .tick now now now

theorem pulses_paced_quiet :
    (quietService.run quietTicks).published[1]? =
        some (topic "zone-1", SyncCall.pulse "zone-1" 100 2 (.tick 111 111 111)) ∧
      ((1 : ℕ) : ℚ) * quietService.intervalS ≤ 121 - 111 ∧
      121 - 111 ≤ ((1 : ℕ) : ℚ) * (quietService.intervalS + 10) :=
  pulses_paced quietService 10 quietTicks 1 1 (.tick 111 111 111)
    (.tick 121 121 121) (by decide +kernel) (by decide) (by decide +kernel)
    (by decide +kernel) (by decide +kernel)

end SyncService

/-! ## The loop -/

/-- `PLAN_RECOMPUTE_INTERVAL_S`. -/
def planRecomputeIntervalS : ℚ := 60

/-- One pass of the loop, with the readings of the clock. -/
structure LoopPass where
  now : ℚ
  /-- Some telemetry is cached. -/
  telemetry : Bool
  /-- The reading with which `_compute_and_publish_plans` ends. -/
  plannedAt : ℚ
  tick : ℚ
  stamp : ℚ
  uptime : ℚ
  deriving DecidableEq, Repr

structure CoordinatorLoop where
  lastPlanTime : ℚ := 0
  /-- The passes that have recomputed and published the plans. -/
  recomputed : List LoopPass := []
  sync : SyncService
  deriving DecidableEq, Repr

namespace CoordinatorLoop

def recompute (l : CoordinatorLoop) (p : LoopPass) : CoordinatorLoop :=
  if planRecomputeIntervalS ≤ p.now - l.lastPlanTime then
    if p.telemetry then
      { l with
        recomputed := l.recomputed ++ [p]
        lastPlanTime := p.plannedAt }
    else l
  else l

def pass (l : CoordinatorLoop) (p : LoopPass) : CoordinatorLoop :=
  let l := l.recompute p
  { l with sync := l.sync.tick p.tick p.stamp p.uptime }

def run (l : CoordinatorLoop) (passes : List LoopPass) : CoordinatorLoop :=
  passes.foldl pass l

/-- The recomputation of the plans as a polled trigger. -/
def planTrigger : Trigger LoopPass ℚ where
  interval := planRecomputeIntervalS
  now := LoopPass.now
  mark := LoopPass.plannedAt
  ready := LoopPass.telemetry
  forced _ := false

theorem planTrigger_fires_iff {last : ℚ} {p : LoopPass} :
    planTrigger.Fires last p ↔
      planRecomputeIntervalS ≤ p.now - last ∧ p.telemetry = true := by
  simp [Trigger.Fires, Trigger.Due, planTrigger]

theorem run_recomputed (l : CoordinatorLoop) (passes : List LoopPass) :
    (l.run passes).recomputed =
      l.recomputed ++ planTrigger.firings l.lastPlanTime passes := by
  induction passes generalizing l with
  | nil => simp [run, Trigger.firings]
  | cons p passes ih =>
      have hrun : l.run (p :: passes) = (l.pass p).run passes := rfl
      rw [hrun, ih]
      by_cases hfires : planTrigger.Fires l.lastPlanTime p
      · obtain ⟨hdue, htelemetry⟩ := planTrigger_fires_iff.mp hfires
        rw [Trigger.firings_of_fires hfires]
        simp [pass, recompute, hdue, htelemetry, planTrigger]
      · rw [Trigger.firings_of_not_fires hfires]
        rw [planTrigger_fires_iff] at hfires
        have hsame : l.recompute p = l := by
          unfold recompute
          split_ifs with hdue htelemetry
          · exact absurd ⟨hdue, htelemetry⟩ hfires
          · rfl
          · rfl
        simp [pass, hsame]

theorem firings_of_no_telemetry {last : ℚ} {passes : List LoopPass}
    (hnone : ∀ p ∈ passes, p.telemetry = false) (after : List LoopPass) :
    planTrigger.firings last (passes ++ after) =
      planTrigger.firings last after := by
  induction passes with
  | nil => rfl
  | cons p passes ih =>
      have hp : ¬ planTrigger.Fires last p := by
        rw [planTrigger_fires_iff, hnone p (List.mem_cons_self ..)]
        simp
      rw [List.cons_append, Trigger.firings_of_not_fires hp]
      exact ih fun q hq => hnone q (List.mem_cons_of_mem p hq)

/-- The first pass with telemetry publishes the plans.  From then on a loop with
passes at most `period` apart publishes them again no sooner than a minute after
they were last published, and before a minute and one period are over. -/
theorem plans_paced (sync : SyncService) (period : ℚ)
    (before after : List LoopPass)
    (hbefore : ∀ p ∈ before, p.telemetry = false)
    (hafter : ∀ p ∈ after, p.telemetry = true)
    (hclock : ∀ p ∈ after, planRecomputeIntervalS ≤ p.now ∧ p.now ≤ p.plannedAt)
    (hpolled : planTrigger.Polled period after) :
    ((CoordinatorLoop.mk 0 [] sync).run (before ++ after)).recomputed.head? =
        after.head? ∧
      ((CoordinatorLoop.mk 0 [] sync).run
        (before ++ after)).recomputed.IsChain fun p q =>
          planRecomputeIntervalS ≤ q.now - p.plannedAt ∧
            q.now - p.plannedAt < planRecomputeIntervalS + period := by
  rw [run_recomputed, List.nil_append, firings_of_no_telemetry hbefore]
  constructor
  · cases after with
    | nil => rfl
    | cons p after =>
        have hfires : planTrigger.Fires 0 p := by
          rw [planTrigger_fires_iff, sub_zero]
          exact ⟨(hclock p (List.mem_cons_self ..)).1,
            hafter p (List.mem_cons_self ..)⟩
        rw [Trigger.firings_of_fires hfires]
        rfl
  · have hlower : (planTrigger.firings 0 after).IsChain fun p q =>
        planTrigger.Fires p.plannedAt q := Trigger.isChain_firings 0 after
    have hpos : 0 < planTrigger.interval := by
      norm_num [planTrigger, planRecomputeIntervalS]
    have hupper := Trigger.isChain_firings_lt hpos hpolled hafter
      (fun p hp => (hclock p hp).2) 0
    rw [List.isChain_iff_getElem] at hlower hupper ⊢
    exact fun i hi =>
      ⟨(planTrigger_fires_iff.mp (hlower i hi)).1, hupper i hi⟩

def quietPass (telemetry : Bool) (now : ℚ) : LoopPass :=
  ⟨now, telemetry, now, now, now, now⟩

theorem plans_paced_quiet :
    ((CoordinatorLoop.mk 0 [] SyncService.quietService).run
        ([quietPass false 100] ++ [110, 140, 171, 200].map
          (quietPass true))).recomputed.head? =
        ([110, 140, 171, 200].map (quietPass true)).head? ∧
      ((CoordinatorLoop.mk 0 [] SyncService.quietService).run
        ([quietPass false 100] ++ [110, 140, 171, 200].map
          (quietPass true))).recomputed.IsChain fun p q =>
            planRecomputeIntervalS ≤ q.now - p.plannedAt ∧
              q.now - p.plannedAt < planRecomputeIntervalS + 31 :=
  plans_paced SyncService.quietService 31 _ _ (by decide) (by decide)
    (by decide +kernel) (by decide +kernel)

end CoordinatorLoop

end Semaforo
