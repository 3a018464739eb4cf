import Semaforo.FallbackArbitration
import Semaforo.LoopGuard
import Mathlib.Tactic

/-!
# The command-silence watchdog

Silence is noticed by the guard's tick, and the loop ticks the guard only while
the client is connected.  A silent iteration therefore ends in the fixed cycle
in three cases: the client is connected, the guard is in fallback already, or
rejected commands bring it there.
-/

namespace Semaforo

def Iteration.hears (k : Iteration) : Bool :=
  k.popped.any fun p => p.command.isActionable

/-- The instant at which a valid command was last processed, or that of the
arming. -/
def lastHeardMs (armedMs : ℤ) (iterations : List Iteration) : ℤ :=
  iterations.foldl
    (fun heardMs k => if k.hears then k.tickNowMs else heardMs) armedMs

theorem lastHeardMs_snoc (armedMs : ℤ) (before : List Iteration)
    (k : Iteration) :
    lastHeardMs armedMs (before ++ [k]) =
      if k.hears then k.tickNowMs else lastHeardMs armedMs before := by
  simp [lastHeardMs]

namespace CommandGuard

variable {g : CommandGuard} {nowMs : ℤ}

theorem process_lastValidMs (g : CommandGuard) (parsed : ParsedCommand)
    (nowMs : ℤ) :
    (g.process ⟨.onCommand parsed, nowMs⟩).2.lastValidMs =
      if parsed.isActionable then nowMs else g.lastValidMs := by
  obtain ⟨seq, total, hprocess⟩ := process_eq g ⟨.onCommand parsed, nowMs⟩
  rw [hprocess]
  simp only [answer, onCommand]
  split_ifs <;> rfl

theorem run_drained_lastValidMs (g : CommandGuard) (popped : List Popped)
    (nowMs : ℤ) :
    (link.run g (popped.map fun p =>
        ⟨.onCommand p.command, nowMs⟩)).lastValidMs =
      if popped.any fun p => p.command.isActionable then nowMs
      else g.lastValidMs := by
  induction popped generalizing g with
  | nil => rfl
  | cons p popped ih =>
      rw [List.map_cons, link.run_cons]
      refine (ih _).trans ?_
      rw [List.any_cons]
      change (if _ then nowMs else
        (g.process ⟨.onCommand p.command, nowMs⟩).2.lastValidMs) = _
      rw [process_lastValidMs]
      cases p.command.isActionable <;>
        cases popped.any fun p => p.command.isActionable <;> rfl

theorem tick_inFallback (harmed : g.lastValidMs ≠ 0)
    (hsilent : g.cfg.silenceTimeoutMs < nowMs - g.lastValidMs) :
    (g.tick nowMs).2.inFallback = true := by
  unfold tick
  rw [if_neg harmed, if_pos hsilent]
  split_ifs with hfallback
  · exact hfallback
  · rfl

end CommandGuard

namespace Node

theorem iterate_lastValidMs (n : Node) (k : Iteration) :
    (n.iterate k).loop.cmdGuard.lastValidMs =
      if k.hears then k.tickNowMs else n.loop.cmdGuard.lastValidMs := by
  rw [iterate_cmdGuard, Iteration.guardEvents, CommandGuard.link.run_append]
  have hdrained : (CommandGuard.link.run n.loop.cmdGuard
      k.drained).lastValidMs = _ :=
    CommandGuard.run_drained_lastValidMs n.loop.cmdGuard k.popped k.tickNowMs
  rw [Iteration.hears, ← hdrained]
  by_cases hconnected : k.connected = true
  · rw [if_pos hconnected]
    exact CommandGuard.tick_lastValidMs _ k.tickNowMs
  · rw [if_neg hconnected]
    rfl

/-- What an armed guard remembers of a run. -/
structure Listening (n : Node) (t heardMs : ℤ) : Prop where
  sane : CommandGuard.Sane {} n.loop.cmdGuard t
  heard : n.loop.cmdGuard.lastValidMs = heardMs
  armed : 0 < heardMs

theorem boot_listening (major : MajorApproach) {armedMs : ℤ}
    (harmed : 0 < armedMs) (now : TimePoint) :
    (boot major (some armedMs) now).Listening armedMs armedMs where
  sane :=
    { cfg_eq := rfl
      now_pos := harmed
      heard_nonneg := harmed.le
      heard_le := le_refl armedMs
      failures_nonneg := le_refl 0
      healthy := fun _ => three_pos
      fallback := fun hfallback => by
        simp [boot, Loop.initial, CommandGuard.arm] at hfallback }
  heard := rfl
  armed := harmed

theorem Listening.iterate {n : Node} {t heardMs : ℤ} {k : Iteration}
    (hn : n.Listening t heardMs) (htime : t ≤ k.tickNowMs) :
    (n.iterate k).Listening k.tickNowMs
      (if k.hears then k.tickNowMs else heardMs) where
  sane := iterate_sane (by decide) (by decide) hn.sane htime
  heard := by rw [iterate_lastValidMs, hn.heard]
  armed := by
    have hpos := hn.sane.now_pos
    have harmed := hn.armed
    split_ifs <;> omega

theorem Listening.run {n : Node} {t heardMs : ℤ} {iterations : List Iteration}
    (hn : n.Listening t heardMs) (hclock : ticks.Clocked n t iterations) :
    (ticks.run n iterations).Listening (ticks.endTime t iterations)
      (lastHeardMs heardMs iterations) := by
  induction iterations generalizing n t heardMs with
  | nil => exact hn
  | cons k iterations ih => exact ih (hn.iterate hclock.1) hclock.2

/-! ## Silent iterations -/

def InFixedCycle (n : Node) : Prop :=
  n.loop.cmdGuard.inFallback = true ∧ n.safety.inEmergency = true

/-- When the iteration ends, nothing valid has been heard for longer than the
timeout. -/
def SilentAt (armedMs : ℤ) (before : List Iteration) (k : Iteration) : Prop :=
  ({} : GuardConfig).silenceTimeoutMs <
    k.tickNowMs - lastHeardMs armedMs (before ++ [k])

instance (armedMs : ℤ) (before : List Iteration) (k : Iteration) :
    Decidable (SilentAt armedMs before k) :=
  inferInstanceAs (Decidable (({} : GuardConfig).silenceTimeoutMs <
    k.tickNowMs - lastHeardMs armedMs (before ++ [k])))

/-- The guard is ticked in this iteration, or does not need to be. -/
def Watched (n : Node) (k : Iteration) : Prop :=
  k.connected = true ∨ n.loop.cmdGuard.inFallback = true ∨
    n.loop.cmdGuard.cfg.failureThreshold ≤
      n.loop.cmdGuard.consecutiveFailures + k.popped.length

theorem Arbitrated.inFixedCycle_iff {n : Node} (hn : n.Arbitrated) :
    n.InFixedCycle ↔ n.loop.cmdGuard.inFallback = true := by
  constructor
  · rintro ⟨hfallback, _⟩
    exact hfallback
  · intro hfallback
    refine ⟨hfallback, ?_⟩
    rw [hn.mode]
    simp [Loop.faulty, hfallback]

theorem Listening.inFallback_iff {n : Node} {k : Iteration} {t heardMs : ℤ}
    (hn : n.Listening t heardMs) (hdeaf : k.hears = false)
    (hsilent : ({} : GuardConfig).silenceTimeoutMs < k.tickNowMs - heardMs) :
    (n.iterate k).loop.cmdGuard.inFallback = true ↔ n.Watched k := by
  have hbad : ∀ e ∈ k.drained, CommandGuard.IsRejected e := by
    intro e he
    obtain ⟨p, hp, rfl⟩ := List.mem_map.mp he
    have hnone := List.any_eq_false.mp hdeaf p hp
    exact ⟨p.command, by simpa using hnone, rfl⟩
  have hcfg : n.loop.cmdGuard.cfg = {} := hn.sane.cfg_eq
  obtain ⟨hcfg', hheard, _, hmode⟩ := CommandGuard.run_refused hbad
    fun hhealthy => by
      rw [hcfg]
      exact hn.sane.healthy hhealthy
  have hlength : k.drained.length = k.popped.length := List.length_map _
  rw [hlength] at hmode
  rw [iterate_cmdGuard, Iteration.guardEvents, CommandGuard.link.run_append,
    Watched]
  by_cases hconnected : k.connected = true
  · rw [if_pos hconnected]
    have harmed : (CommandGuard.link.run n.loop.cmdGuard
        k.drained).lastValidMs ≠ 0 := by
      rw [hheard, hn.heard]
      exact hn.armed.ne'
    have hticked := CommandGuard.tick_inFallback harmed
      (by rw [hheard, hn.heard, hcfg', hcfg]; exact hsilent)
    exact iff_of_true hticked (Or.inl hconnected)
  · rw [if_neg hconnected]
    refine hmode.trans (Iff.symm (or_iff_right hconnected))

end Node

/-- Silence ends in the fixed cycle exactly in the iterations that are
watched. -/
theorem silence_in_fixed_cycle_iff (major : MajorApproach) (armedMs : ℤ)
    (harmed : 0 < armedMs) (now : TimePoint) (iterations : List Iteration)
    (hclock : Node.ticks.Clocked (.boot major (some armedMs) now) armedMs
      iterations)
    (before after : List Iteration) (k : Iteration)
    (hsplit : iterations = before ++ k :: after)
    (hsilent : Node.SilentAt armedMs before k) :
    ((Node.ticks.run (.boot major (some armedMs) now) before).iterate
        k).InFixedCycle ↔
      (Node.ticks.run (.boot major (some armedMs) now) before).Watched k := by
  subst hsplit
  obtain ⟨hbefore, _⟩ := Node.ticks.admits_append.mp hclock
  have hlistening := (Node.boot_listening major harmed now).run hbefore
  have hrun : (Node.ticks.run (.boot major (some armedMs) now)
      before).Arbitrated :=
    Node.ticks.run_invariant (fun n k hn => hn.iterate k) before
      (Node.boot_arbitrated major (some armedMs) now)
  rw [(hrun.iterate k).inFixedCycle_iff]
  rw [Node.SilentAt, lastHeardMs_snoc] at hsilent
  cases hhears : k.hears with
  | true =>
      -- a valid command in this very iteration ends the silence
      rw [hhears, if_pos rfl, sub_self] at hsilent
      contradiction
  | false =>
      rw [hhears, if_neg Bool.false_ne_true] at hsilent
      exact hlistening.inFallback_iff hhears hsilent

/-- The broker is down from the arming on, and nothing is popped. -/
def brokerDown : Iteration where
  tickNowMs := 10002
  silenceNow := 0
  cameraNow := 0
  inferenceNow := 0
  policyPhase := .greenNS
  validateNow := 0

theorem silence_in_fixed_cycle_iff_reconnected :
    ((Node.ticks.run (.boot .ns (some 1) 0) [brokerDown]).iterate
        { brokerDown with connected := true }).InFixedCycle ↔
      (Node.ticks.run (.boot .ns (some 1) 0) [brokerDown]).Watched
        { brokerDown with connected := true } :=
  silence_in_fixed_cycle_iff .ns 1 (by decide) 0
    [brokerDown, { brokerDown with connected := true }]
    ⟨by decide, by decide, trivial⟩ [brokerDown] [] _ rfl (by decide)

theorem silence_in_fixed_cycle_broken_by_outage :
    ¬ ∀ (major : MajorApproach) (armedMs : ℤ) (now : TimePoint)
        (iterations before after : List Iteration) (k : Iteration),
      0 < armedMs →
        Node.ticks.Clocked (.boot major (some armedMs) now) armedMs
          iterations →
          iterations = before ++ k :: after →
            Node.SilentAt armedMs before k →
              ((Node.ticks.run (.boot major (some armedMs) now)
                before).iterate k).InFixedCycle := by
  intro hall
  have hcycle := hall .ns 1 0 [brokerDown] [] [] brokerDown (by decide)
    ⟨by decide, trivial⟩ rfl (by decide)
  exact absurd hcycle.1 (by decide)

end Semaforo
