import Semaforo.Phase
import Mathlib.Tactic

/-!
# Remote commands: parse results, guard and latch

The data that the command parser hands over, the freshness and fallback state
machine `CommandGuard`, and the directive latch.  Milliseconds, counters and
sequence numbers are unbounded integers.
-/

namespace Semaforo

inductive CommandStatus where
  | ok
  | empty
  | oversized
  | malformedJson
  | notAnObject
  | missingField
  | wrongType
  | unknownAction
  | invalidPhase
  | stale
  | futureTimestamp
  deriving DecidableEq, Repr

structure ParsedCommand where
  status : CommandStatus := .empty
  action : String := ""
  phase : Phase := .allRed
  priority : String := ""
  timestampMs : ℤ := 0
  sequenceNumber : ℤ := -1
  ageMs : ℤ := 0
  detail : String := ""
  deriving DecidableEq, Repr

def ParsedCommand.isActionable (c : ParsedCommand) : Bool := c.status = .ok

/-- `CommandParser::phase_from_string`: the whitelist of commandable phases. -/
def phaseFromString (s : String) : Option Phase :=
  if s = "GREEN_NS" then some .greenNS
  else if s = "YELLOW_NS" then some .yellowNS
  else if s = "ALL_RED" then some .allRed
  else if s = "GREEN_EW" then some .greenEW
  else if s = "YELLOW_EW" then some .yellowEW
  else if s = "GREEN_NS_LEFT" then some .greenNSLeft
  else if s = "GREEN_EW_LEFT" then some .greenEWLeft
  else none

/-! ## The guard -/

inductive GuardDecision where
  | none
  | enterFallback
  | exitFallback
  deriving DecidableEq, Repr

structure GuardConfig where
  failureThreshold : ℤ := 3
  recoveryStreak : ℤ := 3
  silenceTimeoutMs : ℤ := 10000
  deriving DecidableEq, Repr

structure CommandGuard where
  cfg : GuardConfig := {}
  lastValidMs : ℤ := 0
  consecutiveFailures : ℤ := 0
  consecutiveOk : ℤ := 0
  inFallback : Bool := false
  totalRejected : ℕ := 0
  lastAppliedSeq : ℤ := -1
  deriving DecidableEq, Repr

namespace CommandGuard

def onCommand (g : CommandGuard) (parsed : ParsedCommand) (nowMs : ℤ) :
    GuardDecision × CommandGuard :=
  if parsed.isActionable then
    let g := { g with
      lastValidMs := nowMs
      consecutiveFailures := 0
      consecutiveOk := g.consecutiveOk + 1 }
    if g.inFallback ∧ g.cfg.recoveryStreak ≤ g.consecutiveOk then
      (.exitFallback, { g with inFallback := false, consecutiveOk := 0 })
    else (.none, g)
  else
    let g := { g with
      consecutiveOk := 0
      consecutiveFailures := g.consecutiveFailures + 1
      totalRejected := g.totalRejected + 1 }
    if ¬ g.inFallback ∧ g.cfg.failureThreshold ≤ g.consecutiveFailures then
      (.enterFallback, { g with inFallback := true })
    else (.none, g)

def tick (g : CommandGuard) (nowMs : ℤ) : GuardDecision × CommandGuard :=
  if g.inFallback then (.none, g)
  else if g.lastValidMs = 0 then (.none, g)
  else if g.cfg.silenceTimeoutMs < nowMs - g.lastValidMs then
    (.enterFallback, { g with inFallback := true, consecutiveOk := 0 })
  else (.none, g)

def acceptSequence (g : CommandGuard) (parsed : ParsedCommand) :
    Bool × CommandGuard :=
  if parsed.sequenceNumber ≤ g.lastAppliedSeq then
    (false, { g with totalRejected := g.totalRejected + 1 })
  else (true, { g with lastAppliedSeq := parsed.sequenceNumber })

def arm (g : CommandGuard) (nowMs : ℤ) : CommandGuard :=
  { g with lastValidMs := nowMs }

/-- The decision tells how `inFallback` has changed. -/
inductive Decided (g g' : CommandGuard) : GuardDecision → Prop where
  | none (hsame : g'.inFallback = g.inFallback) : Decided g g' .none
  | enter (hbefore : g.inFallback = false) (hafter : g'.inFallback = true) :
      Decided g g' .enterFallback
  | exit (hbefore : g.inFallback = true) (hafter : g'.inFallback = false) :
      Decided g g' .exitFallback

theorem onCommand_decided (g : CommandGuard) (parsed : ParsedCommand)
    (nowMs : ℤ) :
    Decided g (g.onCommand parsed nowMs).2 (g.onCommand parsed nowMs).1 := by
  unfold onCommand
  dsimp only
  split_ifs with hok hexit henter
  · exact .exit hexit.1 rfl
  · exact .none rfl
  · exact .enter (by simpa using henter.1) rfl
  · exact .none rfl

theorem tick_decided (g : CommandGuard) (nowMs : ℤ) :
    Decided g (g.tick nowMs).2 (g.tick nowMs).1 := by
  unfold tick
  split_ifs with hfallback
  · exact .none rfl
  · exact .none rfl
  · exact .enter (by simpa using hfallback) rfl
  · exact .none rfl

theorem tick_decision_ne_exit (g : CommandGuard) (nowMs : ℤ) :
    (g.tick nowMs).1 ≠ .exitFallback := by
  unfold tick
  split_ifs <;> simp

@[simp] theorem onCommand_lastAppliedSeq (g : CommandGuard)
    (parsed : ParsedCommand) (nowMs : ℤ) :
    (g.onCommand parsed nowMs).2.lastAppliedSeq = g.lastAppliedSeq := by
  unfold onCommand
  dsimp only
  split_ifs <;> rfl

@[simp] theorem tick_lastAppliedSeq (g : CommandGuard) (nowMs : ℤ) :
    (g.tick nowMs).2.lastAppliedSeq = g.lastAppliedSeq := by
  unfold tick
  split_ifs <;> rfl

@[simp] theorem tick_lastValidMs (g : CommandGuard) (nowMs : ℤ) :
    (g.tick nowMs).2.lastValidMs = g.lastValidMs := by
  unfold tick
  split_ifs <;> rfl

@[simp] theorem acceptSequence_inFallback (g : CommandGuard)
    (parsed : ParsedCommand) :
    (g.acceptSequence parsed).2.inFallback = g.inFallback := by
  unfold acceptSequence
  split_ifs <;> rfl

end CommandGuard

/-! ## The latch -/

/-- `DirectiveLatch::DEFAULT_TTL_MS`. -/
def defaultTtlMs : ℤ := 4000

structure DirectiveLatch where
  ttlMs : ℤ := defaultTtlMs
  phase : Phase := .allRed
  lastUpdateMs : ℤ := 0
  valid : Bool := false
  deriving DecidableEq, Repr

namespace DirectiveLatch

def update (l : DirectiveLatch) (phase : Phase) (nowMs : ℤ) :
    DirectiveLatch :=
  { l with phase := phase, lastUpdateMs := nowMs, valid := true }

def get (l : DirectiveLatch) (nowMs : ℤ) : Option Phase :=
  if ¬ l.valid then none
  else if l.ttlMs ≤ nowMs - l.lastUpdateMs then none
  else some l.phase

theorem mem_get {l : DirectiveLatch} {nowMs : ℤ} {p : Phase}
    (hp : p ∈ l.get nowMs) : l.valid = true ∧ p = l.phase := by
  unfold get at hp
  by_cases hvalid : l.valid = true
  · by_cases hstale : l.ttlMs ≤ nowMs - l.lastUpdateMs
    · simp [hvalid, hstale] at hp
    · have hphase : l.phase = p := by simpa [hvalid, hstale] using hp
      exact ⟨hvalid, hphase.symm⟩
  · simp [hvalid] at hp

end DirectiveLatch

end Semaforo
