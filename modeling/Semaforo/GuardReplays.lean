import Semaforo.GuardHysteresis
import Mathlib.Tactic

/-!
# Replayed commands and the guard

A stream of parsed commands as the main loop feeds it to the guard: the
observation first, the idempotency gate afterwards.  The stream is compared
with the one from which every replayed command has been deleted.  `Agree`
relates the two guards, and a replay is harmless exactly when it leaves the
relation intact.
-/

namespace Semaforo

namespace CommandGuard

/-- The guard's part of the drain loop. -/
def process (g : CommandGuard) (e : GuardEvent) :
    GuardDecision × CommandGuard :=
  let (decision, g) := g.answer e
  match e.call with
  | .onCommand parsed =>
      (decision, if parsed.isActionable then (g.acceptSequence parsed).2 else g)
  | .tick => (decision, g)
  | .arm => (decision, g)

def link : Machine CommandGuard GuardEvent ℤ where
  step g e := (g.process e).2
  time := GuardEvent.nowMs

/-- An actionable command that the idempotency gate drops. -/
def isReplay (g : CommandGuard) (e : GuardEvent) : Bool :=
  match e.call with
  | .onCommand parsed =>
      parsed.isActionable ∧ parsed.sequenceNumber ≤ g.lastAppliedSeq
  | .tick => false
  | .arm => false

/-- The stream without its replays. -/
def fresh (g : CommandGuard) : List GuardEvent → List GuardEvent
  | [] => []
  | e :: events =>
      if g.isReplay e then fresh (g.process e).2 events
      else e :: fresh (g.process e).2 events

/-- Every call with its decision and with `in_fallback` after it. -/
def log (g : CommandGuard) : List GuardEvent →
    List (GuardEvent × GuardDecision × Bool)
  | [] => []
  | e :: events =>
      (e, (g.process e).1, (g.process e).2.inFallback) ::
        log (g.process e).2 events

/-- The same for the calls that are not replays. -/
def keptLog (g : CommandGuard) : List GuardEvent →
    List (GuardEvent × GuardDecision × Bool)
  | [] => []
  | e :: events =>
      if g.isReplay e then keptLog (g.process e).2 events
      else
        (e, (g.process e).1, (g.process e).2.inFallback) ::
          keptLog (g.process e).2 events

/-- Deleting the replays changes no decision and never `in_fallback`. -/
structure Unaffected (g : CommandGuard) (events : List GuardEvent) : Prop where
  kept : g.keptLog events = g.log (g.fresh events)
  silent : link.Admits
    (fun g _ e => g.isReplay e = true → (g.process e).1 = .none) g 0 events

/-- Two guards that decide alike from now on.  The count of good commands
matters in fallback only, and the count of rejections for the telemetry. -/
structure Agree (g f : CommandGuard) : Prop where
  cfg : g.cfg = f.cfg
  lastValidMs : g.lastValidMs = f.lastValidMs
  consecutiveFailures : g.consecutiveFailures = f.consecutiveFailures
  inFallback : g.inFallback = f.inFallback
  consecutiveOk : g.inFallback = true → g.consecutiveOk = f.consecutiveOk
  lastAppliedSeq : g.lastAppliedSeq = f.lastAppliedSeq

variable {g f : CommandGuard} {e : GuardEvent} {events : List GuardEvent}

theorem Agree.refl (g : CommandGuard) : Agree g g :=
  ⟨rfl, rfl, rfl, rfl, fun _ => rfl, rfl⟩

theorem Agree.onCommand (hagree : Agree g f) (parsed : ParsedCommand)
    (nowMs : ℤ) :
    (g.onCommand parsed nowMs).1 = (f.onCommand parsed nowMs).1 ∧
      Agree (g.onCommand parsed nowMs).2 (f.onCommand parsed nowMs).2 := by
  have hexit : (g.inFallback = true ∧
        g.cfg.recoveryStreak ≤ g.consecutiveOk + 1) ↔
      (f.inFallback = true ∧
        f.cfg.recoveryStreak ≤ f.consecutiveOk + 1) := by
    rw [← hagree.cfg, ← hagree.inFallback]
    refine and_congr_right fun hfallback => ?_
    rw [hagree.consecutiveOk hfallback]
  have henter : (¬ g.inFallback = true ∧
        g.cfg.failureThreshold ≤ g.consecutiveFailures + 1) ↔
      (¬ f.inFallback = true ∧
        f.cfg.failureThreshold ≤ f.consecutiveFailures + 1) := by
    rw [hagree.cfg, hagree.inFallback, hagree.consecutiveFailures]
  unfold CommandGuard.onCommand
  dsimp only
  by_cases hok : parsed.isActionable = true
  · rw [if_pos hok, if_pos hok]
    by_cases hleaves : g.inFallback = true ∧
        g.cfg.recoveryStreak ≤ g.consecutiveOk + 1
    · rw [if_pos hleaves, if_pos (hexit.mp hleaves)]
      exact ⟨rfl, hagree.cfg, rfl, rfl, rfl, fun _ => rfl,
        hagree.lastAppliedSeq⟩
    · rw [if_neg hleaves, if_neg (hexit.not.mp hleaves)]
      exact ⟨rfl, hagree.cfg, rfl, rfl, hagree.inFallback,
        fun hfallback => congrArg (· + 1) (hagree.consecutiveOk hfallback),
        hagree.lastAppliedSeq⟩
  · rw [if_neg hok, if_neg hok]
    have hfailures : g.consecutiveFailures + 1 = f.consecutiveFailures + 1 :=
      congrArg (· + 1) hagree.consecutiveFailures
    by_cases henters : ¬ g.inFallback = true ∧
        g.cfg.failureThreshold ≤ g.consecutiveFailures + 1
    · rw [if_pos henters, if_pos (henter.mp henters)]
      exact ⟨rfl, hagree.cfg, hagree.lastValidMs, hfailures, rfl,
        fun _ => rfl, hagree.lastAppliedSeq⟩
    · rw [if_neg henters, if_neg (henter.not.mp henters)]
      exact ⟨rfl, hagree.cfg, hagree.lastValidMs, hfailures,
        hagree.inFallback, fun _ => rfl, hagree.lastAppliedSeq⟩

theorem Agree.tick (hagree : Agree g f) (nowMs : ℤ) :
    (g.tick nowMs).1 = (f.tick nowMs).1 ∧
      Agree (g.tick nowMs).2 (f.tick nowMs).2 := by
  unfold CommandGuard.tick
  rw [← hagree.inFallback, ← hagree.lastValidMs, ← hagree.cfg]
  split_ifs
  · exact ⟨rfl, hagree⟩
  · exact ⟨rfl, hagree⟩
  · exact ⟨rfl, rfl, rfl, hagree.consecutiveFailures, rfl, fun _ => rfl,
      hagree.lastAppliedSeq⟩
  · exact ⟨rfl, hagree⟩

theorem Agree.acceptSequence (hagree : Agree g f) (parsed : ParsedCommand) :
    Agree (g.acceptSequence parsed).2 (f.acceptSequence parsed).2 := by
  unfold CommandGuard.acceptSequence
  rw [← hagree.lastAppliedSeq]
  split_ifs
  · exact ⟨hagree.cfg, hagree.lastValidMs, hagree.consecutiveFailures,
      hagree.inFallback, hagree.consecutiveOk, rfl⟩
  · exact ⟨hagree.cfg, hagree.lastValidMs, hagree.consecutiveFailures,
      hagree.inFallback, hagree.consecutiveOk, rfl⟩

theorem Agree.process (hagree : Agree g f) (e : GuardEvent) :
    (g.process e).1 = (f.process e).1 ∧
      Agree (g.process e).2 (f.process e).2 := by
  obtain ⟨call, nowMs⟩ := e
  cases call with
  | onCommand parsed =>
      obtain ⟨hdecision, hnext⟩ := hagree.onCommand parsed nowMs
      refine ⟨hdecision, ?_⟩
      by_cases hok : parsed.isActionable = true
      · simpa [CommandGuard.process, answer, hok] using
          hnext.acceptSequence parsed
      · simpa [CommandGuard.process, answer, hok] using hnext
  | tick => exact hagree.tick nowMs
  | arm =>
      exact ⟨rfl, hagree.cfg, rfl, hagree.consecutiveFailures,
        hagree.inFallback, hagree.consecutiveOk, hagree.lastAppliedSeq⟩

/-! ## Quiet replays -/

/-- A replay that the guard is in no position to notice: it is healthy, has no
rejections to forget, and was heard of at this very instant. -/
def Quiet (g : CommandGuard) (e : GuardEvent) : Prop :=
  g.inFallback = false ∧ g.consecutiveFailures = 0 ∧ g.lastValidMs = e.nowMs

instance (g : CommandGuard) (e : GuardEvent) : Decidable (g.Quiet e) :=
  inferInstanceAs (Decidable (g.inFallback = false ∧
    g.consecutiveFailures = 0 ∧ g.lastValidMs = e.nowMs))

theorem eq_onCommand_of_isReplay (hreplay : g.isReplay e = true) :
    ∃ parsed, e = ⟨.onCommand parsed, e.nowMs⟩ ∧
      parsed.isActionable = true ∧
      parsed.sequenceNumber ≤ g.lastAppliedSeq := by
  obtain ⟨call, nowMs⟩ := e
  cases call with
  | onCommand parsed => exact ⟨parsed, rfl, by simpa [isReplay] using hreplay⟩
  | tick => simp [isReplay] at hreplay
  | arm => simp [isReplay] at hreplay

theorem Agree.replay (hagree : Agree g f) (hreplay : g.isReplay e = true)
    (hquiet : g.Quiet e) :
    (g.process e).1 = .none ∧ Agree (g.process e).2 f := by
  obtain ⟨parsed, he, hok, hseq⟩ := eq_onCommand_of_isReplay hreplay
  obtain ⟨hhealthy, hfailures, hheard⟩ := hquiet
  rw [he]
  simp only [CommandGuard.process, answer, CommandGuard.onCommand, hok,
    hhealthy, CommandGuard.acceptSequence, if_true, Bool.false_eq_true,
    false_and, if_false, hseq, true_and]
  refine ⟨hagree.cfg, ?_, ?_, ?_, ?_, hagree.lastAppliedSeq⟩
  · exact hheard.symm.trans hagree.lastValidMs
  · exact hfailures.symm.trans hagree.consecutiveFailures
  · exact hhealthy.symm.trans hagree.inFallback
  · simp

/-- Every replay of the stream is quiet. -/
def AllQuiet (g : CommandGuard) (t : ℤ) (events : List GuardEvent) : Prop :=
  link.Admits (fun g _ e => g.isReplay e = true → g.Quiet e) g t events

def ReplayFree (g : CommandGuard) (t : ℤ) (events : List GuardEvent) : Prop :=
  link.Admits (fun g _ e => g.isReplay e = false) g t events

theorem AllQuiet.agree {t : ℤ} (hquiet : AllQuiet g t events)
    (hagree : Agree g f) :
    g.keptLog events = f.log (g.fresh events) ∧
      Agree (link.run g events) (link.run f (g.fresh events)) := by
  induction events generalizing g f t with
  | nil => exact ⟨rfl, hagree⟩
  | cons e events ih =>
      obtain ⟨hfirst, hrest⟩ := hquiet
      unfold keptLog fresh
      by_cases hreplay : g.isReplay e = true
      · rw [if_pos hreplay, if_pos hreplay]
        exact ih hrest (hagree.replay hreplay (hfirst hreplay)).2
      · rw [if_neg hreplay, if_neg hreplay]
        obtain ⟨hdecision, hnext⟩ := hagree.process e
        obtain ⟨hlog, hend⟩ : (g.process e).2.keptLog events =
              (f.process e).2.log ((g.process e).2.fresh events) ∧ _ :=
          ih hrest hnext
        refine ⟨?_, hend⟩
        rw [log, hlog, hdecision, hnext.inFallback]

theorem AllQuiet.silent {t : ℤ} (hquiet : AllQuiet g t events) (b : ℤ) :
    link.Admits (fun g _ e => g.isReplay e = true → (g.process e).1 = .none)
      g b events := by
  induction events generalizing g t b with
  | nil => trivial
  | cons e events ih =>
      refine ⟨fun hreplay => ?_, ih hquiet.2 _⟩
      exact ((Agree.refl g).replay hreplay (hquiet.1 hreplay)).1

theorem AllQuiet.unaffected {t : ℤ} (hquiet : AllQuiet g t events) :
    g.Unaffected events :=
  ⟨(hquiet.agree (Agree.refl g)).1, hquiet.silent 0⟩

theorem ReplayFree.allQuiet {t : ℤ} (hfree : ReplayFree g t events) :
    AllQuiet g t events := by
  induction events generalizing g t with
  | nil => trivial
  | cons e events ih =>
      refine ⟨fun hreplay => ?_, ih hfree.2⟩
      have hnot : g.isReplay e = false := hfree.1
      rw [hnot] at hreplay
      contradiction

/-! ## Telling two guards apart -/

theorem log_append (g : CommandGuard) (first second : List GuardEvent) :
    g.log (first ++ second) = g.log first ++ (link.run g first).log second := by
  induction first generalizing g with
  | nil => rfl
  | cons e events ih =>
      rw [List.cons_append, log, ih]
      rfl

theorem keptLog_append (g : CommandGuard) (first second : List GuardEvent) :
    g.keptLog (first ++ second) =
      g.keptLog first ++ (link.run g first).keptLog second := by
  induction first generalizing g with
  | nil => rfl
  | cons e events ih =>
      rw [List.cons_append, keptLog, keptLog, ih]
      split_ifs <;> rfl

theorem fresh_append (g : CommandGuard) (first second : List GuardEvent) :
    g.fresh (first ++ second) =
      g.fresh first ++ (link.run g first).fresh second := by
  induction first generalizing g with
  | nil => rfl
  | cons e events ih =>
      rw [List.cons_append, fresh, fresh, ih]
      split_ifs <;> rfl

theorem ReplayFree.fresh_eq {t : ℤ} (hfree : ReplayFree g t events) :
    g.fresh events = events ∧ g.keptLog events = g.log events := by
  induction events generalizing g t with
  | nil => exact ⟨rfl, rfl⟩
  | cons e events ih =>
      obtain ⟨hfresh, hkept⟩ : (g.process e).2.fresh events = events ∧
          (g.process e).2.keptLog events = (g.process e).2.log events :=
        ih hfree.2
      have hnot : g.isReplay e = false := hfree.1
      rw [fresh, keptLog, hnot, if_neg (by simp), if_neg (by simp), hkept, log]
      exact ⟨congrArg _ hfresh, rfl⟩

theorem inFallback_of_log_eq (hlog : g.log events = f.log events)
    (hsame : g.inFallback = f.inFallback) :
    (link.run g events).inFallback = (link.run f events).inFallback := by
  induction events generalizing g f with
  | nil => exact hsame
  | cons e events ih =>
      simp only [log, List.cons.injEq, Prod.mk.injEq, true_and] at hlog
      exact ih hlog.2 hlog.1.2

/-- Calls that bring one of two guards into fallback and not the other. -/
def Separates (g f : CommandGuard) (t : ℤ) (events : List GuardEvent) : Prop :=
  link.Clocked g t events ∧ ReplayFree g t events ∧
    (link.run g events).inFallback ≠ (link.run f events).inFallback

theorem process_rejected {parsed : ParsedCommand}
    (hbad : parsed.isActionable = false) (g : CommandGuard) (nowMs : ℤ) :
    g.process ⟨.onCommand parsed, nowMs⟩ = g.onCommand parsed nowMs := by
  simp [process, answer, hbad]

def rejection (nowMs : ℤ) : GuardEvent :=
  ⟨.onCommand { status := .malformedJson }, nowMs⟩

def goodCommand (seq nowMs : ℤ) : GuardEvent :=
  ⟨.onCommand { status := .ok, sequenceNumber := seq }, nowMs⟩

/-- `n` payloads that fail the parser. -/
def rejections (n : ℕ) (nowMs : ℤ) : List GuardEvent :=
  List.replicate n (rejection nowMs)

/-- `n` good commands with the sequence numbers after `seq`. -/
def goodCommands : ℕ → ℤ → ℤ → List GuardEvent
  | 0, _, _ => []
  | n + 1, seq, nowMs =>
      goodCommand (seq + 1) nowMs :: goodCommands n (seq + 1) nowMs

theorem clocked_rejections (g : CommandGuard) (n : ℕ) (nowMs : ℤ) :
    link.Clocked g nowMs (rejections n nowMs) ∧
      g.ReplayFree nowMs (rejections n nowMs) := by
  induction n generalizing g with
  | zero => exact ⟨trivial, trivial⟩
  | succ n ih =>
      obtain ⟨hclock, hfree⟩ := ih (link.step g (rejection nowMs))
      exact ⟨⟨le_refl nowMs, hclock⟩, rfl, hfree⟩

/-- What `n` rejections in a row do to a guard. -/
structure Refused (g : CommandGuard) (n : ℕ) (g' : CommandGuard) : Prop where
  cfg : g'.cfg = g.cfg
  lastValidMs : g'.lastValidMs = g.lastValidMs
  consecutiveFailures : g'.consecutiveFailures = g.consecutiveFailures + n
  inFallback : g'.inFallback = true ↔
    g.inFallback = true ∨ g.cfg.failureThreshold ≤ g.consecutiveFailures + n

def IsRejected (e : GuardEvent) : Prop :=
  ∃ parsed : ParsedCommand,
    parsed.isActionable = false ∧ e.call = .onCommand parsed

theorem process_refused (g : CommandGuard) {e : GuardEvent}
    (hbad : IsRejected e) : Refused g 1 (g.process e).2 := by
  obtain ⟨call, nowMs⟩ := e
  obtain ⟨parsed, hreject, hcall⟩ := hbad
  simp only at hcall
  rw [hcall, process_rejected hreject, onCommand, if_neg (by simp [hreject])]
  dsimp only
  split_ifs with henters
  · exact ⟨rfl, rfl, rfl, by simp [henters.2]⟩
  · refine ⟨rfl, rfl, rfl, Iff.symm (or_iff_left_of_imp fun hreach => ?_)⟩
    by_contra hhealthy
    exact henters ⟨hhealthy, hreach⟩

theorem run_refused {g : CommandGuard} {events : List GuardEvent}
    (hbad : ∀ e ∈ events, IsRejected e)
    (hbelow : g.inFallback = false →
      g.consecutiveFailures < g.cfg.failureThreshold) :
    Refused g events.length (link.run g events) := by
  induction events generalizing g with
  | nil =>
      refine ⟨rfl, rfl, by simp, Iff.symm (or_iff_left_of_imp fun hreach => ?_)⟩
      simp only [List.length_nil, Nat.cast_zero, add_zero] at hreach
      by_contra hhealthy
      have hshort := hbelow (by simpa using hhealthy)
      omega
  | cons e events ih =>
      have hfirst := process_refused g (hbad e (List.mem_cons_self ..))
      have hbelow' : (g.process e).2.inFallback = false →
          (g.process e).2.consecutiveFailures <
            (g.process e).2.cfg.failureThreshold := by
        intro hhealthy
        by_contra hreach
        rw [hfirst.cfg, hfirst.consecutiveFailures, not_lt] at hreach
        have hmode := hfirst.inFallback.mpr (Or.inr hreach)
        rw [hhealthy] at hmode
        contradiction
      obtain ⟨hcfg, hheard, hfailures, hmode⟩ :=
        ih (fun e' he' => hbad e' (List.mem_cons_of_mem e he')) hbelow'
      refine ⟨hcfg.trans hfirst.cfg, hheard.trans hfirst.lastValidMs, ?_, ?_⟩
      · rw [link.run_cons, List.length_cons]
        refine hfailures.trans ?_
        rw [hfirst.consecutiveFailures]
        push_cast
        ring
      · refine hmode.trans ?_
        rw [hfirst.inFallback, hfirst.cfg, hfirst.consecutiveFailures,
          List.length_cons]
        push_cast
        constructor
        · rintro ((hbefore | hreach) | hreach)
          · exact Or.inl hbefore
          · right
            omega
          · right
            omega
        · rintro (hbefore | hreach)
          · exact Or.inl (Or.inl hbefore)
          · right
            omega

theorem run_rejections {g : CommandGuard} (n : ℕ) (nowMs : ℤ)
    (hhealthy : g.inFallback = false)
    (hbelow : g.consecutiveFailures < g.cfg.failureThreshold) :
    (link.run g (rejections n nowMs)).inFallback =
      decide (g.cfg.failureThreshold ≤ g.consecutiveFailures + n) := by
  have hbad : ∀ e ∈ rejections n nowMs, IsRejected e := by
    intro e he
    rw [List.eq_of_mem_replicate he]
    exact ⟨_, rfl, rfl⟩
  have hmode := (run_refused hbad fun _ => hbelow).inFallback
  rw [Bool.eq_iff_iff, hmode]
  simp [hhealthy, rejections]

theorem process_good (g : CommandGuard) (nowMs : ℤ) :
    g.process (goodCommand (g.lastAppliedSeq + 1) nowMs) =
      if g.inFallback = true ∧ g.cfg.recoveryStreak ≤ g.consecutiveOk + 1 then
        (.exitFallback, { g with
          lastValidMs := nowMs
          consecutiveFailures := 0
          consecutiveOk := 0
          inFallback := false
          lastAppliedSeq := g.lastAppliedSeq + 1 })
      else
        (.none, { g with
          lastValidMs := nowMs
          consecutiveFailures := 0
          consecutiveOk := g.consecutiveOk + 1
          lastAppliedSeq := g.lastAppliedSeq + 1 }) := by
  simp only [process, goodCommand, answer, onCommand,
    ParsedCommand.isActionable, acceptSequence, decide_true, if_true]
  split_ifs with hexit hseq hseq
  · simp at hseq
  · rfl
  · simp at hseq
  · rfl

theorem clocked_goodCommands (g : CommandGuard) (n : ℕ) (nowMs : ℤ) :
    link.Clocked g nowMs (goodCommands n g.lastAppliedSeq nowMs) ∧
      g.ReplayFree nowMs (goodCommands n g.lastAppliedSeq nowMs) := by
  induction n generalizing g with
  | zero => exact ⟨trivial, trivial⟩
  | succ n ih =>
      have hnext :=
        ih (g.process (goodCommand (g.lastAppliedSeq + 1) nowMs)).2
      have hseq : (g.process (goodCommand (g.lastAppliedSeq + 1)
          nowMs)).2.lastAppliedSeq = g.lastAppliedSeq + 1 := by
        rw [process_good]
        split_ifs <;> rfl
      rw [hseq] at hnext
      exact ⟨⟨le_refl nowMs, hnext.1⟩, by simp [isReplay, goodCommand], hnext.2⟩

theorem run_goodCommands_of_healthy {g : CommandGuard} (n : ℕ) (nowMs : ℤ)
    (hhealthy : g.inFallback = false) :
    (link.run g (goodCommands n g.lastAppliedSeq nowMs)).inFallback =
      false := by
  induction n generalizing g with
  | zero => exact hhealthy
  | succ n ih =>
      show (link.run (g.process _).2 (goodCommands n _ nowMs)).inFallback = _
      rw [process_good, if_neg (by simp [hhealthy])]
      exact ih hhealthy

theorem run_goodCommands {g : CommandGuard} (n : ℕ) (nowMs : ℤ)
    (hfallback : g.inFallback = true)
    (hbelow : g.consecutiveOk < g.cfg.recoveryStreak) :
    (link.run g (goodCommands n g.lastAppliedSeq nowMs)).inFallback =
      decide (g.consecutiveOk + n < g.cfg.recoveryStreak) := by
  induction n generalizing g with
  | zero => simpa [goodCommands, hfallback] using hbelow
  | succ n ih =>
      show (link.run (g.process _).2 (goodCommands n _ nowMs)).inFallback = _
      rw [process_good]
      by_cases hexit : g.cfg.recoveryStreak ≤ g.consecutiveOk + 1
      · rw [if_pos ⟨hfallback, hexit⟩, run_goodCommands_of_healthy n nowMs rfl]
        have hnot : ¬ g.consecutiveOk + (n + 1 : ℕ) < g.cfg.recoveryStreak := by
          push_cast
          omega
        rw [decide_eq_false hnot]
      · have hbelow' : g.consecutiveOk + 1 < g.cfg.recoveryStreak :=
          not_le.mp hexit
        rw [if_neg (fun h => hexit h.2)]
        refine (ih ?_ ?_).trans ?_
        · exact hfallback
        · exact hbelow'
        · push_cast
          rw [add_assoc, add_comm (1 : ℤ)]

theorem acceptSequence_eq (g : CommandGuard) (parsed : ParsedCommand) :
    ∃ seq total, (g.acceptSequence parsed).2 =
      { g with lastAppliedSeq := seq, totalRejected := total } := by
  unfold acceptSequence
  split_ifs
  · exact ⟨_, _, rfl⟩
  · exact ⟨_, _, rfl⟩

theorem process_eq (g : CommandGuard) (e : GuardEvent) :
    ∃ seq total, (g.process e).2 =
      { (g.answer e).2 with
        lastAppliedSeq := seq
        totalRejected := total } := by
  obtain ⟨call, nowMs⟩ := e
  cases call with
  | onCommand parsed =>
      by_cases hok : parsed.isActionable = true
      · simp only [process, answer, if_pos hok]
        exact acceptSequence_eq _ parsed
      · simp only [process, answer, if_neg hok]
        exact ⟨_, _, rfl⟩
  | tick => exact ⟨_, _, rfl⟩
  | arm => exact ⟨_, _, rfl⟩

/-- What a guard that was fed positive, non-decreasing instants up to `now`
looks like. -/
structure Sane (cfg : GuardConfig) (g : CommandGuard) (now : ℤ) : Prop where
  cfg_eq : g.cfg = cfg
  now_pos : 0 < now
  heard_nonneg : 0 ≤ g.lastValidMs
  heard_le : g.lastValidMs ≤ now
  failures_nonneg : 0 ≤ g.consecutiveFailures
  healthy : g.inFallback = false →
    g.consecutiveFailures < cfg.failureThreshold
  fallback : g.inFallback = true → g.consecutiveOk < cfg.recoveryStreak

variable {cfg : GuardConfig} {now : ℤ}

theorem Sane.answer (hfailure : 1 ≤ cfg.failureThreshold)
    (hrecovery : 1 ≤ cfg.recoveryStreak) (hsane : Sane cfg g now)
    (hclock : now ≤ e.nowMs) : Sane cfg (g.answer e).2 e.nowMs := by
  obtain ⟨hcfg, hpos, hnonneg, hle, hfailures, hhealthy, hfallback⟩ := hsane
  have hmove := answer_move g e
  generalize g.answer e = result at hmove
  obtain ⟨d, g'⟩ := result
  subst hcfg
  have hheard : g.lastValidMs ≤ e.nowMs := hle.trans hclock
  have hnow : 0 < e.nowMs := by omega
  cases hmove with
  | recover _ _ _ _ =>
      refine ⟨rfl, hnow, hnow.le, le_refl _, le_refl _, fun _ => ?_, by simp⟩
      show (0 : ℤ) < g.cfg.failureThreshold
      omega
  | trust _ _ hstay =>
      refine ⟨rfl, hnow, hnow.le, le_refl _, le_refl _, fun _ => ?_, hstay⟩
      show (0 : ℤ) < g.cfg.failureThreshold
      omega
  | giveUp _ _ _ _ =>
      refine ⟨rfl, hnow, hnonneg, hheard, ?_, by simp, fun _ => ?_⟩
      · show 0 ≤ g.consecutiveFailures + 1
        omega
      · show (0 : ℤ) < g.cfg.recoveryStreak
        omega
  | count _ _ hstay =>
      refine ⟨rfl, hnow, hnonneg, hheard, ?_, hstay, fun _ => ?_⟩
      · show 0 ≤ g.consecutiveFailures + 1
        omega
      · show (0 : ℤ) < g.cfg.recoveryStreak
        omega
  | timeOut _ _ _ _ =>
      refine ⟨rfl, hnow, hnonneg, hheard, hfailures, by simp, fun _ => ?_⟩
      show (0 : ℤ) < g.cfg.recoveryStreak
      omega
  | wait _ _ => exact ⟨rfl, hnow, hnonneg, hheard, hfailures, hhealthy, hfallback⟩
  | arm _ =>
      exact ⟨rfl, hnow, hnow.le, le_refl _, hfailures, hhealthy, hfallback⟩

theorem Sane.process (hfailure : 1 ≤ cfg.failureThreshold)
    (hrecovery : 1 ≤ cfg.recoveryStreak) (hsane : Sane cfg g now)
    (hclock : now ≤ e.nowMs) : Sane cfg (g.process e).2 e.nowMs := by
  obtain ⟨hcfg, hpos, hnonneg, hle, hfailures, hhealthy, hfallback⟩ :=
    hsane.answer hfailure hrecovery hclock
  obtain ⟨seq, total, hprocess⟩ := process_eq g e
  rw [hprocess]
  exact ⟨hcfg, hpos, hnonneg, hle, hfailures, hhealthy, hfallback⟩

theorem run_sane (hfailure : 1 ≤ cfg.failureThreshold)
    (hrecovery : 1 ≤ cfg.recoveryStreak) (hsane : Sane cfg g now)
    (hclock : link.Clocked g now events) :
    Sane cfg (link.run g events) (link.endTime now events) :=
  Machine.Admits.invariant (I := Sane cfg)
    (fun _ _ _ hs hle => hs.process hfailure hrecovery hle) hclock hsane

/-- The effect of a replay that is not itself answered by a decision. -/
structure Replayed (g : CommandGuard) (nowMs : ℤ) (g' : CommandGuard) :
    Prop where
  cfg : g'.cfg = g.cfg
  lastValidMs : g'.lastValidMs = nowMs
  consecutiveFailures : g'.consecutiveFailures = 0
  consecutiveOk : g'.consecutiveOk = g.consecutiveOk + 1
  inFallback : g'.inFallback = g.inFallback
  lastAppliedSeq : g'.lastAppliedSeq = g.lastAppliedSeq
  still : g.inFallback = true →
    g.consecutiveOk + 1 < g.cfg.recoveryStreak

theorem process_replayed (hreplay : g.isReplay e = true)
    (hnone : (g.process e).1 = .none) :
    Replayed g e.nowMs (g.process e).2 := by
  obtain ⟨parsed, he, hok, hseq⟩ := eq_onCommand_of_isReplay hreplay
  rw [he] at hnone ⊢
  simp only [CommandGuard.process, CommandGuard.answer, onCommand, hok,
    if_true, acceptSequence] at hnone ⊢
  by_cases hexit : g.inFallback = true ∧
      g.cfg.recoveryStreak ≤ g.consecutiveOk + 1
  · rw [if_pos hexit] at hnone
    contradiction
  · rw [if_neg hexit, if_pos hseq]
    exact ⟨rfl, rfl, rfl, rfl, rfl, rfl,
      fun hfallback => not_le.mp fun hle => hexit ⟨hfallback, hle⟩⟩

/-- One good command more has been counted: the streak ends too early. -/
theorem Replayed.separates_fallback {g' : CommandGuard} {nowMs : ℤ}
    (hreplayed : Replayed g nowMs g') (hagree : Agree g f)
    (hmode : g.inFallback = true) :
    ∃ after, Separates g' f nowMs after := by
  have hok := hagree.consecutiveOk hmode
  have hshort := hreplayed.still hmode
  obtain ⟨n, hn⟩ := Int.eq_ofNat_of_zero_le
    (show 0 ≤ g.cfg.recoveryStreak - (g.consecutiveOk + 1) by omega)
  obtain ⟨hclock, hfree⟩ := clocked_goodCommands g' n nowMs
  refine ⟨goodCommands n g'.lastAppliedSeq nowMs, hclock, hfree, ?_⟩
  have hleft := run_goodCommands n nowMs
    (hreplayed.inFallback.trans hmode)
    (by rw [hreplayed.cfg, hreplayed.consecutiveOk]; exact hshort)
  have hright := run_goodCommands n nowMs
    (hagree.inFallback.symm.trans hmode)
    (by rw [← hagree.cfg, ← hok]; omega)
  rw [hreplayed.cfg, hreplayed.consecutiveOk] at hleft
  rw [← hagree.cfg, ← hok, ← hagree.lastAppliedSeq,
    ← hreplayed.lastAppliedSeq] at hright
  rw [hleft, hright, decide_eq_false (by omega), decide_eq_true (by omega)]
  simp

/-- The rejections before the replay are forgotten. -/
theorem Replayed.separates_failures {g' : CommandGuard} {nowMs : ℤ}
    (hreplayed : Replayed g nowMs g') (hagree : Agree g f)
    (hmode : g.inFallback = false) (hpos : 0 < g.consecutiveFailures)
    (hbelow : g.consecutiveFailures < g.cfg.failureThreshold) :
    ∃ after, Separates g' f nowMs after := by
  obtain ⟨n, hn⟩ := Int.eq_ofNat_of_zero_le
    (show 0 ≤ g.cfg.failureThreshold - g.consecutiveFailures by omega)
  obtain ⟨hclock, hfree⟩ := clocked_rejections g' n nowMs
  refine ⟨rejections n nowMs, hclock, hfree, ?_⟩
  have hleft := run_rejections n nowMs
    (hreplayed.inFallback.trans hmode)
    (by rw [hreplayed.cfg, hreplayed.consecutiveFailures]; omega)
  have hright := run_rejections n nowMs
    (hagree.inFallback.symm.trans hmode)
    (by rw [← hagree.cfg, ← hagree.consecutiveFailures]; exact hbelow)
  rw [hreplayed.cfg, hreplayed.consecutiveFailures] at hleft
  rw [← hagree.cfg, ← hagree.consecutiveFailures] at hright
  rw [hleft, hright, decide_eq_false (by omega), decide_eq_true (by omega)]
  simp

theorem run_tick {g : CommandGuard} (nowMs : ℤ)
    (hmode : g.inFallback = false) :
    (link.run g [⟨.tick, nowMs⟩]).inFallback =
      decide (g.lastValidMs ≠ 0 ∧
        g.cfg.silenceTimeoutMs < nowMs - g.lastValidMs) := by
  show (g.tick nowMs).2.inFallback = _
  unfold CommandGuard.tick
  rw [hmode, if_neg (by simp)]
  split_ifs with hunarmed hsilent
  · simp [hmode, hunarmed]
  · simp [hunarmed, hsilent]
  · simp [hmode, hsilent]

/-- The timeout counts from the replay on. -/
theorem Replayed.separates_silence {g' : CommandGuard} {nowMs : ℤ}
    (hreplayed : Replayed g nowMs g') (hagree : Agree g f)
    (hmode : g.inFallback = false)
    (hsilence : 0 ≤ g.cfg.silenceTimeoutMs) (hpos : 0 < nowMs)
    (hheard : g.lastValidMs < nowMs) :
    ∃ after, Separates g' f nowMs after := by
  obtain ⟨instant, hinstant⟩ : ∃ instant : ℤ, instant = nowMs +
      g.cfg.silenceTimeoutMs + (if g.lastValidMs = 0 then 1 else 0) :=
    ⟨_, rfl⟩
  have hlater : nowMs ≤ instant := by
    split_ifs at hinstant <;> omega
  refine ⟨[⟨.tick, instant⟩], ⟨hlater, trivial⟩, ⟨rfl, trivial⟩, ?_⟩
  have hleft := run_tick instant (hreplayed.inFallback.trans hmode)
  have hright := run_tick instant (hagree.inFallback.symm.trans hmode)
  rw [hreplayed.cfg, hreplayed.lastValidMs] at hleft
  rw [← hagree.cfg, ← hagree.lastValidMs] at hright
  rw [hleft, hright]
  by_cases hunarmed : g.lastValidMs = 0
  · rw [if_pos hunarmed] at hinstant
    rw [decide_eq_true (by omega), decide_eq_false (by omega)]
    simp
  · rw [if_neg hunarmed] at hinstant
    rw [decide_eq_false (by omega), decide_eq_true (by omega)]
    simp

/-- A replay that is not quiet can be told from its absence by calls that are
not replays. -/
theorem separates_of_not_quiet (hsilence : 0 ≤ cfg.silenceTimeoutMs)
    (hsane : Sane cfg g now) (hclock : now ≤ e.nowMs) (hagree : Agree g f)
    (hreplay : g.isReplay e = true) (hnone : (g.process e).1 = .none)
    (hquiet : ¬ g.Quiet e) :
    ∃ after, Separates (g.process e).2 f e.nowMs after := by
  have hreplayed := process_replayed hreplay hnone
  obtain ⟨hcfg, hpos, hnonneg, hle, hfailures, hhealthy, _⟩ := hsane
  subst hcfg
  cases hmode : g.inFallback with
  | true => exact hreplayed.separates_fallback hagree hmode
  | false =>
      by_cases hzero : g.consecutiveFailures = 0
      · have hheard : g.lastValidMs ≠ e.nowMs := fun hheard =>
          hquiet ⟨hmode, hzero, hheard⟩
        exact hreplayed.separates_silence hagree hmode hsilence (by omega)
          (by omega)
      · exact hreplayed.separates_failures hagree hmode (by omega)
          (hhealthy hmode)

/-! ## When replays buy no trust -/

/-- At no point of the stream can the replays so far be noticed, whatever
comes next that is not a replay. -/
def Harmless (g : CommandGuard) (t : ℤ) (events : List GuardEvent) : Prop :=
  ∀ (before rest after : List GuardEvent), events = before ++ rest →
    link.Clocked (link.run g before) (link.endTime t before) after →
      ReplayFree (link.run g before) (link.endTime t before) after →
        g.Unaffected (before ++ after)

theorem AllQuiet.harmless {t : ℤ} (hquiet : AllQuiet g t events) :
    g.Harmless t events := by
  rintro before rest after rfl _ hfree
  obtain ⟨hbefore, _⟩ := link.admits_append.mp hquiet
  have hboth : AllQuiet g t (before ++ after) :=
    link.admits_append.mpr ⟨hbefore, hfree.allQuiet⟩
  exact hboth.unaffected

theorem not_unaffected_of_separates {before after : List GuardEvent} {t : ℤ}
    (hquiet : AllQuiet g t before)
    (hreplay : (link.run g before).isReplay e = true)
    (hnone : ((link.run g before).process e).1 = .none)
    (hseparates : Separates ((link.run g before).process e).2
      (link.run g (g.fresh before)) e.nowMs after) :
    ¬ g.Unaffected (before ++ e :: after) := by
  rintro ⟨hkept, _⟩
  obtain ⟨hsame, hagree⟩ := hquiet.agree (Agree.refl g)
  obtain ⟨_, hfree, hdiffer⟩ := hseparates
  obtain ⟨hfresh, hlog⟩ := hfree.fresh_eq
  rw [keptLog_append, fresh_append, log_append, hsame, keptLog, fresh,
    if_pos hreplay, if_pos hreplay, hfresh, hlog] at hkept
  have hmode : ((link.run g before).process e).2.inFallback =
      (link.run g (g.fresh before)).inFallback :=
    (process_replayed hreplay hnone).inFallback.trans hagree.inFallback
  exact hdiffer
    (inFallback_of_log_eq (List.append_cancel_left hkept) hmode)

theorem Harmless.allQuiet (hfailure : 1 ≤ cfg.failureThreshold)
    (hrecovery : 1 ≤ cfg.recoveryStreak)
    (hsilence : 0 ≤ cfg.silenceTimeoutMs) (hsane : Sane cfg g now)
    (hclock : link.Clocked g now events) (hharmless : g.Harmless now events) :
    AllQuiet g now events := by
  induction events using List.reverseRecOn with
  | nil => trivial
  | append_singleton before e ih =>
      obtain ⟨hbefore, hlast, _⟩ := link.admits_append.mp hclock
      have hquiet : AllQuiet g now before := by
        refine ih hbefore ?_
        rintro first rest after rfl
        exact hharmless first (rest ++ [e]) after (by simp)
      refine link.admits_append.mpr ⟨hquiet, ?_, trivial⟩
      intro hreplay
      by_contra hnot
      have hunaffected := hharmless (before ++ [e]) [] [] (by simp) trivial
        trivial
      rw [List.append_nil] at hunaffected
      obtain ⟨_, hnone, _⟩ := link.admits_append.mp hunaffected.silent
      obtain ⟨_, hagree⟩ := hquiet.agree (Agree.refl g)
      obtain ⟨after, hseparates⟩ := separates_of_not_quiet hsilence
        (run_sane hfailure hrecovery hsane hbefore) hlast hagree hreplay
        (hnone hreplay) hnot
      refine not_unaffected_of_separates hquiet hreplay (hnone hreplay)
        hseparates ?_
      have hend : link.endTime now (before ++ [e]) = e.nowMs := by
        simp [Machine.endTime, link]
      rw [List.append_cons]
      refine hharmless (before ++ [e]) [] after (by simp) ?_ ?_
      · rw [link.run_append, hend]
        exact hseparates.1
      · rw [link.run_append, hend]
        exact hseparates.2.1

/-- Deleting the replays changes nothing, now or later, exactly when every
replay is quiet. -/
theorem replays_harmless_iff (cfg : GuardConfig)
    (hfailure : 1 ≤ cfg.failureThreshold)
    (hrecovery : 1 ≤ cfg.recoveryStreak)
    (hsilence : 0 ≤ cfg.silenceTimeoutMs) (start : ℤ) (hstart : 0 < start)
    (events : List GuardEvent)
    (hclock : link.Clocked { cfg := cfg } start events) :
    CommandGuard.Harmless { cfg := cfg } start events ↔
      AllQuiet { cfg := cfg } start events := by
  have hsane : Sane cfg { cfg := cfg } start := by
    refine ⟨rfl, hstart, le_refl _, hstart.le, le_refl _, fun _ => ?_, by simp⟩
    show (0 : ℤ) < cfg.failureThreshold
    omega
  exact ⟨fun hharmless =>
    hharmless.allQuiet hfailure hrecovery hsilence hsane hclock,
    AllQuiet.harmless⟩

/-- A command, its replay in the same batch, and a second command. -/
def burst : List GuardEvent :=
  [⟨.arm, 1⟩, goodCommand 5 1000, goodCommand 5 1000, goodCommand 6 2000,
    ⟨.tick, 2000⟩]

theorem replays_harmless_iff_burst :
    CommandGuard.Harmless { cfg := {} } 1 burst ↔
      AllQuiet { cfg := {} } 1 burst :=
  replays_harmless_iff {} (by decide) (by decide) (by decide) 1 (by decide)
    burst (by decide)

/-- One command, and its replay just before the silence timeout. -/
def replayedAlive : List GuardEvent :=
  [goodCommand 5 1000, goodCommand 5 11000, ⟨.tick, 11001⟩]

theorem unaffected_broken_by_replay :
    ¬ ∀ (cfg : GuardConfig) (events : List GuardEvent),
      1 ≤ cfg.failureThreshold → 1 ≤ cfg.recoveryStreak →
        0 ≤ cfg.silenceTimeoutMs →
          link.Clocked { cfg := cfg } 1 events →
            CommandGuard.Unaffected { cfg := cfg } events := by
  intro hall
  have hkept := (hall {} replayedAlive (by decide) (by decide) (by decide)
    (by decide)).kept
  exact absurd hkept (by decide)

end CommandGuard

end Semaforo
