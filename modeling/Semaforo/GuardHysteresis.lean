import Semaforo.Commands
import Semaforo.TimedRun
import Mathlib.Data.List.DropRight
import Mathlib.Tactic

/-!
# The hysteresis of the command guard

The guard keeps two counters, an instant and a flag.  Here its decisions are
compared with a specification that mentions none of them: it counts
observations in the list of past calls and looks up the calls at which the
guard was last heard of.
-/

namespace Semaforo

inductive GuardCall where
  | onCommand (parsed : ParsedCommand)
  | tick
  | arm
  deriving DecidableEq, Repr

structure GuardEvent where
  call : GuardCall
  nowMs : ℤ
  deriving DecidableEq, Repr

namespace GuardEvent

/-- The observation that a call makes: accepted or rejected. -/
def observation (e : GuardEvent) : Option Bool :=
  match e.call with
  | .onCommand parsed => some parsed.isActionable
  | .tick => none
  | .arm => none

/-- The call restarts the silence timeout. -/
def hears (e : GuardEvent) : Bool :=
  match e.call with
  | .onCommand parsed => parsed.isActionable
  | .tick => false
  | .arm => true

end GuardEvent

/-! ## The specification -/

/-- The length of the unbroken series of observations `outcome` that ends the
calls. -/
def trailing (outcome : Bool) (events : List GuardEvent) : ℕ :=
  ((events.filterMap GuardEvent.observation).rtakeWhile (· = outcome)).length

/-- The instant of the latest accepted observation or arming. -/
def heardMs (events : List GuardEvent) : Option ℤ :=
  (events.filter GuardEvent.hears).getLast?.map GuardEvent.nowMs

/-- The calls after the last decision to enter the fallback. -/
def sinceEnter (history : List (GuardEvent × GuardDecision)) :
    List GuardEvent :=
  (history.rtakeWhile (·.2 ≠ .enterFallback)).map Prod.fst

/-- Entering and leaving take turns, entering first when the guard is
healthy. -/
def Alternate : Bool → List GuardDecision → Prop
  | _, [] => True
  | inFallback, d :: ds =>
      d = (if inFallback then .exitFallback else .enterFallback) ∧
        Alternate (!inFallback) ds

theorem trailing_concat (outcome : Bool) (events : List GuardEvent)
    (e : GuardEvent) :
    trailing outcome (events ++ [e]) =
      match e.observation with
      | none => trailing outcome events
      | some o => if o = outcome then trailing outcome events + 1 else 0 := by
  unfold trailing
  rw [List.filterMap_append]
  cases hobs : e.observation with
  | none => simp [hobs]
  | some o =>
      simp only [List.filterMap_cons, hobs, List.filterMap_nil,
        List.rtakeWhile_concat, decide_eq_true_eq]
      split_ifs
      · simp
      · rfl

theorem trailing_same {outcome : Bool} {e : GuardEvent}
    (hobs : e.observation = some outcome) (events : List GuardEvent) :
    trailing outcome (events ++ [e]) = trailing outcome events + 1 := by
  rw [trailing_concat, hobs]
  exact if_pos rfl

theorem trailing_other {o outcome : Bool} {e : GuardEvent}
    (hobs : e.observation = some o) (hne : o ≠ outcome)
    (events : List GuardEvent) : trailing outcome (events ++ [e]) = 0 := by
  rw [trailing_concat, hobs]
  exact if_neg hne

theorem trailing_silent {e : GuardEvent} (hobs : e.observation = none)
    (outcome : Bool) (events : List GuardEvent) :
    trailing outcome (events ++ [e]) = trailing outcome events := by
  rw [trailing_concat, hobs]

theorem heardMs_concat (events : List GuardEvent) (e : GuardEvent) :
    heardMs (events ++ [e]) =
      if e.hears then some e.nowMs else heardMs events := by
  unfold heardMs
  rw [List.filter_append]
  cases hhears : e.hears <;> simp [hhears]

theorem sinceEnter_concat (history : List (GuardEvent × GuardDecision))
    (e : GuardEvent) (d : GuardDecision) :
    sinceEnter (history ++ [(e, d)]) =
      if d = .enterFallback then [] else sinceEnter history ++ [e] := by
  unfold sinceEnter
  rw [List.rtakeWhile_concat]
  by_cases henter : d = .enterFallback
  · simp [henter]
  · simp [henter]

theorem heardMs_pos {events : List GuardEvent}
    (hpos : ∀ e ∈ events, 0 < e.nowMs) {last : ℤ}
    (hlast : heardMs events = some last) : 0 < last := by
  unfold heardMs at hlast
  obtain ⟨e, hmem, rfl⟩ := Option.map_eq_some_iff.mp hlast
  have hfilter := List.mem_of_getLast? hmem
  exact hpos e (List.mem_filter.mp hfilter).1

namespace CommandGuard

def answer (g : CommandGuard) (e : GuardEvent) : GuardDecision × CommandGuard :=
  match e.call with
  | .onCommand parsed => g.onCommand parsed e.nowMs
  | .tick => g.tick e.nowMs
  | .arm => (.none, g.arm e.nowMs)

def machine : Machine CommandGuard GuardEvent ℤ where
  step g e := (g.answer e).2
  time := GuardEvent.nowMs

/-- The calls with the decisions they return. -/
def history (g : CommandGuard) : List GuardEvent →
    List (GuardEvent × GuardDecision)
  | [] => []
  | e :: events => (e, (g.answer e).1) :: history (g.answer e).2 events

theorem history_append (g : CommandGuard) (first second : List GuardEvent) :
    g.history (first ++ second) =
      g.history first ++ (machine.run g first).history second := by
  induction first generalizing g with
  | nil => rfl
  | cons e events ih =>
      rw [List.cons_append, history, ih]
      rfl

theorem history_concat (g : CommandGuard) (events : List GuardEvent)
    (e : GuardEvent) :
    g.history (events ++ [e]) =
      g.history events ++ [(e, ((machine.run g events).answer e).1)] := by
  rw [history_append]
  rfl

/-- What one call does, by the kind of the call. -/
inductive Move (g : CommandGuard) (e : GuardEvent) :
    GuardDecision → CommandGuard → Prop where
  | recover (hobs : e.observation = some true) (hhears : e.hears = true)
      (hfallback : g.inFallback = true)
      (hstreak : g.cfg.recoveryStreak ≤ g.consecutiveOk + 1) :
      Move g e .exitFallback
        { g with
          lastValidMs := e.nowMs
          consecutiveFailures := 0
          consecutiveOk := 0
          inFallback := false }
  | trust (hobs : e.observation = some true) (hhears : e.hears = true)
      (hstay : g.inFallback = true →
        g.consecutiveOk + 1 < g.cfg.recoveryStreak) :
      Move g e .none
        { g with
          lastValidMs := e.nowMs
          consecutiveFailures := 0
          consecutiveOk := g.consecutiveOk + 1 }
  | giveUp (hobs : e.observation = some false) (hhears : e.hears = false)
      (hhealthy : g.inFallback = false)
      (hfailures : g.cfg.failureThreshold ≤ g.consecutiveFailures + 1) :
      Move g e .enterFallback
        { g with
          consecutiveOk := 0
          consecutiveFailures := g.consecutiveFailures + 1
          totalRejected := g.totalRejected + 1
          inFallback := true }
  | count (hobs : e.observation = some false) (hhears : e.hears = false)
      (hstay : g.inFallback = false →
        g.consecutiveFailures + 1 < g.cfg.failureThreshold) :
      Move g e .none
        { g with
          consecutiveOk := 0
          consecutiveFailures := g.consecutiveFailures + 1
          totalRejected := g.totalRejected + 1 }
  | timeOut (hcall : e.call = .tick) (hhealthy : g.inFallback = false)
      (harmed : g.lastValidMs ≠ 0)
      (hsilent : g.cfg.silenceTimeoutMs < e.nowMs - g.lastValidMs) :
      Move g e .enterFallback { g with inFallback := true, consecutiveOk := 0 }
  | wait (hcall : e.call = .tick)
      (hstay : g.inFallback = false → g.lastValidMs ≠ 0 →
        ¬ g.cfg.silenceTimeoutMs < e.nowMs - g.lastValidMs) :
      Move g e .none g
  | arm (hcall : e.call = .arm) :
      Move g e .none { g with lastValidMs := e.nowMs }

theorem answer_move (g : CommandGuard) (e : GuardEvent) :
    Move g e (g.answer e).1 (g.answer e).2 := by
  obtain ⟨call, nowMs⟩ := e
  cases call with
  | onCommand parsed =>
      simp only [answer, onCommand]
      by_cases hok : parsed.isActionable = true
      · have hobs : GuardEvent.observation ⟨.onCommand parsed, nowMs⟩ =
            some true := congrArg some hok
        rw [if_pos hok]
        split_ifs with hexit
        · exact .recover hobs hok hexit.1 hexit.2
        · exact .trust hobs hok fun hfallback =>
            not_le.mp fun hstreak => hexit ⟨hfallback, hstreak⟩
      · have hbad : parsed.isActionable = false := by simpa using hok
        have hobs : GuardEvent.observation ⟨.onCommand parsed, nowMs⟩ =
            some false := congrArg some hbad
        rw [if_neg hok]
        split_ifs with henter
        · exact .giveUp hobs hbad (by simpa using henter.1) henter.2
        · exact .count hobs hbad fun hhealthy =>
            not_le.mp fun hfailures => henter ⟨by simp [hhealthy], hfailures⟩
  | tick =>
      simp only [answer, tick]
      split_ifs with hfallback hunarmed hsilent
      · exact .wait rfl fun hhealthy => by simp [hfallback] at hhealthy
      · exact .wait rfl fun _ harmed => absurd hunarmed harmed
      · exact .timeOut rfl (by simpa using hfallback) hunarmed hsilent
      · exact .wait rfl fun _ _ => hsilent
  | arm => exact .arm rfl

/-! ## The guard against the specification -/

/-- What the fields of the guard have to do with the calls so far. -/
structure Tracks (cfg : GuardConfig) (events : List GuardEvent)
    (history : List (GuardEvent × GuardDecision)) (g : CommandGuard) :
    Prop where
  cfg_eq : g.cfg = cfg
  heard : g.lastValidMs = (heardMs events).getD 0
  failures : g.consecutiveFailures = trailing false events
  healthy : g.inFallback = false →
    g.consecutiveFailures < cfg.failureThreshold
  streak : g.inFallback = true →
    g.consecutiveOk = trailing true (sinceEnter history)
  short : g.inFallback = true → g.consecutiveOk < cfg.recoveryStreak
  entered : g.inFallback = true →
    .enterFallback ∈ history.map Prod.snd

/-- The call is an accepted observation and the `recovery_streak`-th of an
unbroken series after the last decision to enter the fallback. -/
def CompletesStreak (cfg : GuardConfig)
    (history : List (GuardEvent × GuardDecision)) (e : GuardEvent) : Prop :=
  .enterFallback ∈ history.map Prod.snd ∧ e.observation = some true ∧
    (trailing true (sinceEnter history ++ [e]) : ℤ) = cfg.recoveryStreak

/-- The answer to the call `e` after `events`, in terms of the past calls. -/
structure Answers (cfg : GuardConfig) (events : List GuardEvent)
    (history : List (GuardEvent × GuardDecision)) (g : CommandGuard)
    (e : GuardEvent) : Prop where
  enters_onCommand : ∀ parsed, e.call = .onCommand parsed →
    ((g.answer e).1 = .enterFallback ↔
      g.inFallback = false ∧
        (trailing false (events ++ [e]) : ℤ) = cfg.failureThreshold)
  enters_tick : e.call = .tick →
    ((g.answer e).1 = .enterFallback ↔
      g.inFallback = false ∧ ∃ last, heardMs events = some last ∧
        cfg.silenceTimeoutMs < e.nowMs - last)
  arms : e.call = .arm → (g.answer e).1 = .none
  exits : (g.answer e).1 = .exitFallback ↔
    g.inFallback = true ∧ CompletesStreak cfg history e

variable {cfg : GuardConfig} {events : List GuardEvent}
  {history : List (GuardEvent × GuardDecision)} {g g' : CommandGuard}
  {e : GuardEvent} {d : GuardDecision}

theorem observation_of_tick (hcall : e.call = .tick) :
    e.observation = none ∧ e.hears = false := by
  simp [GuardEvent.observation, GuardEvent.hears, hcall]

theorem observation_of_arm (hcall : e.call = .arm) :
    e.observation = none ∧ e.hears = true := by
  simp [GuardEvent.observation, GuardEvent.hears, hcall]

/-- A call that observes nothing and decides nothing leaves the counters. -/
theorem Tracks.silent (htracks : Tracks cfg events history g)
    (hobs : e.observation = none) {lastValidMs : ℤ}
    (hheard : lastValidMs = (heardMs (events ++ [e])).getD 0) :
    Tracks cfg (events ++ [e]) (history ++ [(e, .none)])
      { g with lastValidMs := lastValidMs } := by
  constructor
  · exact htracks.cfg_eq
  · exact hheard
  · simpa [trailing_silent hobs] using htracks.failures
  · exact htracks.healthy
  · intro hfallback
    simpa [sinceEnter_concat, trailing_silent hobs] using htracks.streak hfallback
  · exact htracks.short
  · intro hfallback
    simpa using htracks.entered hfallback

theorem Move.tracks (hfailure : 1 ≤ cfg.failureThreshold)
    (hrecovery : 1 ≤ cfg.recoveryStreak)
    (htracks : Tracks cfg events history g) (hmove : Move g e d g') :
    Tracks cfg (events ++ [e]) (history ++ [(e, d)]) g' := by
  obtain ⟨hcfg, hheard, hfailures, hhealthy, hstreak, hshort, hentered⟩ :=
    htracks
  subst hcfg
  cases hmove with
  | recover hobs hhears _ _ =>
      have hzero : trailing false (events ++ [e]) = 0 :=
        trailing_other hobs (by decide) events
      constructor
      · rfl
      · simp [heardMs_concat, hhears]
      · simp [hzero]
      · intro _
        show (0 : ℤ) < g.cfg.failureThreshold
        omega
      all_goals simp
  | trust hobs hhears hstay =>
      have hzero : trailing false (events ++ [e]) = 0 :=
        trailing_other hobs (by decide) events
      constructor
      · rfl
      · simp [heardMs_concat, hhears]
      · simp [hzero]
      · intro _
        show (0 : ℤ) < g.cfg.failureThreshold
        omega
      · intro hfallback
        have hseries := hstreak hfallback
        simp [sinceEnter_concat, trailing_same hobs, hseries]
      · exact hstay
      · intro hfallback
        simpa using hentered hfallback
  | giveUp hobs hhears _ _ =>
      constructor
      · rfl
      · simpa [heardMs_concat, hhears] using hheard
      · simp [trailing_same hobs, hfailures]
      · simp
      · intro _
        simp [sinceEnter_concat, trailing]
      · intro _
        show (0 : ℤ) < g.cfg.recoveryStreak
        omega
      · simp
  | count hobs hhears hstay =>
      constructor
      · rfl
      · simpa [heardMs_concat, hhears] using hheard
      · simp [trailing_same hobs, hfailures]
      · exact hstay
      · intro _
        have hzero : trailing true (sinceEnter history ++ [e]) = 0 :=
          trailing_other hobs (by decide) _
        simp [sinceEnter_concat, hzero]
      · intro _
        show (0 : ℤ) < g.cfg.recoveryStreak
        omega
      · intro hfallback
        simpa using hentered hfallback
  | timeOut hcall _ _ _ =>
      obtain ⟨hobs, hhears⟩ := observation_of_tick hcall
      constructor
      · rfl
      · simpa [heardMs_concat, hhears] using hheard
      · simpa [trailing_silent hobs] using hfailures
      · simp
      · intro _
        simp [sinceEnter_concat, trailing]
      · intro _
        show (0 : ℤ) < g.cfg.recoveryStreak
        omega
      · simp
  | wait hcall _ =>
      obtain ⟨hobs, hhears⟩ := observation_of_tick hcall
      refine Tracks.silent
        ⟨rfl, hheard, hfailures, hhealthy, hstreak, hshort, hentered⟩ hobs ?_
      simpa [heardMs_concat, hhears] using hheard
  | arm hcall =>
      obtain ⟨hobs, hhears⟩ := observation_of_arm hcall
      refine Tracks.silent
        ⟨rfl, hheard, hfailures, hhealthy, hstreak, hshort, hentered⟩ hobs ?_
      simp [heardMs_concat, hhears]

theorem Tracks.completes_iff (htracks : Tracks cfg events history g)
    (hfallback : g.inFallback = true) (hobs : e.observation = some true) :
    CompletesStreak cfg history e ↔
      cfg.recoveryStreak ≤ g.consecutiveOk + 1 := by
  have hshort := htracks.short hfallback
  have hseries : (trailing true (sinceEnter history ++ [e]) : ℤ) =
      g.consecutiveOk + 1 := by
    rw [trailing_same hobs, htracks.streak hfallback]
    push_cast
    rfl
  constructor
  · rintro ⟨_, _, hcount⟩
    omega
  · intro hreach
    exact ⟨htracks.entered hfallback, hobs, by omega⟩

theorem Tracks.gives_up_iff (htracks : Tracks cfg events history g)
    (hhealthy : g.inFallback = false) (hobs : e.observation = some false) :
    (trailing false (events ++ [e]) : ℤ) = cfg.failureThreshold ↔
      cfg.failureThreshold ≤ g.consecutiveFailures + 1 := by
  have hbelow := htracks.healthy hhealthy
  have hseries : (trailing false (events ++ [e]) : ℤ) =
      g.consecutiveFailures + 1 := by
    rw [trailing_same hobs, htracks.failures]
    push_cast
    rfl
  omega

theorem Tracks.silent_iff (htracks : Tracks cfg events history g)
    (hpos : ∀ last, heardMs events = some last → 0 < last) (nowMs : ℤ) :
    (∃ last, heardMs events = some last ∧
        cfg.silenceTimeoutMs < nowMs - last) ↔
      g.lastValidMs ≠ 0 ∧ cfg.silenceTimeoutMs < nowMs - g.lastValidMs := by
  have hheard := htracks.heard
  cases hlast : heardMs events with
  | none =>
      rw [hlast, Option.getD_none] at hheard
      simp [hheard]
  | some last =>
      have hlastPos := hpos last hlast
      rw [hlast, Option.getD_some] at hheard
      rw [hheard]
      constructor
      · rintro ⟨other, hother, hsilent⟩
        obtain rfl := Option.some.inj hother
        exact ⟨by omega, hsilent⟩
      · rintro ⟨_, hsilent⟩
        exact ⟨last, rfl, hsilent⟩

theorem Tracks.answers (hfailure : 1 ≤ cfg.failureThreshold)
    (hpos : ∀ last, heardMs events = some last → 0 < last)
    (htracks : Tracks cfg events history g) (e : GuardEvent) :
    Answers cfg events history g e := by
  have hcfg := htracks.cfg_eq
  have hmove := answer_move g e
  generalize hanswer : g.answer e = answer at hmove
  obtain ⟨d, g'⟩ := answer
  constructor
  · intro parsed hcall
    rw [hanswer]
    cases hmove with
    | recover hobs _ hfallback _ => simp [hfallback]
    | trust hobs _ _ =>
        have hzero : trailing false (events ++ [e]) = 0 :=
          trailing_other hobs (by decide) events
        simp only [reduceCtorEq, hzero, false_iff, not_and]
        omega
    | giveUp hobs _ hhealthy hfailures =>
        rw [hcfg] at hfailures
        simp [hhealthy, (htracks.gives_up_iff hhealthy hobs).mpr hfailures]
    | count hobs _ hstay =>
        simp only [reduceCtorEq, false_iff, not_and]
        intro hhealthy hcount
        have hbelow := hstay hhealthy
        rw [hcfg] at hbelow
        have := (htracks.gives_up_iff hhealthy hobs).mp hcount
        omega
    | timeOut htick _ _ _ => simp [htick] at hcall
    | wait htick _ => simp [htick] at hcall
    | arm harm => simp [harm] at hcall
  · intro hcall
    obtain ⟨hobs, _⟩ := observation_of_tick hcall
    rw [hanswer, htracks.silent_iff hpos]
    cases hmove with
    | recover hobs' _ _ _ => simp [hobs] at hobs'
    | trust hobs' _ _ => simp [hobs] at hobs'
    | giveUp hobs' _ _ _ => simp [hobs] at hobs'
    | count hobs' _ _ => simp [hobs] at hobs'
    | timeOut _ hhealthy harmed hsilent =>
        rw [hcfg] at hsilent
        simp [hhealthy, harmed, hsilent]
    | wait _ hstay =>
        rw [hcfg] at hstay
        simpa using hstay
    | arm harm => simp [harm] at hcall
  · intro hcall
    obtain ⟨hobs, _⟩ := observation_of_arm hcall
    simp [answer, hcall]
  · rw [hanswer]
    cases hmove with
    | recover hobs _ hfallback hstreak =>
        rw [hcfg] at hstreak
        simp [hfallback, (htracks.completes_iff hfallback hobs).mpr hstreak]
    | trust hobs _ hstay =>
        simp only [reduceCtorEq, false_iff, not_and]
        intro hfallback hcompletes
        have hbelow := hstay hfallback
        rw [hcfg] at hbelow
        have := (htracks.completes_iff hfallback hobs).mp hcompletes
        omega
    | giveUp hobs _ _ _ => simp [CompletesStreak, hobs]
    | count hobs _ _ => simp [CompletesStreak, hobs]
    | timeOut hcall _ _ _ =>
        simp [CompletesStreak, (observation_of_tick hcall).1]
    | wait hcall _ => simp [CompletesStreak, (observation_of_tick hcall).1]
    | arm hcall => simp [CompletesStreak, (observation_of_arm hcall).1]

theorem fresh_tracks (hfailure : 1 ≤ cfg.failureThreshold) :
    Tracks cfg [] [] { cfg := cfg } := by
  constructor
  · rfl
  · rfl
  · rfl
  · intro _
    show (0 : ℤ) < cfg.failureThreshold
    omega
  all_goals simp

theorem run_tracks (hfailure : 1 ≤ cfg.failureThreshold)
    (hrecovery : 1 ≤ cfg.recoveryStreak) (events : List GuardEvent) :
    Tracks cfg events (CommandGuard.history { cfg := cfg } events)
      (machine.run { cfg := cfg } events) := by
  induction events using List.reverseRecOn with
  | nil => exact fresh_tracks hfailure
  | append_singleton events e ih =>
      rw [history_concat, machine.run_append]
      exact (answer_move _ e).tracks hfailure hrecovery ih

/-- The decisions of the calls that are not `NONE`, in order. -/
def decisions (g : CommandGuard) (events : List GuardEvent) :
    List GuardDecision :=
  ((g.history events).map Prod.snd).filter (· ≠ .none)

theorem alternate_decisions (g : CommandGuard) (events : List GuardEvent) :
    Alternate g.inFallback (g.decisions events) := by
  induction events generalizing g with
  | nil => trivial
  | cons e events ih =>
      have hrest := ih (g.answer e).2
      have hmove := answer_move g e
      generalize hanswer : g.answer e = answer at hmove hrest
      obtain ⟨d, g'⟩ := answer
      have hcons : g.decisions (e :: events) =
          (if d ≠ .none then d :: g'.decisions events
            else g'.decisions events) := by
        simp only [decisions, history, hanswer, List.map_cons,
          List.filter_cons, decide_eq_true_eq]
      rw [hcons]
      cases hmove with
      | recover _ _ hfallback _ =>
          exact ⟨by simp [hfallback], by simpa [hfallback] using hrest⟩
      | giveUp _ _ hhealthy _ =>
          exact ⟨by simp [hhealthy], by simpa [hhealthy] using hrest⟩
      | timeOut _ hhealthy _ _ =>
          exact ⟨by simp [hhealthy], by simpa [hhealthy] using hrest⟩
      | trust _ _ _ => exact hrest
      | count _ _ _ => exact hrest
      | wait _ _ => exact hrest
      | arm _ => exact hrest

/-- The hysteresis over a whole sequence of calls to a fresh guard. -/
structure Hysteresis (cfg : GuardConfig) (events : List GuardEvent) :
    Prop where
  alternate : Alternate false
    (CommandGuard.decisions { cfg := cfg } events)
  answers : ∀ (before : List GuardEvent) (e : GuardEvent)
    (after : List GuardEvent), events = before ++ e :: after →
      Answers cfg before (CommandGuard.history { cfg := cfg } before)
        (machine.run { cfg := cfg } before) e

theorem hysteresis (cfg : GuardConfig) (hfailure : 1 ≤ cfg.failureThreshold)
    (hrecovery : 1 ≤ cfg.recoveryStreak) (events : List GuardEvent)
    (hpos : ∀ e ∈ events, 0 < e.nowMs) : Hysteresis cfg events where
  alternate := alternate_decisions { cfg := cfg } events
  answers := by
    rintro before e after rfl
    refine (run_tracks hfailure hrecovery before).answers hfailure ?_ e
    intro last hlast
    refine heardMs_pos (fun e' he' => hpos e' ?_) hlast
    exact List.mem_append_left _ he'

/-- A command that passes or fails the parser. -/
def sample (ok : Bool) (nowMs : ℤ) : GuardEvent :=
  ⟨.onCommand { status := if ok then .ok else .malformedJson }, nowMs⟩

/-- A fallback, a recovery, and another full streak after a single rejection. -/
def relapse : List GuardEvent :=
  [sample false 1, sample false 2, sample false 3, sample true 4,
    sample true 5, sample true 6, sample false 7, sample true 8,
    sample true 9]

theorem hysteresis_relapse : Hysteresis {} relapse :=
  hysteresis {} (by decide) (by decide) relapse (by decide)

/-- Every completed streak is answered by a decision to leave the fallback,
also when the guard has left it already. -/
def ExitsOnEveryStreak (cfg : GuardConfig) (events : List GuardEvent) : Prop :=
  ∀ (before : List GuardEvent) (e : GuardEvent) (after : List GuardEvent),
    events = before ++ e :: after →
      (((machine.run { cfg := cfg } before).answer e).1 = .exitFallback ↔
        CompletesStreak cfg (CommandGuard.history { cfg := cfg } before) e)

theorem exitsOnEveryStreak_broken_by_relapse :
    ¬ ∀ (cfg : GuardConfig) (events : List GuardEvent),
      1 ≤ cfg.failureThreshold → 1 ≤ cfg.recoveryStreak →
        0 ≤ cfg.silenceTimeoutMs → (∀ e ∈ events, 0 < e.nowMs) →
          machine.Clocked { cfg := cfg } 0 events →
            ExitsOnEveryStreak cfg events := by
  intro hexits
  have hlast := hexits {} (relapse ++ [sample true 10]) (by decide) (by decide)
    (by decide) (by decide) (by decide) relapse (sample true 10) [] rfl
  have hcompletes : CompletesStreak {}
      (CommandGuard.history { cfg := {} } relapse) (sample true 10) :=
    ⟨by decide, by decide, by decide⟩
  exact absurd (hlast.mpr hcompletes) (by decide)

end CommandGuard

end Semaforo
