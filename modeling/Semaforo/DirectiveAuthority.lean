import Semaforo.LoopGuard
import Mathlib.Tactic

/-!
# The authority of the remote directive

Which command a directive in use came from.  The idempotency gate admits
commands in the order of their sequence numbers and every admitted command
overwrites the latch, so the latch always holds the newest admitted command.
The commands that the gate or the parser turns away reach the proposed phase
through one flag only, the fallback of the guard: a run and the run without
them are compared in `Alike`.
-/

namespace Semaforo

/-- A popped command with the tick of the iteration that popped it. -/
structure Received where
  command : ParsedCommand
  atMs : ℤ
  deriving DecidableEq, Repr

def received (iterations : List Iteration) : List Received :=
  iterations.flatMap fun k => k.popped.map fun p => ⟨p.command, k.tickNowMs⟩

@[simp] theorem received_nil : received [] = [] := rfl

theorem received_cons (k : Iteration) (iterations : List Iteration) :
    received (k :: iterations) =
      (k.popped.map fun p => ⟨p.command, k.tickNowMs⟩) ++
        received iterations := rfl

namespace Loop

/-- The popped command is latched. -/
def accepts (tickNowMs : ℤ) (l : Loop) (p : Popped) : Bool :=
  p.command.isActionable ∧
    ((l.cmdGuard.onCommand p.command tickNowMs).2.acceptSequence
      p.command).1 = true

def accepted (tickNowMs : ℤ) : Loop → List Popped → List Popped
  | _, [] => []
  | l, p :: popped =>
      if l.accepts tickNowMs p then
        p :: (l.pop tickNowMs p).1.accepted tickNowMs popped
      else (l.pop tickNowMs p).1.accepted tickNowMs popped

/-- The iteration as if only the commands that are latched had arrived. -/
def prune (l : Loop) (k : Iteration) : Iteration :=
  { k with popped := l.accepted k.tickNowMs k.popped }

theorem accepted_sublist (tickNowMs : ℤ) (l : Loop) (popped : List Popped) :
    (l.accepted tickNowMs popped).Sublist popped := by
  induction popped generalizing l with
  | nil => exact List.Sublist.refl []
  | cons p popped ih =>
      unfold accepted
      split_ifs
      · exact (ih _).cons_cons p
      · exact (ih _).cons p

theorem accepts_iff (l : Loop) (tickNowMs : ℤ) (p : Popped) :
    l.accepts tickNowMs p = true ↔ p.command.isActionable = true ∧
      l.cmdGuard.lastAppliedSeq < p.command.sequenceNumber := by
  have hgate : ((l.cmdGuard.onCommand p.command tickNowMs).2.acceptSequence
      p.command).1 = true ↔
        l.cmdGuard.lastAppliedSeq < p.command.sequenceNumber := by
    unfold CommandGuard.acceptSequence
    rw [CommandGuard.onCommand_lastAppliedSeq]
    split_ifs with hseq
    · simpa using hseq
    · simpa using hseq
  simp [accepts, hgate]

/-- What popping one command does to the latch and the gate. -/
structure Pops (l : Loop) (tickNowMs : ℤ) (p : Popped) (l' : Loop) : Prop where
  latch : l'.directiveLatch =
    if l.accepts tickNowMs p then
      l.directiveLatch.update p.command.phase tickNowMs
    else l.directiveLatch
  applied : l'.cmdGuard.lastAppliedSeq =
    if l.accepts tickNowMs p then p.command.sequenceNumber
    else l.cmdGuard.lastAppliedSeq

theorem pop_pops (l : Loop) (tickNowMs : ℤ) (p : Popped) :
    Pops l tickNowMs p (l.pop tickNowMs p).1 := by
  have haccepts := accepts_iff l tickNowMs p
  have hseq := l.cmdGuard.onCommand_lastAppliedSeq p.command tickNowMs
  unfold pop latch CommandGuard.acceptSequence
  dsimp only
  by_cases hok : p.command.isActionable = true
  · rw [if_pos hok, hseq]
    by_cases hreplay : p.command.sequenceNumber ≤ l.cmdGuard.lastAppliedSeq
    · have hnot : ¬ l.accepts tickNowMs p = true := fun h =>
        absurd (haccepts.mp h).2 (not_lt.mpr hreplay)
      rw [if_pos hreplay]
      exact ⟨by simp [hnot], by simp [hnot]⟩
    · have hyes : l.accepts tickNowMs p = true :=
        haccepts.mpr ⟨hok, not_le.mp hreplay⟩
      rw [if_neg hreplay]
      exact ⟨by simp [hyes], by simp [hyes]⟩
  · have hnot : ¬ l.accepts tickNowMs p = true := fun h =>
      hok (haccepts.mp h).1
    rw [if_neg hok]
    exact ⟨by simp [hnot], by simp [hnot]⟩

/-- The watchdog and the fault handlers leave the gate alone. -/
theorem handleFaults_lastAppliedSeq (l : Loop) (k : Iteration) :
    (l.handleFaults k).1.cmdGuard.lastAppliedSeq =
      (l.drain k.tickNowMs k.popped).1.cmdGuard.lastAppliedSeq := by
  simp only [handleFaults]
  rw [runDetection_cmdGuard, acquireFrame_cmdGuard]
  unfold silenceWatchdog
  split_ifs
  · exact CommandGuard.tick_lastAppliedSeq _ k.tickNowMs
  · rfl

end Loop

namespace Node

def prune : Node → List Iteration → List Iteration
  | _, [] => []
  | n, k :: iterations =>
      n.loop.prune k :: (n.iterate k).prune iterations

/-- The commands that have been latched, in the order of their arrival. -/
def latched (n : Node) (iterations : List Iteration) : List Received :=
  received (n.prune iterations)

theorem prune_append (n : Node) (first second : List Iteration) :
    n.prune (first ++ second) =
      n.prune first ++ (ticks.run n first).prune second := by
  induction first generalizing n with
  | nil => rfl
  | cons k first ih =>
      rw [List.cons_append, prune, prune, List.cons_append, ih]
      rfl

theorem latched_sublist (n : Node) (iterations : List Iteration) :
    (n.latched iterations).Sublist (received iterations) := by
  induction iterations generalizing n with
  | nil => exact List.Sublist.refl []
  | cons k iterations ih =>
      rw [latched, prune, received_cons, received_cons]
      have hfirst := n.loop.accepted_sublist k.tickNowMs k.popped
      exact (hfirst.map _).append (ih _)

end Node

/-! ## The latch holds the newest admitted command -/

/-- The latch after the admitted commands of `log`. -/
def latchOf (log : List Received) : DirectiveLatch :=
  match log.getLast? with
  | none => {}
  | some e => DirectiveLatch.update {} e.command.phase e.atMs

def appliedSeqOf (log : List Received) : ℤ :=
  match log.getLast? with
  | none => -1
  | some e => e.command.sequenceNumber

@[simp] theorem latchOf_snoc (log : List Received) (e : Received) :
    latchOf (log ++ [e]) = DirectiveLatch.update {} e.command.phase e.atMs := by
  simp [latchOf]

@[simp] theorem appliedSeqOf_snoc (log : List Received) (e : Received) :
    appliedSeqOf (log ++ [e]) = e.command.sequenceNumber := by
  simp [appliedSeqOf]

/-- The loop at the instant `t`, `log` having been admitted so far. -/
structure Holds (l : Loop) (t : ℤ) (log : List Received) : Prop where
  latch : l.directiveLatch = latchOf log
  applied : l.cmdGuard.lastAppliedSeq = appliedSeqOf log
  actionable : ∀ e ∈ log, e.command.isActionable = true
  past : ∀ e ∈ log, e.atMs ≤ t
  increasing : log.Pairwise fun e e' =>
    e.command.sequenceNumber < e'.command.sequenceNumber

variable {l l' : Loop} {t tickNowMs : ℤ} {log : List Received}

theorem Holds.le_appliedSeq (hl : Holds l t log) {e : Received}
    (he : e ∈ log) :
    e.command.sequenceNumber ≤ l.cmdGuard.lastAppliedSeq := by
  rw [hl.applied]
  have hincreasing := hl.increasing
  induction log using List.reverseRecOn with
  | nil => cases he
  | append_singleton earlier newest _ =>
      rw [appliedSeqOf_snoc]
      rw [List.mem_append, List.mem_singleton] at he
      rcases he with hearlier | rfl
      · have hlast := (List.pairwise_append.mp hincreasing).2.2
        exact (hlast e hearlier newest (List.mem_singleton_self newest)).le
      · exact le_refl _

theorem Holds.pop (hl : Holds l t log) (htime : t ≤ tickNowMs) (p : Popped) :
    Holds (l.pop tickNowMs p).1 tickNowMs
      (log ++ if l.accepts tickNowMs p then [⟨p.command, tickNowMs⟩]
        else []) := by
  obtain ⟨hlatch, happlied⟩ := l.pop_pops tickNowMs p
  have hpast : ∀ e ∈ log, e.atMs ≤ tickNowMs := fun e he =>
    (hl.past e he).trans htime
  by_cases haccepts : l.accepts tickNowMs p = true
  · rw [if_pos haccepts] at hlatch happlied ⊢
    obtain ⟨hok, hnewer⟩ := (l.accepts_iff tickNowMs p).mp haccepts
    refine ⟨?_, ?_, ?_, ?_, ?_⟩
    · rw [hlatch, latchOf_snoc, hl.latch]
      unfold latchOf
      split
      · rfl
      · rfl
    · rw [happlied, appliedSeqOf_snoc]
    · intro e he
      rcases List.mem_append.mp he with h | h
      · exact hl.actionable e h
      · rw [List.mem_singleton.mp h]
        exact hok
    · intro e he
      rcases List.mem_append.mp he with h | h
      · exact hpast e h
      · rw [List.mem_singleton.mp h]
    · rw [List.pairwise_append]
      refine ⟨hl.increasing, List.pairwise_singleton _ _, ?_⟩
      intro e he e' he'
      rw [List.mem_singleton.mp he']
      exact (hl.le_appliedSeq he).trans_lt hnewer
  · rw [if_neg haccepts] at hlatch happlied ⊢
    rw [List.append_nil]
    exact ⟨hlatch.trans hl.latch, happlied.trans hl.applied, hl.actionable,
      hpast, hl.increasing⟩

theorem Holds.drain (hl : Holds l t log) (htime : t ≤ tickNowMs)
    (popped : List Popped) :
    Holds (l.drain tickNowMs popped).1 tickNowMs
      (log ++ (l.accepted tickNowMs popped).map
        fun p => ⟨p.command, tickNowMs⟩) := by
  induction popped generalizing l t log with
  | nil =>
      rw [Loop.accepted, List.map_nil, List.append_nil]
      exact { hl with past := fun e he => (hl.past e he).trans htime }
  | cons p popped ih =>
      have hrest := ih (hl.pop htime p) (le_refl tickNowMs)
      rw [Loop.accepted]
      split_ifs at hrest ⊢
      · rw [List.map_cons, List.append_cons]
        exact hrest
      · rw [List.append_nil] at hrest
        exact hrest

theorem Holds.handleFaults {k : Iteration} (hl : Holds l t log)
    (htime : t ≤ k.tickNowMs) :
    Holds (l.handleFaults k).1 k.tickNowMs
      (log ++ received [l.prune k]) := by
  have hdrained := hl.drain htime k.popped
  have hlog : received [l.prune k] = (l.accepted k.tickNowMs k.popped).map
      fun p => ⟨p.command, k.tickNowMs⟩ := by
    simp [received, Loop.prune]
  rw [hlog]
  exact { hdrained with
    latch := (l.handleFaults_latch k).trans hdrained.latch
    applied := (l.handleFaults_lastAppliedSeq k).trans hdrained.applied }

theorem initial_holds (armedMs : Option ℤ) (t : ℤ) :
    Holds (Loop.initial armedMs) t [] where
  latch := rfl
  applied := by cases armedMs <;> rfl
  actionable := by simp
  past := by simp
  increasing := List.Pairwise.nil

theorem Holds.run {n : Node} {iterations : List Iteration}
    (hn : Holds n.loop t log) (hclock : Node.ticks.Clocked n t iterations) :
    Holds (Node.ticks.run n iterations).loop
      (Node.ticks.endTime t iterations) (log ++ n.latched iterations) := by
  induction iterations generalizing n t log with
  | nil =>
      rw [Node.latched, Node.prune, received_nil, List.append_nil]
      exact hn
  | cons k iterations ih =>
      have hstep : Holds (n.iterate k).loop k.tickNowMs
          (log ++ received [n.loop.prune k]) := hn.handleFaults hclock.1
      have hnext := ih hstep hclock.2
      rw [List.append_assoc] at hnext
      have hlog : n.latched (k :: iterations) =
          received [n.loop.prune k] ++ (n.iterate k).latched iterations := by
        simp [Node.latched, Node.prune, received]
      rw [hlog]
      exact hnext

/-! ## What the turned away commands can do -/

/-- Two loops that differ in what they think of the Brain only. -/
structure Alike (l l' : Loop) : Prop where
  latch : l.directiveLatch = l'.directiveLatch
  applied : l.cmdGuard.lastAppliedSeq = l'.cmdGuard.lastAppliedSeq
  camera : l.isCameraOnline = l'.isCameraOnline
  inference : l.inferenceOnline = l'.inferenceOnline

theorem Alike.refl (l : Loop) : Alike l l := ⟨rfl, rfl, rfl, rfl⟩

theorem Alike.accepts (halike : Alike l l') (p : Popped) :
    l.accepts tickNowMs p = l'.accepts tickNowMs p := by
  rw [Bool.eq_iff_iff, Loop.accepts_iff, Loop.accepts_iff, halike.applied]

theorem Alike.pop (halike : Alike l l') (p : Popped) :
    Alike (l.pop tickNowMs p).1 (l'.pop tickNowMs p).1 := by
  obtain ⟨hlatch, happlied⟩ := l.pop_pops tickNowMs p
  obtain ⟨hlatch', happlied'⟩ := l'.pop_pops tickNowMs p
  obtain ⟨hcamera, hinference⟩ := l.pop_flags tickNowMs p
  obtain ⟨hcamera', hinference'⟩ := l'.pop_flags tickNowMs p
  rw [← halike.accepts] at hlatch' happlied'
  rw [← halike.latch] at hlatch'
  rw [← halike.applied] at happlied'
  exact ⟨hlatch.trans hlatch'.symm, happlied.trans happlied'.symm,
    hcamera.trans (halike.camera.trans hcamera'.symm),
    hinference.trans (halike.inference.trans hinference'.symm)⟩

theorem Alike.skip (halike : Alike l l') {p : Popped}
    (hnot : ¬ l.accepts tickNowMs p = true) :
    Alike (l.pop tickNowMs p).1 l' := by
  obtain ⟨hlatch, happlied⟩ := l.pop_pops tickNowMs p
  obtain ⟨hcamera, hinference⟩ := l.pop_flags tickNowMs p
  rw [if_neg hnot] at hlatch happlied
  exact ⟨hlatch.trans halike.latch, happlied.trans halike.applied,
    hcamera.trans halike.camera, hinference.trans halike.inference⟩

theorem Alike.drain (halike : Alike l l') (popped : List Popped) :
    Alike (l.drain tickNowMs popped).1
      (l'.drain tickNowMs (l.accepted tickNowMs popped)).1 := by
  induction popped generalizing l l' with
  | nil => exact halike
  | cons p popped ih =>
      rw [Loop.accepted]
      split_ifs with haccepts
      · exact ih (halike.pop p)
      · exact ih (halike.skip haccepts)

theorem Alike.handleFaults (halike : Alike l l') (k : Iteration) :
    Alike (l.handleFaults k).1 (l'.handleFaults (l.prune k)).1 := by
  obtain ⟨hlatch, happlied, _, _⟩ :
      Alike (l.drain k.tickNowMs k.popped).1
        (l'.drain k.tickNowMs (l.prune k).popped).1 :=
    halike.drain k.popped
  have hcamera : (l.handleFaults k).1.isCameraOnline =
      (l'.handleFaults (l.prune k)).1.isCameraOnline := by
    rw [Loop.handleFaults_isCameraOnline, Loop.handleFaults_isCameraOnline,
      halike.camera]
    rfl
  refine ⟨?_, ?_, hcamera, ?_⟩
  · rw [Loop.handleFaults_latch, Loop.handleFaults_latch]
    exact hlatch
  · rw [Loop.handleFaults_lastAppliedSeq, Loop.handleFaults_lastAppliedSeq]
    exact happlied
  · rw [Loop.handleFaults_inferenceOnline, Loop.handleFaults_inferenceOnline,
      ← hcamera, halike.inference]
    rfl

theorem Alike.run {n n' : Node} (halike : Alike n.loop n'.loop)
    (iterations : List Iteration) :
    Alike (Node.ticks.run n iterations).loop
      (Node.ticks.run n' (n.prune iterations)).loop := by
  induction iterations generalizing n n' with
  | nil => exact halike
  | cons k iterations ih =>
      have hnext : Alike (n.iterate k).loop
          (n'.iterate (n.loop.prune k)).loop := halike.handleFaults k
      exact ih hnext

theorem Alike.proposedPhase (halike : Alike l l') {k : Iteration}
    {popped : List Popped}
    (hmode : l.cmdGuard.inFallback = l'.cmdGuard.inFallback) :
    l.proposedPhase k = l'.proposedPhase { k with popped := popped } := by
  unfold Loop.proposedPhase Loop.directive
  rw [halike.camera, halike.latch, hmode]

/-! ## Where a directive comes from -/

/-- The command `e` entitles the loop to ask for `phase` in the iteration `k`,
`earlier` having been latched before it. -/
structure Authorises (l : Loop) (k : Iteration) (earlier : List Received)
    (e : Received) (phase : Phase) : Prop where
  status : e.command.status = .ok
  phase_eq : e.command.phase = phase
  newest : ∀ e' ∈ earlier,
    e'.command.sequenceNumber < e.command.sequenceNumber
  past : e.atMs ≤ k.tickNowMs
  alive : k.tickNowMs - e.atMs < defaultTtlMs
  trusted : l.cmdGuard.inFallback = false
  camera : l.isCameraOnline = true

theorem Holds.authorises {k : Iteration} (hl : Holds l k.tickNowMs log)
    {phase : Phase} (hphase : l.directive k = some phase) :
    ∃ earlier e, log = earlier ++ [e] ∧ Authorises l k earlier e phase := by
  unfold Loop.directive at hphase
  split_ifs at hphase with htrusted
  rw [hl.latch] at hphase
  cases log using List.reverseRecOn with
  | nil => simp [latchOf, DirectiveLatch.get] at hphase
  | append_singleton earlier e =>
      have hmem : e ∈ earlier ++ [e] := by simp
      have hincreasing := (List.pairwise_append.mp hl.increasing).2.2
      rw [latchOf_snoc] at hphase
      obtain ⟨_, hshown⟩ := DirectiveLatch.mem_get hphase
      refine ⟨earlier, e, rfl, ?_, hshown.symm, ?_, hl.past e hmem, ?_, ?_,
        htrusted.1⟩
      · simpa [ParsedCommand.isActionable] using hl.actionable e hmem
      · intro e' he'
        exact hincreasing e' he' e (List.mem_singleton_self e)
      · by_contra hstale
        have hnone : (DirectiveLatch.update {} e.command.phase e.atMs).get
            k.tickNowMs = none := by
          simp [DirectiveLatch.get, DirectiveLatch.update, not_lt.mp hstale]
        rw [hnone] at hphase
        contradiction
      · simpa using htrusted.2

/-- The run without the commands that were turned away asks for the same phase
in the iteration `k`, unless the guard judges the Brain differently. -/
structure OnlyThroughFallback (l l' : Loop) (k k' : Iteration) : Prop where
  latch : l.directiveLatch = l'.directiveLatch
  applied : l.cmdGuard.lastAppliedSeq = l'.cmdGuard.lastAppliedSeq
  camera : l.isCameraOnline = l'.isCameraOnline
  proposed : l.cmdGuard.inFallback = l'.cmdGuard.inFallback →
    l.proposedPhase k = l'.proposedPhase k'

/-- In every run and every next iteration `k`: a directive in use is the newest
latched command; the latched commands come in the order of their sequence
numbers; and the commands that were not latched matter through the fallback of
the guard only. -/
theorem directive_authority (major : MajorApproach) (armedMs : Option ℤ)
    (now : TimePoint) (start : ℤ) (before : List Iteration) (k : Iteration)
    (hclock : Node.ticks.Clocked (.boot major armedMs now) start
      (before ++ [k])) :
    (∀ phase,
      ((Node.ticks.run (.boot major armedMs now) before).loop.handleFaults
        k).1.directive k = some phase →
      ∃ earlier e,
        Node.latched (.boot major armedMs now) (before ++ [k]) =
            earlier ++ [e] ∧
          e ∈ received (before ++ [k]) ∧
          Authorises
            ((Node.ticks.run (.boot major armedMs now)
              before).loop.handleFaults k).1 k earlier e phase) ∧
      (Node.latched (.boot major armedMs now) (before ++ [k])).Pairwise
        (fun e e' => e.command.sequenceNumber < e'.command.sequenceNumber) ∧
      OnlyThroughFallback
        ((Node.ticks.run (.boot major armedMs now) before).loop.handleFaults
          k).1
        ((Node.ticks.run (.boot major armedMs now)
          (Node.prune (.boot major armedMs now) before)).loop.handleFaults
            ((Node.ticks.run (.boot major armedMs now) before).loop.prune
              k)).1
        k ((Node.ticks.run (.boot major armedMs now) before).loop.prune k) := by
  obtain ⟨hbefore, hlast, _⟩ := Node.ticks.admits_append.mp hclock
  have hrun : Holds (Node.ticks.run (.boot major armedMs now) before).loop
      (Node.ticks.endTime start before)
      (Node.latched (.boot major armedMs now) before) :=
    Holds.run (initial_holds armedMs start) hbefore
  have hholds := hrun.handleFaults hlast
  have hlog : Node.latched (.boot major armedMs now) (before ++ [k]) =
      Node.latched (.boot major armedMs now) before ++ received
        [(Node.ticks.run (.boot major armedMs now) before).loop.prune k] := by
    simp [Node.latched, Node.prune_append, Node.prune, received]
  rw [← hlog] at hholds
  refine ⟨fun phase hphase => ?_, hholds.increasing, ?_⟩
  · obtain ⟨earlier, e, hsplit, hauthorises⟩ := hholds.authorises hphase
    refine ⟨earlier, e, hsplit, ?_, hauthorises⟩
    apply (Node.latched_sublist (.boot major armedMs now)
      (before ++ [k])).subset
    rw [hsplit]
    simp
  · have halike := (Alike.run (Alike.refl (Node.boot major armedMs now).loop)
      before).handleFaults k
    exact ⟨halike.latch, halike.applied, halike.camera,
      halike.proposedPhase⟩

/-- An iteration of a healthy node at the given tick. -/
def idle (tickNowMs : ℤ) (commands : List ParsedCommand) : Iteration where
  tickNowMs := tickNowMs
  popped := commands.map fun c => { command := c, now := 0 }
  connected := true
  silenceNow := 0
  cameraNow := 0
  inferenceNow := 0
  policyPhase := .greenNS
  validateNow := 0

def crossGreen : ParsedCommand where
  status := .ok
  phase := .greenEW
  sequenceNumber := 1

theorem directive_authority_cross_green :
    ((Loop.initial (some 1)).handleFaults (idle 1000 [crossGreen])).1.directive
        (idle 1000 [crossGreen]) = some .greenEW ∧
      ∃ earlier e,
        Node.latched (.boot .ns (some 1) 0) ([] ++ [idle 1000 [crossGreen]]) =
            earlier ++ [e] ∧
          e ∈ received ([] ++ [idle 1000 [crossGreen]]) ∧
          Authorises
            ((Loop.initial (some 1)).handleFaults (idle 1000 [crossGreen])).1
            (idle 1000 [crossGreen]) earlier e .greenEW := by
  have hused : ((Loop.initial (some 1)).handleFaults
      (idle 1000 [crossGreen])).1.directive (idle 1000 [crossGreen]) =
        some .greenEW := by decide
  exact ⟨hused, (directive_authority .ns (some 1) 0 1 []
    (idle 1000 [crossGreen]) ⟨by decide, trivial⟩).1 .greenEW hused⟩

/-- Three malformed payloads take the directive out of use. -/
theorem proposed_phase_moved_by_rejections :
    ¬ ∀ (major : MajorApproach) (armedMs : Option ℤ) (now : TimePoint)
        (start : ℤ) (before : List Iteration) (k : Iteration),
      Node.ticks.Clocked (.boot major armedMs now) start (before ++ [k]) →
        ((Node.ticks.run (.boot major armedMs now) before).loop.handleFaults
            k).1.proposedPhase k =
          ((Node.ticks.run (.boot major armedMs now)
            (Node.prune (.boot major armedMs now) before)).loop.handleFaults
              ((Node.ticks.run (.boot major armedMs now) before).loop.prune
                k)).1.proposedPhase
            ((Node.ticks.run (.boot major armedMs now) before).loop.prune
              k) := by
  intro hall
  have hsame := hall .ns (some 1) 0 1 [idle 1000 [crossGreen]]
    (idle 1100 (List.replicate 3 { status := .malformedJson }))
    ⟨by decide, by decide, trivial⟩
  exact absurd hsame (by decide +kernel)

end Semaforo
