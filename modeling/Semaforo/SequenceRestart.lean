import Semaforo.Commands
import Semaforo.CoordinatorCommands
import Mathlib.Tactic

/-!
# Sequence numbers across restarts

An incarnation of the coordinator seeds its counter with the milliseconds of
its start.  The network thread draws a number for each telemetry reply and then
publishes the reply, the main thread does the same for the timing plans, and
the steps of the two interleave.  A node that stays up sees the replies of all
incarnations on one topic.
-/

namespace Semaforo

structure SequencedCommand where
  node : String
  sequenceNumber : ℤ
  deriving DecidableEq, Repr

inductive ThreadStep where
  | drawReply (node : String)
  | publishReply
  | drawPlan
  | publishPlan
  deriving DecidableEq, Repr

structure CoordinatorThreads where
  /-- The next value of the shared counter. -/
  next : ℤ
  /-- The reply of the network thread that has its number. -/
  reply : Option SequencedCommand := none
  /-- The number that the main thread has drawn for a timing plan. -/
  plan : Option ℤ := none
  deriving DecidableEq, Repr

structure Incarnation where
  /-- `time.time()` at the start. -/
  startTime : ℚ
  steps : List ThreadStep
  deriving DecidableEq, Repr

namespace CoordinatorThreads

/-- One step, with what it publishes on the command topics.  A thread draws its
next number after it has published the last one. -/
def step (c : CoordinatorThreads) :
    ThreadStep → CoordinatorThreads × List SequencedCommand
  | .drawReply node =>
      if c.reply.isNone then
        ({ c with next := c.next + 1, reply := some ⟨node, c.next⟩ }, [])
      else (c, [])
  | .publishReply => ({ c with reply := none }, c.reply.toList)
  | .drawPlan =>
      if c.plan.isNone then
        ({ c with next := c.next + 1, plan := some c.next }, [])
      else (c, [])
  | .publishPlan => ({ c with plan := none }, [])

def run (c : CoordinatorThreads) :
    List ThreadStep → CoordinatorThreads × List SequencedCommand
  | [] => (c, [])
  | step :: steps =>
      let (c, now) := c.step step
      let (c, later) := c.run steps
      (c, now ++ later)

end CoordinatorThreads

namespace Incarnation

/-- `int(time.time() * 1000)`. -/
def seed (i : Incarnation) : ℤ := pyInt (i.startTime * 1000)

def final (i : Incarnation) : CoordinatorThreads :=
  (CoordinatorThreads.run { next := i.seed } i.steps).1

def published (i : Incarnation) : List SequencedCommand :=
  (CoordinatorThreads.run { next := i.seed } i.steps).2

end Incarnation

def publishedByAll (incarnations : List Incarnation) : List SequencedCommand :=
  incarnations.flatMap Incarnation.published

def IncreasingPerTopic (commands : List SequencedCommand) : Prop :=
  commands.Pairwise fun a b =>
    a.node = b.node → a.sequenceNumber < b.sequenceNumber

/-- A start exceeds every number published before it. -/
def SeedFresh (before : List SequencedCommand) (i : Incarnation) : Prop :=
  ∀ c ∈ before, c.sequenceNumber < i.seed

def SeedsFresh (incarnations : List Incarnation) : Prop :=
  ∀ before i after, incarnations = before ++ i :: after →
    SeedFresh (publishedByAll before) i

/-- The commands that a node receives, one after another, are all accepted. -/
def AcceptsEach (g : CommandGuard) : List ParsedCommand → Prop
  | [] => True
  | cmd :: cmds =>
      (g.acceptSequence cmd).1 = true ∧
        AcceptsEach (g.acceptSequence cmd).2 cmds

/-! ## One incarnation -/

namespace CoordinatorThreads

/-- The reply that waits for its publication has a number below the counter. -/
def PendingBelow (c : CoordinatorThreads) : Prop :=
  ∀ r ∈ c.reply, r.sequenceNumber < c.next

/-- The numbers from which the next publication on: that of the waiting reply,
or the counter. -/
def floor (c : CoordinatorThreads) : ℤ :=
  match c.reply with
  | some r => r.sequenceNumber
  | none => c.next

theorem floor_le_next {c : CoordinatorThreads} (h : c.PendingBelow) :
    c.floor ≤ c.next := by
  unfold floor
  cases hreply : c.reply with
  | none => exact le_rfl
  | some r => exact (h r (by rw [hreply]; rfl)).le

/-- What a step may do: the counter and the floor do not fall, and a published
reply has the old floor for its number and lies below the new one. -/
structure Advances (c c' : CoordinatorThreads)
    (now : List SequencedCommand) : Prop where
  pendingBelow : c'.PendingBelow
  floor_le : c.floor ≤ c'.floor
  next_le : c.next ≤ c'.next
  now_lt : ∀ r ∈ now, c.floor ≤ r.sequenceNumber ∧ r.sequenceNumber < c'.floor
  now_increasing : now.Pairwise fun a b => a.sequenceNumber < b.sequenceNumber

theorem advances_of_nothing {c c' : CoordinatorThreads}
    (hpending : c'.PendingBelow) (hfloor : c.floor ≤ c'.floor)
    (hnext : c.next ≤ c'.next) : Advances c c' [] :=
  ⟨hpending, hfloor, hnext, fun _ hr => absurd hr List.not_mem_nil,
    List.Pairwise.nil⟩

theorem advances_step {c : CoordinatorThreads} (h : c.PendingBelow)
    (s : ThreadStep) : Advances c (c.step s).1 (c.step s).2 := by
  cases s with
  | drawReply node =>
      cases hreply : c.reply with
      | none =>
          simp only [step, hreply, Option.isNone_none, if_true]
          refine advances_of_nothing ?_ ?_ (by simp)
          · intro r hr
            cases hr
            exact Int.lt_succ c.next
          · simp [floor, hreply]
      | some r =>
          simp only [step, hreply, Option.isNone_some, if_false,
            Bool.false_eq_true]
          exact advances_of_nothing h le_rfl le_rfl
  | publishReply =>
      cases hreply : c.reply with
      | none =>
          simp only [step, hreply, Option.toList_none]
          refine advances_of_nothing nofun ?_ le_rfl
          simp [floor, hreply]
      | some r =>
          have hr : r.sequenceNumber < c.next := h r hreply
          simp only [step, hreply, Option.toList_some]
          refine ⟨nofun, ?_, le_rfl, ?_, List.pairwise_singleton _ _⟩
          · simpa [floor, hreply] using hr.le
          · intro r' hr'
            rw [List.mem_singleton.mp hr']
            exact ⟨by simp [floor, hreply], by simpa [floor] using hr⟩
  | drawPlan =>
      simp only [step]
      split
      · refine advances_of_nothing ?_ ?_ (by simp)
        · intro r hr
          exact (h r hr).trans (Int.lt_succ c.next)
        · unfold floor
          cases hreply : c.reply with
          | none => simp
          | some r => exact le_rfl
      · exact advances_of_nothing h le_rfl le_rfl
  | publishPlan => exact advances_of_nothing h le_rfl le_rfl

theorem Advances.append {c c' c'' : CoordinatorThreads}
    {now later : List SequencedCommand} (h : Advances c c' now)
    (h' : Advances c' c'' later) : Advances c c'' (now ++ later) := by
  refine ⟨h'.pendingBelow, h.floor_le.trans h'.floor_le,
    h.next_le.trans h'.next_le, ?_, ?_⟩
  · intro r hr
    rcases List.mem_append.mp hr with hnow | hlater
    · exact ⟨(h.now_lt r hnow).1, (h.now_lt r hnow).2.trans_le h'.floor_le⟩
    · exact ⟨h.floor_le.trans (h'.now_lt r hlater).1, (h'.now_lt r hlater).2⟩
  · refine List.pairwise_append.mpr
      ⟨h.now_increasing, h'.now_increasing, fun a ha b hb => ?_⟩
    exact (h.now_lt a ha).2.trans_le (h'.now_lt b hb).1

theorem advances_run {c : CoordinatorThreads} (h : c.PendingBelow)
    (steps : List ThreadStep) : Advances c (c.run steps).1 (c.run steps).2 := by
  induction steps generalizing c with
  | nil => exact advances_of_nothing h le_rfl le_rfl
  | cons s steps ih =>
      have hstep := advances_step h s
      exact hstep.append (ih hstep.pendingBelow)

end CoordinatorThreads

namespace Incarnation

theorem advances (i : Incarnation) :
    CoordinatorThreads.Advances { next := i.seed } i.final i.published := by
  apply CoordinatorThreads.advances_run
  intro r hr
  cases hr

theorem seed_le (i : Incarnation) {c : SequencedCommand}
    (hc : c ∈ i.published) : i.seed ≤ c.sequenceNumber :=
  (i.advances.now_lt c hc).1

theorem lt_final (i : Incarnation) {c : SequencedCommand}
    (hc : c ∈ i.published) : c.sequenceNumber < i.final.next :=
  (i.advances.now_lt c hc).2.trans_le
    (CoordinatorThreads.floor_le_next i.advances.pendingBelow)

end Incarnation

/-! ## All incarnations -/

theorem increasingPerTopic_of_pairwise {commands : List SequencedCommand}
    (h : commands.Pairwise fun a b => a.sequenceNumber < b.sequenceNumber) :
    IncreasingPerTopic commands := by
  apply h.imp
  intro a b hlt _
  exact hlt

theorem publishedByAll_append (before after : List Incarnation) :
    publishedByAll (before ++ after) =
      publishedByAll before ++ publishedByAll after :=
  List.flatMap_append

theorem publishedByAll_singleton (i : Incarnation) :
    publishedByAll [i] = i.published :=
  List.flatMap_singleton ..

theorem pairwise_published (incarnations : List Incarnation)
    (h : SeedsFresh incarnations) :
    (publishedByAll incarnations).Pairwise fun a b =>
      a.sequenceNumber < b.sequenceNumber := by
  induction incarnations using List.reverseRecOn with
  | nil => exact List.Pairwise.nil
  | append_singleton before i ih =>
      have hbefore : SeedsFresh before := by
        intro b j a hsplit
        apply h b j (a ++ [i])
        rw [hsplit, List.append_assoc, List.cons_append]
      rw [publishedByAll_append, publishedByAll_singleton]
      refine List.pairwise_append.mpr
        ⟨ih hbefore, i.advances.now_increasing, fun a ha b hb => ?_⟩
      exact (h before i [] rfl a ha).trans_le (i.seed_le hb)

theorem acceptsEach_of_increasing (g : CommandGuard) (cmds : List ParsedCommand)
    (hbelow : ∀ c ∈ cmds, g.lastAppliedSeq < c.sequenceNumber)
    (hincreasing : cmds.Pairwise fun a b =>
      a.sequenceNumber < b.sequenceNumber) : AcceptsEach g cmds := by
  induction cmds generalizing g with
  | nil => trivial
  | cons cmd cmds ih =>
      obtain ⟨hfirst, hrest⟩ := List.pairwise_cons.mp hincreasing
      have hfresh := hbelow cmd List.mem_cons_self
      have haccept : g.acceptSequence cmd =
          (true, { g with lastAppliedSeq := cmd.sequenceNumber }) := by
        rw [CommandGuard.acceptSequence, if_neg (not_le.mpr hfresh)]
      unfold AcceptsEach
      rw [haccept]
      exact ⟨rfl, ih _ hfirst hrest⟩

/-- The number of a command that the node parses is the published one. -/
def ParsedFrom (node : String) (commands : List SequencedCommand)
    (cmds : List ParsedCommand) : Prop :=
  cmds.map ParsedCommand.sequenceNumber =
    (commands.filter (·.node = node)).map SequencedCommand.sequenceNumber

/-- If every start exceeds what has been published before it, the numbers
increase on each topic over the whole run, and a node that is below the first
accepts them all. -/
theorem increasing_of_seedsFresh (incarnations : List Incarnation)
    (h : SeedsFresh incarnations) :
    IncreasingPerTopic (publishedByAll incarnations) ∧
      ∀ node cmds g, ParsedFrom node (publishedByAll incarnations) cmds →
        (∀ c ∈ cmds, g.lastAppliedSeq < c.sequenceNumber) →
          AcceptsEach g cmds := by
  have hpairwise := pairwise_published incarnations h
  refine ⟨increasingPerTopic_of_pairwise hpairwise, ?_⟩
  intro node cmds g hparsed hbelow
  apply acceptsEach_of_increasing g cmds hbelow
  have htopic := (hpairwise.filter (·.node = node))
  rw [← List.pairwise_map, ← hparsed, List.pairwise_map] at htopic
  exact htopic

/-- At a single restart the condition is exact: the next incarnation keeps the
order whatever it does exactly if its seed exceeds all published numbers. -/
theorem restart_increasing_iff (before : List Incarnation) (startTime : ℚ) :
    (∀ steps, IncreasingPerTopic
        (publishedByAll (before ++ [⟨startTime, steps⟩]))) ↔
      IncreasingPerTopic (publishedByAll before) ∧
        ∀ steps, SeedFresh (publishedByAll before) ⟨startTime, steps⟩ := by
  simp only [publishedByAll_append, publishedByAll_singleton,
    IncreasingPerTopic, List.pairwise_append]
  constructor
  · intro hall
    refine ⟨(hall []).1, fun steps c hc => ?_⟩
    -- The node of the old command is the first to be answered.
    exact (hall [.drawReply c.node, .publishReply]).2.2 c hc
      ⟨c.node, pyInt (startTime * 1000)⟩ (List.mem_singleton.mpr rfl) rfl
  · rintro ⟨hbefore, hfresh⟩ steps
    refine ⟨hbefore, ?_, fun a ha b hb _ => ?_⟩
    · exact increasingPerTopic_of_pairwise
        (Incarnation.advances _).now_increasing
    · exact (hfresh steps a ha).trans_le (Incarnation.seed_le _ hb)

/-- The seeds are fresh if no incarnation draws more numbers than milliseconds
pass between its start and the next one. -/
theorem seedsFresh_of_final_le (incarnations : List Incarnation)
    (h : incarnations.Pairwise fun i j => i.final.next ≤ j.seed) :
    SeedsFresh incarnations := by
  rintro before i after rfl c hc
  obtain ⟨j, hj, hcj⟩ := List.mem_flatMap.mp hc
  have hle := (List.pairwise_append.mp h).2.2 j hj i List.mem_cons_self
  exact (j.lt_final hcj).trans_le hle

theorem increasing_of_one_second_apart :
    IncreasingPerTopic (publishedByAll
      [⟨100, [.drawReply "edge-001", .drawPlan, .publishReply, .publishPlan,
          .drawReply "edge-001", .publishReply]⟩,
        ⟨101, [.drawReply "edge-001", .publishReply]⟩]) :=
  (increasing_of_seedsFresh _ (seedsFresh_of_final_le _ (by decide +kernel))).1

/-- Three replies within the first two milliseconds, then a restart: the first
reply of the new incarnation repeats the number of the last one. -/
theorem early_restart_repeats_number :
    publishedByAll
        [⟨100, [.drawReply "edge-001", .publishReply, .drawReply "edge-001",
            .publishReply, .drawReply "edge-001", .publishReply]⟩,
          ⟨100 + 2 / 1000, [.drawReply "edge-001", .publishReply]⟩] =
        [⟨"edge-001", 100000⟩, ⟨"edge-001", 100001⟩, ⟨"edge-001", 100002⟩,
          ⟨"edge-001", 100002⟩] ∧
      ¬ IncreasingPerTopic (publishedByAll
        [⟨100, [.drawReply "edge-001", .publishReply, .drawReply "edge-001",
            .publishReply, .drawReply "edge-001", .publishReply]⟩,
          ⟨100 + 2 / 1000, [.drawReply "edge-001", .publishReply]⟩]) := by
  refine ⟨by decide +kernel, ?_⟩
  unfold IncreasingPerTopic
  decide +kernel

end Semaforo
