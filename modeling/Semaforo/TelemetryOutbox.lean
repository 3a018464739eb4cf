import Semaforo.DropOldestQueue
import Mathlib.Tactic

/-!
# Telemetry egress

`publish_telemetry` and `flush_outbox` of `edge/src/mqtt_client.cpp` over the
bounded outbox.  Messages are stamped with their position among the staged
ones, and the state keeps, beside the outbox, the history of what has been
staged and of what the broker has accepted.  Whether the client is connected
when the drain begins, and whether a publish of the drain throws, are inputs.
-/

namespace Semaforo

/-- A message with its position in the staging order. -/
structure Stamped (α : Type) where
  index : ℕ
  message : α
  deriving DecidableEq, Repr

def outboxCapacity : ℕ := 256

instance : NeZero outboxCapacity := ⟨by decide⟩

abbrev TelemetryOutbox (α : Type) := DropOldestQueue α outboxCapacity

structure Egress (α : Type) where
  outbox : TelemetryOutbox (Stamped α)
  staged : List (Stamped α)
  accepted : List (Stamped α)
  deriving DecidableEq, Repr

/-- One call of `publish_telemetry`.  `publishes k` tells whether the `k`-th
publish of its drain returns. -/
structure PublishCall (α : Type) where
  message : α
  connected : Bool
  publishes : ℕ → Bool

namespace Egress

variable {α : Type}

def initial : Egress α := ⟨.empty, [], []⟩

def stage (s : Egress α) (message : α) : Egress α :=
  { s with
    outbox := s.outbox.push ⟨s.staged.length, message⟩
    staged := s.staged ++ [⟨s.staged.length, message⟩] }

/-- The loop of `flush_outbox` from its `k`-th publish on: the states that its
rounds leave behind, and the value that it returns.  The first argument bounds
the rounds. -/
def drain (publishes : ℕ → Bool) :
    ℕ → ℕ → Egress α → List (Egress α) × Bool
  | 0, _, _ => ([], true)
  | rounds + 1, k, s =>
      match s.outbox.tryPop with
      | none => ([], true)
      | some (m, outbox) =>
          if publishes k then
            let s := { s with outbox := outbox, accepted := s.accepted ++ [m] }
            let (later, drained) := drain publishes rounds (k + 1) s
            (s :: later, drained)
          else ([{ s with outbox := outbox.push m }], false)

/-- `flush_outbox`; no round adds to the outbox, so its size bounds them. -/
def flushOutbox (s : Egress α) (connected : Bool) (publishes : ℕ → Bool) :
    List (Egress α) × Bool :=
  if connected then drain publishes s.outbox.size 0 s else ([], false)

/-- `publish_telemetry`: the states that it passes through, and the value that
it returns. -/
def publishTelemetry (s : Egress α) (call : PublishCall α) :
    List (Egress α) × Bool :=
  let s := s.stage call.message
  let (later, drained) := s.flushOutbox call.connected call.publishes
  (s :: later, drained)

def after (s : Egress α) (call : PublishCall α) : Egress α :=
  (s.publishTelemetry call).1.getLastD s

def run (calls : List (PublishCall α)) : Egress α := calls.foldl after initial

/-- The states that a call of a run passes through. -/
def moments (before : List (PublishCall α)) (call : PublishCall α) :
    List (Egress α) :=
  ((run before).publishTelemetry call).1

variable [DecidableEq α]

/-- What has been staged and not accepted. -/
def undelivered (s : Egress α) : List (Stamped α) :=
  s.staged.filter fun m => m ∉ s.accepted

/-- The broker has the staged messages in their order and each once; the outbox
holds the newest of the others, oldest first; and a message is in neither only
if at least 256 have been staged since. -/
structure InOrder (s : Egress α) : Prop where
  accepted_sublist : s.accepted.Sublist s.staged
  accepted_nodup : s.accepted.Nodup
  buffered_suffix : s.outbox.items <:+ s.undelivered
  buffered_length : s.outbox.items.length ≤ 256
  evicted : ∀ m ∈ s.undelivered, m ∉ s.outbox.items →
    m.index + 256 < s.staged.length

/-! ## First in, first out

The undisturbed discipline: what is buffered is the end of what has been
staged, and everything accepted is older.
-/

structure Fifo (s : Egress α) : Prop where
  stamps : s.staged.map Stamped.index = List.range s.staged.length
  split : ∃ older, s.staged = older ++ s.outbox.items ∧
    s.accepted.Sublist older ∧
    ∀ m ∈ older, m ∉ s.accepted → m.index + 256 < s.staged.length

omit [DecidableEq α] in
theorem fifo_initial : Fifo (initial : Egress α) :=
  ⟨rfl, [], rfl, List.Sublist.refl _, fun _ hm => absurd hm List.not_mem_nil⟩

omit [DecidableEq α] in
theorem Fifo.pairwise_staged {s : Egress α} (h : s.Fifo) :
    s.staged.Pairwise fun m n => m.index < n.index := by
  have hrange := List.pairwise_lt_range (n := s.staged.length)
  rw [← h.stamps, List.pairwise_map] at hrange
  exact hrange

omit [DecidableEq α] in
theorem Fifo.nodup_staged {s : Egress α} (h : s.Fifo) : s.staged.Nodup :=
  h.pairwise_staged.imp fun hlt heq => absurd (congrArg Stamped.index heq) hlt.ne

omit [DecidableEq α] in
theorem Fifo.index_at {s : Egress α} (h : s.Fifo) {before after : List (Stamped α)}
    {m : Stamped α} (hstaged : s.staged = before ++ m :: after) :
    m.index = before.length := by
  have hat : (s.staged.map Stamped.index)[before.length]? = some m.index := by
    rw [hstaged, List.map_append, List.map_cons,
      List.getElem?_append_right (by simp)]
    simp
  rw [h.stamps, List.getElem?_range (by rw [hstaged]; simp)] at hat
  exact (Option.some.inj hat).symm

theorem Fifo.inOrder {s : Egress α} (h : s.Fifo) : s.InOrder := by
  obtain ⟨older, hstaged, hsublist, hevicted⟩ := h.split
  have hnodup := h.nodup_staged
  rw [hstaged, List.nodup_append] at hnodup
  have hbuffered : s.outbox.items.filter (fun m => m ∉ s.accepted) =
      s.outbox.items := by
    rw [List.filter_eq_self]
    intro m hm
    simpa using fun haccepted =>
      hnodup.2.2 m (hsublist.subset haccepted) m hm rfl
  have hundelivered : s.undelivered =
      older.filter (fun m => m ∉ s.accepted) ++ s.outbox.items := by
    rw [undelivered, hstaged, List.filter_append, hbuffered]
  refine ⟨?_, hsublist.nodup hnodup.1, ?_, s.outbox.bounded, ?_⟩
  · rw [hstaged]
    exact hsublist.trans (List.sublist_append_left _ _)
  · rw [hundelivered]
    exact List.suffix_append _ _
  · intro m hm habsent
    rw [hundelivered, List.mem_append] at hm
    have hold := hm.resolve_right habsent
    rw [List.mem_filter] at hold
    exact hevicted m hold.1 (by simpa using hold.2)

omit [DecidableEq α] in
theorem Fifo.stage {s : Egress α} (h : s.Fifo) (message : α) :
    (s.stage message).Fifo := by
  obtain ⟨older, hstaged, hsublist, hevicted⟩ := h.split
  have hlength : (s.stage message).staged.length = s.staged.length + 1 := by
    simp [Egress.stage]
  have hold : ∀ m ∈ older, m ∉ s.accepted →
      m.index + 256 < (s.stage message).staged.length := by
    intro m hm haccepted
    rw [hlength]
    exact (hevicted m hm haccepted).trans (Nat.lt_succ_self _)
  constructor
  · rw [hlength, List.range_succ, ← h.stamps]
    simp [Egress.stage]
  · by_cases hfull : outboxCapacity ≤ s.outbox.items.length
    · have hpositive : 0 < s.outbox.items.length :=
        (NeZero.pos outboxCapacity).trans_le hfull
      obtain ⟨m, rest, hitems⟩ :=
        List.exists_cons_of_length_pos hpositive
      rw [hitems] at hstaged
      have hindex := h.index_at hstaged
      have hcount : s.staged.length = older.length + 256 := by
        have hbounded := s.outbox.bounded
        rw [hstaged, List.length_append, ← hitems]
        exact congrArg _ (Nat.le_antisymm hbounded hfull)
      refine ⟨older ++ [m], ?_, hsublist.trans (List.sublist_append_left _ _), ?_⟩
      · simp [Egress.stage, DropOldestQueue.items_push_of_full hfull, hstaged,
          hitems]
      · intro n hn haccepted
        rw [List.mem_append, List.mem_singleton] at hn
        rcases hn with hn | rfl
        · exact hold n hn haccepted
        · rw [hlength]
          omega
    · refine ⟨older, ?_, hsublist, hold⟩
      simp [Egress.stage,
        DropOldestQueue.items_push_of_lt (not_le.mp hfull), hstaged]

/-! ## The rounds of a drain -/

def accept (s : Egress α) (m : Stamped α)
    (outbox : TelemetryOutbox (Stamped α)) : Egress α :=
  { s with outbox := outbox, accepted := s.accepted ++ [m] }

def requeue (s : Egress α) (m : Stamped α)
    (outbox : TelemetryOutbox (Stamped α)) : Egress α :=
  { s with outbox := outbox.push m }

omit [DecidableEq α] in
theorem exists_drain_succ (publishes : ℕ → Bool) (rounds k : ℕ)
    {s : Egress α} {m : Stamped α} {rest : List (Stamped α)}
    (hitems : s.outbox.items = m :: rest) :
    ∃ outbox : TelemetryOutbox (Stamped α), outbox.items = rest ∧
      (publishes k = true → drain publishes (rounds + 1) k s =
        (s.accept m outbox ::
            (drain publishes rounds (k + 1) (s.accept m outbox)).1,
          (drain publishes rounds (k + 1) (s.accept m outbox)).2)) ∧
      (publishes k = false → drain publishes (rounds + 1) k s =
        ([s.requeue m outbox], false)) := by
  obtain ⟨outbox, hpop, hrest, -⟩ := DropOldestQueue.tryPop_eq_some hitems
  refine ⟨outbox, hrest, ?_, ?_⟩
  · intro hpublish
    simp [drain, hpop, hpublish, accept]
  · intro hpublish
    simp [drain, hpop, hpublish, requeue]

omit [DecidableEq α] in
/-- One round for every message in the outbox. -/
theorem exists_drain_of_length (publishes : ℕ → Bool) (k : ℕ) {rounds : ℕ}
    {s : Egress α} (hrounds : s.outbox.items.length = rounds + 1) :
    ∃ (m : Stamped α) (outbox : TelemetryOutbox (Stamped α)),
      s.outbox.items = m :: outbox.items ∧ outbox.items.length = rounds ∧
      (publishes k = true → drain publishes (rounds + 1) k s =
        (s.accept m outbox ::
            (drain publishes rounds (k + 1) (s.accept m outbox)).1,
          (drain publishes rounds (k + 1) (s.accept m outbox)).2)) ∧
      (publishes k = false → drain publishes (rounds + 1) k s =
        ([s.requeue m outbox], false)) := by
  obtain ⟨m, rest, hitems⟩ := List.exists_cons_of_length_eq_add_one hrounds
  obtain ⟨outbox, rfl, hdrain⟩ := exists_drain_succ publishes rounds k hitems
  rw [hitems, List.length_cons] at hrounds
  exact ⟨m, outbox, hitems, Nat.succ_injective hrounds, hdrain⟩

omit [DecidableEq α] in
theorem Fifo.accept {s : Egress α} (h : s.Fifo) {m : Stamped α}
    {outbox : TelemetryOutbox (Stamped α)}
    (hitems : s.outbox.items = m :: outbox.items) :
    (s.accept m outbox).Fifo := by
  obtain ⟨older, hstaged, hsublist, hevicted⟩ := h.split
  refine ⟨h.stamps, older ++ [m], ?_, hsublist.append_right [m], ?_⟩
  · simp [Egress.accept, hstaged, hitems]
  · intro n hn haccepted
    change n ∉ s.accepted ++ [m] at haccepted
    rw [List.mem_append, not_or] at haccepted
    rw [List.mem_append] at hn
    exact hevicted n (hn.resolve_right haccepted.2) haccepted.1

omit [DecidableEq α] in
theorem items_requeue {s : Egress α} {m : Stamped α}
    {outbox : TelemetryOutbox (Stamped α)}
    (hitems : s.outbox.items = m :: outbox.items) :
    (s.requeue m outbox).outbox.items = outbox.items ++ [m] := by
  have hbounded := s.outbox.bounded
  rw [hitems, List.length_cons] at hbounded
  exact DropOldestQueue.items_push_of_lt hbounded m

omit [DecidableEq α] in
/-- A message that goes back into an empty outbox is where it was. -/
theorem Fifo.requeue_alone {s : Egress α} (h : s.Fifo) {m : Stamped α}
    {outbox : TelemetryOutbox (Stamped α)}
    (hitems : s.outbox.items = m :: outbox.items) (halone : outbox.items = []) :
    (s.requeue m outbox).Fifo := by
  have hsame : (s.requeue m outbox).outbox.items = s.outbox.items := by
    rw [items_requeue hitems, hitems, halone, List.nil_append]
  obtain ⟨older, hstaged, hsublist, hevicted⟩ := h.split
  refine ⟨h.stamps, older, ?_, hsublist, hevicted⟩
  rw [hsame]
  exact hstaged

/-- Behind another message, which is newer, it is out of order. -/
theorem Fifo.not_inOrder_requeue {s : Egress α} (h : s.Fifo) {m : Stamped α}
    {outbox : TelemetryOutbox (Stamped α)}
    (hitems : s.outbox.items = m :: outbox.items) (hothers : outbox.items ≠ []) :
    ¬ (s.requeue m outbox).InOrder := by
  intro hordered
  obtain ⟨n, rest, hrest⟩ := List.exists_cons_of_ne_nil hothers
  obtain ⟨older, hstaged, -, -⟩ := h.split
  have hpairwise := h.pairwise_staged
  have hnewer : m.index < n.index := by
    rw [hstaged, hitems, hrest, List.pairwise_append, List.pairwise_cons]
      at hpairwise
    exact hpairwise.2.1.1 n List.mem_cons_self
  have hsublist : (s.requeue m outbox).outbox.items.Sublist s.staged :=
    hordered.buffered_suffix.sublist.trans List.filter_sublist
  rw [items_requeue hitems, hrest, List.cons_append] at hsublist
  have holder := h.pairwise_staged.sublist hsublist
  rw [List.pairwise_cons] at holder
  exact absurd hnewer (holder.1 m (by simp)).not_gt

theorem drain_inOrder_iff (publishes : ℕ → Bool) (rounds k : ℕ)
    {s : Egress α} (h : s.Fifo) (hrounds : s.outbox.items.length = rounds) :
    (∀ t ∈ (drain publishes rounds k s).1, t.InOrder) ↔
      ∀ j, j + 1 < rounds → publishes (k + j) = true := by
  induction rounds generalizing k s with
  | zero => simp [drain]
  | succ rounds ih =>
      obtain ⟨m, outbox, hitems, hlength, haccept, hrequeue⟩ :=
        exists_drain_of_length publishes k hrounds
      cases hpublish : publishes k with
      | true =>
          have hnext := h.accept hitems
          rw [haccept hpublish, List.forall_mem_cons,
            ih (k + 1) hnext hlength]
          constructor
          · rintro ⟨-, hlater⟩ j hj
            cases j with
            | zero => exact hpublish
            | succ j =>
                rw [Nat.add_comm j, ← Nat.add_assoc]
                exact hlater j (by omega)
          · intro hall
            refine ⟨hnext.inOrder, fun j hj => ?_⟩
            have hsucc := hall (j + 1) (by omega)
            rwa [Nat.add_comm j, ← Nat.add_assoc] at hsucc
      | false =>
          rw [hrequeue hpublish, List.forall_mem_singleton]
          by_cases halone : outbox.items = []
          · have hnone : rounds = 0 := by
              rw [← hlength, halone, List.length_nil]
            refine iff_of_true (h.requeue_alone hitems halone).inOrder ?_
            intro j hj
            omega
          · have hsome : 0 < rounds := by
              rw [← hlength]
              exact List.length_pos_iff.mpr halone
            refine iff_of_false (h.not_inOrder_requeue hitems halone) ?_
            intro hall
            have hfirst := hall 0 (by omega)
            rw [Nat.add_zero, hpublish] at hfirst
            cases hfirst

omit [DecidableEq α] in
theorem drain_fifo (publishes : ℕ → Bool) (rounds k : ℕ) {s : Egress α}
    (h : s.Fifo) (hrounds : s.outbox.items.length = rounds)
    (hretry : ∀ j, j + 1 < rounds → publishes (k + j) = true) :
    ((drain publishes rounds k s).1.getLastD s).Fifo := by
  induction rounds generalizing k s with
  | zero => exact h
  | succ rounds ih =>
      obtain ⟨m, outbox, hitems, hlength, haccept, hrequeue⟩ :=
        exists_drain_of_length publishes k hrounds
      cases hpublish : publishes k with
      | true =>
          rw [haccept hpublish, List.getLastD_cons]
          apply ih (k + 1) (h.accept hitems) hlength
          intro j hj
          have hsucc := hretry (j + 1) (by omega)
          rwa [Nat.add_comm j, ← Nat.add_assoc] at hsucc
      | false =>
          rw [hrequeue hpublish]
          apply h.requeue_alone hitems
          by_contra hothers
          have hpositive := List.length_pos_iff.mpr hothers
          have hfirst := hretry 0 (by omega)
          rw [Nat.add_zero, hpublish] at hfirst
          cases hfirst

/-! ## Whole calls and runs -/

/-- A publish of the call throws only when the message that it has taken out
was the only one in the outbox. -/
def FailsAlone (s : Egress α) (call : PublishCall α) : Prop :=
  call.connected = true →
    ∀ k, k + 1 < (s.stage call.message).outbox.size → call.publishes k = true

theorem publishTelemetry_inOrder_iff {s : Egress α} (h : s.Fifo)
    (call : PublishCall α) :
    (∀ t ∈ (s.publishTelemetry call).1, t.InOrder) ↔ s.FailsAlone call := by
  have hstage := h.stage call.message
  change (∀ t ∈ s.stage call.message ::
    ((s.stage call.message).flushOutbox call.connected call.publishes).1,
      t.InOrder) ↔ _
  rw [List.forall_mem_cons, and_iff_right hstage.inOrder]
  unfold flushOutbox FailsAlone
  cases call.connected with
  | false => simp
  | true =>
      have hdrain := drain_inOrder_iff call.publishes _ 0 hstage rfl
      simp only [Nat.zero_add] at hdrain
      simpa [DropOldestQueue.size] using hdrain

omit [DecidableEq α] in
theorem Fifo.after {s : Egress α} (h : s.Fifo) {call : PublishCall α}
    (hcall : s.FailsAlone call) : (s.after call).Fifo := by
  have hstage := h.stage call.message
  change ((s.stage call.message ::
    ((s.stage call.message).flushOutbox call.connected
      call.publishes).1).getLastD s).Fifo
  rw [List.getLastD_cons]
  unfold flushOutbox
  cases hconnected : call.connected with
  | false => exact hstage
  | true =>
      refine drain_fifo call.publishes _ 0 hstage rfl fun j hj => ?_
      rw [Nat.zero_add]
      exact hcall hconnected j hj

omit [DecidableEq α] in
theorem run_append_singleton (before : List (PublishCall α))
    (call : PublishCall α) :
    run (before ++ [call]) = (run before).after call :=
  List.foldl_append ..

omit [DecidableEq α] in
/-- The discipline holds after a run if, as long as it holds, calls fail with
a single message only. -/
theorem fifo_run (calls : List (PublishCall α))
    (hcalls : ∀ before call later, calls = before ++ call :: later →
      (run before).Fifo → (run before).FailsAlone call) :
    (run calls).Fifo := by
  induction calls using List.reverseRecOn with
  | nil => exact fifo_initial
  | append_singleton before call ih =>
      have hbefore : (run before).Fifo := by
        apply ih
        intro b c l hsplit
        apply hcalls b c (l ++ [call])
        rw [hsplit, List.append_assoc, List.cons_append]
      rw [run_append_singleton]
      exact hbefore.after (hcalls before call [] rfl hbefore)

/-- Egress is in order at every moment of a run exactly if no publish ever
fails while other messages wait behind the one that it has taken out. -/
theorem moments_inOrder_iff (calls : List (PublishCall α)) :
    (∀ before call later, calls = before ++ call :: later →
        ∀ t ∈ moments before call, t.InOrder) ↔
      ∀ before call later, calls = before ++ call :: later →
        (run before).FailsAlone call := by
  have hearlier : ∀ before call later, calls = before ++ call :: later →
      ∀ b c l, before = b ++ c :: l → calls = b ++ c :: (l ++ call :: later) := by
    intro before call later hcalls b c l hbefore
    rw [hcalls, hbefore, List.append_assoc, List.cons_append]
  constructor
  · intro hordered before call later hcalls
    have hfifo : (run before).Fifo := by
      apply fifo_run
      intro b c l hbefore hfifo
      exact (publishTelemetry_inOrder_iff hfifo c).mp
        (hordered b c _ (hearlier before call later hcalls b c l hbefore))
    exact (publishTelemetry_inOrder_iff hfifo call).mp
      (hordered before call later hcalls)
  · intro halone before call later hcalls
    have hfifo : (run before).Fifo := by
      apply fifo_run
      intro b c l hbefore _
      exact halone b c _ (hearlier before call later hcalls b c l hbefore)
    exact (publishTelemetry_inOrder_iff hfifo call).mpr
      (halone before call later hcalls)

/-- Two samples are staged while the client is not connected; in the drain of
the third call the publish of the oldest message throws. -/
def throwingCalls : List (PublishCall String) :=
  [⟨"first", false, fun _ => true⟩, ⟨"second", false, fun _ => true⟩,
    ⟨"third", true, fun _ => false⟩]

theorem throwing_calls_reorder :
    (run throwingCalls).outbox.items.map Stamped.message =
        ["second", "third", "first"] ∧
      ¬ (run throwingCalls).InOrder ∧
      ¬ ∀ before call later, throwingCalls = before ++ call :: later →
        ∀ t ∈ moments before call, t.InOrder := by
  have hitems : (run throwingCalls).outbox.items.map Stamped.message =
      ["second", "third", "first"] := by decide
  have hdisorder : ¬ (run throwingCalls).InOrder := by
    intro hordered
    have hsublist : ((run throwingCalls).outbox.items).Sublist
        (run throwingCalls).undelivered := hordered.buffered_suffix.sublist
    revert hsublist
    decide
  refine ⟨hitems, hdisorder, fun hordered => hdisorder ?_⟩
  apply hordered (throwingCalls.take 2) ⟨"third", true, fun _ => false⟩ [] rfl
  exact List.mem_of_getLast? rfl

end Egress

end Semaforo
