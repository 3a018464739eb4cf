import Semaforo.QueueCalls
import Semaforo.Commands
import Mathlib.Tactic

/-!
# The two bounded queues of the node

`CommandQueue` between the MQTT callback and the main loop, and
`TelemetryOutbox` between the main loop and the broker, both as drop-oldest
queues of any positive capacity.  Every method holds the mutex of its queue, so
what the two threads do is one sequence of calls.
-/

namespace Semaforo

open DropOldestQueue

structure OutboundMessage where
  topic : String
  payload : String
  qos : ℤ := 1
  retained : Bool := false
  deriving DecidableEq, Repr

/-- A call on a `CommandQueue`. -/
abbrev CommandQueueCall := DropOldestQueue.Call ParsedCommand

/-- A call on a `TelemetryOutbox`. -/
abbrev TelemetryOutboxCall := DropOldestQueue.Call OutboundMessage

/-- What holds of a queue after some calls of its producer and its consumer.
The last three fields are about the same run with stamped elements: no push is
popped twice, and a push is lost only after `capacity` newer ones. -/
structure DropsOldest {α : Type} (capacity : ℕ) [NeZero capacity]
    (calls : List (Call α)) : Prop where
  bounded : (run capacity calls).queue.size ≤ capacity
  balanced : (pushes calls).length =
    (run capacity calls).popped.length + (run capacity calls).queue.dropped +
      (run capacity calls).queue.size
  ordered : (run capacity calls).popped.Sublist (pushes calls)
  newest : (run capacity calls).queue.items =
    (pushes calls).drop
      ((pushes calls).length - (run capacity calls).queue.size)
  stamped : (run capacity (stamp calls)).Renames Prod.fst (run capacity calls)
  once : ((run capacity (stamp calls)).popped.map Prod.snd).Pairwise (· < ·)
  late : LateDrops (pushes calls).length (run capacity (stamp calls))

theorem dropsOldest {α : Type} (capacity : ℕ) [NeZero capacity]
    (calls : List (Call α)) : DropsOldest capacity calls := by
  obtain ⟨older, hpushed, hpopped, hlength⟩ :=
    (accounts_run capacity calls).split
  have hcount : (pushes calls).length =
      older.length + (run capacity calls).queue.size := by
    rw [hpushed, List.length_append]
    rfl
  refine ⟨(run capacity calls).queue.bounded, ?_, ?_, ?_,
    renames_run_stamp calls, popped_stamps_increasing calls,
    lateDrops_run calls⟩
  · rw [hcount, hlength]
  · rw [hpushed]
    exact hpopped.trans (List.sublist_append_left _ _)
  · rw [hcount, Nat.add_sub_cancel, hpushed, List.drop_left]

theorem queues_drop_oldest (capacity : ℕ) [NeZero capacity] :
    (∀ calls : List CommandQueueCall, DropsOldest capacity calls) ∧
      ∀ calls : List TelemetryOutboxCall, DropsOldest capacity calls :=
  ⟨dropsOldest capacity, dropsOldest capacity⟩

theorem queues_drop_oldest_two :
    (∀ calls : List CommandQueueCall, DropsOldest 2 calls) ∧
      ∀ calls : List TelemetryOutboxCall, DropsOldest 2 calls :=
  queues_drop_oldest 2

/-- The third push evicts the first, which can no longer be popped. -/
example : (run 2 [.push "a", .push "b", .push "c", .tryPop]).popped = ["b"] := by
  decide

end Semaforo
