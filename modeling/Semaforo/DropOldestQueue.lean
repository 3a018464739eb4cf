import Mathlib.Tactic

/-!
# Bounded queues that drop their oldest element

A queue of at most `capacity` elements, oldest first.  A push into a full queue
evicts the front and counts it.  The bound is part of the type.
-/

structure DropOldestQueue (α : Type*) (capacity : ℕ) where
  items : List α
  dropped : ℕ
  bounded : items.length ≤ capacity
  deriving DecidableEq, Repr

namespace DropOldestQueue

variable {α : Type*} {capacity : ℕ}

def empty : DropOldestQueue α capacity := ⟨[], 0, Nat.zero_le capacity⟩

def size (q : DropOldestQueue α capacity) : ℕ := q.items.length

def push [NeZero capacity] (q : DropOldestQueue α capacity) (x : α) :
    DropOldestQueue α capacity :=
  if h : capacity ≤ q.items.length then
    ⟨q.items.tail ++ [x], q.dropped + 1, by
      have hbounded := q.bounded
      have hcapacity := Nat.pos_of_neZero capacity
      simp only [List.length_append, List.length_tail, List.length_singleton]
      omega⟩
  else
    ⟨q.items ++ [x], q.dropped, by
      simp only [List.length_append, List.length_singleton]
      omega⟩

/-- The oldest element and the queue without it, or `none` if there is none. -/
def tryPop (q : DropOldestQueue α capacity) :
    Option (α × DropOldestQueue α capacity) :=
  match h : q.items with
  | [] => none
  | x :: rest => some (x, ⟨rest, q.dropped, by
      have hbounded := q.bounded
      rw [h, List.length_cons] at hbounded
      omega⟩)

@[simp] theorem items_empty :
    (empty : DropOldestQueue α capacity).items = [] := rfl

theorem items_push_of_lt [NeZero capacity] {q : DropOldestQueue α capacity}
    (h : q.items.length < capacity) (x : α) :
    (q.push x).items = q.items ++ [x] := by
  rw [push, dif_neg (Nat.not_le.mpr h)]

theorem items_push_of_full [NeZero capacity] {q : DropOldestQueue α capacity}
    (h : capacity ≤ q.items.length) (x : α) :
    (q.push x).items = q.items.tail ++ [x] := by
  rw [push, dif_pos h]

theorem tryPop_eq_none_iff {q : DropOldestQueue α capacity} :
    q.tryPop = none ↔ q.items = [] := by
  unfold tryPop
  split
  · simp [*]
  · simp [*]

theorem tryPop_eq_some {q : DropOldestQueue α capacity} {x : α}
    {rest : List α} (h : q.items = x :: rest) :
    ∃ r, q.tryPop = some (x, r) ∧ r.items = rest ∧ r.dropped = q.dropped := by
  unfold tryPop
  split
  · simp_all
  · rename_i y later heq
    obtain ⟨rfl, rfl⟩ := List.cons.inj (heq.symm.trans h)
    exact ⟨_, rfl, rfl, rfl⟩

end DropOldestQueue
