import Semaforo.DropOldestQueue
import Mathlib.Tactic

/-!
# Calls on a drop-oldest queue

What a sequence of pushes and pops leaves in a `DropOldestQueue` and what it
takes out.  Calls of several threads that each hold a lock are such a sequence,
in the order in which the lock is taken.  Elements that look alike are told
apart by the position of their push.
-/

namespace DropOldestQueue

inductive Call (α : Type*) where
  | push (x : α)
  | tryPop
  deriving DecidableEq, Repr

/-- The queue after some calls, and what the successful pops have returned. -/
structure Outcome (α : Type*) (capacity : ℕ) where
  queue : DropOldestQueue α capacity
  popped : List α
  deriving DecidableEq, Repr

variable {α β : Type*} {capacity : ℕ}

def pushes : List (Call α) → List α
  | [] => []
  | .push x :: calls => x :: pushes calls
  | .tryPop :: calls => pushes calls

/-- Every pushed element is paired with the number of pushes before it,
counted from `n`. -/
def stampFrom : ℕ → List (Call α) → List (Call (α × ℕ))
  | _, [] => []
  | n, .push x :: calls => .push (x, n) :: stampFrom (n + 1) calls
  | n, .tryPop :: calls => .tryPop :: stampFrom n calls

def stamp (calls : List (Call α)) : List (Call (α × ℕ)) := stampFrom 0 calls

def Outcome.call [NeZero capacity] (s : Outcome α capacity) :
    Call α → Outcome α capacity
  | .push x => { s with queue := s.queue.push x }
  | .tryPop =>
      match s.queue.tryPop with
      | none => s
      | some (x, queue) => ⟨queue, s.popped ++ [x]⟩

variable (capacity) in
def run [NeZero capacity] (calls : List (Call α)) : Outcome α capacity :=
  calls.foldl Outcome.call ⟨empty, []⟩

@[simp] theorem pushes_append (first second : List (Call α)) :
    pushes (first ++ second) = pushes first ++ pushes second := by
  induction first with
  | nil => rfl
  | cons c calls ih => cases c <;> simp [pushes, ih]

theorem stampFrom_append (n : ℕ) (first second : List (Call α)) :
    stampFrom n (first ++ second) =
      stampFrom n first ++ stampFrom (n + (pushes first).length) second := by
  induction first generalizing n with
  | nil => rfl
  | cons c calls ih =>
      cases c with
      | push x =>
          rw [List.cons_append, stampFrom, ih, pushes, List.length_cons,
            stampFrom, List.cons_append, Nat.add_assoc, Nat.add_comm 1]
      | tryPop => rw [List.cons_append, stampFrom, ih, pushes, stampFrom,
          List.cons_append]

theorem stamp_append_push (calls : List (Call α)) (x : α) :
    stamp (calls ++ [.push x]) =
      stamp calls ++ [.push (x, (pushes calls).length)] := by
  rw [stamp, stampFrom_append, Nat.zero_add]
  rfl

theorem stamp_append_tryPop (calls : List (Call α)) :
    stamp (calls ++ [.tryPop]) = stamp calls ++ [.tryPop] :=
  stampFrom_append 0 calls [.tryPop]

theorem pushes_append_tryPop (calls : List (Call α)) :
    pushes (calls ++ [.tryPop]) = pushes calls := by
  rw [pushes_append]
  exact List.append_nil _

theorem pushes_stampFrom (n : ℕ) (calls : List (Call α)) :
    pushes (stampFrom n calls) = (pushes calls).zipIdx n := by
  induction calls generalizing n with
  | nil => rfl
  | cons c calls ih =>
      cases c <;> simp [stampFrom, pushes, ih, List.zipIdx_cons]

theorem pushes_stamp (calls : List (Call α)) :
    pushes (stamp calls) = (pushes calls).zipIdx :=
  pushes_stampFrom 0 calls

theorem run_append_singleton [NeZero capacity] (calls : List (Call α))
    (c : Call α) : run capacity (calls ++ [c]) = (run capacity calls).call c :=
  List.foldl_append ..

/-! ## What is in the queue and what has left it -/

/-- The pushed elements are those that have left the queue and then those that
are in it; the popped ones are among the first, and the others were dropped. -/
structure Accounts (pushed : List α) (s : Outcome α capacity) : Prop where
  intro ::
  split : ∃ older, pushed = older ++ s.queue.items ∧
    s.popped.Sublist older ∧
    older.length = s.popped.length + s.queue.dropped

theorem Accounts.push [NeZero capacity] {pushed : List α}
    {s : Outcome α capacity} (h : Accounts pushed s) (x : α) :
    Accounts (pushed ++ [x]) (s.call (.push x)) := by
  obtain ⟨older, rfl, hpopped, hlength⟩ := h.split
  by_cases hfull : capacity ≤ s.queue.items.length
  · have hsome : s.queue.items ≠ [] := by
      have hcapacity := Nat.pos_of_neZero capacity
      apply List.ne_nil_of_length_pos
      omega
    refine ⟨older ++ [s.queue.items.head hsome], ?_, ?_, ?_⟩
    · show _ = _ ++ (s.queue.push x).items
      rw [items_push_of_full hfull, List.append_assoc, List.append_assoc,
        List.singleton_append, ← List.cons_append, List.cons_head_tail]
    · exact hpopped.trans (List.sublist_append_left _ _)
    · have hdropped : (s.queue.push x).dropped = s.queue.dropped + 1 := by
        rw [DropOldestQueue.push, dif_pos hfull]
      show _ = s.popped.length + (s.queue.push x).dropped
      rw [hdropped, List.length_append, hlength, List.length_singleton,
        Nat.add_assoc]
  · refine ⟨older, ?_, hpopped, ?_⟩
    · show _ = _ ++ (s.queue.push x).items
      rw [items_push_of_lt (Nat.not_le.mp hfull), List.append_assoc]
    · have hdropped : (s.queue.push x).dropped = s.queue.dropped := by
        rw [DropOldestQueue.push, dif_neg hfull]
      show _ = s.popped.length + (s.queue.push x).dropped
      rw [hdropped, hlength]

theorem Outcome.call_tryPop_of_nil [NeZero capacity] {s : Outcome α capacity}
    (hitems : s.queue.items = []) : s.call .tryPop = s := by
  rw [Outcome.call, tryPop_eq_none_iff.mpr hitems]

theorem Outcome.call_tryPop_of_cons [NeZero capacity] {s : Outcome α capacity}
    {x : α} {rest : List α} (hitems : s.queue.items = x :: rest) :
    (s.call .tryPop).queue.items = rest ∧
      (s.call .tryPop).queue.dropped = s.queue.dropped ∧
      (s.call .tryPop).popped = s.popped ++ [x] := by
  obtain ⟨q, hpop, hrest, hdropped⟩ := tryPop_eq_some hitems
  rw [Outcome.call, hpop]
  exact ⟨hrest, hdropped, rfl⟩

theorem Accounts.tryPop [NeZero capacity] {pushed : List α}
    {s : Outcome α capacity} (h : Accounts pushed s) :
    Accounts pushed (s.call .tryPop) := by
  obtain ⟨older, hpushed, hpopped, hlength⟩ := h.split
  cases hitems : s.queue.items with
  | nil =>
      rw [Outcome.call_tryPop_of_nil hitems]
      exact h
  | cons x rest =>
      obtain ⟨hrest, hdropped, hreturned⟩ := Outcome.call_tryPop_of_cons hitems
      refine ⟨older ++ [x], ?_, ?_, ?_⟩
      · rw [hpushed, hitems, hrest, List.append_assoc, List.singleton_append]
      · rw [hreturned]
        exact hpopped.append (List.Sublist.refl [x])
      · rw [hreturned, hdropped, List.length_append, List.length_append,
          hlength, List.length_singleton]
        omega

variable (capacity) in
theorem accounts_run [NeZero capacity] (calls : List (Call α)) :
    Accounts (pushes calls) (run capacity calls) := by
  induction calls using List.reverseRecOn with
  | nil => exact ⟨[], rfl, List.Sublist.refl _, rfl⟩
  | append_singleton calls c ih =>
      rw [run_append_singleton]
      cases c with
      | push x =>
          rw [pushes_append]
          exact ih.push x
      | tryPop =>
          rw [pushes_append_tryPop]
          exact ih.tryPop

/-! ## Stamped elements -/

/-- An element that was dropped has been followed by `capacity` newer ones. -/
def LateDrops (pushed : ℕ) (s : Outcome (α × ℕ) capacity) : Prop :=
  ∀ k < pushed, (∀ m ∈ s.popped, m.2 ≠ k) → (∀ m ∈ s.queue.items, m.2 ≠ k) →
    k + capacity < pushed

theorem index_eq_length_of_split {l : List α} {older newer : List (α × ℕ)}
    {m : α × ℕ} (hsplit : l.zipIdx = older ++ m :: newer) :
    m.2 = older.length := by
  have hat : l.zipIdx[older.length]? = some m := by
    rw [hsplit, List.getElem?_append_right le_rfl, Nat.sub_self]
    rfl
  rw [List.getElem?_zipIdx, Nat.zero_add] at hat
  obtain ⟨x, _, rfl⟩ := Option.map_eq_some_iff.mp hat
  rfl

theorem LateDrops.push [NeZero capacity] {l : List α}
    {s : Outcome (α × ℕ) capacity} (h : LateDrops l.length s)
    (hs : Accounts l.zipIdx s) (x : α) :
    LateDrops (l.length + 1) (s.call (.push (x, l.length))) := by
  intro k hk hpopped hitems
  change ∀ m ∈ (s.queue.push (x, l.length)).items, m.2 ≠ k at hitems
  have hne : l.length ≠ k := by
    refine hitems (x, l.length) ?_
    by_cases hfull : capacity ≤ s.queue.items.length
    · rw [items_push_of_full hfull]
      exact List.mem_append_right _ (List.mem_singleton_self _)
    · rw [items_push_of_lt (Nat.not_le.mp hfull)]
      exact List.mem_append_right _ (List.mem_singleton_self _)
  by_cases hheld : ∀ m ∈ s.queue.items, m.2 ≠ k
  · have hbefore := h k (by omega) hpopped hheld
    omega
  -- the element was in the queue, so it is the front that this push evicts
  · push Not at hheld
    obtain ⟨m, hm, rfl⟩ := hheld
    by_cases hfull : capacity ≤ s.queue.items.length
    · rw [items_push_of_full hfull] at hitems
      cases hqueue : s.queue.items with
      | nil =>
          rw [hqueue] at hm
          exact absurd hm List.not_mem_nil
      | cons front rest =>
          rw [hqueue, List.tail_cons] at hitems
          rw [hqueue] at hm
          obtain rfl : m = front := by
            rcases List.mem_cons.mp hm with hfront | hrest
            · exact hfront
            · exact absurd rfl (hitems m (List.mem_append_left _ hrest))
          obtain ⟨older, hsplit, -, -⟩ := hs.split
          have hcount := congrArg List.length hsplit
          rw [hqueue] at hsplit
          rw [index_eq_length_of_split hsplit]
          rw [List.length_zipIdx, List.length_append] at hcount
          have hbounded := s.queue.bounded
          omega
    · rw [items_push_of_lt (Nat.not_le.mp hfull)] at hitems
      exact absurd rfl (hitems m (List.mem_append_left _ hm))

theorem LateDrops.tryPop [NeZero capacity] {n : ℕ}
    {s : Outcome (α × ℕ) capacity} (h : LateDrops n s) :
    LateDrops n (s.call .tryPop) := by
  cases hqueue : s.queue.items with
  | nil =>
      rw [Outcome.call_tryPop_of_nil hqueue]
      exact h
  | cons m rest =>
      obtain ⟨hrest, -, hreturned⟩ := Outcome.call_tryPop_of_cons hqueue
      intro k hk hpopped hitems
      rw [hreturned] at hpopped
      rw [hrest] at hitems
      refine h k hk (fun y hy => hpopped y (List.mem_append_left _ hy)) ?_
      rw [hqueue]
      intro y hy
      rcases List.mem_cons.mp hy with rfl | hy
      · exact hpopped y (List.mem_append_right _ (List.mem_singleton_self y))
      · exact hitems y hy

theorem lateDrops_run [NeZero capacity] (calls : List (Call α)) :
    LateDrops (pushes calls).length (run capacity (stamp calls)) := by
  induction calls using List.reverseRecOn with
  | nil => exact fun k hk => absurd hk (Nat.not_lt_zero k)
  | append_singleton calls c ih =>
      have haccounts : Accounts (pushes calls).zipIdx
          (run capacity (stamp calls)) := by
        rw [← pushes_stamp]
        exact accounts_run _ _
      cases c with
      | push x =>
          rw [stamp_append_push, run_append_singleton, pushes_append,
            List.length_append]
          exact ih.push haccounts x
      | tryPop =>
          rw [stamp_append_tryPop, run_append_singleton, pushes_append_tryPop]
          exact ih.tryPop

theorem popped_stamps_increasing [NeZero capacity] (calls : List (Call α)) :
    ((run capacity (stamp calls)).popped.map Prod.snd).Pairwise (· < ·) := by
  obtain ⟨older, hpushed, hpopped, -⟩ :=
    (accounts_run capacity (stamp calls)).split
  rw [pushes_stamp] at hpushed
  have hsublist : (run capacity (stamp calls)).popped.Sublist
      (pushes calls).zipIdx := by
    rw [hpushed]
    exact hpopped.trans (List.sublist_append_left _ _)
  have hrange := List.pairwise_lt_range' (s := 0) (n := (pushes calls).length)
  rw [← List.zipIdx_map_snd 0 (pushes calls)] at hrange
  exact hrange.sublist (hsublist.map Prod.snd)

/-! ## Forgetting the stamps -/

/-- The elements of a queue do not influence it, so they can be renamed. -/
def Outcome.Renames (f : α → β) (s : Outcome α capacity)
    (t : Outcome β capacity) : Prop :=
  t.queue.items = s.queue.items.map f ∧ t.queue.dropped = s.queue.dropped ∧
    t.popped = s.popped.map f

theorem Outcome.Renames.push [NeZero capacity] {f : α → β}
    {s : Outcome α capacity} {t : Outcome β capacity} (h : s.Renames f t)
    (x : α) : (s.call (.push x)).Renames f (t.call (.push (f x))) := by
  obtain ⟨hitems, hdropped, hpopped⟩ := h
  have hlength : t.queue.items.length = s.queue.items.length := by
    rw [hitems, List.length_map]
  by_cases hfull : capacity ≤ s.queue.items.length
  · have hfull' : capacity ≤ t.queue.items.length := hlength ▸ hfull
    refine ⟨?_, ?_, hpopped⟩
    · show (t.queue.push (f x)).items = (s.queue.push x).items.map f
      rw [items_push_of_full hfull, items_push_of_full hfull', hitems,
        List.map_append, List.map_tail]
      rfl
    · show (t.queue.push (f x)).dropped = (s.queue.push x).dropped
      rw [DropOldestQueue.push, dif_pos hfull', DropOldestQueue.push,
        dif_pos hfull, hdropped]
  · have hfull' : ¬ capacity ≤ t.queue.items.length := hlength ▸ hfull
    refine ⟨?_, ?_, hpopped⟩
    · show (t.queue.push (f x)).items = (s.queue.push x).items.map f
      rw [items_push_of_lt (Nat.not_le.mp hfull),
        items_push_of_lt (Nat.not_le.mp hfull'), hitems, List.map_append]
      rfl
    · show (t.queue.push (f x)).dropped = (s.queue.push x).dropped
      rw [DropOldestQueue.push, dif_neg hfull', DropOldestQueue.push,
        dif_neg hfull, hdropped]

theorem Outcome.Renames.tryPop [NeZero capacity] {f : α → β}
    {s : Outcome α capacity} {t : Outcome β capacity} (h : s.Renames f t) :
    (s.call .tryPop).Renames f (t.call .tryPop) := by
  obtain ⟨hitems, hdropped, hpopped⟩ := h
  cases hqueue : s.queue.items with
  | nil =>
      rw [hqueue, List.map_nil] at hitems
      rw [Outcome.call_tryPop_of_nil hqueue, Outcome.call_tryPop_of_nil hitems]
      exact ⟨by rw [hitems, hqueue, List.map_nil], hdropped, hpopped⟩
  | cons x rest =>
      rw [hqueue, List.map_cons] at hitems
      obtain ⟨hrest, hcount, hreturned⟩ := Outcome.call_tryPop_of_cons hqueue
      obtain ⟨hrest', hcount', hreturned'⟩ := Outcome.call_tryPop_of_cons hitems
      refine ⟨?_, ?_, ?_⟩
      · rw [hrest, hrest']
      · rw [hcount, hcount', hdropped]
      · rw [hreturned, hreturned', hpopped, List.map_append, List.map_singleton]

/-- The run on stamped elements is the run, with stamps. -/
theorem renames_run_stamp [NeZero capacity] (calls : List (Call α)) :
    (run capacity (stamp calls)).Renames Prod.fst (run capacity calls) := by
  induction calls using List.reverseRecOn with
  | nil => exact ⟨rfl, rfl, rfl⟩
  | append_singleton calls c ih =>
      rw [run_append_singleton]
      cases c with
      | push x =>
          rw [stamp_append_push, run_append_singleton]
          exact ih.push _
      | tryPop =>
          rw [stamp_append_tryPop, run_append_singleton]
          exact ih.tryPop

end DropOldestQueue
