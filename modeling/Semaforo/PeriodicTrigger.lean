import Mathlib.Algebra.Order.Field.Basic
import Mathlib.Data.List.Chain
import Mathlib.Tactic.Linarith
import Mathlib.Tactic.Ring

/-!
# Polled periodic triggers

A loop polls a clock and fires when an interval has passed since the mark of the
last firing.  A poll may not be ready, in which case a due trigger stays due, and
it may force a firing.  The rules bound the distance between two firings from
below by the interval and from above by the interval and the period of the loop.
-/

structure Trigger (Poll Time : Type*) where
  interval : Time
  /-- The instant at which a poll reads the clock. -/
  now : Poll → Time
  /-- The instant that a firing leaves behind. -/
  mark : Poll → Time
  ready : Poll → Bool
  forced : Poll → Bool

namespace Trigger

variable {Poll Time : Type*}

section Firings

variable [Sub Time] [LE Time] [DecidableLE Time] (tr : Trigger Poll Time)

def Due (last : Time) (p : Poll) : Prop :=
  tr.interval ≤ tr.now p - last

def Fires (last : Time) (p : Poll) : Prop :=
  tr.forced p = true ∨ (tr.Due last p ∧ tr.ready p = true)

instance (last : Time) (p : Poll) : Decidable (tr.Fires last p) :=
  inferInstanceAs (Decidable (tr.forced p = true ∨
    (tr.interval ≤ tr.now p - last ∧ tr.ready p = true)))

/-- The polls that fire, when `last` is the mark of the firing before them. -/
def firings : Time → List Poll → List Poll
  | _, [] => []
  | last, p :: polls =>
      if tr.Fires last p then p :: firings (tr.mark p) polls
      else firings last polls

variable {tr}

theorem firings_of_fires {last : Time} {p : Poll} (hp : tr.Fires last p)
    (polls : List Poll) :
    tr.firings last (p :: polls) = p :: tr.firings (tr.mark p) polls :=
  if_pos hp

theorem firings_of_not_fires {last : Time} {p : Poll} (hp : ¬ tr.Fires last p)
    (polls : List Poll) :
    tr.firings last (p :: polls) = tr.firings last polls :=
  if_neg hp

theorem mem_firings {last : Time} {polls : List Poll} {p : Poll}
    (hp : p ∈ tr.firings last polls) :
    p ∈ polls ∧ (tr.forced p = true ∨ tr.ready p = true) := by
  induction polls generalizing last with
  | nil => cases hp
  | cons q polls ih =>
      by_cases hq : tr.Fires last q
      · rw [firings_of_fires hq] at hp
        rcases List.mem_cons.mp hp with rfl | hmem
        · exact ⟨List.mem_cons_self .., hq.imp id And.right⟩
        · exact ⟨List.mem_cons_of_mem q (ih hmem).1, (ih hmem).2⟩
      · rw [firings_of_not_fires hq] at hp
        exact ⟨List.mem_cons_of_mem q (ih hp).1, (ih hp).2⟩

theorem fires_of_head? {last : Time} {polls : List Poll} {p : Poll}
    (hp : p ∈ (tr.firings last polls).head?) : tr.Fires last p := by
  induction polls generalizing last with
  | nil => cases hp
  | cons q polls ih =>
      by_cases hq : tr.Fires last q
      · rw [firings_of_fires hq, List.head?_cons, Option.mem_some_iff] at hp
        exact hp ▸ hq
      · rw [firings_of_not_fires hq] at hp
        exact ih hp

/-- Lower rule: every firing was due by the mark of the one before it. -/
theorem isChain_firings (last : Time) (polls : List Poll) :
    (tr.firings last polls).IsChain fun p q => tr.Fires (tr.mark p) q := by
  induction polls generalizing last with
  | nil => exact List.IsChain.nil
  | cons p polls ih =>
      by_cases hp : tr.Fires last p
      · rw [firings_of_fires hp]
        exact List.IsChain.cons (ih _) fun q hq => fires_of_head? hq
      · rw [firings_of_not_fires hp]
        exact ih last

end Firings

variable [Field Time] [LinearOrder Time] [IsStrictOrderedRing Time]
  {tr : Trigger Poll Time} {period : Time}

/-- Consecutive polls are at most `period` apart. -/
def Polled (tr : Trigger Poll Time) (period : Time) (polls : List Poll) : Prop :=
  polls.IsChain fun p q => tr.now q - tr.now p ≤ period

instance (tr : Trigger Poll Time) (period : Time) (polls : List Poll) :
    Decidable (tr.Polled period polls) :=
  inferInstanceAs (Decidable (polls.IsChain _))

omit [IsStrictOrderedRing Time] in
theorem not_due_of_not_fires {last : Time} {p : Poll}
    (hready : tr.ready p = true) (hp : ¬ tr.Fires last p) :
    tr.now p - last < tr.interval := by
  by_contra hdue
  exact hp (Or.inr ⟨not_lt.mp hdue, hready⟩)

/-- The next firing after a poll at `prev` that had nothing due. -/
theorem head?_firings_lt {last prev : Time} {polls : List Poll}
    (hprev : prev - last < tr.interval)
    (hfirst : ∀ p ∈ polls.head?, tr.now p - prev ≤ period)
    (hpolled : tr.Polled period polls)
    (hready : ∀ p ∈ polls, tr.ready p = true) {q : Poll}
    (hq : q ∈ (tr.firings last polls).head?) :
    tr.now q - last < tr.interval + period := by
  induction polls generalizing prev with
  | nil => cases hq
  | cons p polls ih =>
      have hp := hfirst p rfl
      by_cases hfires : tr.Fires last p
      · rw [firings_of_fires hfires, List.head?_cons,
          Option.mem_some_iff] at hq
        subst hq
        linarith
      · rw [firings_of_not_fires hfires] at hq
        refine ih (not_due_of_not_fires (hready p (List.mem_cons_self ..)) hfires)
          ?_ hpolled.tail (fun q hq => hready q (List.mem_cons_of_mem p hq)) hq
        intro q hq
        exact (List.isChain_cons.mp hpolled).1 q hq

/-- Upper rule: a trigger that is always ready fires again before the interval
and one period of the loop have passed. -/
theorem isChain_firings_lt (hinterval : 0 < tr.interval) {polls : List Poll}
    (hpolled : tr.Polled period polls)
    (hready : ∀ p ∈ polls, tr.ready p = true)
    (hmark : ∀ p ∈ polls, tr.now p ≤ tr.mark p) (last : Time) :
    (tr.firings last polls).IsChain fun p q =>
      tr.now q - tr.mark p < tr.interval + period := by
  induction polls generalizing last with
  | nil => exact List.IsChain.nil
  | cons p polls ih =>
      have hrest := ih hpolled.tail
        (fun q hq => hready q (List.mem_cons_of_mem p hq))
        (fun q hq => hmark q (List.mem_cons_of_mem p hq))
      by_cases hfires : tr.Fires last p
      · rw [firings_of_fires hfires]
        refine List.IsChain.cons (hrest _) fun q hq => ?_
        have hp := hmark p (List.mem_cons_self ..)
        have hfresh : tr.now p - tr.mark p < tr.interval := by linarith
        refine head?_firings_lt hfresh ?_ hpolled.tail
          (fun q hq => hready q (List.mem_cons_of_mem p hq)) hq
        exact fun q hq => (List.isChain_cons.mp hpolled).1 q hq
      · rw [firings_of_not_fires hfires]
        exact hrest last

end Trigger

/-- Steps of at least `a` add up. -/
theorem mul_le_sub_of_isChain {α Time : Type*} [Field Time] [LinearOrder Time]
    [IsStrictOrderedRing Time] {f : α → Time} {a : Time} {l : List α}
    (hchain : l.IsChain fun x y => a ≤ f y - f x) {i k : ℕ} {x y : α}
    (hx : l[i]? = some x) (hy : l[i + k]? = some y) : k * a ≤ f y - f x := by
  induction k generalizing y with
  | zero =>
      rw [Nat.add_zero, hx, Option.some.injEq] at hy
      simp [hy]
  | succ k ih =>
      obtain ⟨hlt, hlast⟩ := List.getElem?_eq_some_iff.mp hy
      have hbefore : l[i + k]? = some l[i + k] :=
        List.getElem?_eq_getElem (by omega)
      have hstep := (List.isChain_iff_getElem.mp hchain) (i + k) (by omega)
      have hrest := ih hbefore
      simp only [Nat.add_assoc] at hstep
      rw [hlast] at hstep
      push_cast
      linarith

/-- Steps of at most `a` add up. -/
theorem sub_le_mul_of_isChain {α Time : Type*} [Field Time] [LinearOrder Time]
    [IsStrictOrderedRing Time] {f : α → Time} {a : Time} {l : List α}
    (hchain : l.IsChain fun x y => f y - f x ≤ a) {i k : ℕ} {x y : α}
    (hx : l[i]? = some x) (hy : l[i + k]? = some y) : f y - f x ≤ k * a := by
  have hneg := mul_le_sub_of_isChain (f := fun z => - f z) (a := -a)
    (hchain.imp fun u v huv => by linarith) hx hy
  linarith
