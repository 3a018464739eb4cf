import Mathlib.Tactic

/-!
# Greedy selection

A list is scanned once and an element is kept unless it conflicts with one kept
before, until `capacity` elements are kept.  The kept elements are independent,
every other element conflicts with a kept one or the capacity is used up, and a
smaller capacity keeps a shorter initial segment of the same elements.
-/

namespace GreedySelection

variable {ι : Type} (conflicts : ι → ι → Bool)

def blocked (kept : List ι) (x : ι) : Bool := kept.any fun e => conflicts e x

def selectUpTo (capacity : ℕ) (kept : List ι) : List ι → List ι
  | [] => kept
  | x :: rest =>
      if blocked conflicts kept x then selectUpTo capacity kept rest
      else if kept.length < capacity then
        selectUpTo capacity (kept ++ [x]) rest
      else kept

theorem selectUpTo_length_le (capacity : ℕ) :
    ∀ (items kept : List ι), kept.length ≤ capacity →
      (selectUpTo conflicts capacity kept items).length ≤ capacity := by
  intro items
  induction items with
  | nil =>
      intro kept hkept
      exact hkept
  | cons x rest ih =>
      intro kept hkept
      unfold selectUpTo
      split_ifs with hblocked hroom
      · exact ih kept hkept
      · apply ih
        rw [List.length_append, List.length_singleton]
        exact hroom
      · exact hkept

theorem selectUpTo_independent (capacity : ℕ) :
    ∀ (items kept : List ι),
      kept.Pairwise (fun e x => conflicts e x = false) →
      (selectUpTo conflicts capacity kept items).Pairwise
        (fun e x => conflicts e x = false) := by
  intro items
  induction items with
  | nil =>
      intro kept hkept
      exact hkept
  | cons x rest ih =>
      intro kept hkept
      unfold selectUpTo
      split_ifs with hblocked hroom
      · exact ih kept hkept
      · apply ih
        rw [List.pairwise_append]
        refine ⟨hkept, List.pairwise_singleton .., ?_⟩
        intro e he y hy
        rw [List.mem_singleton] at hy
        subst hy
        have hany : (kept.any fun e => conflicts e y) = false :=
          Bool.not_eq_true _ ▸ hblocked
        rw [List.any_eq_false] at hany
        exact Bool.not_eq_true _ ▸ hany e he
      · exact hkept

/-- What is kept on the way is an initial segment of the result. -/
theorem kept_prefix_selectUpTo (capacity : ℕ) :
    ∀ items kept : List ι,
      kept <+: selectUpTo conflicts capacity kept items := by
  intro items
  induction items with
  | nil =>
      intro kept
      exact List.prefix_refl kept
  | cons x rest ih =>
      intro kept
      unfold selectUpTo
      split_ifs with hblocked hroom
      · exact ih kept
      · exact (List.prefix_append kept [x]).trans (ih (kept ++ [x]))
      · exact List.prefix_refl kept

theorem selectUpTo_eq_take {capacity larger : ℕ} (hle : capacity ≤ larger) :
    ∀ (items kept : List ι), kept.length ≤ capacity →
      selectUpTo conflicts capacity kept items =
        (selectUpTo conflicts larger kept items).take capacity := by
  intro items
  induction items with
  | nil =>
      intro kept hkept
      exact (List.take_of_length_le hkept).symm
  | cons x rest ih =>
      intro kept hkept
      unfold selectUpTo
      by_cases hblocked : blocked conflicts kept x = true
      · rw [if_pos hblocked, if_pos hblocked]
        exact ih kept hkept
      rw [if_neg hblocked, if_neg hblocked]
      by_cases hroom : kept.length < capacity
      · rw [if_pos hroom, if_pos (hroom.trans_le hle)]
        apply ih
        rw [List.length_append, List.length_singleton]
        exact hroom
      · -- A full selection: the larger one goes on behind what is kept here.
        rw [if_neg hroom]
        have hlength : kept.length = capacity := by omega
        by_cases hlarger : kept.length < larger
        · rw [if_pos hlarger]
          obtain ⟨tail, htail⟩ := (List.prefix_append kept [x]).trans
            (kept_prefix_selectUpTo conflicts larger rest (kept ++ [x]))
          rw [← htail, ← hlength, List.take_left]
        · rw [if_neg hlarger, ← hlength, List.take_length]

/-- The outcome of a scan with `kept` kept before it. -/
def Outcome (before : ι → ι → Prop) (capacity : ℕ)
    (kept items result : List ι) : Prop :=
  ∃ chosen dropped, result = kept ++ chosen ∧ chosen.Sublist items ∧
    (chosen ++ dropped).Perm items ∧
    ∀ x ∈ dropped, (∃ e ∈ result, conflicts e x = true ∧ before e x) ∨
      capacity ≤ result.length

theorem selectUpTo_outcome {before : ι → ι → Prop} (capacity : ℕ) :
    ∀ items kept : List ι, items.Pairwise before →
      (∀ e ∈ kept, ∀ x ∈ items, before e x) →
      Outcome conflicts before capacity kept items
        (selectUpTo conflicts capacity kept items) := by
  intro items
  induction items with
  | nil =>
      intro kept _ _
      refine ⟨[], [], ?_, List.Sublist.refl _, List.Perm.refl _, ?_⟩
      · exact (List.append_nil kept).symm
      · intro x hx
        cases hx
  | cons x rest ih =>
      intro kept hordered hbefore
      rw [List.pairwise_cons] at hordered
      have hrest : ∀ e ∈ kept, ∀ y ∈ rest, before e y := by
        intro e he y hy
        exact hbefore e he y (List.mem_cons_of_mem x hy)
      unfold selectUpTo
      split_ifs with hblocked hroom
      · obtain ⟨chosen, dropped, hresult, hsublist, hperm, hdropped⟩ :=
          ih kept hordered.2 hrest
        obtain ⟨e, he, hconflict⟩ := List.any_eq_true.mp hblocked
        refine ⟨chosen, x :: dropped, hresult, hsublist.cons x,
          List.perm_middle.trans (hperm.cons x), ?_⟩
        intro y hy
        rcases List.mem_cons.mp hy with heq | hmem
        · left
          subst heq
          refine ⟨e, ?_, hconflict, hbefore e he y (List.mem_cons_self ..)⟩
          rw [hresult]
          exact List.mem_append_left chosen he
        · exact hdropped y hmem
      · have hkept : ∀ e ∈ kept ++ [x], ∀ y ∈ rest, before e y := by
          intro e he y hy
          rcases List.mem_append.mp he with hold | hnew
          · exact hrest e hold y hy
          · rw [List.mem_singleton] at hnew
            subst hnew
            exact hordered.1 y hy
        obtain ⟨chosen, dropped, hresult, hsublist, hperm, hdropped⟩ :=
          ih (kept ++ [x]) hordered.2 hkept
        refine ⟨x :: chosen, dropped, ?_, hsublist.cons_cons x,
          hperm.cons x, hdropped⟩
        rw [hresult, List.append_assoc]
        rfl
      · refine ⟨[], x :: rest, (List.append_nil kept).symm,
          List.nil_sublist _, List.Perm.refl _, ?_⟩
        intro y _
        right
        exact not_lt.mp hroom

end GreedySelection
