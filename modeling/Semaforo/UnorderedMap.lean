import Mathlib.Data.List.Nodup
import Mathlib.Data.List.Perm.Basic
import Mathlib.Tactic

/-!
# Hash maps in the order they are walked

A map is the list of its entries in iteration order, with distinct keys.
Assigning to a new key may move every entry, so the order after it is whatever
a rearrangement makes of it; erasing keeps the order of what stays.
-/

structure UnorderedMap (κ β : Type) where
  entries : List (κ × β)
  nodup : (entries.map Prod.fst).Nodup

namespace UnorderedMap

variable {κ β : Type}

/-- Where a hash table puts its entries. -/
structure Rearrangement (κ β : Type) where
  place : List (κ × β) → List (κ × β)
  perm : ∀ l, (place l).Perm l

def keys (m : UnorderedMap κ β) : List κ := m.entries.map Prod.fst

def empty : UnorderedMap κ β := ⟨[], List.nodup_nil⟩

def get? [DecidableEq κ] (m : UnorderedMap κ β) (k : κ) : Option β :=
  (m.entries.find? fun e => e.1 = k).map Prod.snd

def transform (f : β → β) (m : UnorderedMap κ β) : UnorderedMap κ β where
  entries := m.entries.map fun e => (e.1, f e.2)
  nodup := by
    rw [List.map_map]
    exact m.nodup

def modify [DecidableEq κ] (k : κ) (f : β → β) (m : UnorderedMap κ β) :
    UnorderedMap κ β where
  entries := m.entries.map fun e => (e.1, if e.1 = k then f e.2 else e.2)
  nodup := by
    rw [List.map_map]
    exact m.nodup

theorem keys_filter_nodup (m : UnorderedMap κ β) (p : κ × β → Bool) :
    ((m.entries.filter p).map Prod.fst).Nodup :=
  m.nodup.sublist (List.filter_sublist.map _)

/-- `m[k] = v`, the entry last. -/
def assign [DecidableEq κ] (k : κ) (v : β) (m : UnorderedMap κ β) :
    UnorderedMap κ β where
  entries := m.entries.filter (fun e => e.1 ≠ k) ++ [(k, v)]
  nodup := by
    rw [List.map_append, List.nodup_append]
    refine ⟨m.keys_filter_nodup _, List.nodup_singleton k, ?_⟩
    intro a ha b hb heq
    obtain ⟨e, he, rfl⟩ := List.mem_map.mp ha
    have hne := (List.mem_filter.mp he).2
    rw [List.map_singleton, List.mem_singleton] at hb
    exact of_decide_eq_true hne (heq.trans hb)

def eraseIf (p : β → Bool) (m : UnorderedMap κ β) : UnorderedMap κ β where
  entries := m.entries.filter fun e => !p e.2
  nodup := m.keys_filter_nodup _

def rearrange (r : Rearrangement κ β) (m : UnorderedMap κ β) :
    UnorderedMap κ β where
  entries := r.place m.entries
  nodup := ((r.perm m.entries).map Prod.fst).nodup_iff.mpr m.nodup

theorem mem_keys {m : UnorderedMap κ β} {k : κ} :
    k ∈ m.keys ↔ ∃ v, (k, v) ∈ m.entries := by
  simp [keys]

theorem mem_keys_of_mem {m : UnorderedMap κ β} {k : κ} {v : β}
    (h : (k, v) ∈ m.entries) : k ∈ m.keys :=
  mem_keys.mpr ⟨v, h⟩

theorem eq_of_mem {m : UnorderedMap κ β} {k : κ} {v w : β}
    (hv : (k, v) ∈ m.entries) (hw : (k, w) ∈ m.entries) : v = w :=
  congrArg Prod.snd (List.inj_on_of_nodup_map m.nodup hv hw rfl)

theorem get?_eq_some_iff [DecidableEq κ] {m : UnorderedMap κ β} {k : κ} {v : β} :
    m.get? k = some v ↔ (k, v) ∈ m.entries := by
  constructor
  · intro h
    obtain ⟨⟨k', v'⟩, hfind, rfl⟩ := Option.map_eq_some_iff.mp h
    obtain rfl : k' = k := of_decide_eq_true
      (List.find?_some (p := fun e : κ × β => e.1 = k) hfind)
    exact List.mem_of_find?_eq_some hfind
  · intro h
    cases hfind : m.entries.find? fun e => e.1 = k with
    | none =>
        rw [List.find?_eq_none] at hfind
        exact absurd (decide_eq_true rfl) (hfind _ h)
    | some e =>
        obtain ⟨k', v'⟩ := e
        obtain rfl : k' = k := of_decide_eq_true
          (List.find?_some (p := fun e : κ × β => e.1 = k) hfind)
        rw [get?, hfind, eq_of_mem (List.mem_of_find?_eq_some hfind) h]
        rfl

theorem entries_assign [DecidableEq κ] {m : UnorderedMap κ β} {k : κ} (v : β)
    (h : k ∉ m.keys) : (m.assign k v).entries = m.entries ++ [(k, v)] := by
  have hkept : m.entries.filter (fun e => e.1 ≠ k) = m.entries := by
    refine List.filter_eq_self.mpr fun e he => decide_eq_true ?_
    rintro rfl
    exact h (mem_keys_of_mem he)
  exact congrArg (· ++ [(k, v)]) hkept

@[simp] theorem keys_transform (f : β → β) (m : UnorderedMap κ β) :
    (m.transform f).keys = m.keys := by
  simp [keys, transform]

@[simp] theorem keys_modify [DecidableEq κ] (k : κ) (f : β → β)
    (m : UnorderedMap κ β) : (m.modify k f).keys = m.keys := by
  simp [keys, modify]

theorem keys_assign [DecidableEq κ] {m : UnorderedMap κ β} {k : κ} (v : β)
    (h : k ∉ m.keys) : (m.assign k v).keys = m.keys ++ [k] := by
  rw [keys, entries_assign v h, List.map_append]
  rfl

theorem mem_eraseIf {p : β → Bool} {m : UnorderedMap κ β} {k : κ} {v : β} :
    (k, v) ∈ (m.eraseIf p).entries ↔ (k, v) ∈ m.entries ∧ p v = false := by
  simp [eraseIf, List.mem_filter]

theorem mem_rearrange {r : Rearrangement κ β} {m : UnorderedMap κ β} {e : κ × β} :
    e ∈ (m.rearrange r).entries ↔ e ∈ m.entries :=
  (r.perm m.entries).mem_iff

theorem mem_transform {f : β → β} {m : UnorderedMap κ β} {k : κ} {v : β} :
    (k, v) ∈ (m.transform f).entries ↔ ∃ w, (k, w) ∈ m.entries ∧ f w = v := by
  simp [transform]

end UnorderedMap
