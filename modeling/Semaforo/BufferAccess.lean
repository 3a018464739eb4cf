import Mathlib.Tactic

/-!
# Routines over a buffer

A routine reads a buffer by index and computes indices in unsigned 64-bit
arithmetic.  A read outside the buffer ends the run without a value, and a sum
or product that wraps around is recorded beside the reads.  `Routine.Delivers`
is the total-correctness rule: a value, and nothing on record but reads inside
the buffer.
-/

namespace BufferAccess

/-- What a run has done to the memory and to the arithmetic. -/
inductive Access where
  | read (index : ℕ)
  | overflow
  deriving DecidableEq, Repr

structure Run (β : Type) where
  accesses : List Access
  /-- `none` after a read outside the buffer. -/
  value : Option β
  deriving DecidableEq, Repr

def Routine (α β : Type) : Type := List α → Run β

namespace Routine

variable {α β γ : Type}

def give (b : β) : Routine α β := fun _ => ⟨[], some b⟩

def andThen (m : Routine α β) (next : β → Routine α γ) : Routine α γ :=
  fun data =>
    match (m data).value with
    | none => ⟨(m data).accesses, none⟩
    | some b =>
        ⟨(m data).accesses ++ (next b data).accesses, (next b data).value⟩

instance : Monad (Routine α) where
  pure := give
  bind := andThen

def load (index : ℕ) : Routine α α := fun data => ⟨[.read index], data[index]?⟩

/-- An unsigned 64-bit result, wrapped around where it does not fit. -/
def wrap (total : ℕ) : Routine α ℕ :=
  fun _ => ⟨if total < 2 ^ 64 then [] else [.overflow], some (total % 2 ^ 64)⟩

def addU64 (a b : ℕ) : Routine α ℕ := wrap (a + b)

def mulU64 (a b : ℕ) : Routine α ℕ := wrap (a * b)

/-- The run reads inside the buffer only, no sum or product wraps around, and
`b` is delivered. -/
def Delivers (m : Routine α β) (data : List α) (b : β) : Prop :=
  (m data).value = some b ∧
    ∀ access ∈ (m data).accesses, ∃ i < data.length, access = .read i

theorem Delivers.pure (data : List α) (b : β) :
    Delivers (Pure.pure b) data b := by
  constructor
  · rfl
  · intro access haccess
    cases haccess

theorem Delivers.bind {m : Routine α β} {next : β → Routine α γ}
    {data : List α} {b : β} {c : γ} (hm : m.Delivers data b)
    (hnext : (next b).Delivers data c) : (m >>= next).Delivers data c := by
  have hrun : (m >>= next) data =
      ⟨(m data).accesses ++ (next b data).accesses, (next b data).value⟩ := by
    change m.andThen next data = _
    unfold andThen
    rw [hm.1]
  constructor
  · rw [hrun]
    exact hnext.1
  · rw [hrun]
    intro access haccess
    cases List.mem_append.mp haccess with
    | inl hfirst => exact hm.2 access hfirst
    | inr hrest => exact hnext.2 access hrest

theorem Delivers.load {data : List α} {index : ℕ} (h : index < data.length) :
    Delivers (load index) data (data.get ⟨index, h⟩) := by
  constructor
  · exact List.getElem?_eq_getElem h
  · intro access haccess
    exact ⟨index, h, List.mem_singleton.mp haccess⟩

theorem Delivers.wrap (data : List α) {total : ℕ} (h : total < 2 ^ 64) :
    Delivers (wrap total) data total := by
  constructor
  · change some (total % 2 ^ 64) = some total
    rw [Nat.mod_eq_of_lt h]
  · unfold Routine.wrap
    rw [if_pos h]
    intro access haccess
    cases haccess

theorem Delivers.addU64 (data : List α) {a b : ℕ} (h : a + b < 2 ^ 64) :
    Delivers (addU64 a b) data (a + b) :=
  Delivers.wrap data h

theorem Delivers.mulU64 (data : List α) {a b : ℕ} (h : a * b < 2 ^ 64) :
    Delivers (mulU64 a b) data (a * b) :=
  Delivers.wrap data h

/-- A loop whose every iteration delivers what a pure one computes. -/
theorem Delivers.foldlM {ι : Type} {body : β → ι → Routine α β}
    {pureBody : β → ι → β} {data : List α} :
    ∀ (indices : List ι) (b : β),
      (∀ b, ∀ i ∈ indices, (body b i).Delivers data (pureBody b i)) →
      (indices.foldlM body b : Routine α β).Delivers data
        (indices.foldl pureBody b) := by
  intro indices
  induction indices with
  | nil =>
      intro b _
      exact Delivers.pure data b
  | cons i rest ih =>
      intro b hbody
      rw [List.foldlM_cons, List.foldl_cons]
      apply Delivers.bind (hbody b i (List.mem_cons_self ..))
      exact ih (pureBody b i) fun b j hj =>
        hbody b j (List.mem_cons_of_mem i hj)

end Routine

end BufferAccess
