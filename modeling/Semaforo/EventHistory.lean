import Mathlib.Tactic

/-!
# Histories of events

A history grows by one event at its end.  Where some events carry a time, the
latest time is that of the last event that carries one, and if times never go
back no event carries a later one.
-/

namespace EventHistory

variable {σ τ : Type}

/-- An event of a history that has grown is the new one or was there before. -/
theorem append_singleton_eq_append_cons {history before after : List σ}
    {last event : σ} (h : history ++ [last] = before ++ event :: after) :
    (after = [] ∧ history = before ∧ last = event) ∨
      ∃ rest, after = rest ++ [last] ∧ history = before ++ event :: rest := by
  rcases List.eq_nil_or_concat after with rfl | ⟨rest, last', rfl⟩
  · obtain ⟨hhistory, hlast⟩ := List.append_inj' h rfl
    exact .inl ⟨rfl, hhistory, List.head_eq_of_cons_eq hlast⟩
  · rw [List.concat_eq_append, ← List.cons_append, ← List.append_assoc] at h
    obtain ⟨hhistory, hlast⟩ := List.append_inj' h rfl
    refine .inr ⟨rest, ?_, hhistory⟩
    rw [List.concat_eq_append, List.head_eq_of_cons_eq hlast]

/-- A run takes its next step. -/
theorem foldlM_cons_of_some {σ τ : Type} {step : τ → σ → Option τ} {s s' : τ}
    {event : σ} {rest : List σ} (h : step s event = some s') :
    (event :: rest).foldlM step s = rest.foldlM step s' := by
  rw [List.foldlM_cons, h]
  rfl

/-! ## The latest event of a kind -/

def latest (time : σ → Option τ) (history : List σ) : Option τ :=
  history.foldl (fun last event => (time event).or last) none

section

variable {time : σ → Option τ} {history : List σ} {event : σ} {t : τ}

@[simp] theorem latest_append_singleton :
    latest time (history ++ [event]) = (time event).or (latest time history) := by
  rw [latest, List.foldl_append]
  rfl

theorem exists_event (h : latest time history = some t) :
    ∃ event ∈ history, time event = some t := by
  induction history using List.reverseRecOn with
  | nil => exact absurd h (Option.some_ne_none t).symm
  | append_singleton history event ih =>
      rw [latest_append_singleton] at h
      rcases Option.or_eq_some_iff.mp h with hlast | ⟨-, hearlier⟩
      · exact ⟨event, List.mem_append_right _ (List.mem_singleton_self _), hlast⟩
      · obtain ⟨earlier, hmem, htime⟩ := ih hearlier
        exact ⟨earlier, List.mem_append_left _ hmem, htime⟩

/-- Times never go back from one event that carries one to the next. -/
def Ordered [LE τ] (time : σ → Option τ) (history : List σ) : Prop :=
  history.Pairwise fun event event' =>
    ∀ t ∈ time event, ∀ t' ∈ time event', t ≤ t'

theorem exists_latest [Preorder τ] (hordered : Ordered time history)
    (hevent : event ∈ history) (htime : time event = some t) :
    ∃ t', latest time history = some t' ∧ t ≤ t' := by
  induction history using List.reverseRecOn with
  | nil => exact absurd hevent List.not_mem_nil
  | append_singleton history last ih =>
      obtain ⟨hearlier, -, hlast⟩ := List.pairwise_append.mp hordered
      rw [latest_append_singleton]
      rcases List.mem_append.mp hevent with hmem | hmem
      · obtain ⟨t', hlatest, hle⟩ := ih hearlier hmem
        cases hnew : time last with
        | none => exact ⟨t', by rw [Option.none_or, hlatest], hle⟩
        | some t'' =>
            exact ⟨t'', rfl, hlast event hmem last (List.mem_singleton_self _) t
              htime t'' hnew⟩
      · obtain rfl := List.mem_singleton.mp hmem
        exact ⟨t, by rw [htime, Option.some_or], le_rfl⟩

end

end EventHistory
