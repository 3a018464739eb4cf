import Mathlib.Algebra.Order.Ring.Defs
import Mathlib.Data.List.Chain
import Mathlib.Tactic.Linarith

/-!
# Timed runs of a deterministic machine

A machine reads events one after another and every event carries the instant
at which it is given.  Between two events the machine does not move, so what it
shows is piecewise constant: `Machine.timeline` cuts a run into the maximal
stretches on which a chosen reading of the state is constant, and
`Machine.Shows` says that a reading was shown at some moment of a window.

The rules at the end of each section turn a one-event statement into a
statement about whole runs; all the inductions over runs are in this file.
-/

structure Machine (State Event Time : Type*) where
  step : State → Event → State
  time : Event → Time

namespace Machine

variable {State Event Time Key : Type*} (m : Machine State Event Time)

def run (s : State) (events : List Event) : State :=
  events.foldl m.step s

/-- The instant of the last event, or the starting instant of an empty run. -/
def endTime (t : Time) (events : List Event) : Time :=
  events.foldl (fun _ e => m.time e) t

/-- Every event of the run is allowed by `ok`, which sees the state before the
event and the instant of the event before it. -/
def Admits (ok : State → Time → Event → Prop) : State → Time → List Event → Prop
  | _, _, [] => True
  | s, t, e :: events => ok s t e ∧ Admits ok (m.step s e) (m.time e) events

instance decidableAdmits {ok : State → Time → Event → Prop}
    [∀ s t e, Decidable (ok s t e)] :
    ∀ (s : State) (t : Time) (events : List Event),
      Decidable (m.Admits ok s t events)
  | _, _, [] => isTrue trivial
  | s, t, e :: events =>
      have : Decidable (m.Admits ok (m.step s e) (m.time e) events) :=
        decidableAdmits (m.step s e) (m.time e) events
      inferInstanceAs (Decidable
        (ok s t e ∧ m.Admits ok (m.step s e) (m.time e) events))

@[simp] theorem run_nil (s : State) : m.run s [] = s := rfl

@[simp] theorem run_cons (s : State) (e : Event) (events : List Event) :
    m.run s (e :: events) = m.run (m.step s e) events := rfl

theorem run_append (s : State) (first second : List Event) :
    m.run s (first ++ second) = m.run (m.run s first) second := by
  simp [run]

@[simp] theorem endTime_nil (t : Time) : m.endTime t [] = t := rfl

@[simp] theorem endTime_cons (t : Time) (e : Event) (events : List Event) :
    m.endTime t (e :: events) = m.endTime (m.time e) events := rfl

@[simp] theorem admits_nil (ok : State → Time → Event → Prop)
    (s : State) (t : Time) : m.Admits ok s t [] := trivial

@[simp] theorem admits_cons {ok : State → Time → Event → Prop}
    {s : State} {t : Time} {e : Event} {events : List Event} :
    m.Admits ok s t (e :: events) ↔
      ok s t e ∧ m.Admits ok (m.step s e) (m.time e) events := Iff.rfl

theorem admits_append {ok : State → Time → Event → Prop}
    {s : State} {t : Time} {first second : List Event} :
    m.Admits ok s t (first ++ second) ↔
      m.Admits ok s t first ∧
        m.Admits ok (m.run s first) (m.endTime t first) second := by
  induction first generalizing s t with
  | nil => simp
  | cons e events ih => simp [ih, and_assoc]

theorem Admits.and {m : Machine State Event Time}
    {ok ok' : State → Time → Event → Prop}
    {s : State} {t : Time} {events : List Event}
    (hrun : m.Admits ok s t events) (hrun' : m.Admits ok' s t events) :
    m.Admits (fun s t e => ok s t e ∧ ok' s t e) s t events := by
  induction events generalizing s t with
  | nil => trivial
  | cons e events ih => exact ⟨⟨hrun.1, hrun'.1⟩, ih hrun.2 hrun'.2⟩

theorem Admits.and_forall {m : Machine State Event Time}
    {ok : State → Time → Event → Prop} {P : Event → Prop}
    {s : State} {t : Time} {events : List Event}
    (hrun : m.Admits ok s t events) (hall : ∀ e ∈ events, P e) :
    m.Admits (fun s t e => ok s t e ∧ P e) s t events := by
  induction events generalizing s t with
  | nil => trivial
  | cons e events ih =>
      exact ⟨⟨hrun.1, hall e (List.mem_cons_self ..)⟩,
        ih hrun.2 fun e' he' => hall e' (List.mem_cons_of_mem e he')⟩

theorem admits_iff_forall_split {ok : State → Time → Event → Prop}
    {s : State} {t : Time} {events : List Event} :
    m.Admits ok s t events ↔
      ∀ before e after, events = before ++ e :: after →
        ok (m.run s before) (m.endTime t before) e := by
  constructor
  · rintro hrun before e after rfl
    exact (m.admits_append.mp hrun).2.1
  · intro hsplit
    induction events generalizing s t with
    | nil => trivial
    | cons e events ih =>
        refine ⟨hsplit [] e events rfl, ih ?_⟩
        intro before e' after hevents
        exact hsplit (e :: before) e' after (by rw [hevents]; rfl)

/-- Invariant rule: what one allowed event preserves holds at the end of every
allowed run. -/
theorem Admits.invariant {m : Machine State Event Time}
    {ok : State → Time → Event → Prop} {I : State → Time → Prop}
    (hstep : ∀ s t e, I s t → ok s t e → I (m.step s e) (m.time e))
    {s : State} {t : Time} {events : List Event}
    (hrun : m.Admits ok s t events) (hinit : I s t) :
    I (m.run s events) (m.endTime t events) := by
  induction events generalizing s t with
  | nil => exact hinit
  | cons e events ih => exact ih hrun.2 (hstep s t e hinit hrun.1)

theorem run_invariant {I : State → Prop}
    (hstep : ∀ s e, I s → I (m.step s e))
    {s : State} (events : List Event) (hinit : I s) :
    I (m.run s events) := by
  induction events generalizing s with
  | nil => exact hinit
  | cons e events ih => exact ih (hstep s e hinit)

/-- Countdown rule: where no event raises the rank and the counted events lower
it, enough counted events bring it to zero, whatever comes between them. -/
theorem run_countdown (I : State → Prop) (rank : State → ℕ)
    (counted : Event → Bool) (hstep : ∀ s e, I s → I (m.step s e))
    (hle : ∀ s e, I s → rank (m.step s e) ≤ rank s)
    (hlt : ∀ s e, I s → counted e = true → rank (m.step s e) ≤ rank s - 1)
    {s : State} (events : List Event) (hinit : I s) :
    rank (m.run s events) ≤ rank s - events.countP counted := by
  induction events generalizing s with
  | nil => exact Nat.le_refl _
  | cons e events ih =>
      have hrest := ih (hstep s e hinit)
      rw [run_cons]
      by_cases hcounted : counted e = true
      · rw [List.countP_cons_of_pos hcounted]
        have := hlt s e hinit hcounted
        omega
      · rw [List.countP_cons_of_neg hcounted]
        have := hle s e hinit
        omega

def Clocked [LE Time] : State → Time → List Event → Prop :=
  m.Admits fun _ t e => t ≤ m.time e

instance [LE Time] [DecidableLE Time] (s : State) (t : Time)
    (events : List Event) : Decidable (m.Clocked s t events) :=
  inferInstanceAs (Decidable (m.Admits (fun _ t e => t ≤ m.time e) s t events))

section Timeline

/-- A maximal period of a run on which the reading of the state is constant:
the state it began with and its two ends. -/
structure Stretch (State Time : Type*) where
  first : State
  start : Time
  stop : Time
  deriving DecidableEq, Repr

variable [DecidableEq Key]

/-- The stretches of a run whose current stretch began in state `first` at the
instant `start`, and which is in state `s` since its last event at `t`. -/
def timelineFrom (key : State → Key) (first : State) (start : Time) :
    State → Time → List Event → List (Stretch State Time)
  | _, t, [] => [⟨first, start, t⟩]
  | s, _, e :: events =>
      if key (m.step s e) = key first then
        timelineFrom key first start (m.step s e) (m.time e) events
      else
        ⟨first, start, m.time e⟩ ::
          timelineFrom key (m.step s e) (m.time e) (m.step s e) (m.time e) events

/-- The stretches of a whole run, in order.  The last one is still open: it
ends with the last event. -/
def timeline (key : State → Key) (s : State) (t : Time)
    (events : List Event) : List (Stretch State Time) :=
  m.timelineFrom key s t s t events

/-- A one-event invariant about the stretch in progress: the state it began
with, its start, the current state and the instant of the last event. -/
structure StretchInvariant (key : State → Key)
    (ok : State → Time → Event → Prop)
    (Inv : State → Time → State → Time → Prop) : Prop where
  keep : ∀ f b s t e, Inv f b s t → ok s t e →
    key (m.step s e) = key f → Inv f b (m.step s e) (m.time e)
  turn : ∀ f b s t e, Inv f b s t → ok s t e →
    key (m.step s e) ≠ key f →
      Inv (m.step s e) (m.time e) (m.step s e) (m.time e)

variable {m} {key : State → Key} {ok : State → Time → Event → Prop}
  {Inv : State → Time → State → Time → Prop}

theorem head?_timelineFrom (m : Machine State Event Time)
    (key : State → Key) (f s : State) (b t : Time) (events : List Event) :
    ∃ stop, (m.timelineFrom key f b s t events).head? =
      some ⟨f, b, stop⟩ := by
  induction events generalizing s t with
  | nil => exact ⟨t, rfl⟩
  | cons e events ih =>
      unfold timelineFrom
      split_ifs
      · exact ih _ _
      · exact ⟨m.time e, rfl⟩

/-- Chain rule: a relation that holds whenever the reading changes links every
two neighbouring stretches of the timeline. -/
theorem StretchInvariant.isChain (hinv : m.StretchInvariant key ok Inv)
    {R : State → Time → Time → State → Prop}
    (hlink : ∀ f b s t e, Inv f b s t → ok s t e →
      key (m.step s e) ≠ key f → R f b (m.time e) (m.step s e))
    {f s : State} {b t : Time} {events : List Event}
    (hinit : Inv f b s t) (hrun : m.Admits ok s t events) :
    (m.timelineFrom key f b s t events).IsChain
      (fun x y => R x.first x.start x.stop y.first) := by
  induction events generalizing f b s t with
  | nil => exact List.IsChain.singleton _
  | cons e events ih =>
      unfold timelineFrom
      split_ifs with hkey
      · exact ih (hinv.keep f b s t e hinit hrun.1 hkey) hrun.2
      · have htail := ih (hinv.turn f b s t e hinit hrun.1 hkey) hrun.2
        refine List.IsChain.cons htail ?_
        intro next hnext
        obtain ⟨stop, hhead⟩ := head?_timelineFrom m key (m.step s e)
          (m.step s e) (m.time e) (m.time e) events
        rw [hhead, Option.mem_some_iff] at hnext
        subst hnext
        exact hlink f b s t e hinit hrun.1 hkey

theorem Admits.timelineFrom_of_key_eq {I : State → Time → Prop} {c : Key}
    (hstep : ∀ s t e, I s t → ok s t e → I (m.step s e) (m.time e))
    (hkey : ∀ s t, I s t → key s = c)
    {f s : State} {b t : Time} {events : List Event}
    (hrun : m.Admits ok s t events) (hinit : I s t) (hf : key f = c) :
    m.timelineFrom key f b s t events = [⟨f, b, m.endTime t events⟩] := by
  induction events generalizing s t with
  | nil => rfl
  | cons e events ih =>
      have hnext := hstep s t e hinit hrun.1
      unfold timelineFrom
      rw [if_pos ((hkey _ _ hnext).trans hf.symm)]
      exact ih hrun.2 hnext

/-- Stretch rule: what holds of the open stretch at all times, and of a
stretch at the event that ends it, holds of every stretch. -/
theorem StretchInvariant.forall_mem (hinv : m.StretchInvariant key ok Inv)
    {Q : State → Time → Time → Prop}
    (hopen : ∀ f b s t, Inv f b s t → Q f b t)
    (hclose : ∀ f b s t e, Inv f b s t → ok s t e →
      key (m.step s e) ≠ key f → Q f b (m.time e))
    {f s : State} {b t : Time} {events : List Event}
    (hinit : Inv f b s t) (hrun : m.Admits ok s t events) :
    ∀ x ∈ m.timelineFrom key f b s t events, Q x.first x.start x.stop := by
  induction events generalizing f b s t with
  | nil =>
      intro x hx
      rw [timelineFrom, List.mem_singleton] at hx
      subst hx
      exact hopen f b s t hinit
  | cons e events ih =>
      intro x hx
      unfold timelineFrom at hx
      split_ifs at hx with hkey
      · exact ih (hinv.keep f b s t e hinit hrun.1 hkey) hrun.2 x hx
      · rcases List.mem_cons.mp hx with heq | hmem
        · subst heq
          exact hclose f b s t e hinit hrun.1 hkey
        · exact ih (hinv.turn f b s t e hinit hrun.1 hkey) hrun.2 x hmem

/-- Suffix rule: a timeline cut at the start of a stretch is the timeline of the
run from there. -/
theorem exists_suffix_of_timeline_split {f s : State} {b t : Time}
    {events : List Event} {before rest : List (Stretch State Time)}
    {x : Stretch State Time} (hne : before ≠ [])
    (hsplit : m.timelineFrom key f b s t events = before ++ x :: rest) :
    ∃ earlier later, events = earlier ++ later ∧
      m.run s earlier = x.first ∧ m.endTime t earlier = x.start ∧
      m.timelineFrom key x.first x.start x.first x.start later = x :: rest := by
  induction events generalizing f b s t before with
  | nil =>
      have hlength := congrArg List.length hsplit
      have hpos := List.length_pos_of_ne_nil hne
      simp only [timelineFrom, List.length_append, List.length_cons,
        List.length_nil] at hlength
      omega
  | cons e events ih =>
      unfold timelineFrom at hsplit
      split_ifs at hsplit with hkey
      · obtain ⟨earlier, later, rfl, hrun, htime, hlater⟩ := ih hne hsplit
        exact ⟨e :: earlier, later, rfl, hrun, htime, hlater⟩
      · cases before with
        | nil => exact absurd rfl hne
        | cons y before =>
            have htail : m.timelineFrom key (m.step s e) (m.time e)
                (m.step s e) (m.time e) events = before ++ x :: rest :=
              (List.cons.inj hsplit).2
            by_cases hnil : before = []
            · subst hnil
              obtain ⟨stop, hhead⟩ := head?_timelineFrom m key (m.step s e)
                (m.step s e) (m.time e) (m.time e) events
              rw [List.nil_append] at htail
              rw [htail, List.head?_cons, Option.some.injEq] at hhead
              refine ⟨[e], events, rfl, ?_, ?_, ?_⟩
              · rw [hhead]
                rfl
              · rw [hhead]
                rfl
              · rw [hhead] at htail ⊢
                exact htail
            · obtain ⟨earlier, later, rfl, hrun, htime, hlater⟩ :=
                ih hnil htail
              exact ⟨e :: earlier, later, rfl, hrun, htime, hlater⟩

theorem counter_of_isChain {α : Type*} {l : List α} {n : ℕ} (k : α → ℕ)
    (hchain : l.IsChain (fun x y => k y = (k x + 1) % n))
    (hhead : ∀ x ∈ l.head?, k x = 0) (i : ℕ) (x : α)
    (hx : l[i]? = some x) : k x = i % n := by
  induction i generalizing x with
  | zero =>
      rw [Nat.zero_mod]
      refine hhead x ?_
      rw [List.head?_eq_getElem?, hx]
      rfl
  | succ i ih =>
      obtain ⟨hlt, rfl⟩ := List.getElem?_eq_some_iff.mp hx
      have hprev := ih l[i] (List.getElem?_eq_getElem (by omega))
      rw [(List.isChain_iff_getElem.mp hchain) i hlt, hprev, Nat.mod_add_mod]

end Timeline

section Window

variable [LinearOrder Time]

/-- Some moment of the window from `a` to `b` falls on a state satisfying `p`:
the state is entered inside the window, or is still in place when the window
opens. -/
def Shows (p : State → Prop) (a b : Time) : State → Time → List Event → Prop
  | s, t, [] => p s ∧ a ≤ t ∧ t ≤ b
  | s, t, e :: events =>
      (p s ∧ t ≤ b ∧ (a ≤ t ∨ a < m.time e)) ∨
        Shows p a b (m.step s e) (m.time e) events

variable {m} {ok : State → Time → Event → Prop}

/-- Window rule: if `lit`, the last instant at which `p` was shown, is never
left behind by `L` or more, then every window of length `L` shows `p`. -/
theorem Admits.shows [AddCommMonoid Time] [IsOrderedAddMonoid Time]
    {p : State → Prop} [DecidablePred p] {L : Time}
    {I : State → Time → Time → Prop}
    (hstep : ∀ s t lit e, I s t lit → ok s t e →
      I (m.step s e) (m.time e) (if p s then m.time e else lit))
    (hopen : ∀ s t lit, I s t lit → ¬ p s → t < lit + L)
    (hnext : ∀ s t lit e, I s t lit → ok s t e → ¬ p s →
      m.time e < lit + L)
    {s : State} {t lit a : Time} {events : List Event}
    (hinit : I s t lit) (hrun : m.Admits ok s t events)
    (hlit : lit ≤ a ∨ p s) (ht : t ≤ a + L)
    (hend : a + L ≤ m.endTime t events) (hL : a ≤ a + L) :
    m.Shows p a (a + L) s t events := by
  induction events generalizing s t lit with
  | nil =>
      have htend : a + L ≤ t := hend
      by_cases hp : p s
      · exact ⟨hp, le_trans hL htend, ht⟩
      · have hle : lit ≤ a := hlit.resolve_right hp
        have hlt := hopen s t lit hinit hp
        exact absurd (lt_of_lt_of_le hlt (add_le_add_left hle L))
          (not_lt.mpr htend)
  | cons e events ih =>
      have hnextInv := hstep s t lit e hinit hrun.1
      by_cases hp : p s
      · rw [if_pos hp] at hnextInv
        by_cases ha : a < m.time e
        · exact Or.inl ⟨hp, ht, Or.inr ha⟩
        · have hle : m.time e ≤ a := not_lt.mp ha
          exact Or.inr (ih hnextInv hrun.2 (Or.inl hle)
            (le_trans hle hL) hend)
      · rw [if_neg hp] at hnextInv
        have hle : lit ≤ a := hlit.resolve_right hp
        have hlt := hnext s t lit e hinit hrun.1 hp
        have hte : m.time e ≤ a + L :=
          le_of_lt (lt_of_lt_of_le hlt (add_le_add_left hle L))
        exact Or.inr (ih hnextInv hrun.2 (Or.inl hle) hte hend)

end Window

/-! ## Monitors -/

section Monitor

variable {Ghost : Type*}

/-- The machine beside a monitor that records something about its run and has
no influence on it. -/
def monitor (w : Ghost → State → Event → Ghost) :
    Machine (State × Ghost) Event Time where
  step x e := (m.step x.1 e, w x.2 x.1 e)
  time := m.time

variable {m} {w : Ghost → State → Event → Ghost}

theorem Admits.monitor {ok : State → Time → Event → Prop}
    {s : State} {t : Time} {events : List Event}
    (hrun : m.Admits ok s t events) (g : Ghost) :
    (m.monitor w).Admits (fun x t e => ok x.1 t e) (s, g) t events := by
  induction events generalizing s t g with
  | nil => trivial
  | cons e events ih => exact ⟨hrun.1, ih hrun.2 _⟩

theorem shows_of_monitor [LinearOrder Time] {p : State → Prop} {a b t : Time}
    {s : State} {g : Ghost} {events : List Event}
    (hshows : (m.monitor w).Shows (fun x => p x.1) a b (s, g) t events) :
    m.Shows p a b s t events := by
  induction events generalizing s t g with
  | nil => exact hshows
  | cons e events ih => exact hshows.imp id ih

end Monitor

end Machine
