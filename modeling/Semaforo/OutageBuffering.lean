import Semaforo.TelemetryOutbox
import Mathlib.Tactic

/-!
# Telemetry across outages

The telemetry step of the main loop over the egress of `publish_telemetry`.
The `t`-th interval produces sample `t`.  The main loop asks
`mqtt.is_connected()`, which also asks the library, before it publishes; the
drain asks only the flag.  A run is the sequence of these answers and of the
outcomes of the publishes.
-/

namespace Semaforo

structure TelemetryStep where
  /-- The answer of `mqtt.is_connected()` when the sample is due. -/
  linkUp : Bool
  /-- The flag when the drain looks at it. -/
  connected : Bool
  publishes : ℕ → Bool

/-- The telemetry step of the main loop, with the value that
`publish_telemetry` returns if it is called. -/
def publishDue (s : Egress ℕ) (sample : ℕ) (step : TelemetryStep) :
    Egress ℕ × Option Bool :=
  if step.linkUp then
    let call : PublishCall ℕ := ⟨sample, step.connected, step.publishes⟩
    (s.after call, some (s.publishTelemetry call).2)
  else (s, none)

/-- The state when sample `t` is due. -/
def egressAt (steps : ℕ → TelemetryStep) : ℕ → Egress ℕ
  | 0 => .initial
  | t + 1 => (publishDue (egressAt steps t) t (steps t)).1

namespace Egress

def delivered (s : Egress ℕ) : List ℕ := s.accepted.map Stamped.message

def buffered (s : Egress ℕ) : List ℕ := s.outbox.items.map Stamped.message

/-- The samples that are not lost. -/
def held (s : Egress ℕ) : List ℕ := s.buffered ++ s.delivered

end Egress

def ReturnsTrue (steps : ℕ → TelemetryStep) (t : ℕ) : Prop :=
  (publishDue (egressAt steps t) t (steps t)).2 = some true

/-- The samples after `j`, up to the one due at `t`, that the broker does not
have when that one is due. -/
def newerUndelivered (steps : ℕ → TelemetryStep) (t j : ℕ) : Finset ℕ :=
  (Finset.Ioc j t).filter fun k => k ∉ (egressAt steps t).delivered

/-- Sample `j` is evicted when sample `t` is staged. -/
def Evicts (steps : ℕ → TelemetryStep) (t j : ℕ) : Prop :=
  (steps t).linkUp = true ∧ (egressAt steps t).buffered.length = 256 ∧
    (egressAt steps t).buffered.head? = some j

/-- Sample `j` has been evicted up to instant `t`, when 256 newer undelivered
samples had been produced. -/
def EvictedForNewer (steps : ℕ → TelemetryStep) (t j : ℕ) : Prop :=
  ∃ i ≤ t, Evicts steps i j ∧ 256 ≤ (newerUndelivered steps i j).card

/-- After the step at `t` every sample so far is delivered, or gave way to 256
newer ones. -/
def KeepsUp (steps : ℕ → TelemetryStep) (t : ℕ) : Prop :=
  ∀ j ≤ t, j ∈ (egressAt steps (t + 1)).delivered ∨ EvictedForNewer steps t j

/-- A full outbox has its oldest sample in front. -/
def OldestInFront (s : Egress ℕ) : Prop :=
  s.buffered.length = 256 →
    ∀ front ∈ s.buffered.head?, ∀ j ∈ s.buffered, front ≤ j

/-- Up to `t`, the client was connected whenever a sample was due, and what was
evicted was the oldest. -/
def StagesAll (steps : ℕ → TelemetryStep) (t : ℕ) : Prop :=
  ∀ i ≤ t, (steps i).linkUp = true ∧ OldestInFront (egressAt steps i)

/-! ## What a step does to the samples -/

namespace Egress

theorem drain_perm (publishes : ℕ → Bool) (rounds k : ℕ) (s : Egress ℕ) :
    ((drain publishes rounds k s).1.getLastD s).held.Perm s.held ∧
      s.delivered ⊆ ((drain publishes rounds k s).1.getLastD s).delivered := by
  induction rounds generalizing k s with
  | zero => exact ⟨List.Perm.refl _, List.Subset.refl _⟩
  | succ rounds ih =>
      cases hitems : s.outbox.items with
      | nil =>
          have hpop := DropOldestQueue.tryPop_eq_none_iff.mpr hitems
          simp [drain, hpop]
      | cons m rest =>
          obtain ⟨outbox, rfl, haccept, hrequeue⟩ :=
            exists_drain_succ publishes rounds k hitems
          let rest := outbox.items.map Stamped.message
          have hheld : s.held = m.message :: (rest ++ s.delivered) := by
            rw [held, buffered, hitems, List.map_cons, List.cons_append]
          cases hpublish : publishes k with
          | true =>
              rw [haccept hpublish, List.getLastD_cons]
              obtain ⟨hperm, hsubset⟩ := ih (k + 1) (s.accept m outbox)
              constructor
              · have hnext : (s.accept m outbox).held =
                    rest ++ s.delivered ++ [m.message] := by
                  simp [held, buffered, delivered, Egress.accept, rest]
                rw [hheld]
                rw [hnext] at hperm
                exact hperm.trans (List.perm_append_singleton _ _)
              · refine List.Subset.trans ?_ hsubset
                simp [delivered, Egress.accept]
          | false =>
              rw [hrequeue hpublish]
              refine ⟨?_, List.Subset.refl _⟩
              have hnext : (s.requeue m outbox).held =
                  rest ++ [m.message] ++ s.delivered := by
                rw [held, buffered, items_requeue hitems, List.map_append]
                rfl
              rw [hheld]
              change (s.requeue m outbox).held.Perm _
              rw [hnext]
              exact (List.perm_append_singleton _ _).append_right _

theorem items_of_drain_true (publishes : ℕ → Bool) (rounds k : ℕ)
    {s : Egress ℕ} (hrounds : s.outbox.items.length = rounds)
    (hdrained : (drain publishes rounds k s).2 = true) :
    ((drain publishes rounds k s).1.getLastD s).buffered = [] := by
  induction rounds generalizing k s with
  | zero =>
      have hitems := List.length_eq_zero_iff.mp hrounds
      simp [drain, buffered, hitems]
  | succ rounds ih =>
      obtain ⟨m, outbox, -, hlength, haccept, hrequeue⟩ :=
        exists_drain_of_length publishes k hrounds
      cases hpublish : publishes k with
      | true =>
          rw [haccept hpublish] at hdrained ⊢
          rw [List.getLastD_cons]
          exact ih (k + 1) hlength hdrained
      | false =>
          rw [hrequeue hpublish] at hdrained
          cases hdrained

theorem held_stage_of_lt {s : Egress ℕ} (h : s.buffered.length < 256)
    (sample : ℕ) : (s.stage sample).held.Perm (sample :: s.held) := by
  have hroom : s.outbox.items.length < outboxCapacity := by
    rwa [buffered, List.length_map] at h
  have hnext : (s.stage sample).held =
      s.buffered ++ [sample] ++ s.delivered := by
    simp [held, buffered, delivered, Egress.stage,
      DropOldestQueue.items_push_of_lt hroom]
  rw [hnext]
  exact (List.perm_append_singleton _ _).append_right _

theorem held_stage_of_full {s : Egress ℕ} (h : s.buffered.length = 256)
    (sample : ℕ) : ∃ front, s.buffered.head? = some front ∧
      (front :: (s.stage sample).held).Perm (sample :: s.held) := by
  have hfull : outboxCapacity ≤ s.outbox.items.length := by
    rw [buffered, List.length_map] at h
    exact h.ge
  obtain ⟨front, rest, hitems⟩ := List.exists_cons_of_length_pos
    (show 0 < s.buffered.length by omega)
  refine ⟨front, by rw [hitems]; rfl, ?_⟩
  have htail : s.outbox.items.tail.map Stamped.message = rest := by
    rw [List.map_tail]
    change s.buffered.tail = rest
    rw [hitems, List.tail_cons]
  have hnext : (s.stage sample).held = rest ++ [sample] ++ s.delivered := by
    rw [← htail]
    simp [held, buffered, delivered, Egress.stage,
      DropOldestQueue.items_push_of_full hfull]
  rw [hnext, held, hitems, List.cons_append]
  refine (List.Perm.cons front ?_).trans (List.Perm.swap _ _ _)
  exact (List.perm_append_singleton _ _).append_right _

theorem held_after (s : Egress ℕ) (call : PublishCall ℕ) :
    (s.after call).held.Perm (s.stage call.message).held ∧
      s.delivered ⊆ (s.after call).delivered := by
  have hafter : s.after call =
      ((s.stage call.message).flushOutbox call.connected
        call.publishes).1.getLastD (s.stage call.message) :=
    List.getLastD_cons ..
  rw [hafter]
  unfold flushOutbox
  cases call.connected with
  | false => exact ⟨List.Perm.refl _, List.Subset.refl _⟩
  | true => exact drain_perm call.publishes _ 0 (s.stage call.message)

end Egress

section Steps

variable {steps : ℕ → TelemetryStep} {t : ℕ}

theorem egressAt_succ_of_linkUp (hup : (steps t).linkUp = true) :
    egressAt steps (t + 1) =
      (egressAt steps t).after ⟨t, (steps t).connected, (steps t).publishes⟩ := by
  rw [egressAt, publishDue, if_pos hup]

theorem egressAt_succ_of_not_linkUp (hdown : ¬ (steps t).linkUp = true) :
    egressAt steps (t + 1) = egressAt steps t := by
  rw [egressAt, publishDue, if_neg hdown]

/-- A sample that falls due while the client is connected is added to the held
ones, and the front of a full outbox is evicted for it. -/
theorem held_succ (hup : (steps t).linkUp = true) :
    (egressAt steps t).buffered.length < 256 ∧
        (egressAt steps (t + 1)).held.Perm (t :: (egressAt steps t).held) ∨
      ∃ front, Evicts steps t front ∧
        (front :: (egressAt steps (t + 1)).held).Perm
          (t :: (egressAt steps t).held) := by
  let call : PublishCall ℕ := ⟨t, (steps t).connected, (steps t).publishes⟩
  have hafter := ((egressAt steps t).held_after call).1
  rw [egressAt_succ_of_linkUp hup]
  have hbounded : (egressAt steps t).buffered.length ≤ 256 := by
    rw [Egress.buffered, List.length_map]
    exact (egressAt steps t).outbox.bounded
  rcases hbounded.lt_or_eq with hroom | hfull
  · exact Or.inl ⟨hroom, hafter.trans (Egress.held_stage_of_lt hroom t)⟩
  · obtain ⟨front, hfront, hperm⟩ := Egress.held_stage_of_full hfull t
    exact Or.inr ⟨front, ⟨hup, hfull, hfront⟩, (hafter.cons front).trans hperm⟩

theorem mem_held_of_evicts {j : ℕ} (h : Evicts steps t j) :
    j ∈ (egressAt steps t).held :=
  List.mem_append_left _ (List.mem_of_mem_head? h.2.2)

theorem eq_of_evicts {i j : ℕ} (hi : Evicts steps t i) (hj : Evicts steps t j) :
    i = j :=
  Option.some.inj (hi.2.2.symm.trans hj.2.2)

theorem mem_held_succ {j : ℕ} (h : j ∈ (egressAt steps (t + 1)).held) :
    j ∈ (egressAt steps t).held ∨ j = t ∧ (steps t).linkUp = true := by
  by_cases hup : (steps t).linkUp = true
  · have hmem : j ∈ t :: (egressAt steps t).held := by
      rcases held_succ hup with ⟨-, hperm⟩ | ⟨front, -, hperm⟩
      · exact hperm.subset h
      · exact hperm.subset (List.mem_cons_of_mem _ h)
    rcases List.mem_cons.mp hmem with heq | hheld
    · exact Or.inr ⟨heq, hup⟩
    · exact Or.inl hheld
  · rw [egressAt_succ_of_not_linkUp hup] at h
    exact Or.inl h

theorem held_spec (steps : ℕ → TelemetryStep) (t : ℕ) :
    (egressAt steps t).held.Nodup ∧ ∀ j ∈ (egressAt steps t).held, j < t := by
  induction t with
  | zero => exact ⟨List.nodup_nil, fun _ hj => absurd hj List.not_mem_nil⟩
  | succ t ih =>
      have hlt : ∀ j ∈ (egressAt steps (t + 1)).held, j < t + 1 := by
        intro j hj
        rcases mem_held_succ hj with hheld | ⟨rfl, -⟩
        · exact (ih.2 j hheld).trans (Nat.lt_succ_self t)
        · exact Nat.lt_succ_self j
      refine ⟨?_, hlt⟩
      by_cases hup : (steps t).linkUp = true
      · have hnodup : (t :: (egressAt steps t).held).Nodup :=
          List.nodup_cons.mpr ⟨fun h => (ih.2 t h).false, ih.1⟩
        rcases held_succ hup with ⟨-, hperm⟩ | ⟨front, -, hperm⟩
        · exact hperm.nodup_iff.mpr hnodup
        · exact (List.nodup_cons.mp (hperm.nodup_iff.mpr hnodup)).2
      · rw [egressAt_succ_of_not_linkUp hup]
        exact ih.1

theorem not_mem_held_of_evicts {j : ℕ} (h : Evicts steps t j) :
    j ∉ (egressAt steps (t + 1)).held := by
  have hspec := held_spec steps t
  have hnodup : (t :: (egressAt steps t).held).Nodup :=
    List.nodup_cons.mpr ⟨fun hmem => (hspec.2 t hmem).false, hspec.1⟩
  have hlt := hspec.2 j (mem_held_of_evicts h)
  rcases held_succ h.1 with ⟨hroom, -⟩ | ⟨front, hfront, hperm⟩
  · exact absurd h.2.1 hroom.ne
  · rw [eq_of_evicts h hfront]
    exact (List.nodup_cons.mp (hperm.nodup_iff.mpr hnodup)).1

theorem held_succ_or_evicts {j : ℕ} (h : j ∈ (egressAt steps t).held) :
    j ∈ (egressAt steps (t + 1)).held ∨ Evicts steps t j := by
  by_cases hup : (steps t).linkUp = true
  · rcases held_succ hup with ⟨-, hperm⟩ | ⟨front, hfront, hperm⟩
    · exact Or.inl (hperm.mem_iff.mpr (List.mem_cons_of_mem _ h))
    · have hmem := hperm.mem_iff.mpr (List.mem_cons_of_mem t h)
      rcases List.mem_cons.mp hmem with rfl | hheld
      · exact Or.inr hfront
      · exact Or.inl hheld
  · rw [egressAt_succ_of_not_linkUp hup]
    exact Or.inl h

theorem self_mem_held_succ (hup : (steps t).linkUp = true) :
    t ∈ (egressAt steps (t + 1)).held := by
  rcases held_succ hup with ⟨-, hperm⟩ | ⟨front, hfront, hperm⟩
  · exact hperm.mem_iff.mpr List.mem_cons_self
  · have hmem := hperm.mem_iff.mpr (List.mem_cons_self (a := t))
    refine (List.mem_cons.mp hmem).resolve_left ?_
    rintro rfl
    exact ((held_spec steps t).2 t (mem_held_of_evicts hfront)).false

theorem delivered_mono {i j : ℕ} (hij : i ≤ j) :
    (egressAt steps i).delivered ⊆ (egressAt steps j).delivered := by
  induction j, hij using Nat.le_induction with
  | base => exact List.Subset.refl _
  | succ j _ ih =>
      refine List.Subset.trans ih ?_
      by_cases hup : (steps j).linkUp = true
      · rw [egressAt_succ_of_linkUp hup]
        exact ((egressAt steps j).held_after _).2
      · rw [egressAt_succ_of_not_linkUp hup]
        exact List.Subset.refl _

/-- A sample that is neither buffered nor delivered once it has been produced
never is. -/
theorem not_mem_held_mono {i j k : ℕ} (hki : k < i) (hij : i ≤ j)
    (h : k ∉ (egressAt steps i).held) : k ∉ (egressAt steps j).held := by
  induction j, hij using Nat.le_induction with
  | base => exact h
  | succ j hij ih =>
      intro hmem
      rcases mem_held_succ hmem with hheld | ⟨rfl, -⟩
      · exact ih hheld
      · exact absurd (hki.trans_le hij) (lt_irrefl _)

theorem evicts_unique {i j k : ℕ} (hi : Evicts steps i k)
    (hj : Evicts steps j k) : i = j := by
  have hlt : ∀ {a b : ℕ}, Evicts steps a k → Evicts steps b k → ¬ a < b := by
    intro a b ha hb hab
    have hka := (held_spec steps a).2 k (mem_held_of_evicts ha)
    exact not_mem_held_mono (hka.trans (Nat.lt_succ_self a)) hab
      (not_mem_held_of_evicts ha) (mem_held_of_evicts hb)
  exact le_antisymm (not_lt.mp (hlt hj hi)) (not_lt.mp (hlt hi hj))

/-- What was produced while the client was connected is held or has been
evicted. -/
theorem held_or_evicted {j : ℕ} (hup : (steps j).linkUp = true) (hjt : j < t) :
    j ∈ (egressAt steps t).held ∨ ∃ i < t, Evicts steps i j := by
  induction t, hjt using Nat.le_induction with
  | base => exact Or.inl (self_mem_held_succ hup)
  | succ t _ ih =>
      rcases ih with hheld | ⟨i, hi, hevicts⟩
      · rcases held_succ_or_evicts hheld with hnext | hevicts
        · exact Or.inl hnext
        · exact Or.inr ⟨t, Nat.lt_succ_self t, hevicts⟩
      · exact Or.inr ⟨i, hi.trans (Nat.lt_succ_self t), hevicts⟩

theorem buffered_of_returnsTrue (h : ReturnsTrue steps t) :
    (egressAt steps (t + 1)).buffered = [] := by
  unfold ReturnsTrue publishDue at h
  split_ifs at h with hup
  rw [egressAt_succ_of_linkUp hup]
  have hdrained := Option.some.inj h
  simp only [Egress.publishTelemetry, Egress.flushOutbox] at hdrained
  split_ifs at hdrained with hconnected
  have hitems := Egress.items_of_drain_true _ _ 0 rfl hdrained
  rw [Egress.after, Egress.publishTelemetry, List.getLastD_cons,
    Egress.flushOutbox, if_pos hconnected]
  exact hitems

/-! ## Evictions -/

theorem not_mem_delivered_of_buffered {j : ℕ}
    (h : j ∈ (egressAt steps t).buffered) :
    j ∉ (egressAt steps t).delivered := by
  have hnodup := (held_spec steps t).1
  rw [Egress.held, List.nodup_append] at hnodup
  exact fun hdelivered => hnodup.2.2 j h j hdelivered rfl

theorem lt_of_mem_delivered {j : ℕ} (h : j ∈ (egressAt steps t).delivered) :
    j < t :=
  (held_spec steps t).2 j (List.mem_append_right _ h)

/-- The oldest sample of a full outbox gives way to the others and to the one
that is staged. -/
theorem card_newerUndelivered_of_oldest {j : ℕ} (h : Evicts steps t j)
    (holdest : OldestInFront (egressAt steps t)) :
    256 ≤ (newerUndelivered steps t j).card := by
  obtain ⟨-, hfull, hfront⟩ := h
  obtain ⟨rest, hbuffered⟩ := List.head?_eq_some_iff.mp hfront
  have hspec := held_spec steps t
  have hnodup : (j :: rest).Nodup := by
    have hheld := hspec.1
    rw [Egress.held, List.nodup_append, hbuffered] at hheld
    exact hheld.1
  have hlt : ∀ k ∈ (egressAt steps t).buffered, k < t := fun k hk =>
    hspec.2 k (List.mem_append_left _ hk)
  have hnewer : insert t rest.toFinset ⊆ newerUndelivered steps t j := by
    intro k hk
    rw [Finset.mem_insert, List.mem_toFinset] at hk
    rw [newerUndelivered, Finset.mem_filter, Finset.mem_Ioc]
    rcases hk with rfl | hk
    · refine ⟨⟨hlt j ?_, le_rfl⟩, fun hd => (lt_of_mem_delivered hd).false⟩
      exact List.mem_of_mem_head? hfront
    · have hmem : k ∈ (egressAt steps t).buffered := by
        rw [hbuffered]
        exact List.mem_cons_of_mem _ hk
      have hne : j ≠ k := fun heq => (List.nodup_cons.mp hnodup).1 (heq ▸ hk)
      have hle : j ≤ k := holdest hfull j hfront k hmem
      exact ⟨⟨lt_of_le_of_ne hle hne, (hlt k hmem).le⟩,
        not_mem_delivered_of_buffered hmem⟩
  have habsent : t ∉ rest.toFinset := by
    intro hmem
    rw [List.mem_toFinset] at hmem
    apply (hlt t ?_).false
    rw [hbuffered]
    exact List.mem_cons_of_mem _ hmem
  have hlength : rest.length = 255 := by
    rw [hbuffered, List.length_cons] at hfull
    omega
  calc 256 = (insert t rest.toFinset).card := by
        rw [Finset.card_insert_of_notMem habsent,
          List.toFinset_card_of_nodup (List.nodup_cons.mp hnodup).2, hlength]
    _ ≤ _ := Finset.card_le_card hnewer

/-- As long as every sample was staged and only the oldest were evicted, what
is newer than a buffered sample is buffered too, or delivered. -/
theorem mem_buffered_of_newer {j k : ℕ}
    (hstaged : ∀ i < t, (steps i).linkUp = true ∧
      OldestInFront (egressAt steps i))
    (hj : j ∈ (egressAt steps t).buffered) (hjk : j < k) (hkt : k < t)
    (hk : k ∉ (egressAt steps t).delivered) :
    k ∈ (egressAt steps t).buffered := by
  rcases held_or_evicted (hstaged k hkt).1 hkt with hheld | ⟨i, hi, hevicts⟩
  · exact (List.mem_append.mp hheld).resolve_right hk
  · exfalso
    have hki := (held_spec steps i).2 k (mem_held_of_evicts hevicts)
    have hheld : j ∈ (egressAt steps i).held := by
      by_contra hlost
      exact not_mem_held_mono (hjk.trans hki) hi.le hlost
        (List.mem_append_left _ hj)
    rcases List.mem_append.mp hheld with hbuffered | hdelivered
    · have hle := (hstaged i hi).2 hevicts.2.1 k hevicts.2.2 j hbuffered
      omega
    · exact not_mem_delivered_of_buffered hj (delivered_mono hi.le hdelivered)

/-- If an older sample is in the outbox, the evicted one gives way to fewer
than 256 newer ones. -/
theorem card_newerUndelivered_lt {j m : ℕ}
    (hstaged : ∀ i < t, (steps i).linkUp = true ∧
      OldestInFront (egressAt steps i))
    (h : Evicts steps t j) (hm : m ∈ (egressAt steps t).buffered)
    (hmj : m < j) : (newerUndelivered steps t j).card < 256 := by
  have hj : j ∈ (egressAt steps t).buffered := List.mem_of_mem_head? h.2.2
  let others := ((egressAt steps t).buffered.toFinset.erase j).erase m
  have hsubset : newerUndelivered steps t j ⊆ insert t others := by
    intro k hk
    rw [newerUndelivered, Finset.mem_filter, Finset.mem_Ioc] at hk
    obtain ⟨⟨hjk, hkt⟩, hundelivered⟩ := hk
    rw [Finset.mem_insert]
    rcases hkt.eq_or_lt with rfl | hkt
    · exact Or.inl rfl
    · refine Or.inr ?_
      rw [Finset.mem_erase, Finset.mem_erase, List.mem_toFinset]
      exact ⟨by omega, by omega,
        mem_buffered_of_newer hstaged hj hjk hkt hundelivered⟩
  have hothers : others.card + 2 ≤ 256 := by
    have hmem : m ∈ (egressAt steps t).buffered.toFinset.erase j := by
      rw [Finset.mem_erase, List.mem_toFinset]
      exact ⟨hmj.ne, hm⟩
    have hcard := Finset.card_erase_add_one hmem
    have hcard' := Finset.card_erase_add_one (List.mem_toFinset.mpr hj)
    have hle := List.toFinset_card_le (egressAt steps t).buffered
    rw [h.2.1] at hle
    change others.card + 1 = _ at hcard
    omega
  have hinsert := Finset.card_insert_le t others
  have hle := Finset.card_le_card hsubset
  omega

/-! ## When the samples of an outage arrive -/

theorem keepsUp_of_stagesAll (h : ReturnsTrue steps t)
    (hstages : StagesAll steps t) : KeepsUp steps t := by
  intro j hj
  rcases held_or_evicted (hstages j hj).1 (Nat.lt_succ_of_le hj) with
    hheld | ⟨i, hi, hevicts⟩
  · rw [Egress.held, buffered_of_returnsTrue h, List.nil_append] at hheld
    exact Or.inl hheld
  · have hit := Nat.le_of_lt_succ hi
    exact Or.inr ⟨i, hit, hevicts,
      card_newerUndelivered_of_oldest hevicts (hstages i hit).2⟩

theorem linkUp_of_keepsUp (hkeeps : KeepsUp steps t) {i : ℕ} (hi : i ≤ t) :
    (steps i).linkUp = true := by
  by_contra hdown
  have hlost : i ∉ (egressAt steps (i + 1)).held := by
    intro hmem
    rcases mem_held_succ hmem with hheld | ⟨-, hup⟩
    · exact ((held_spec steps i).2 i hheld).false
    · exact hdown hup
  rcases hkeeps i hi with hdelivered | ⟨e, -, hevicts, -⟩
  · exact not_mem_held_mono (Nat.lt_succ_self i) (by omega) hlost
      (List.mem_append_right _ hdelivered)
  · have hlt := (held_spec steps e).2 i (mem_held_of_evicts hevicts)
    exact not_mem_held_mono (Nat.lt_succ_self i) hlt hlost
      (mem_held_of_evicts hevicts)

theorem stagesAll_of_keepsUp (hkeeps : KeepsUp steps t) :
    StagesAll steps t := by
  intro i
  -- The first wrong eviction is the one that shows.
  induction i using Nat.strong_induction_on with
  | _ i ih =>
      intro hi
      have hup := linkUp_of_keepsUp hkeeps hi
      refine ⟨hup, fun hfull front hfront m hm => ?_⟩
      by_contra hlt
      have hevicts : Evicts steps i front := ⟨hup, hfull, hfront⟩
      have hfew := card_newerUndelivered_lt
        (fun k hk => ih k hk (hk.le.trans hi)) hevicts hm (not_le.mp hlt)
      have hfrontLt := (held_spec steps i).2 front (mem_held_of_evicts hevicts)
      rcases hkeeps front (hfrontLt.le.trans hi) with
        hdelivered | ⟨e, -, hevicted, hmany⟩
      · exact not_mem_held_mono (hfrontLt.trans (Nat.lt_succ_self i))
          (by omega) (not_mem_held_of_evicts hevicts)
          (List.mem_append_right _ hdelivered)
      · rw [evicts_unique hevicted hevicts] at hmany
        omega

end Steps

/-- A `true` of `publish_telemetry` means that nothing but superseded samples
is missing exactly if, up to then, every sample was due while the client was
connected and only the oldest ones were evicted. -/
theorem keepsUp_iff_stagesAll (steps : ℕ → TelemetryStep) :
    (∀ t, ReturnsTrue steps t → KeepsUp steps t) ↔
      ∀ t, ReturnsTrue steps t → StagesAll steps t := by
  constructor
  · exact fun hkeeps t ht => stagesAll_of_keepsUp (hkeeps t ht)
  · exact fun hstages t ht => keepsUp_of_stagesAll ht (hstages t ht)

/-- The client is disconnected when the first sample is due, and connected from
then on. -/
def shortOutage (t : ℕ) : TelemetryStep :=
  ⟨decide (0 < t), decide (0 < t), fun _ => true⟩

theorem short_outage_loses_sample :
    ReturnsTrue shortOutage 1 ∧
      (egressAt shortOutage 2).delivered = [1] ∧
      newerUndelivered shortOutage 1 0 = {1} ∧
      ¬ ∀ t, ReturnsTrue shortOutage t → KeepsUp shortOutage t := by
  have hreturns : ReturnsTrue shortOutage 1 := by
    unfold ReturnsTrue
    decide
  refine ⟨hreturns, by decide, by decide, fun hkeeps => ?_⟩
  rcases hkeeps 1 hreturns 0 (Nat.zero_le 1) with hdelivered | ⟨i, hi, hevicts, -⟩
  · revert hdelivered
    decide
  · have hfull := hevicts.2.1
    interval_cases i
    · revert hfull
      decide
    · revert hfull
      decide

end Semaforo
