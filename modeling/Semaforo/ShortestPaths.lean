import Mathlib.Tactic

/-!
# Shortest paths by lazy deletion

Dijkstra's algorithm over a queue from which outdated entries are not removed:
an entry is skipped when a shorter distance to its vertex has been found since.
The search stops at its target.  For arcs of no negative length it ends within
one round for each arc and one more, the distance it leaves at the target is the
least length of a trip, and the predecessors lead back to the source along
shortest arcs.
-/

namespace ShortestPaths

variable {V K : Type}

/-! ## Trips -/

section Trips

variable [AddCommGroup K] [LinearOrder K] [IsOrderedAddMonoid K]

/-- A walk along arcs, with its length. -/
inductive Trip (arcs : V → List (V × K)) (source : V) : V → K → Prop
  | start : Trip arcs source source 0
  | extend {u v : V} {length w : K} (trip : Trip arcs source u length)
      (arc : (v, w) ∈ arcs u) : Trip arcs source v (length + w)

/-- No arc is longer than this one between its ends. -/
def LeastArc (arcs : V → List (V × K)) (u v : V) (w : K) : Prop :=
  (v, w) ∈ arcs u ∧ ∀ w', (v, w') ∈ arcs u → w ≤ w'

/-- A trip has not outrun the distances, or it passes a vertex that is not
settled and is no farther than the trip is long. -/
theorem Trip.frontier {arcs : V → List (V × K)} {source x : V} {length : K}
    {dist : V → Option K} {settled : V → Prop}
    (hsource : dist source = some 0)
    (hrelaxed : ∀ u, settled u → ∀ d, dist u = some d →
      ∀ arc ∈ arcs u, ∃ d', dist arc.1 = some d' ∧ d' ≤ d + arc.2)
    (hnonneg : ∀ u, ∀ arc ∈ arcs u, 0 ≤ arc.2)
    (trip : Trip arcs source x length) :
    (∃ d, dist x = some d ∧ d ≤ length) ∨
      ∃ y d, ¬ settled y ∧ dist y = some d ∧ d ≤ length := by
  induction trip with
  | start => exact Or.inl ⟨0, hsource, le_refl 0⟩
  | @extend u v length w trip arc ih =>
      have hlonger : length ≤ length + w :=
        le_add_of_nonneg_right (hnonneg u (v, w) arc)
      cases ih with
      | inl hreached =>
          obtain ⟨d, hd, hle⟩ := hreached
          by_cases hu : settled u
          · obtain ⟨d', hd', hle'⟩ := hrelaxed u hu d hd (v, w) arc
            exact Or.inl ⟨d', hd', hle'.trans (add_le_add_left hle w)⟩
          · exact Or.inr ⟨u, d, hu, hd, hle.trans hlonger⟩
      | inr hopen =>
          obtain ⟨y, d, hy, hd, hle⟩ := hopen
          exact Or.inr ⟨y, d, hy, hd, hle.trans hlonger⟩

end Trips

/-! ## Predecessors -/

/-- The order in which vertices were settled, the latest first: each has its
predecessor behind it, except for the source, which has none. -/
def Chained (prev : V → Option V) (source : V) : List V → Prop
  | [] => True
  | n :: older =>
      (n = source ∧ prev n = none ∨ ∃ p ∈ older, prev n = some p) ∧
        Chained prev source older

/-- The vertices from `n` back along the predecessors. -/
def walkBack (prev : V → Option V) : ℕ → V → Option (List V)
  | 0, _ => none
  | fuel + 1, n =>
      match prev n with
      | none => some [n]
      | some p => (walkBack prev fuel p).map (n :: ·)

theorem Chained.congr {prev prev' : V → Option V} {source : V} {order : List V}
    (hsame : ∀ n ∈ order, prev' n = prev n) (h : Chained prev source order) :
    Chained prev' source order := by
  induction order with
  | nil => trivial
  | cons n older ih =>
      refine ⟨?_, ih (fun m hm => hsame m (List.mem_cons_of_mem n hm)) h.2⟩
      rw [hsame n (List.mem_cons_self ..)]
      exact h.1

/-- A path back to the source, as the predecessors give it. -/
structure BackPath (prev : V → Option V) (source n : V) (path : List V) :
    Prop where
  head : path.head? = some n
  last : path.getLast? = some source
  nodup : path.Nodup
  steps : path.IsChain fun v u => prev v = some u

theorem Chained.walkBack_eq {prev : V → Option V} {source : V}
    {order : List V} (hchained : Chained prev source order)
    (hnodup : order.Nodup) {n : V} (hn : n ∈ order) :
    ∃ path, path ⊆ order ∧ BackPath prev source n path ∧
      ∀ fuel, order.length ≤ fuel → walkBack prev fuel n = some path := by
  induction order generalizing n with
  | nil => cases hn
  | cons m older ih =>
      rw [List.nodup_cons] at hnodup
      obtain ⟨hm, holder⟩ := hchained
      rcases List.mem_cons.mp hn with rfl | hmem
      · cases hm with
        | inl hsource =>
            obtain ⟨rfl, hnone⟩ := hsource
            refine ⟨[n], by simp, ⟨rfl, rfl, List.nodup_singleton n,
              List.IsChain.singleton n⟩, ?_⟩
            intro fuel hfuel
            cases fuel with
            | zero => simp at hfuel
            | succ fuel => simp [walkBack, hnone]
        | inr hprev =>
            obtain ⟨p, hp, hprev⟩ := hprev
            obtain ⟨path, hsubset, hpath, hwalk⟩ := ih holder hnodup.2 hp
            refine ⟨n :: path, List.cons_subset_cons n hsubset, ?_, ?_⟩
            · cases path with
              | nil =>
                  have hhead := hpath.head
                  simp at hhead
              | cons q rest =>
                  have hq : q = p := Option.some.inj hpath.head
                  exact
                    { head := rfl
                      last := by
                        rw [List.getLast?_cons_cons]
                        exact hpath.last
                      nodup := List.nodup_cons.mpr
                        ⟨fun hin => hnodup.1 (hsubset hin), hpath.nodup⟩
                      steps := List.isChain_cons_cons.mpr
                        ⟨hq ▸ hprev, hpath.steps⟩ }
            · intro fuel hfuel
              cases fuel with
              | zero => simp at hfuel
              | succ fuel =>
                  have hrest := hwalk fuel (Nat.le_of_succ_le_succ hfuel)
                  simp [walkBack, hprev, hrest]
      · obtain ⟨path, hsubset, hpath, hwalk⟩ := ih holder hnodup.2 hmem
        refine ⟨path, fun x hx => List.mem_cons_of_mem m (hsubset hx), hpath,
          ?_⟩
        intro fuel hfuel
        exact hwalk fuel (Nat.le_of_succ_le hfuel)

/-! ## The search -/

structure Search (V K : Type) where
  dist : V → Option K
  prev : V → Option V
  pq : List (K × V)

/-- The order of the queue: by distance, then by vertex. -/
def Before [LT K] [LE V] (x y : K × V) : Prop :=
  x.1 < y.1 ∨ x.1 = y.1 ∧ x.2 ≤ y.2

instance [LT K] [DecidableLT K] [DecidableEq K] [LE V] [DecidableLE V] :
    DecidableRel (Before (K := K) (V := V)) := fun x y =>
  inferInstanceAs (Decidable (x.1 < y.1 ∨ x.1 = y.1 ∧ x.2 ≤ y.2))

section Algorithm

variable [LinearOrder V] [AddCommGroup K] [LinearOrder K]

/-- The distance is less than the one known, if any is known. -/
def improves (alt : K) : Option K → Bool
  | none => true
  | some d => alt < d

def relax (u : V) (d : K) (σ : Search V K) (arc : V × K) : Search V K :=
  let alt := d + arc.2
  if improves alt (σ.dist arc.1) then
    { dist := Function.update σ.dist arc.1 (some alt)
      prev := Function.update σ.prev arc.1 (some u)
      pq := σ.pq.orderedInsert Before (alt, arc.1) }
  else σ

/-- The entry is farther than what is known by now. -/
def stale (d : K) : Option K → Bool
  | none => false
  | some d' => d' < d

/-- The search, or `none` where the rounds do not suffice. -/
def run (arcs : V → List (V × K)) (target : V) :
    ℕ → Search V K → Option (Search V K)
  | 0, _ => none
  | fuel + 1, σ =>
      match σ.pq with
      | [] => some σ
      | (d, u) :: pq =>
          if stale d (σ.dist u) then run arcs target fuel { σ with pq := pq }
          else if u = target then some { σ with pq := pq }
          else
            run arcs target fuel
              ((arcs u).foldl (relax u d) { σ with pq := pq })

def initial (source : V) : Search V K where
  dist := Function.update (fun _ => none) source (some 0)
  prev := fun _ => none
  pq := [(0, source)]

/-- What the search knows after settling the vertices of `order`, the latest
first.  The arcs for which `waived` holds need not have been relaxed. -/
structure Inv (arcs : V → List (V × K)) (source : V) (order : List V)
    (waived : V → V × K → Prop) (σ : Search V K) : Prop where
  source_dist : σ.dist source = some 0
  sorted : σ.pq.Pairwise fun x y => x.1 ≤ y.1
  nodup : σ.pq.Nodup
  nonneg : ∀ e ∈ σ.pq, 0 ≤ e.1
  entries : ∀ e ∈ σ.pq, ∃ d, σ.dist e.2 = some d ∧ d ≤ e.1
  spent : ∀ e ∈ σ.pq, e.2 ∈ order → ∃ d, σ.dist e.2 = some d ∧ d < e.1
  live : ∀ n d, n ∉ order → σ.dist n = some d → (d, n) ∈ σ.pq
  floor : ∀ u ∈ order, ∃ d, σ.dist u = some d ∧ ∀ e ∈ σ.pq, d ≤ e.1
  relaxed : ∀ u ∈ order, ∀ d, σ.dist u = some d → ∀ arc ∈ arcs u,
    ¬ waived u arc → ∃ d', σ.dist arc.1 = some d' ∧ d' ≤ d + arc.2
  tight : ∀ n p, σ.prev n = some p → p ∈ order ∧
    ∃ d w, σ.dist p = some d ∧ (n, w) ∈ arcs p ∧ σ.dist n = some (d + w)
  rootless : ∀ n d, σ.dist n = some d → σ.prev n = none → n = source
  order_nodup : order.Nodup
  chained : Chained σ.prev source order

omit [LinearOrder V] in
theorem Inv.weaken {arcs : V → List (V × K)} {source : V} {order : List V}
    {waived waived' : V → V × K → Prop} {σ : Search V K}
    (h : Inv arcs source order waived σ)
    (hwaived : ∀ u arc, waived u arc → waived' u arc) :
    Inv arcs source order waived' σ :=
  { h with
    relaxed := fun u hu d hd arc harc hnot =>
      h.relaxed u hu d hd arc harc fun hw => hnot (hwaived u arc hw) }

omit [AddCommGroup K] in
theorem orderedInsert_sorted {pq : List (K × V)} (e : K × V)
    (hsorted : pq.Pairwise fun x y => x.1 ≤ y.1) :
    (pq.orderedInsert Before e).Pairwise fun x y => x.1 ≤ y.1 := by
  induction pq with
  | nil => exact List.pairwise_singleton _ e
  | cons x rest ih =>
      rw [List.pairwise_cons] at hsorted
      unfold List.orderedInsert
      split_ifs with hbefore
      · have hle : e.1 ≤ x.1 := by
          rcases hbefore with hlt | ⟨heq, _⟩
          · exact hlt.le
          · exact heq.le
        rw [List.pairwise_cons, List.pairwise_cons]
        refine ⟨?_, hsorted⟩
        intro y hy
        rcases List.mem_cons.mp hy with rfl | hmem
        · exact hle
        · exact hle.trans (hsorted.1 y hmem)
      · have hle : x.1 ≤ e.1 := by
          rw [← not_lt]
          intro hlt
          exact hbefore (Or.inl hlt)
        rw [List.pairwise_cons]
        refine ⟨?_, ih hsorted.2⟩
        intro y hy
        rcases (List.mem_orderedInsert Before).mp hy with rfl | hmem
        · exact hle
        · exact hsorted.1 y hmem

/-! ### One arc -/

theorem relax_of_not_improves {u : V} {d : K} {σ : Search V K} {arc : V × K}
    (h : improves (d + arc.2) (σ.dist arc.1) = false) :
    relax u d σ arc = σ := by
  unfold relax
  dsimp only
  rw [h]
  rfl

theorem relax_of_improves {u : V} {d : K} {σ : Search V K} {arc : V × K}
    (h : improves (d + arc.2) (σ.dist arc.1) = true) :
    relax u d σ arc =
      { dist := Function.update σ.dist arc.1 (some (d + arc.2))
        prev := Function.update σ.prev arc.1 (some u)
        pq := σ.pq.orderedInsert Before (d + arc.2, arc.1) } := by
  unfold relax
  dsimp only
  rw [h]
  rfl

omit [LinearOrder V] [AddCommGroup K] in
theorem improves_lt {alt d : K} {known : Option K}
    (h : improves alt known = true) (hknown : known = some d) : alt < d := by
  rw [hknown] at h
  exact of_decide_eq_true h

omit [LinearOrder V] [AddCommGroup K] in
theorem exists_le_of_not_improves {alt : K} {known : Option K}
    (h : improves alt known = false) : ∃ d, known = some d ∧ d ≤ alt := by
  cases known with
  | none => cases h
  | some d => exact ⟨d, rfl, not_lt.mp (of_decide_eq_false h)⟩

/-- The vertex `u` has just been settled at distance `d`, the greatest so
far. -/
structure Current (order : List V) (u : V) (d : K) (σ : Search V K) : Prop where
  settled : u ∈ order
  dist_eq : σ.dist u = some d
  nonneg : 0 ≤ d
  greatest : ∀ s ∈ order, ∀ q, σ.dist s = some q → q ≤ d

variable [IsOrderedAddMonoid K]

/-- An arc from the current vertex, not relaxed yet, that shortens a
distance. -/
structure Improving (arcs : V → List (V × K)) (source : V) (order : List V)
    (waived : V → V × K → Prop) (σ : Search V K) (u : V) (d : K)
    (arc : V × K) : Prop where
  inv : Inv arcs source order waived σ
  current : Current order u d σ
  mem : arc ∈ arcs u
  nonneg : 0 ≤ arc.2
  improves : improves (d + arc.2) (σ.dist arc.1) = true

namespace Improving

variable {arcs : V → List (V × K)} {source : V} {order : List V}
  {waived : V → V × K → Prop} {σ : Search V K} {u : V} {d : K} {arc : V × K}

omit [LinearOrder V] in
theorem le_alt (h : Improving arcs source order waived σ u d arc) :
    d ≤ d + arc.2 := le_add_of_nonneg_right h.nonneg

omit [LinearOrder V] in
/-- A vertex whose distance improves has not been settled. -/
theorem ne_of_mem (h : Improving arcs source order waived σ u d arc) {n : V}
    (hn : n ∈ order) : n ≠ arc.1 := by
  rintro rfl
  obtain ⟨q, hq, _⟩ := h.inv.floor arc.1 hn
  have hlt : d + arc.2 < q := improves_lt h.improves hq
  have hle : q ≤ d := h.current.greatest arc.1 hn q hq
  exact absurd (hlt.trans_le hle) (not_lt.mpr h.le_alt)

omit [LinearOrder V] in
theorem source_ne (h : Improving arcs source order waived σ u d arc) :
    source ≠ arc.1 := by
  rintro rfl
  have hlt : d + arc.2 < 0 := improves_lt h.improves h.inv.source_dist
  exact absurd hlt (not_lt.mpr (h.current.nonneg.trans h.le_alt))

omit [IsOrderedAddMonoid K] in
theorem dist_self (h : Improving arcs source order waived σ u d arc) :
    (relax u d σ arc).dist arc.1 = some (d + arc.2) := by
  rw [relax_of_improves h.improves]
  exact Function.update_self ..

omit [IsOrderedAddMonoid K] in
theorem dist_of_ne (h : Improving arcs source order waived σ u d arc) {n : V}
    (hn : n ≠ arc.1) : (relax u d σ arc).dist n = σ.dist n := by
  rw [relax_of_improves h.improves]
  exact Function.update_of_ne hn ..

omit [IsOrderedAddMonoid K] in
theorem prev_self (h : Improving arcs source order waived σ u d arc) :
    (relax u d σ arc).prev arc.1 = some u := by
  rw [relax_of_improves h.improves]
  exact Function.update_self ..

omit [IsOrderedAddMonoid K] in
theorem prev_of_ne (h : Improving arcs source order waived σ u d arc) {n : V}
    (hn : n ≠ arc.1) : (relax u d σ arc).prev n = σ.prev n := by
  rw [relax_of_improves h.improves]
  exact Function.update_of_ne hn ..

omit [IsOrderedAddMonoid K] in
theorem pq_eq (h : Improving arcs source order waived σ u d arc) :
    (relax u d σ arc).pq =
      σ.pq.orderedInsert Before (d + arc.2, arc.1) := by
  rw [relax_of_improves h.improves]

omit [IsOrderedAddMonoid K] in
theorem mem_pq (h : Improving arcs source order waived σ u d arc)
    {e : K × V} : e ∈ (relax u d σ arc).pq ↔
      e = (d + arc.2, arc.1) ∨ e ∈ σ.pq := by
  rw [h.pq_eq]
  exact List.mem_orderedInsert Before

omit [IsOrderedAddMonoid K] in
theorem nodup (h : Improving arcs source order waived σ u d arc) :
    (relax u d σ arc).pq.Nodup := by
  have hnew : (d + arc.2, arc.1) ∉ σ.pq := by
    intro hin
    obtain ⟨q, hq, hle⟩ := h.inv.entries _ hin
    exact absurd (improves_lt h.improves hq) (not_lt.mpr hle)
  rw [h.pq_eq, (List.perm_orderedInsert Before _ σ.pq).nodup_iff]
  exact List.nodup_cons.mpr ⟨hnew, h.inv.nodup⟩

omit [IsOrderedAddMonoid K] in
theorem entries (h : Improving arcs source order waived σ u d arc) {e : K × V}
    (he : e ∈ (relax u d σ arc).pq) :
    ∃ q, (relax u d σ arc).dist e.2 = some q ∧ q ≤ e.1 := by
  by_cases hv : e.2 = arc.1
  · rw [hv]
    refine ⟨_, h.dist_self, ?_⟩
    rcases h.mem_pq.mp he with rfl | hold
    · exact le_refl _
    · obtain ⟨q, hq, hle⟩ := h.inv.entries e hold
      rw [hv] at hq
      exact (improves_lt h.improves hq).le.trans hle
  · rw [h.dist_of_ne hv]
    rcases h.mem_pq.mp he with rfl | hold
    · exact absurd rfl hv
    · exact h.inv.entries e hold

omit [IsOrderedAddMonoid K] in
theorem live (h : Improving arcs source order waived σ u d arc) {n : V} {q : K}
    (hn : n ∉ order) (hq : (relax u d σ arc).dist n = some q) :
    (q, n) ∈ (relax u d σ arc).pq := by
  rw [h.mem_pq]
  by_cases hv : n = arc.1
  · rw [hv, h.dist_self] at hq
    left
    rw [hv, Option.some.inj hq]
  · rw [h.dist_of_ne hv] at hq
    exact Or.inr (h.inv.live n q hn hq)

theorem floor (h : Improving arcs source order waived σ u d arc) {s : V}
    (hs : s ∈ order) : ∃ q, (relax u d σ arc).dist s = some q ∧
      ∀ e ∈ (relax u d σ arc).pq, q ≤ e.1 := by
  obtain ⟨q, hq, hle⟩ := h.inv.floor s hs
  refine ⟨q, ?_, ?_⟩
  · rw [h.dist_of_ne (h.ne_of_mem hs)]
    exact hq
  · intro e he
    rcases h.mem_pq.mp he with rfl | hold
    · exact (h.current.greatest s hs q hq).trans h.le_alt
    · exact hle e hold

theorem relaxed (h : Improving arcs source order waived σ u d arc) {x : V}
    (hx : x ∈ order) {dx : K} (hdx : (relax u d σ arc).dist x = some dx)
    {b : V × K} (hb : b ∈ arcs x)
    (hnot : ¬ (waived x b ∧ ¬ (x = u ∧ b = arc))) :
    ∃ q, (relax u d σ arc).dist b.1 = some q ∧ q ≤ dx + b.2 := by
  rw [h.dist_of_ne (h.ne_of_mem hx)] at hdx
  by_cases hsame : x = u ∧ b = arc
  · obtain ⟨rfl, rfl⟩ := hsame
    have hdist : dx = d :=
      Option.some.inj (hdx.symm.trans h.current.dist_eq)
    rw [hdist]
    exact ⟨_, h.dist_self, le_refl _⟩
  · obtain ⟨q, hq, hle⟩ := h.inv.relaxed x hx dx hdx b hb
      fun hwaived => hnot ⟨hwaived, hsame⟩
    by_cases hv : b.1 = arc.1
    · rw [hv] at hq ⊢
      exact ⟨_, h.dist_self, (improves_lt h.improves hq).le.trans hle⟩
    · rw [h.dist_of_ne hv]
      exact ⟨q, hq, hle⟩

theorem tight (h : Improving arcs source order waived σ u d arc) {n p : V}
    (hp : (relax u d σ arc).prev n = some p) : p ∈ order ∧
      ∃ q w, (relax u d σ arc).dist p = some q ∧ (n, w) ∈ arcs p ∧
        (relax u d σ arc).dist n = some (q + w) := by
  by_cases hv : n = arc.1
  · rw [hv, h.prev_self] at hp
    obtain rfl := Option.some.inj hp
    refine ⟨h.current.settled, d, arc.2, ?_, ?_, ?_⟩
    · rw [h.dist_of_ne (h.ne_of_mem h.current.settled)]
      exact h.current.dist_eq
    · rw [hv]
      exact h.mem
    · rw [hv]
      exact h.dist_self
  · rw [h.prev_of_ne hv] at hp
    obtain ⟨hpmem, q, w, hq, hin, hn⟩ := h.inv.tight n p hp
    refine ⟨hpmem, q, w, ?_, hin, ?_⟩
    · rw [h.dist_of_ne (h.ne_of_mem hpmem)]
      exact hq
    · rw [h.dist_of_ne hv]
      exact hn

omit [IsOrderedAddMonoid K] in
theorem rootless (h : Improving arcs source order waived σ u d arc) {n : V}
    {q : K} (hq : (relax u d σ arc).dist n = some q)
    (hp : (relax u d σ arc).prev n = none) : n = source := by
  by_cases hv : n = arc.1
  · rw [hv, h.prev_self] at hp
    cases hp
  · rw [h.dist_of_ne hv] at hq
    rw [h.prev_of_ne hv] at hp
    exact h.inv.rootless n q hq hp

theorem inv_relax (h : Improving arcs source order waived σ u d arc) :
    Inv arcs source order (fun x b => waived x b ∧ ¬ (x = u ∧ b = arc))
      (relax u d σ arc) where
  source_dist := by
    rw [h.dist_of_ne h.source_ne]
    exact h.inv.source_dist
  sorted := by
    rw [h.pq_eq]
    exact orderedInsert_sorted _ h.inv.sorted
  nodup := h.nodup
  nonneg := by
    intro e he
    rcases h.mem_pq.mp he with rfl | hold
    · exact h.current.nonneg.trans h.le_alt
    · exact h.inv.nonneg e hold
  entries := fun e he => h.entries he
  spent := by
    intro e he horder
    rw [h.dist_of_ne (h.ne_of_mem horder)]
    rcases h.mem_pq.mp he with rfl | hold
    · exact absurd rfl (h.ne_of_mem horder)
    · exact h.inv.spent e hold horder
  live := fun n q hn hq => h.live hn hq
  floor := fun s hs => h.floor hs
  relaxed := fun x hx dx hdx b hb hnot => h.relaxed hx hdx hb hnot
  tight := fun n p hp => h.tight hp
  rootless := fun n q hq hp => h.rootless hq hp
  order_nodup := h.inv.order_nodup
  chained := h.inv.chained.congr fun n hn => h.prev_of_ne (h.ne_of_mem hn)

theorem current_relax (h : Improving arcs source order waived σ u d arc) :
    Current order u d (relax u d σ arc) where
  settled := h.current.settled
  dist_eq := by
    rw [h.dist_of_ne (h.ne_of_mem h.current.settled)]
    exact h.current.dist_eq
  nonneg := h.current.nonneg
  greatest := by
    intro s hs q hq
    rw [h.dist_of_ne (h.ne_of_mem hs)] at hq
    exact h.current.greatest s hs q hq

end Improving

theorem relax_inv {arcs : V → List (V × K)} {source : V} {order : List V}
    {waived : V → V × K → Prop} {σ : Search V K}
    (hinv : Inv arcs source order waived σ) {u : V} {d : K}
    (hcurrent : Current order u d σ) {arc : V × K} (harc : arc ∈ arcs u)
    (hw : 0 ≤ arc.2) :
    Inv arcs source order
        (fun x b => waived x b ∧ ¬ (x = u ∧ b = arc)) (relax u d σ arc) ∧
      Current order u d (relax u d σ arc) := by
  cases himproves : improves (d + arc.2) (σ.dist arc.1) with
  | true =>
      have himproving : Improving arcs source order waived σ u d arc :=
        ⟨hinv, hcurrent, harc, hw, himproves⟩
      exact ⟨himproving.inv_relax, himproving.current_relax⟩
  | false =>
      obtain ⟨q, hq, hle⟩ := exists_le_of_not_improves himproves
      rw [relax_of_not_improves himproves]
      refine ⟨{ hinv with relaxed := ?_ }, hcurrent⟩
      intro x hx dx hdx b hb hnot
      by_cases hsame : x = u ∧ b = arc
      · obtain ⟨rfl, rfl⟩ := hsame
        have hdist : dx = d :=
          Option.some.inj (hdx.symm.trans hcurrent.dist_eq)
        rw [hdist]
        exact ⟨q, hq, hle⟩
      · exact hinv.relaxed x hx dx hdx b hb fun hwaived =>
          hnot ⟨hwaived, hsame⟩

/-! ### All arcs of a vertex -/

theorem relax_foldl_inv {arcs : V → List (V × K)} {source : V}
    {order : List V} {u : V} {d : K} :
    ∀ (rest : List (V × K)) {σ : Search V K},
      (∀ arc ∈ rest, arc ∈ arcs u ∧ 0 ≤ arc.2) →
      Inv arcs source order (fun x b => x = u ∧ b ∈ rest) σ →
      Current order u d σ →
      Inv arcs source order (fun _ _ => False) (rest.foldl (relax u d) σ) := by
  intro rest
  induction rest with
  | nil =>
      intro σ _ hinv _
      exact hinv.weaken fun x b hwaived => by
        cases hwaived.2
  | cons arc rest ih =>
      intro σ harcs hinv hcurrent
      obtain ⟨harc, hw⟩ := harcs arc (List.mem_cons_self ..)
      obtain ⟨hnext, hcurrent'⟩ := relax_inv hinv hcurrent harc hw
      rw [List.foldl_cons]
      refine ih (fun b hb => harcs b (List.mem_cons_of_mem arc hb)) ?_ hcurrent'
      apply hnext.weaken
      rintro x b ⟨⟨rfl, hb⟩, hnot⟩
      rcases List.mem_cons.mp hb with rfl | hmem
      · exact absurd ⟨rfl, rfl⟩ hnot
      · exact ⟨rfl, hmem⟩

/-! ### One round -/

omit [LinearOrder V] [IsOrderedAddMonoid K] in
/-- Skipping an outdated entry. -/
theorem Inv.skip {arcs : V → List (V × K)} {source : V} {order : List V}
    {σ : Search V K} (hinv : Inv arcs source order (fun _ _ => False) σ)
    {d : K} {u : V} {pq : List (K × V)} (hpq : σ.pq = (d, u) :: pq)
    (hstale : stale d (σ.dist u) = true) :
    Inv arcs source order (fun _ _ => False) { σ with pq := pq } := by
  have hsub : ∀ e ∈ pq, e ∈ σ.pq := by
    intro e he
    rw [hpq]
    exact List.mem_cons_of_mem _ he
  have hsorted := hinv.sorted
  have hnodup := hinv.nodup
  rw [hpq] at hsorted hnodup
  exact
    { hinv with
      sorted := (List.pairwise_cons.mp hsorted).2
      nodup := (List.nodup_cons.mp hnodup).2
      nonneg := fun e he => hinv.nonneg e (hsub e he)
      entries := fun e he => hinv.entries e (hsub e he)
      spent := fun e he => hinv.spent e (hsub e he)
      floor := fun s hs => by
        obtain ⟨q, hq, hle⟩ := hinv.floor s hs
        exact ⟨q, hq, fun e he => hle e (hsub e he)⟩
      live := fun n q hn hq => by
        have hin := hinv.live n q hn hq
        rw [hpq] at hin
        rcases List.mem_cons.mp hin with heq | hmem
        · obtain ⟨rfl, rfl⟩ := Prod.mk.inj heq
          rw [hq] at hstale
          exact absurd (of_decide_eq_true hstale) (lt_irrefl q)
        · exact hmem }

omit [LinearOrder V] [IsOrderedAddMonoid K] in
/-- An entry that is not outdated belongs to an unsettled vertex and carries
its distance. -/
theorem Inv.popped {arcs : V → List (V × K)} {source : V} {order : List V}
    {σ : Search V K} (hinv : Inv arcs source order (fun _ _ => False) σ)
    {d : K} {u : V} (hmem : (d, u) ∈ σ.pq)
    (hfresh : stale d (σ.dist u) = false) :
    σ.dist u = some d ∧ u ∉ order := by
  obtain ⟨q, hq, hle⟩ := hinv.entries _ hmem
  have hdist : q = d := by
    rw [hq] at hfresh
    exact le_antisymm hle (not_lt.mp (of_decide_eq_false hfresh))
  refine ⟨by rw [hq, hdist], ?_⟩
  intro horder
  obtain ⟨q', hq', hlt⟩ := hinv.spent _ hmem horder
  have heq : q' = q := Option.some.inj (hq'.symm.trans hq)
  rw [heq, hdist] at hlt
  exact lt_irrefl d hlt

omit [LinearOrder V] [IsOrderedAddMonoid K] in
theorem Inv.settle {arcs : V → List (V × K)} {source : V} {order : List V}
    {σ : Search V K} (hinv : Inv arcs source order (fun _ _ => False) σ)
    {d : K} {u : V} {pq : List (K × V)} (hpq : σ.pq = (d, u) :: pq)
    (hfresh : stale d (σ.dist u) = false) :
    Inv arcs source (u :: order) (fun x b => x = u ∧ b ∈ arcs u)
        { σ with pq := pq } ∧
      Current (u :: order) u d { σ with pq := pq } := by
  have hfirst : (d, u) ∈ σ.pq := by
    rw [hpq]
    exact List.mem_cons_self ..
  obtain ⟨hdist, hunsettled⟩ := hinv.popped hfirst hfresh
  have hsub : ∀ e ∈ pq, e ∈ σ.pq := by
    intro e he
    rw [hpq]
    exact List.mem_cons_of_mem _ he
  have hsorted := hinv.sorted
  have hnodup := hinv.nodup
  rw [hpq] at hsorted hnodup
  rw [List.pairwise_cons] at hsorted
  rw [List.nodup_cons] at hnodup
  have hgreatest : ∀ s ∈ order, ∀ q, σ.dist s = some q → q ≤ d := by
    intro s hs q hq
    obtain ⟨q', hq', hle⟩ := hinv.floor s hs
    rw [Option.some.inj (hq.symm.trans hq')]
    exact hle _ hfirst
  refine ⟨?_, ?_⟩
  · exact
      { source_dist := hinv.source_dist
        sorted := hsorted.2
        nodup := hnodup.2
        nonneg := fun e he => hinv.nonneg e (hsub e he)
        entries := fun e he => hinv.entries e (hsub e he)
        spent := fun e he horder => by
          rcases List.mem_cons.mp horder with heq | hold
          · refine ⟨d, by rw [heq]; exact hdist, ?_⟩
            apply lt_of_le_of_ne (hsorted.1 e he)
            intro hd
            apply hnodup.1
            have hsame : e = (d, u) := Prod.ext hd.symm heq
            rw [← hsame]
            exact he
          · exact hinv.spent e (hsub e he) hold
        live := fun n q hn hq => by
          rw [List.mem_cons, not_or] at hn
          have hin := hinv.live n q hn.2 hq
          rw [hpq] at hin
          rcases List.mem_cons.mp hin with heq | hmem
          · exact absurd (Prod.mk.inj heq).2 hn.1
          · exact hmem
        floor := fun s hs => by
          rcases List.mem_cons.mp hs with rfl | hold
          · exact ⟨d, hdist, hsorted.1⟩
          · obtain ⟨q, hq, hle⟩ := hinv.floor s hold
            exact ⟨q, hq, fun e he => hle e (hsub e he)⟩
        relaxed := fun x hx dx hdx b hb hnot => by
          rcases List.mem_cons.mp hx with rfl | hold
          · exact absurd ⟨rfl, hb⟩ hnot
          · exact hinv.relaxed x hold dx hdx b hb id
        tight := fun n p hp => by
          obtain ⟨hmem, hrest⟩ := hinv.tight n p hp
          exact ⟨List.mem_cons_of_mem u hmem, hrest⟩
        rootless := hinv.rootless
        order_nodup := List.nodup_cons.mpr ⟨hunsettled, hinv.order_nodup⟩
        chained := by
          refine ⟨?_, hinv.chained⟩
          cases hprev : σ.prev u with
          | none => exact Or.inl ⟨hinv.rootless u d hdist hprev, rfl⟩
          | some p => exact Or.inr ⟨p, (hinv.tight u p hprev).1, rfl⟩ }
  · exact
      { settled := List.mem_cons_self ..
        dist_eq := hdist
        nonneg := hinv.nonneg _ hfirst
        greatest := fun s hs q hq => by
          rcases List.mem_cons.mp hs with rfl | hold
          · exact (Option.some.inj (hq.symm.trans hdist)).le
          · exact hgreatest s hold q hq }

/-! ### The rounds that are left -/

/-- The arcs of the vertices that are not settled yet. -/
def remainingArcs (arcs : V → List (V × K)) (vertices order : List V) : ℕ :=
  ((vertices.filter (· ∉ order)).map fun n => (arcs n).length).sum

def potential (arcs : V → List (V × K)) (vertices order : List V)
    (σ : Search V K) : ℕ :=
  σ.pq.length + remainingArcs arcs vertices order

omit [IsOrderedAddMonoid K] in
theorem length_relax_le (u : V) (d : K) (σ : Search V K) (arc : V × K) :
    (relax u d σ arc).pq.length ≤ σ.pq.length + 1 := by
  cases himproves : improves (d + arc.2) (σ.dist arc.1) with
  | false =>
      rw [relax_of_not_improves himproves]
      exact Nat.le_succ _
  | true =>
      rw [relax_of_improves himproves]
      exact (List.orderedInsert_length Before σ.pq _).le

omit [IsOrderedAddMonoid K] in
theorem length_relax_foldl_le (u : V) (d : K) :
    ∀ (rest : List (V × K)) (σ : Search V K),
      (rest.foldl (relax u d) σ).pq.length ≤ σ.pq.length + rest.length := by
  intro rest
  induction rest with
  | nil =>
      intro σ
      exact le_refl _
  | cons arc rest ih =>
      intro σ
      rw [List.foldl_cons, List.length_cons]
      have hone := length_relax_le u d σ arc
      have hmore := ih (relax u d σ arc)
      omega

omit [AddCommGroup K] [LinearOrder K] [IsOrderedAddMonoid K] in
theorem remainingArcs_cons (arcs : V → List (V × K)) (n : V)
    (rest order : List V) :
    remainingArcs arcs (n :: rest) order =
      (if n ∈ order then 0 else (arcs n).length) +
        remainingArcs arcs rest order := by
  unfold remainingArcs
  by_cases hn : n ∈ order
  · rw [List.filter_cons_of_neg (by simpa using hn), if_pos hn, Nat.zero_add]
  · rw [List.filter_cons_of_pos (by simpa using hn), if_neg hn, List.map_cons,
      List.sum_cons]

omit [AddCommGroup K] [LinearOrder K] [IsOrderedAddMonoid K] in
theorem remainingArcs_le (arcs : V → List (V × K)) (u : V) (order : List V) :
    ∀ rest : List V,
      remainingArcs arcs rest (u :: order) ≤ remainingArcs arcs rest order := by
  intro rest
  induction rest with
  | nil => exact le_refl _
  | cons n rest ih =>
      rw [remainingArcs_cons, remainingArcs_cons]
      by_cases hn : n ∈ order
      · rw [if_pos hn, if_pos (List.mem_cons_of_mem u hn)]
        exact Nat.add_le_add_left ih _
      · rw [if_neg hn]
        split_ifs
        · omega
        · omega

omit [AddCommGroup K] [LinearOrder K] [IsOrderedAddMonoid K] in
theorem remainingArcs_settle {arcs : V → List (V × K)} {vertices : List V}
    (hvertices : ∀ n, n ∉ vertices → arcs n = []) {order : List V} {u : V}
    (hu : u ∉ order) :
    (arcs u).length + remainingArcs arcs vertices (u :: order) ≤
      remainingArcs arcs vertices order := by
  have hmember : ∀ rest : List V, u ∈ rest →
      (arcs u).length + remainingArcs arcs rest (u :: order) ≤
        remainingArcs arcs rest order := by
    intro rest
    induction rest with
    | nil =>
        intro hin
        cases hin
    | cons n rest ih =>
        intro hin
        rw [remainingArcs_cons, remainingArcs_cons]
        by_cases hn : n = u
        · rw [hn, if_pos (List.mem_cons_self ..), if_neg hu]
          have hrest := remainingArcs_le arcs u order rest
          omega
        · have hrest := ih (List.mem_of_ne_of_mem (Ne.symm hn) hin)
          by_cases hold : n ∈ order
          · rw [if_pos hold, if_pos (List.mem_cons_of_mem u hold)]
            omega
          · have hnew : n ∉ u :: order := by
              rw [List.mem_cons, not_or]
              exact ⟨hn, hold⟩
            rw [if_neg hold, if_neg hnew]
            omega
  by_cases hin : u ∈ vertices
  · exact hmember vertices hin
  · rw [hvertices u hin, List.length_nil, Nat.zero_add]
    exact remainingArcs_le arcs u order vertices

/-! ### Whole runs -/

omit [LinearOrder K] [IsOrderedAddMonoid K] in
theorem initial_dist (source n : V) :
    (initial source : Search V K).dist n =
      if n = source then some 0 else none := by
  change Function.update (fun _ => none) source (some 0) n = _
  rw [Function.update_apply]

omit [IsOrderedAddMonoid K] in
theorem initial_inv (arcs : V → List (V × K)) (source : V) :
    Inv arcs source [] (fun _ _ => False) (initial source) := by
  have hentry : ∀ e ∈ (initial source : Search V K).pq, e = (0, source) :=
    fun e he => List.mem_singleton.mp he
  have hsource : (initial source : Search V K).dist source = some 0 := by
    rw [initial_dist, if_pos rfl]
  have hreached : ∀ n d, (initial source : Search V K).dist n = some d →
      n = source ∧ d = 0 := by
    intro n d hd
    rw [initial_dist] at hd
    split_ifs at hd with hn
    exact ⟨hn, (Option.some.inj hd).symm⟩
  exact
    { source_dist := hsource
      sorted := List.pairwise_singleton _ _
      nodup := List.nodup_singleton _
      nonneg := fun e he => (hentry e he).symm ▸ le_refl (0 : K)
      entries := fun e he => by
        rw [hentry e he]
        exact ⟨0, hsource, le_refl 0⟩
      spent := fun e _ horder => absurd horder List.not_mem_nil
      live := fun n d _ hd => by
        obtain ⟨rfl, rfl⟩ := hreached n d hd
        exact List.mem_singleton_self _
      floor := fun u hu => absurd hu List.not_mem_nil
      relaxed := fun u hu => absurd hu List.not_mem_nil
      tight := fun n p hp => by
        cases hp
      rootless := fun n d hd _ => (hreached n d hd).1
      order_nodup := List.nodup_nil
      chained := trivial }

/-- What a search leaves behind. -/
structure Solved (arcs : V → List (V × K)) (source target : V)
    (σ : Search V K) : Prop where
  source_dist : σ.dist source = some 0
  least : ∀ length, Trip arcs source target length →
    ∃ d, σ.dist target = some d ∧ d ≤ length
  hop : ∀ n p, σ.prev n = some p → ∃ d w, σ.dist p = some d ∧
    LeastArc arcs p n w ∧ σ.dist n = some (d + w)
  reached : ∀ d, σ.dist target = some d → ∃ order : List V,
    order.Nodup ∧ Chained σ.prev source order ∧ target ∈ order

omit [LinearOrder V] in
theorem Inv.hop {arcs : V → List (V × K)} {source : V} {order : List V}
    {σ : Search V K} (hinv : Inv arcs source order (fun _ _ => False) σ)
    {n p : V} (hp : σ.prev n = some p) :
    ∃ d w, σ.dist p = some d ∧ LeastArc arcs p n w ∧
      σ.dist n = some (d + w) := by
  obtain ⟨hmem, d, w, hd, harc, hn⟩ := hinv.tight n p hp
  refine ⟨d, w, hd, ⟨harc, ?_⟩, hn⟩
  intro w' hw'
  obtain ⟨q, hq, hle⟩ := hinv.relaxed p hmem d hd (n, w') hw' id
  have hq' : q = d + w := Option.some.inj (hq.symm.trans hn)
  rw [hq'] at hle
  exact le_of_add_le_add_left hle

omit [LinearOrder V] in
/-- A trip is at least as long as the distance of its end, or as some entry of
the queue. -/
theorem Inv.frontier {arcs : V → List (V × K)} {source : V} {order : List V}
    {σ : Search V K} (hinv : Inv arcs source order (fun _ _ => False) σ)
    (hnonneg : ∀ u, ∀ arc ∈ arcs u, 0 ≤ arc.2) {x : V} {length : K}
    (trip : Trip arcs source x length) :
    (∃ d, σ.dist x = some d ∧ d ≤ length) ∨ ∃ e ∈ σ.pq, e.1 ≤ length := by
  cases trip.frontier hinv.source_dist
    (fun u hu d hd arc harc => hinv.relaxed u hu d hd arc harc id) hnonneg with
  | inl hreached => exact Or.inl hreached
  | inr hopen =>
      obtain ⟨y, d, hy, hd, hle⟩ := hopen
      exact Or.inr ⟨(d, y), hinv.live y d hy hd, hle⟩

omit [LinearOrder V] in
/-- The queue is empty. -/
theorem Inv.solved_of_nil {arcs : V → List (V × K)} {source target : V}
    {order : List V} {σ : Search V K}
    (hinv : Inv arcs source order (fun _ _ => False) σ)
    (hnonneg : ∀ u, ∀ arc ∈ arcs u, 0 ≤ arc.2) (hpq : σ.pq = []) :
    Solved arcs source target σ where
  source_dist := hinv.source_dist
  least := by
    intro length trip
    cases hinv.frontier hnonneg trip with
    | inl hreached => exact hreached
    | inr hqueued =>
        obtain ⟨e, he, _⟩ := hqueued
        rw [hpq] at he
        cases he
  hop := fun n p hp => hinv.hop hp
  reached := by
    intro d hd
    refine ⟨order, hinv.order_nodup, hinv.chained, ?_⟩
    by_contra hmem
    have hlive := hinv.live target d hmem hd
    rw [hpq] at hlive
    cases hlive

omit [LinearOrder V] in
/-- The target is the first of the queue. -/
theorem Inv.solved_of_target {arcs : V → List (V × K)} {source target : V}
    {order : List V} {σ : Search V K}
    (hinv : Inv arcs source order (fun _ _ => False) σ)
    (hnonneg : ∀ u, ∀ arc ∈ arcs u, 0 ≤ arc.2) {d : K} {pq : List (K × V)}
    (hpq : σ.pq = (d, target) :: pq)
    (hfresh : stale d (σ.dist target) = false) :
    Solved arcs source target { σ with pq := pq } := by
  have hfirst : (d, target) ∈ σ.pq := by
    rw [hpq]
    exact List.mem_cons_self ..
  obtain ⟨hdist, hunsettled⟩ := hinv.popped hfirst hfresh
  have hsettled := (hinv.settle hpq hfresh).1
  exact
    { source_dist := hinv.source_dist
      least := by
        intro length trip
        cases hinv.frontier hnonneg trip with
        | inl hreached => exact hreached
        | inr hqueued =>
            obtain ⟨e, he, hle⟩ := hqueued
            refine ⟨d, hdist, ?_⟩
            have hsorted := hinv.sorted
            rw [hpq] at he hsorted
            rcases List.mem_cons.mp he with rfl | hmem
            · exact hle
            · exact ((List.pairwise_cons.mp hsorted).1 e hmem).trans hle
      hop := fun n p hp => hinv.hop hp
      reached := fun _ _ => ⟨target :: order, hsettled.order_nodup,
        hsettled.chained, List.mem_cons_self ..⟩ }

/-- With a round for every entry of the queue and for every arc that is left,
the search ends, and its target is solved. -/
theorem run_solved {arcs : V → List (V × K)} {vertices : List V}
    (hvertices : ∀ n, n ∉ vertices → arcs n = [])
    (hnonneg : ∀ u, ∀ arc ∈ arcs u, 0 ≤ arc.2) {source target : V} :
    ∀ (fuel : ℕ) {order : List V} {σ : Search V K},
      Inv arcs source order (fun _ _ => False) σ →
      potential arcs vertices order σ < fuel →
      ∃ final, run arcs target fuel σ = some final ∧
        Solved arcs source target final := by
  intro fuel
  induction fuel with
  | zero =>
      intro order σ _ hfuel
      cases hfuel
  | succ fuel ih =>
      intro order σ hinv hfuel
      unfold run
      cases hpq : σ.pq with
      | nil => exact ⟨σ, rfl, hinv.solved_of_nil hnonneg hpq⟩
      | cons e pq =>
          obtain ⟨d, u⟩ := e
          have hlength : σ.pq.length = pq.length + 1 := by
            rw [hpq, List.length_cons]
          unfold potential at hfuel ih
          dsimp only
          by_cases hstale : stale d (σ.dist u) = true
          · rw [if_pos hstale]
            have hrest := hinv.skip hpq hstale
            apply ih hrest
            dsimp only
            omega
          · rw [if_neg hstale]
            have hfresh : stale d (σ.dist u) = false :=
              Bool.eq_false_iff.mpr hstale
            by_cases htarget : u = target
            · rw [if_pos htarget]
              subst htarget
              exact ⟨_, rfl, hinv.solved_of_target hnonneg hpq hfresh⟩
            · rw [if_neg htarget]
              have hfirst : (d, u) ∈ σ.pq := by
                rw [hpq]
                exact List.mem_cons_self ..
              have hunsettled := (hinv.popped hfirst hfresh).2
              obtain ⟨hsettled, hcurrent⟩ := hinv.settle hpq hfresh
              have hrelaxed := relax_foldl_inv (arcs u)
                (fun arc harc => ⟨harc, hnonneg u arc harc⟩) hsettled hcurrent
              apply ih hrelaxed
              have hpushed := length_relax_foldl_le u d (arcs u)
                { σ with pq := pq }
              have hspent := remainingArcs_settle hvertices hunsettled
              dsimp only at hpushed
              omega

omit [IsOrderedAddMonoid K] in
/-- More rounds do not change the outcome. -/
theorem run_mono {arcs : V → List (V × K)} {target : V} {fuel fuel' : ℕ}
    (hle : fuel ≤ fuel') {σ final : Search V K}
    (hrun : run arcs target fuel σ = some final) :
    run arcs target fuel' σ = some final := by
  induction fuel generalizing fuel' σ with
  | zero => cases hrun
  | succ fuel ih =>
      obtain ⟨more, rfl⟩ := Nat.exists_eq_succ_of_ne_zero
        (Nat.ne_of_gt (Nat.lt_of_lt_of_le (Nat.succ_pos fuel) hle))
      have hle' : fuel ≤ more := Nat.le_of_succ_le_succ hle
      unfold run at hrun ⊢
      cases hpq : σ.pq with
      | nil =>
          rw [hpq] at hrun
          exact hrun
      | cons e pq =>
          rw [hpq] at hrun
          dsimp only at hrun ⊢
          split_ifs at hrun ⊢
          · exact ih hle' hrun
          · exact hrun
          · exact ih hle' hrun

theorem run_initial {arcs : V → List (V × K)} {vertices : List V}
    (hvertices : ∀ n, n ∉ vertices → arcs n = [])
    (hnonneg : ∀ u, ∀ arc ∈ arcs u, 0 ≤ arc.2) (source target : V) :
    ∃ final, Solved arcs source target final ∧
      ∀ fuel, remainingArcs arcs vertices [] + 2 ≤ fuel →
        run arcs target fuel (initial source) = some final := by
  obtain ⟨final, hrun, hsolved⟩ := run_solved hvertices hnonneg
    (remainingArcs arcs vertices [] + 2) (initial_inv arcs source)
    (by
      change 1 + remainingArcs arcs vertices [] < _
      omega)
  exact ⟨final, hsolved, fun fuel hfuel => run_mono hfuel hrun⟩

/-! ### The path -/

/-- The hops of a path from the source on, with their lengths: each along a
shortest arc. -/
inductive Route (arcs : V → List (V × K)) (source : V) :
    V → List V → List K → Prop
  | start : Route arcs source source [source] []
  | extend {u v : V} {path : List V} {lengths : List K} {w : K}
      (route : Route arcs source u path lengths) (arc : LeastArc arcs u v w) :
      Route arcs source v (path ++ [v]) (lengths ++ [w])

omit [LinearOrder V] [IsOrderedAddMonoid K] in
theorem Route.trip {arcs : V → List (V × K)} {source n : V} {path : List V}
    {lengths : List K} (route : Route arcs source n path lengths) :
    Trip arcs source n lengths.sum := by
  induction route with
  | start => exact Trip.start
  | extend route arc ih =>
      rw [List.sum_append, List.sum_singleton]
      exact ih.extend arc.1

omit [LinearOrder V] in
theorem zip_tail_concat (u v : V) : ∀ path : List V,
    (path ++ [u, v]).zip (path ++ [u, v]).tail =
      (path ++ [u]).zip (path ++ [u]).tail ++ [(u, v)] := by
  intro path
  induction path with
  | nil => rfl
  | cons a path ih =>
      cases path with
      | nil => rfl
      | cons b path => simpa using ih

omit [LinearOrder V] [AddCommGroup K] [IsOrderedAddMonoid K] in
theorem Route.hops {arcs : V → List (V × K)} {source n : V} {path : List V}
    {lengths : List K} (route : Route arcs source n path lengths) :
    (∃ older, path = older ++ [n]) ∧
      List.Forall₂ (fun hop w => LeastArc arcs hop.1 hop.2 w)
        (path.zip path.tail) lengths := by
  induction route with
  | start => exact ⟨⟨[], rfl⟩, List.Forall₂.nil⟩
  | @extend u v path lengths w route arc ih =>
      obtain ⟨⟨older, rfl⟩, hhops⟩ := ih
      refine ⟨⟨older ++ [u], rfl⟩, ?_⟩
      rw [List.append_assoc, List.singleton_append, zip_tail_concat]
      exact List.rel_append hhops (List.Forall₂.cons arc List.Forall₂.nil)

omit [LinearOrder V] [IsOrderedAddMonoid K] in
/-- The predecessors describe a route as long as the distance. -/
theorem Solved.route {arcs : V → List (V × K)} {source target : V}
    {σ : Search V K} (hsolved : Solved arcs source target σ) :
    ∀ {n : V} {back : List V} {d : K}, BackPath σ.prev source n back →
      σ.dist n = some d → ∃ lengths, lengths.sum = d ∧
        Route arcs source n back.reverse lengths := by
  intro n back
  induction back generalizing n with
  | nil =>
      intro d hback _
      have hhead := hback.head
      cases hhead
  | cons m rest ih =>
      intro d hback hd
      have hm : m = n := Option.some.inj hback.head
      subst hm
      cases rest with
      | nil =>
          have hsource : m = source := Option.some.inj hback.last
          subst hsource
          have hzero : d = 0 :=
            Option.some.inj (hd.symm.trans hsolved.source_dist)
          exact ⟨[], hzero.symm, Route.start⟩
      | cons p rest =>
          obtain ⟨hprev, hsteps⟩ := List.isChain_cons_cons.mp hback.steps
          have hlast := hback.last
          rw [List.getLast?_cons_cons] at hlast
          obtain ⟨dp, w, hdp, harc, hdm⟩ := hsolved.hop m p hprev
          have hrest : BackPath σ.prev source p (p :: rest) :=
            { head := rfl
              last := hlast
              nodup := (List.nodup_cons.mp hback.nodup).2
              steps := hsteps }
          obtain ⟨lengths, hsum, hroute⟩ := ih hrest hdp
          refine ⟨lengths ++ [w], ?_, ?_⟩
          · rw [List.sum_append, List.sum_singleton, hsum]
            exact Option.some.inj (hdm.symm.trans hd)
          · rw [List.reverse_cons]
            exact hroute.extend harc

end Algorithm

end ShortestPaths
