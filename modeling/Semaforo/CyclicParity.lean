import Mathlib.Tactic

/-!
# Parity along a cycle

The parity of the edges of a closed walk that pass a test.  For a test that does
not see the direction of an edge the parity of a cycle is the same from every
starting point and in both directions, and a chord splits it into the parities
of the two cycles it cuts off.
-/

namespace CyclicParity

variable {ι : Type} (test : ι → ι → Bool)

/-- The parity of the walk from `a` through the vertices of a list. -/
def pathParity : ι → List ι → Bool
  | _, [] => false
  | a, b :: rest => test a b ^^ pathParity b rest

/-- The parity of the cycle that enters a list from its last vertex. -/
def cycleParity (cycle : List ι) : Bool :=
  match cycle.getLast? with
  | none => false
  | some last => pathParity test last cycle

/-- The two cycles into which the chord between positions `i` and `j` cuts. -/
def chordInner (i j : ℕ) (cycle : List ι) : List ι :=
  (cycle.drop i).take (j - i + 1)

def chordOuter (i j : ℕ) (cycle : List ι) : List ι :=
  cycle.drop j ++ cycle.take (i + 1)

theorem pathParity_append (a b : ι) (left right : List ι) :
    pathParity test a (left ++ b :: right) =
      (pathParity test a (left ++ [b]) ^^ pathParity test b right) := by
  induction left generalizing a with
  | nil => simp [pathParity]
  | cons c left ih => simp [pathParity, ih c]

theorem cycleParity_concat (vertices : List ι) (last : ι) :
    cycleParity test (vertices ++ [last]) =
      pathParity test last (vertices ++ [last]) := by
  unfold cycleParity
  rw [List.getLast?_concat]

theorem cycleParity_append_comm (left right : List ι) :
    cycleParity test (left ++ right) = cycleParity test (right ++ left) := by
  rcases List.eq_nil_or_concat' left with rfl | ⟨left, y, rfl⟩
  · rw [List.nil_append, List.append_nil]
  rcases List.eq_nil_or_concat' right with rfl | ⟨right, z, rfl⟩
  · rw [List.nil_append, List.append_nil]
  calc
    cycleParity test (left ++ [y] ++ (right ++ [z])) =
        pathParity test z (left ++ y :: (right ++ [z])) := by
      rw [← List.append_assoc, cycleParity_concat]
      simp
    _ = (pathParity test z (left ++ [y]) ^^
          pathParity test y (right ++ [z])) :=
      pathParity_append test z y left (right ++ [z])
    _ = (pathParity test y (right ++ [z]) ^^
          pathParity test z (left ++ [y])) := Bool.xor_comm _ _
    _ = pathParity test y (right ++ z :: (left ++ [y])) :=
      (pathParity_append test y z right (left ++ [y])).symm
    _ = cycleParity test (right ++ [z] ++ (left ++ [y])) := by
      rw [← List.append_assoc (right ++ [z]), cycleParity_concat]
      simp

theorem cycleParity_rotate (cycle : List ι) (n : ℕ) :
    cycleParity test (cycle.rotate n) = cycleParity test cycle := by
  rw [List.rotate_eq_drop_append_take_mod, cycleParity_append_comm,
    List.take_append_drop]

variable {test}

theorem pathParity_reverse (hsymm : ∀ a b, test a b = test b a) (a b : ι)
    (vertices : List ι) :
    pathParity test b (vertices.reverse ++ [a]) =
      pathParity test a (vertices ++ [b]) := by
  induction vertices generalizing a with
  | nil => simp [pathParity, hsymm a b]
  | cons c rest ih =>
      calc
        pathParity test b ((c :: rest).reverse ++ [a]) =
            pathParity test b (rest.reverse ++ c :: [a]) := by simp
        _ = (pathParity test b (rest.reverse ++ [c]) ^^
              pathParity test c [a]) := pathParity_append test b c _ _
        _ = (pathParity test c (rest ++ [b]) ^^ test a c) := by
          rw [ih c, hsymm a c]
          simp [pathParity]
        _ = pathParity test a (c :: rest ++ [b]) := by
          rw [Bool.xor_comm]
          rfl

theorem cycleParity_reverse (hsymm : ∀ a b, test a b = test b a)
    (cycle : List ι) :
    cycleParity test cycle.reverse = cycleParity test cycle := by
  rcases List.eq_nil_or_concat' cycle with rfl | ⟨vertices, z, rfl⟩
  · rfl
  calc
    cycleParity test (vertices ++ [z]).reverse =
        cycleParity test ([z] ++ vertices.reverse) := by simp
    _ = cycleParity test (vertices.reverse ++ [z]) :=
      cycleParity_append_comm test _ _
    _ = pathParity test z (vertices.reverse ++ [z]) :=
      cycleParity_concat test _ _
    _ = pathParity test z (vertices ++ [z]) := pathParity_reverse hsymm z z _
    _ = cycleParity test (vertices ++ [z]) :=
      (cycleParity_concat test _ _).symm

theorem cycleParity_split (hsymm : ∀ a b, test a b = test b a) (a b : ι)
    (before between after : List ι) :
    cycleParity test (before ++ a :: (between ++ b :: after)) =
      (cycleParity test (a :: (between ++ [b])) ^^
        cycleParity test (b :: after ++ (before ++ [a]))) := by
  have hinner : cycleParity test (a :: (between ++ [b])) =
      (test b a ^^ pathParity test a (between ++ [b])) := by
    rw [← List.cons_append, cycleParity_concat]
    rfl
  have houter : cycleParity test (b :: after ++ (before ++ [a])) =
      (test a b ^^ pathParity test b (after ++ before ++ [a])) := by
    rw [← List.append_assoc, cycleParity_concat]
    rfl
  have hwhole :
      cycleParity test (before ++ a :: (between ++ b :: after)) =
        (pathParity test b (after ++ before ++ [a]) ^^
          pathParity test a (between ++ [b])) := by
    calc
      cycleParity test (before ++ a :: (between ++ b :: after)) =
          cycleParity test ((before ++ a :: (between ++ [b])) ++ after) := by
        simp
      _ = cycleParity test (after ++ (before ++ a :: (between ++ [b]))) :=
        cycleParity_append_comm test _ _
      _ = cycleParity test ((after ++ before ++ a :: between) ++ [b]) := by
        simp
      _ = pathParity test b ((after ++ before) ++ a :: (between ++ [b])) := by
        rw [cycleParity_concat]
        simp
      _ = _ := pathParity_append test b a _ _
  rw [hwhole, hinner, houter, hsymm b a]
  cases test a b <;> cases pathParity test a (between ++ [b]) <;>
    cases pathParity test b (after ++ before ++ [a]) <;> rfl

/-- A chord splits the parity of a cycle. -/
theorem cycleParity_chord (hsymm : ∀ a b, test a b = test b a)
    (cycle : List ι) {i j : ℕ} (hij : i < j) (hj : j < cycle.length) :
    cycleParity test cycle =
      (cycleParity test (chordInner i j cycle) ^^
        cycleParity test (chordOuter i j cycle)) := by
  have hi : i < cycle.length := hij.trans hj
  have hparts : cycle = cycle.take i ++ cycle[i] ::
      ((cycle.drop (i + 1)).take (j - (i + 1)) ++
        cycle[j] :: cycle.drop (j + 1)) := by
    have htail : cycle.drop (i + 1) =
        (cycle.drop (i + 1)).take (j - (i + 1)) ++ cycle.drop j := by
      have hsplit := List.take_append_drop (j - (i + 1)) (cycle.drop (i + 1))
      rw [List.drop_drop, show i + 1 + (j - (i + 1)) = j by omega] at hsplit
      exact hsplit.symm
    rw [← List.drop_eq_getElem_cons hj, ← htail,
      ← List.drop_eq_getElem_cons hi, List.take_append_drop]
  have hinner : chordInner i j cycle = cycle[i] ::
      ((cycle.drop (i + 1)).take (j - (i + 1)) ++ [cycle[j]]) := by
    unfold chordInner
    rw [List.drop_eq_getElem_cons hi, List.take_succ_cons,
      show j - i = j - (i + 1) + 1 by omega, List.take_add_one,
      List.getElem?_drop, show i + 1 + (j - (i + 1)) = j by omega,
      List.getElem?_eq_getElem hj]
    rfl
  have houter : chordOuter i j cycle =
      cycle[j] :: cycle.drop (j + 1) ++ (cycle.take i ++ [cycle[i]]) := by
    unfold chordOuter
    rw [List.drop_eq_getElem_cons hj, List.take_add_one,
      List.getElem?_eq_getElem hi]
    rfl
  rw [hinner, houter, ← cycleParity_split hsymm, ← hparts]

end CyclicParity
