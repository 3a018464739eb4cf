import Mathlib.Data.List.Basic
import Mathlib.Tactic

/-!
# Topics and topic filters

A topic is read as its levels, which the slashes separate.  In a filter the
level `+` stands for any one level, and a last level `#` for any number of them.
-/

namespace TopicFilter

def levels (topic : String) : List String :=
  (topic.toList.splitOn '/').map String.ofList

def admitsLevels : List String → List String → Bool
  | [], topic => topic.isEmpty
  | level :: filter, [] => level = "#" && filter.isEmpty
  | level :: filter, t :: topic =>
      (level = "#" && filter.isEmpty) ||
        ((level = "+" || level = t) && admitsLevels filter topic)

/-- No level of the filter stands for others. -/
def Plain (s : String) : Prop := '+' ∉ s.toList ∧ '#' ∉ s.toList

instance (s : String) : Decidable (Plain s) :=
  inferInstanceAs (Decidable (_ ∧ _))

/-- A filter that starts with a wildcard leaves the broker's own topics out. -/
def admits (filter topic : String) : Bool :=
  admitsLevels (levels filter) (levels topic) &&
    !(topic.toList.head? = some '$' &&
      (filter.toList.head? = some '+' || filter.toList.head? = some '#'))

/-! ## Levels -/

theorem mem_splitOn {α : Type*} [BEq α] [LawfulBEq α] {separator : α}
    {xs part : List α} (h : part ∈ xs.splitOn separator) :
    separator ∉ part ∧ part.Sublist xs := by
  induction xs generalizing part with
  | nil =>
      obtain rfl : part = [] := by simpa using h
      exact ⟨List.not_mem_nil, List.Sublist.refl []⟩
  | cons x xs ih =>
      obtain ⟨first, rest, hsplit⟩ :=
        List.exists_cons_of_ne_nil (List.splitOn_ne_nil separator xs)
      rw [List.splitOn_cons_eq_if_modifyHead] at h
      rw [hsplit] at h ih
      by_cases hx : (x == separator) = true
      · rw [if_pos hx] at h
        rcases List.mem_cons.mp h with rfl | hrest
        · exact ⟨List.not_mem_nil, List.nil_sublist _⟩
        · obtain ⟨hfree, hsub⟩ := ih hrest
          exact ⟨hfree, hsub.cons x⟩
      · rw [if_neg hx, List.modifyHead_cons] at h
        rcases List.mem_cons.mp h with rfl | hrest
        · obtain ⟨hfree, hsub⟩ := ih (List.mem_cons_self ..)
          refine ⟨fun hmem => ?_, hsub.cons_cons x⟩
          rcases List.mem_cons.mp hmem with hsame | hfirst
          · exact hx (by rw [hsame, beq_self_eq_true])
          · exact hfree hfirst
        · obtain ⟨hfree, hsub⟩ := ih (List.mem_cons_of_mem _ hrest)
          exact ⟨hfree, hsub.cons x⟩

theorem levels_injective : Function.Injective levels := by
  intro s t h
  have hparts := (List.map_injective_iff.mpr
    fun _ _ => String.ofList_injective) h
  have hjoined := congrArg (List.intercalate ['/']) hparts
  rw [List.intercalate_splitOn, List.intercalate_splitOn] at hjoined
  exact String.toList_injective hjoined

theorem levels_append (s t : String) :
    levels (s ++ "/" ++ t) = levels s ++ levels t := by
  unfold levels
  rw [String.toList_append, String.toList_append, List.append_assoc]
  change ((s.toList ++ '/' :: t.toList).splitOn '/').map _ = _
  rw [List.splitOn_append_cons_self, List.map_append]

theorem levels_of_single {s : String} (h : '/' ∉ s.toList) : levels s = [s] := by
  unfold levels
  rw [List.splitOn_eq_singleton h, List.map_singleton, String.ofList_toList]

theorem mem_levels {s level : String} (h : level ∈ levels s) :
    '/' ∉ level.toList ∧ level.toList ⊆ s.toList := by
  obtain ⟨part, hpart, rfl⟩ := List.mem_map.mp h
  rw [String.toList_ofList]
  obtain ⟨hfree, hsub⟩ := mem_splitOn hpart
  exact ⟨hfree, hsub.subset⟩

/-! ## Filters -/

theorem Plain.level {s level : String} (hs : Plain s) (h : level ∈ levels s) :
    level ≠ "+" ∧ level ≠ "#" := by
  have hsub := (mem_levels h).2
  constructor
  · rintro rfl
    exact hs.1 (hsub (List.mem_singleton_self '+'))
  · rintro rfl
    exact hs.2 (hsub (List.mem_singleton_self '#'))

theorem admitsLevels_append {plain : List String}
    (hplain : ∀ level ∈ plain, level ≠ "+" ∧ level ≠ "#")
    (filter topic : List String) :
    admitsLevels (plain ++ filter) topic = true ↔
      ∃ rest, topic = plain ++ rest ∧ admitsLevels filter rest = true := by
  induction plain generalizing topic with
  | nil => simp
  | cons level plain ih =>
      obtain ⟨hplus, hmany⟩ := hplain level (List.mem_cons_self ..)
      have hrest := ih fun x hx => hplain x (List.mem_cons_of_mem _ hx)
      cases topic with
      | nil => simp [admitsLevels, hmany]
      | cons t topic =>
          simp only [List.cons_append, admitsLevels, hmany, hplus, decide_false,
            Bool.false_and, Bool.false_or, Bool.and_eq_true, decide_eq_true_eq,
            hrest, List.cons.injEq]
          constructor
          · rintro ⟨rfl, rest, rfl, hfilter⟩
            exact ⟨rest, ⟨rfl, rfl⟩, hfilter⟩
          · rintro ⟨rest, ⟨rfl, rfl⟩, hfilter⟩
            exact ⟨rfl, rest, rfl, hfilter⟩

theorem admits_eq_admitsLevels {filter : String}
    (hplus : filter.toList.head? ≠ some '+')
    (hmany : filter.toList.head? ≠ some '#') (topic : String) :
    admits filter topic = admitsLevels (levels filter) (levels topic) := by
  simp [admits, hplus, hmany]

/-- A filter without wildcards admits the topic of its name and no other. -/
theorem admits_iff_eq {filter topic : String} (h : Plain filter) :
    admits filter topic = true ↔ topic = filter := by
  have hlevels := admitsLevels_append (fun level => h.level) [] (levels topic)
  rw [List.append_nil] at hlevels
  rw [admits_eq_admitsLevels (fun hhead => h.1 (List.mem_of_mem_head? hhead))
    (fun hhead => h.2 (List.mem_of_mem_head? hhead)), hlevels]
  constructor
  · rintro ⟨rest, htopic, hrest⟩
    obtain rfl : rest = [] := by simpa [admitsLevels] using hrest
    rw [List.append_nil] at htopic
    exact levels_injective htopic
  · rintro rfl
    exact ⟨[], (List.append_nil _).symm, rfl⟩

/-- A last `+` is filled in by one level. -/
theorem admits_single_iff {stem topic : String} (h : Plain stem)
    (hne : stem ≠ "") :
    admits (stem ++ "/" ++ "+") topic = true ↔
      ∃ level : String, '/' ∉ level.toList ∧ topic = stem ++ "/" ++ level := by
  have hhead : (stem ++ "/" ++ "+").toList.head? = stem.toList.head? := by
    rw [String.toList_append, String.toList_append, List.append_assoc,
      List.head?_append_of_ne_nil _ (by simpa using hne)]
  have hlast : levels "+" = ["+"] := levels_of_single (by decide)
  rw [admits_eq_admitsLevels
    (fun hplus => h.1 (List.mem_of_mem_head? (hhead ▸ hplus)))
    (fun hmany => h.2 (List.mem_of_mem_head? (hhead ▸ hmany))), levels_append,
    hlast, admitsLevels_append (fun level => h.level)]
  constructor
  · rintro ⟨rest, htopic, hrest⟩
    match rest, hrest with
    | [level], _ =>
        have hfree : '/' ∉ level.toList := by
          refine (mem_levels (s := topic) ?_).1
          rw [htopic]
          exact List.mem_append_right _ (List.mem_singleton_self level)
        refine ⟨level, hfree, levels_injective ?_⟩
        rw [htopic, levels_append, levels_of_single hfree]
    | _ :: _ :: _, hrest => simp [admitsLevels] at hrest
  · rintro ⟨level, hfree, rfl⟩
    rw [levels_append, levels_of_single hfree]
    exact ⟨[level], rfl, rfl⟩

end TopicFilter
