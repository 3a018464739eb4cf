import Mathlib.Tactic
import Semaforo.JsonText

/-!
# A value written without escapes

An object's member whose text was put between quotation marks as it stood.  Once
the text holds a character that does not stand for itself, the object keeps,
under that key, no string as long as the text: a character read adds at most one
to a string, and the special one adds none.
-/

namespace Semaforo

namespace JsonText

def Short (n : ℕ) (v : PyJson) : Prop := ∀ x, v = .str x → x.toList.length < n

/-- The strings that are still being read are short as well. -/
def Mode.Short (n : ℕ) : Mode → Prop
  | .string false read _ => read.length < n
  | .word rest v => '"' ∉ rest ∧ ∀ x, v ≠ .str x
  | _ => True

def Frame.IsObject (P : PyObject → Prop) : Frame → Prop
  | .object d _ => P d
  | .array _ => False

/-- The outermost container is an object whose members satisfy `P`. -/
def Base (P : PyObject → Prop) : List Frame → Prop
  | [] => False
  | [f] => f.IsObject P
  | _ :: f :: rest => Base P (f :: rest)

def Held (key : String) (n : ℕ) (d : PyObject) : Prop :=
  ∃ v, d.lookup key = some v ∧ Short n v

/-- After `n` characters of the value of `key`, one of them special. -/
inductive Keeps (key : String) (n : ℕ) : State → Prop
  | reading {d : PyObject} {read : List Char} {escape : Escape} (hread : read.length < n) :
      Keeps key n ⟨[.object d key], .string false read escape⟩
  | held {stack : List Frame} {mode : Mode} (hbase : Base (Held key n) stack)
      (hmode : mode.Short n) : Keeps key n ⟨stack, mode⟩
  | done (v : PyJson) : Keeps key n ⟨[], .done v⟩

theorem Short.mono {n n' : ℕ} (hle : n ≤ n') {v : PyJson} (h : Short n v) : Short n' v :=
  fun x hx => (h x hx).trans_le hle

theorem short_of_ne_str {v : PyJson} (h : ∀ x, v ≠ .str x) (n : ℕ) : Short n v :=
  fun x hx => absurd hx (h x)

theorem Held.mono {key : String} {n n' : ℕ} (hle : n ≤ n') {d : PyObject}
    (h : Held key n d) : Held key n' d := by
  obtain ⟨v, hv, hshort⟩ := h
  exact ⟨v, hv, hshort.mono hle⟩

theorem short_str {n : ℕ} {read : List Char} (h : read.length < n) :
    Short n (.str (String.ofList read)) := by
  intro x hx
  rw [← PyJson.str.inj hx, String.toList_ofList]
  exact h

theorem held_set {key : String} {n : ℕ} (d : PyObject) {v : PyJson} (hv : Short n v) :
    Held key n (d.set key v) :=
  ⟨v, by rw [PyObject.lookup_set, if_pos rfl], hv⟩

theorem Held.set {key : String} {n : ℕ} {d : PyObject} (h : Held key n d)
    {v : PyJson} (hv : Short n v) (key' : String) : Held key n (d.set key' v) := by
  unfold Held
  rw [PyObject.lookup_set]
  split_ifs
  · exact ⟨v, rfl, hv⟩
  · exact h

theorem Base.mono {P Q : PyObject → Prop} (hPQ : ∀ d, P d → Q d) {stack : List Frame}
    (h : Base P stack) : Base Q stack := by
  induction stack with
  | nil => exact h
  | cons f rest ih =>
      rcases rest with - | ⟨g, rest⟩
      · rcases f with ⟨d, k⟩ | items
        · exact hPQ d h
        · exact h
      · exact ih h

theorem Base.push {P : PyObject → Prop} {stack : List Frame} (h : Base P stack)
    (f : Frame) : Base P (f :: stack) := by
  rcases stack with - | ⟨g, rest⟩
  · exact h.elim
  · exact h

variable {key : String} {n : ℕ} {stack : List Frame}

theorem Base.keeps_complete (h : Base (Held key n) stack) {v : PyJson} (hv : Short n v) :
    Keeps key n (complete v stack) := by
  rcases stack with - | ⟨f, - | ⟨g, rest⟩⟩
  · exact h.elim
  · rcases f with ⟨d, k⟩ | items
    · exact .held (Held.set h hv k) trivial
    · exact h.elim
  · rcases f with ⟨d, k⟩ | items
    · change Keeps key n ⟨.object (d.set k v) "" :: g :: rest, .after⟩
      exact .held h trivial
    · change Keeps key n ⟨.array (items ++ [v]) :: g :: rest, .after⟩
      exact .held h trivial

theorem keeps_complete_value (d : PyObject) {read : List Char} (hread : read.length < n) :
    Keeps key n (complete (.str (String.ofList read)) [.object d key]) := by
  change Keeps key n ⟨[.object (d.set key (.str (String.ofList read))) ""], .after⟩
  exact .held (held_set d (short_str hread)) trivial

/-- The innermost container ends. -/
theorem Base.keeps_close {f : Frame} (h : Base (Held key n) (f :: stack)) {v : PyJson}
    (hv : ∀ x, v ≠ .str x) : Keeps key n (complete v stack) := by
  rcases stack with - | ⟨g, rest⟩
  · exact .done v
  · have hrest : Base (Held key n) (g :: rest) := h
    exact hrest.keeps_complete (short_of_ne_str hv n)

theorem keeps_closeObject (h : Base (Held key n) stack) {s : State}
    (hs : closeObject stack = some s) : Keeps key n s := by
  rcases stack with - | ⟨⟨d, k⟩ | items, rest⟩
  · exact h.elim
  · rw [← Option.some.inj hs]
    exact h.keeps_close (by simp)
  · simp [closeObject] at hs

theorem keeps_closeArray (h : Base (Held key n) stack) {s : State}
    (hs : closeArray stack = some s) : Keeps key n s := by
  rcases stack with - | ⟨⟨d, k⟩ | items, rest⟩
  · exact h.elim
  · simp [closeArray] at hs
  · rw [← Option.some.inj hs]
    exact h.keeps_close (by simp)

theorem keeps_afterValue (h : Base (Held key n) stack) {c : Char} {s : State}
    (hs : afterValue stack c = some s) : Keeps key n s := by
  unfold afterValue at hs
  split_ifs at hs
  · rcases stack with - | ⟨⟨d, k⟩ | items, rest⟩
    · exact h.elim
    · rw [← Option.some.inj hs]
      exact .held h trivial
    · rw [← Option.some.inj hs]
      exact .held h trivial
  · exact keeps_closeObject h hs
  · exact keeps_closeArray h hs

theorem keeps_ite {p : Prop} [Decidable p] {o o' : Option State} {s : State}
    (h : o = some s → Keeps key n s) (h' : o' = some s → Keeps key n s)
    (hs : (if p then o else o') = some s) : Keeps key n s := by
  split_ifs at hs
  · exact h hs
  · exact h' hs

theorem keeps_unless_space {s s' : State} {c : Char} {next : Option State}
    (h : Keeps key n s) (hnext : next = some s' → Keeps key n s')
    (hs : (if isSpace c then some s else next) = some s') : Keeps key n s' :=
  keeps_ite (fun hs => Option.some.inj hs ▸ h) hnext hs

theorem keeps_resume {s s' : State} (h : Keeps key n s) {c : Char}
    (hs : resume s c = some s') : Keeps key n s' := by
  refine keeps_unless_space h (fun hs => ?_) hs
  cases h with
  | reading hread => simp at hs
  | held hbase hmode =>
      split at hs
      · exact keeps_afterValue hbase hs
      · simp at hs
  | done v => simp at hs

theorem keeps_startValue (h : Base (Held key (n + 1)) stack) {c : Char} {s : State}
    (hs : startValue stack c = some s) : Keeps key (n + 1) s := by
  have hto : ∀ {t : State}, Keeps key (n + 1) t → some t = some s → Keeps key (n + 1) s :=
    fun ht hs => Option.some.inj hs ▸ ht
  have hnumber : ∀ part m, Keeps key (n + 1) ⟨stack, .number part m⟩ :=
    fun _ _ => .held h trivial
  have hword : ∀ {rest : List Char} {v : PyJson}, '"' ∉ rest → (∀ x, v ≠ .str x) →
      Keeps key (n + 1) ⟨stack, .word rest v⟩ := fun hrest hv => .held h ⟨hrest, hv⟩
  have hstring : Keeps key (n + 1) ⟨stack, .string false [] .plain⟩ :=
    .held h (Nat.succ_pos n)
  refine keeps_ite (hto hstring) ?_ hs
  refine keeps_ite (hto (.held (h.push _) trivial)) ?_
  refine keeps_ite (hto (.held (h.push _) trivial)) ?_
  refine keeps_ite (hto (hnumber _ _)) (keeps_ite (hto (hnumber _ _)) ?_)
  refine keeps_ite (hto (hword (by decide) (by simp))) ?_
  refine keeps_ite (hto (hword (by decide) (by simp))) ?_
  refine keeps_ite (hto (hword (by decide) (by simp))) ?_
  refine keeps_ite (hto (hword (by decide) (by simp))) ?_
  refine keeps_ite (hto (hword (by decide) (by simp))) fun hs => ?_
  obtain ⟨d, -, rfl⟩ := Option.map_eq_some_iff.mp hs
  exact hnumber _ _

theorem keeps_closeString (h : Base (Held key n) stack) {isKey : Bool} {read : List Char}
    (hread : isKey = false → read.length < n) {s : State}
    (hs : closeString isKey read stack = some s) : Keeps key n s := by
  unfold closeString at hs
  split_ifs at hs with hkey
  · rcases stack with - | ⟨⟨d, k⟩ | items, rest⟩
    · exact h.elim
    · rw [← Option.some.inj hs]
      refine .held ?_ trivial
      rcases rest with - | ⟨g, rest⟩
      · exact h
      · exact h
    · simp at hs
  · rw [← Option.some.inj hs]
    exact h.keeps_complete (short_str (hread (Bool.eq_false_iff.mpr hkey)))

theorem length_readChar {read read' : List Char} {escape escape' : Escape} {c : Char}
    (h : readChar read escape c = some (read', escape')) :
    read'.length ≤ read.length + 1 := by
  have hread : read' = read ∨ ∃ x, read' = read ++ [x] := by
    cases escape
    case backslash =>
      simp only [readChar] at h
      split_ifs at h
      · grind
      · obtain ⟨x, -, hx⟩ := Option.map_eq_some_iff.mp h
        grind
    case unicode | low =>
      obtain ⟨d, -, hd⟩ := Option.bind_eq_some_iff.mp h
      grind
    all_goals grind [readChar]
  rcases hread with rfl | ⟨x, rfl⟩
  · exact Nat.le_succ _
  · rw [List.length_append, List.length_singleton]

theorem Number.toPy_ne_str (n : Number) (x : String) : n.toPy ≠ .str x := by
  unfold Number.toPy
  split_ifs <;> simp

theorem Keeps.mono {n n' : ℕ} (hle : n ≤ n') {s : State} (h : Keeps key n s) :
    Keeps key n' s := by
  cases h with
  | reading hread => exact .reading (hread.trans_le hle)
  | @held stack mode hbase hmode =>
      refine .held (hbase.mono fun d => Held.mono hle) ?_
      cases mode with
      | string isKey read escape =>
          cases isKey
          · exact lt_of_lt_of_le hmode hle
          · trivial
      | word rest v => exact hmode
      | _ => trivial
  | done v => exact .done v

theorem step_string {isKey : Bool} {read : List Char} {escape : Escape} {c : Char}
    {s : State} (hs : step ⟨stack, .string isKey read escape⟩ c = some s) :
    closeString isKey read stack = some s ∨
      ∃ read' escape', read'.length ≤ read.length + 1 ∧
        s = ⟨stack, .string isKey read' escape'⟩ := by
  have hnext : ∀ {r : List Char × Escape}, readChar read escape c = some r →
      ∃ read' escape', read'.length ≤ read.length + 1 ∧
        (⟨stack, .string isKey r.1 r.2⟩ : State) = ⟨stack, .string isKey read' escape'⟩ :=
    fun {r} hr => ⟨r.1, r.2, length_readChar hr, rfl⟩
  cases escape with
  | plain =>
      change (if c = '"' then closeString isKey read stack
        else (readChar read .plain c).map fun r => ⟨stack, .string isKey r.1 r.2⟩) =
          some s at hs
      split_ifs at hs
      · exact .inl hs
      · obtain ⟨r, hr, rfl⟩ := Option.map_eq_some_iff.mp hs
        exact .inr (hnext hr)
  | _ =>
      obtain ⟨r, hr, rfl⟩ := Option.map_eq_some_iff.mp hs
      exact .inr (hnext hr)

theorem keeps_number {part : NumberPart} {m : Number} (h : Base (Held key n) stack)
    {c : Char} {s : State} (hs : step ⟨stack, .number part m⟩ c = some s) :
    Keeps key n s := by
  unfold step at hs
  dsimp only at hs
  split at hs
  · rw [← Option.some.inj hs]
    exact .held h trivial
  · split_ifs at hs
    · exact keeps_resume (h.keeps_complete (short_of_ne_str m.toPy_ne_str n)) hs
    · rw [← Option.some.inj hs]
      exact .held h ⟨by decide, by simp⟩

theorem keeps_word {rest : List Char} {v : PyJson} (h : Base (Held key n) stack)
    (hword : '"' ∉ rest ∧ ∀ x, v ≠ .str x) {c : Char} {s : State}
    (hs : step ⟨stack, .word rest v⟩ c = some s) : Keeps key n s := by
  cases rest with
  | nil => simp [step] at hs
  | cons x rest =>
      simp only [step] at hs
      split_ifs at hs
      · rw [← Option.some.inj hs]
        exact h.keeps_complete (short_of_ne_str hword.2 n)
      · rw [← Option.some.inj hs]
        exact .held h ⟨fun hmem => hword.1 (List.mem_cons_of_mem _ hmem), hword.2⟩

theorem keeps_step {s s' : State} (h : Keeps key n s) {c : Char}
    (hs : step s c = some s') : Keeps key (n + 1) s' := by
  cases h with
  | @reading d read escape hread =>
      rcases step_string hs with hs | ⟨read', escape', hread', rfl⟩
      · rw [← Option.some.inj hs]
        exact keeps_complete_value d (Nat.lt_succ_of_lt hread)
      · exact .reading (by omega)
  | @held stack mode hbase hmode =>
      have hbase' : Base (Held key (n + 1)) stack :=
        hbase.mono fun d => Held.mono (Nat.le_succ n)
      have hstay := (Keeps.held hbase hmode).mono (Nat.le_succ n)
      cases mode with
      | value =>
          exact keeps_unless_space hstay (fun hs => keeps_startValue hbase' hs) hs
      | firstItem =>
          refine keeps_unless_space hstay (fun hs => ?_) hs
          split_ifs at hs
          · exact keeps_closeArray hbase' hs
          · exact keeps_startValue hbase' hs
      | firstKey =>
          refine keeps_unless_space hstay (fun hs => ?_) hs
          split_ifs at hs
          · exact Option.some.inj hs ▸ .held hbase' trivial
          · exact keeps_closeObject hbase' hs
      | nextKey =>
          refine keeps_unless_space hstay (fun hs => ?_) hs
          split_ifs at hs
          exact Option.some.inj hs ▸ .held hbase' trivial
      | colon =>
          refine keeps_unless_space hstay (fun hs => ?_) hs
          split_ifs at hs
          exact Option.some.inj hs ▸ .held hbase' trivial
      | after => exact keeps_resume hstay hs
      | string isKey read escape =>
          rcases step_string hs with hs | ⟨read', escape', hread', rfl⟩
          · refine keeps_closeString hbase' (fun hkey => ?_) hs
            subst hkey
            exact Nat.lt_succ_of_lt hmode
          · refine .held hbase' ?_
            cases isKey
            · exact Nat.lt_succ_of_le (hread'.trans (Nat.succ_le_of_lt hmode))
            · trivial
      | number part m => exact keeps_number hbase' hs
      | word rest v => exact keeps_word hbase' hmode hs
      | done v => exact keeps_resume hstay hs
  | done v => exact keeps_resume (.done v) hs

theorem keeps_run (w : List Char) : ∀ {n : ℕ} {s s' : State}, Keeps key n s →
    run s w = some s' → Keeps key (n + w.length) s' := by
  induction w with
  | nil =>
      intro n s s' h hs
      exact Option.some.inj hs ▸ h
  | cons c w ih =>
      intro n s s' h hs
      rw [run] at hs
      obtain ⟨s'', hs'', hrest⟩ := Option.bind_eq_some_iff.mp hs
      have h' := ih (keeps_step h hs'') hrest
      rwa [Nat.add_right_comm] at h'

/-- The text is read as the value of the key, one of its characters is special. -/
theorem keeps_of_not_plain (w : List Char) : ∀ {n : ℕ} {d : PyObject} {read : List Char},
    read.length ≤ n → (∃ c ∈ w, ¬Plain c) → ∀ {s : State},
      run ⟨[.object d key], .string false read .plain⟩ w = some s →
        Keeps key (n + w.length) s := by
  induction w with
  | nil =>
      intro n d read hread hspecial
      simp at hspecial
  | cons c w ih =>
      intro n d read hread hspecial s hs
      rw [List.length_cons, ← Nat.add_assoc, Nat.add_right_comm]
      by_cases hc : Plain c
      · rw [run_cons (step_plain hc _ _ _)] at hs
        refine ih (by simpa using hread) ?_ hs
        obtain ⟨x, hx, hplain⟩ := hspecial
        rcases List.mem_cons.mp hx with rfl | hx
        · exact absurd hc hplain
        · exact ⟨x, hx, hplain⟩
      · obtain ⟨s', hs', hrest⟩ := Option.bind_eq_some_iff.mp hs
        refine keeps_run w ?_ hrest
        simp only [step, readChar] at hs'
        split_ifs at hs' with hquote hbackslash hcontrol
        · rw [← Option.some.inj hs']
          exact keeps_complete_value d (Nat.lt_succ_of_le hread)
        · rw [← Option.some.inj hs']
          exact .reading (Nat.lt_succ_of_le hread)
        · simp at hs'
        · exact absurd ⟨hquote, hbackslash, not_lt.mp hcontrol⟩ hc

theorem word_of_keeps {s : State} (h : Keeps key n s)
    (rest : List Char) (v : PyJson) (hmode : s.mode = .word rest v) : '"' ∉ rest := by
  cases h with
  | reading hread => simp at hmode
  | held hbase hshort =>
      subst hmode
      exact hshort.1
  | done v => simp at hmode

theorem held_of_keeps {k : String} {d : PyObject} {read : List Char}
    (h : Keeps key n ⟨[.object d k], .string false read .plain⟩) :
    Held key n (d.set k (.str (String.ofList read))) := by
  cases h with
  | reading hread => exact held_set d (short_str hread)
  | held hbase hshort => exact Held.set hbase (short_str hshort) k

end JsonText

end Semaforo
