import Mathlib.Tactic
import Semaforo.PyJson

/-!
# Reading JSON text

`json.loads` as a machine that takes the text one character at a time, with the
open containers on a stack.  The text is strict: no control characters in
strings, no comma before a closing bracket, no leading zeros; the constants
`NaN` and `Infinity` are read.  Of equal keys the last one counts.  An escaped
surrogate without its partner has no character and is not read.
-/

namespace Semaforo

namespace JsonText

/-- A container that is still open; the key of an object is the one whose value
comes next. -/
inductive Frame where
  | object (members : PyObject) (key : String)
  | array (items : List PyJson)

inductive Escape where
  | plain
  | backslash
  | unicode (count value : ℕ)
  | high (surrogate : ℕ)
  | highBackslash (surrogate : ℕ)
  | low (surrogate count value : ℕ)

inductive NumberPart where
  | minus
  | zero
  | int
  | dot
  | frac
  | exp
  | expSign
  | expDigits

structure Number where
  negative : Bool := false
  mantissa : ℕ := 0
  decimals : ℕ := 0
  isFloat : Bool := false
  expNegative : Bool := false
  exponent : ℕ := 0

inductive Mode where
  | value
  | firstItem
  | firstKey
  | nextKey
  | colon
  | after
  | string (isKey : Bool) (read : List Char) (escape : Escape)
  | number (part : NumberPart) (n : Number)
  | word (rest : List Char) (value : PyJson)
  | done (value : PyJson)

structure State where
  stack : List Frame
  mode : Mode

def isSpace (c : Char) : Bool := c = ' ' || c = '\n' || c = '\t' || c = '\r'

def digit? (c : Char) : Option ℕ :=
  if '0' ≤ c ∧ c ≤ '9' then some (c.toNat - 48) else none

def hexDigit? (c : Char) : Option ℕ :=
  if '0' ≤ c ∧ c ≤ '9' then some (c.toNat - 48)
  else if 'a' ≤ c ∧ c ≤ 'f' then some (c.toNat - 87)
  else if 'A' ≤ c ∧ c ≤ 'F' then some (c.toNat - 55)
  else none

/-- A value has ended. -/
def complete (value : PyJson) : List Frame → State
  | [] => ⟨[], .done value⟩
  | .object members key :: stack =>
      ⟨.object (members.set key value) "" :: stack, .after⟩
  | .array items :: stack => ⟨.array (items ++ [value]) :: stack, .after⟩

def closeObject : List Frame → Option State
  | .object members _ :: stack => some (complete (.dict members) stack)
  | _ => none

def closeArray : List Frame → Option State
  | .array items :: stack => some (complete (.list items) stack)
  | _ => none

/-- The character after a value, white space apart. -/
def afterValue (stack : List Frame) (c : Char) : Option State :=
  if c = ',' then
    match stack with
    | .object _ _ :: _ => some ⟨stack, .nextKey⟩
    | .array _ :: _ => some ⟨stack, .value⟩
    | [] => none
  else if c = '}' then closeObject stack
  else if c = ']' then closeArray stack
  else none

/-- The next character once a value has ended. -/
def resume (s : State) (c : Char) : Option State :=
  if isSpace c then some s
  else
    match s.mode with
    | .after => afterValue s.stack c
    | _ => none

def startValue (stack : List Frame) (c : Char) : Option State :=
  if c = '"' then some ⟨stack, .string false [] .plain⟩
  else if c = '{' then some ⟨.object [] "" :: stack, .firstKey⟩
  else if c = '[' then some ⟨.array [] :: stack, .firstItem⟩
  else if c = '-' then some ⟨stack, .number .minus { negative := true }⟩
  else if c = '0' then some ⟨stack, .number .zero {}⟩
  else if c = 't' then some ⟨stack, .word ['r', 'u', 'e'] (.bool true)⟩
  else if c = 'f' then some ⟨stack, .word ['a', 'l', 's', 'e'] (.bool false)⟩
  else if c = 'n' then some ⟨stack, .word ['u', 'l', 'l'] .null⟩
  else if c = 'N' then some ⟨stack, .word ['a', 'N'] (.float .nan)⟩
  else if c = 'I' then
    some ⟨stack, .word ['n', 'f', 'i', 'n', 'i', 't', 'y'] (.float .posInf)⟩
  else (digit? c).map fun d => ⟨stack, .number .int { mantissa := d }⟩

def closeString (isKey : Bool) (read : List Char) (stack : List Frame) :
    Option State :=
  if isKey then
    match stack with
    | .object members _ :: rest =>
        some ⟨.object members (String.ofList read) :: rest, .colon⟩
    | _ => none
  else some (complete (.str (String.ofList read)) stack)

def simpleEscape? (c : Char) : Option Char :=
  if c = '"' ∨ c = '\\' ∨ c = '/' then some c
  else if c = 'b' then some (Char.ofNat 8)
  else if c = 'f' then some (Char.ofNat 12)
  else if c = 'n' then some '\n'
  else if c = 'r' then some '\r'
  else if c = 't' then some '\t'
  else none

/-- What a string holds after one more character that does not end it. -/
def readChar (read : List Char) (escape : Escape) (c : Char) :
    Option (List Char × Escape) :=
  match escape with
  | .plain =>
      if c = '\\' then some (read, .backslash)
      else if c.toNat < 32 then none
      else some (read ++ [c], .plain)
  | .backslash =>
      if c = 'u' then some (read, .unicode 0 0)
      else (simpleEscape? c).map fun x => (read ++ [x], .plain)
  | .unicode count value =>
      (hexDigit? c).bind fun d =>
        let code := value * 16 + d
        if count < 3 then some (read, .unicode (count + 1) code)
        else if 0xD800 ≤ code ∧ code < 0xDC00 then some (read, .high code)
        else if 0xDC00 ≤ code ∧ code < 0xE000 then none
        else some (read ++ [Char.ofNat code], .plain)
  | .high surrogate =>
      if c = '\\' then some (read, .highBackslash surrogate) else none
  | .highBackslash surrogate =>
      if c = 'u' then some (read, .low surrogate 0 0) else none
  | .low surrogate count value =>
      (hexDigit? c).bind fun d =>
        let code := value * 16 + d
        if count < 3 then some (read, .low surrogate (count + 1) code)
        else if 0xDC00 ≤ code ∧ code < 0xE000 then
          some (read ++ [Char.ofNat
            (0x10000 + (surrogate - 0xD800) * 0x400 + (code - 0xDC00))], .plain)
        else none

/-- The part of a number that follows, where the character goes on with it. -/
def Number.next (n : Number) (part : NumberPart) (c : Char) :
    Option (NumberPart × Number) :=
  match digit? c with
  | some d =>
      match part with
      | .minus =>
          some (if d = 0 then .zero else .int, { n with mantissa := d })
      | .zero => none
      | .int => some (.int, { n with mantissa := n.mantissa * 10 + d })
      | .dot | .frac =>
          some (.frac, { n with
            mantissa := n.mantissa * 10 + d
            decimals := n.decimals + 1 })
      | .exp | .expSign | .expDigits =>
          some (.expDigits, { n with exponent := n.exponent * 10 + d })
  | none =>
      match part with
      | .zero | .int =>
          if c = '.' then some (.dot, { n with isFloat := true })
          else if c = 'e' ∨ c = 'E' then some (.exp, { n with isFloat := true })
          else none
      | .frac =>
          if c = 'e' ∨ c = 'E' then some (.exp, { n with isFloat := true })
          else none
      | .exp =>
          if c = '+' then some (.expSign, n)
          else if c = '-' then some (.expSign, { n with expNegative := true })
          else none
      | _ => none

def NumberPart.ends : NumberPart → Bool
  | .zero | .int | .frac | .expDigits => true
  | _ => false

def Number.toPy (n : Number) : PyJson :=
  if n.isFloat then
    let size : ℚ := n.mantissa / 10 ^ n.decimals *
      10 ^ (if n.expNegative then -(n.exponent : ℤ) else n.exponent)
    .float (.fin (if n.negative then -size else size))
  else .int (if n.negative then -n.mantissa else n.mantissa)

def step (s : State) (c : Char) : Option State :=
  match s.mode with
  | .value => if isSpace c then some s else startValue s.stack c
  | .firstItem =>
      if isSpace c then some s
      else if c = ']' then closeArray s.stack
      else startValue s.stack c
  | .firstKey =>
      if isSpace c then some s
      else if c = '"' then some ⟨s.stack, .string true [] .plain⟩
      else if c = '}' then closeObject s.stack
      else none
  | .nextKey =>
      if isSpace c then some s
      else if c = '"' then some ⟨s.stack, .string true [] .plain⟩
      else none
  | .colon =>
      if isSpace c then some s
      else if c = ':' then some ⟨s.stack, .value⟩
      else none
  | .string isKey read .plain =>
      if c = '"' then closeString isKey read s.stack
      else (readChar read .plain c).map fun r => ⟨s.stack, .string isKey r.1 r.2⟩
  | .string isKey read escape =>
      (readChar read escape c).map fun r => ⟨s.stack, .string isKey r.1 r.2⟩
  | .number part n =>
      match n.next part c with
      | some (part', n') => some ⟨s.stack, .number part' n'⟩
      | none =>
          if part.ends then resume (complete n.toPy s.stack) c
          else if part matches .minus ∧ c = 'I' then
            some ⟨s.stack,
              .word ['n', 'f', 'i', 'n', 'i', 't', 'y'] (.float .negInf)⟩
          else none
  | .word [] _ => none
  | .word (x :: rest) value =>
      if c = x then
        if rest = [] then some (complete value s.stack)
        else some ⟨s.stack, .word rest value⟩
      else none
  | .after => resume s c
  | .done _ => resume s c

def run : State → List Char → Option State
  | s, [] => some s
  | s, c :: rest => (step s c).bind fun s' => run s' rest

/-- What the text says once it is over. -/
def final (s : State) : Option PyJson :=
  match s.stack, s.mode with
  | [], .done value => some value
  | [], .number part n => if part.ends then some n.toPy else none
  | _, _ => none

def loads (text : String) : Option PyJson :=
  (run ⟨[], .value⟩ text.toList).bind final

/-! ## What a text says, whatever follows it -/

theorem run_append (w : List Char) :
    ∀ (s : State) (w' : List Char),
      run s (w ++ w') = (run s w).bind fun s' => run s' w' := by
  induction w with
  | nil => exact fun _ _ => rfl
  | cons c w ih =>
      intro s w'
      rw [List.cons_append, run, run, Option.bind_assoc]
      exact congrArg _ (funext fun s' => ih s' w')

theorem run_cons {s s' : State} {c : Char} (h : step s c = some s') (w : List Char) :
    run s (c :: w) = run s' w := by
  rw [run, h, Option.bind_some]

theorem run_singleton (s : State) (c : Char) : run s [c] = step s c := by
  rw [run]
  cases step s c <;> rfl

/-- Where a value may end, white space and the end of the text apart. -/
def Terminator (c : Char) : Prop := c = ',' ∨ c = '}' ∨ c = ']'

/-- The text is read as the value once something ends it. -/
def Reads (w : List Char) (v : PyJson) : Prop :=
  ∀ stack c, Terminator c → run ⟨stack, .value⟩ (w ++ [c]) = resume (complete v stack) c

/-- The text ends itself. -/
def Closed (w : List Char) (v : PyJson) : Prop :=
  ∀ stack, run ⟨stack, .value⟩ w = some (complete v stack)

/-- What a text says, if it says anything. -/
def textValue (w : List Char) : PyJson := (loads (String.ofList w)).getD .null

theorem Closed.loads_eq {w : List Char} {v : PyJson} (h : Closed w v) :
    loads (String.ofList w) = some v := by
  rw [loads, String.toList_ofList, h [], Option.bind_some]
  rfl

theorem Closed.textValue_eq {w : List Char} {v : PyJson} (h : Closed w v) :
    textValue w = v := by
  rw [textValue, h.loads_eq, Option.getD_some]

theorem step_complete (v : PyJson) (stack : List Frame) (c : Char) :
    step (complete v stack) c = resume (complete v stack) c := by
  rcases stack with - | ⟨members, key⟩ | items <;> rfl

theorem Closed.reads {w : List Char} {v : PyJson} (h : Closed w v) : Reads w v := by
  intro stack c _
  rw [run_append, h stack, Option.bind_some, run_singleton, step_complete]

/-! ### Strings -/

/-- A character that stands for itself inside a string. -/
def Plain (c : Char) : Prop := c ≠ '"' ∧ c ≠ '\\' ∧ 32 ≤ c.toNat

instance : DecidablePred Plain := fun _ => inferInstanceAs (Decidable (_ ∧ _ ∧ _))

def PlainText (s : String) : Prop := ∀ c ∈ s.toList, Plain c

instance : DecidablePred PlainText := fun s => List.decidableBAll Plain s.toList

theorem step_plain {c : Char} (h : Plain c) (stack : List Frame) (isKey : Bool)
    (read : List Char) : step ⟨stack, .string isKey read .plain⟩ c =
      some ⟨stack, .string isKey (read ++ [c]) .plain⟩ := by
  obtain ⟨hquote, hbackslash, hcontrol⟩ := h
  simp only [step, if_neg hquote, readChar, if_neg hbackslash,
    if_neg (not_lt.mpr hcontrol), Option.map_some]

theorem run_plain (w : List Char) (h : ∀ c ∈ w, Plain c) (stack : List Frame)
    (isKey : Bool) : ∀ read, run ⟨stack, .string isKey read .plain⟩ w =
      some ⟨stack, .string isKey (read ++ w) .plain⟩ := by
  induction w with
  | nil =>
      intro read
      rw [List.append_nil]
      rfl
  | cons c w ih =>
      intro read
      rw [run_cons (step_plain (h c List.mem_cons_self) stack isKey read),
        ih (fun x hx => h x (List.mem_cons_of_mem _ hx)), List.append_assoc]
      rfl

theorem closed_string {s : String} (h : PlainText s) :
    Closed ('"' :: (s.toList ++ ['"'])) (.str s) := by
  intro stack
  have hstart : step ⟨stack, .value⟩ '"' = some ⟨stack, .string false [] .plain⟩ := rfl
  have hend : step ⟨stack, .string false s.toList .plain⟩ '"' =
      some (complete (.str (String.ofList s.toList)) stack) := rfl
  rw [run_cons hstart, run_append, run_plain _ h, Option.bind_some, List.nil_append,
    run_singleton, hend, String.ofList_toList]

/-! ### Numbers -/

/-- A number that could end here and now. -/
def Numeric (w : List Char) (v : PyJson) : Prop :=
  ∀ stack, ∃ part n, run ⟨stack, .value⟩ w = some ⟨stack, .number part n⟩ ∧
    part.ends = true ∧ n.toPy = v

theorem next_terminator (n : Number) (part : NumberPart) {c : Char}
    (hc : Terminator c) : n.next part c = none := by
  rcases hc with rfl | rfl | rfl <;> cases part <;> rfl

theorem Numeric.reads {w : List Char} {v : PyJson} (h : Numeric w v) : Reads w v := by
  intro stack c hc
  obtain ⟨part, n, hrun, hends, rfl⟩ := h stack
  rw [run_append, hrun, Option.bind_some, run_singleton]
  simp only [step, next_terminator n part hc, hends, if_true]

theorem Numeric.textValue_eq {w : List Char} {v : PyJson} (h : Numeric w v) :
    textValue w = v := by
  obtain ⟨part, n, hrun, hends, rfl⟩ := h []
  rw [textValue, loads, String.toList_ofList, hrun, Option.bind_some]
  simp only [final, hends, if_true, Option.getD_some]

theorem digit?_digitChar {d : ℕ} (hd : d < 10) : digit? d.digitChar = some d := by
  interval_cases d <;> decide

theorem digit?_isSome {c : Char} (h : c.isDigit = true) : (digit? c).isSome := by
  have hrange : 48 ≤ c.val ∧ c.val ≤ 57 := by
    simpa [Char.isDigit] using h
  rw [digit?, if_pos (show '0' ≤ c ∧ c ≤ '9' from hrange)]
  rfl

/-- The digits of a positive number, after a minus sign or without one. -/
theorem run_toDigits (negative : Bool) (stack : List Frame) (s : State)
    (hs : ∀ d, 0 < d → d < 10 → step s d.digitChar = some ⟨stack, .number .int
      { negative := negative, mantissa := d }⟩) (n : ℕ) (hn : 0 < n) :
    run s (Nat.toDigits 10 n) = some ⟨stack, .number .int
      { negative := negative, mantissa := n }⟩ := by
  induction n using Nat.strong_induction_on with
  | _ n ih =>
      by_cases hlt : n < 10
      · rw [Nat.toDigits_of_lt_base hlt, run_singleton, hs n hn hlt]
      · have hdigit : digit? (n % 10).digitChar = some (n % 10) :=
          digit?_digitChar (Nat.mod_lt n (by omega))
        rw [Nat.toDigits_of_base_le (by omega) (not_lt.mp hlt), run_append,
          ih (n / 10) (by omega) (by omega), Option.bind_some, run_singleton]
        simp only [step, Number.next, hdigit, Option.some.injEq, State.mk.injEq,
          Mode.number.injEq, Number.mk.injEq, true_and, and_true]
        omega

theorem numeric_nat (n : ℕ) : Numeric (Nat.toDigits 10 n) (.int n) := by
  intro stack
  rcases Nat.eq_zero_or_pos n with rfl | hn
  · exact ⟨.zero, {}, rfl, rfl, rfl⟩
  · refine ⟨.int, { mantissa := n }, ?_, rfl, rfl⟩
    refine run_toDigits false stack ⟨stack, .value⟩ (fun d hd hd' => ?_) n hn
    interval_cases d <;> rfl

theorem numeric_neg {n : ℕ} (hn : 0 < n) :
    Numeric ('-' :: Nat.toDigits 10 n) (.int (-n)) := by
  intro stack
  refine ⟨.int, { negative := true, mantissa := n }, ?_, rfl, rfl⟩
  rw [run]
  refine run_toDigits true stack ⟨stack, .number .minus { negative := true }⟩
    (fun d hd hd' => ?_) n hn
  interval_cases d <;> rfl

theorem numeric_int (i : ℤ) : Numeric (toString i).toList (.int i) := by
  cases i with
  | ofNat n =>
      have htext : (toString (Int.ofNat n)).toList = Nat.toDigits 10 n :=
        Nat.toList_repr
      rw [htext]
      exact numeric_nat n
  | negSucc n =>
      have htext : (toString (Int.negSucc n)).toList =
          '-' :: Nat.toDigits 10 (n + 1) := by
        change ("-" ++ (n + 1).repr).toList = _
        rw [String.toList_append, Nat.toList_repr]
        rfl
      rw [htext]
      exact numeric_neg (Nat.succ_pos n)

def signText (negative : Bool) : List Char := if negative then ['-'] else []

def fractionText (decimals : List Char) : List Char :=
  if decimals = [] then [] else '.' :: decimals

def exponentText : Option (Bool × List Char) → List Char
  | none => []
  | some (negative, digits) => 'e' :: (if negative then '-' else '+') :: digits

theorem run_whole (negative : Bool) (whole : ℕ) :
    ∃ part n, (part = NumberPart.zero ∨ part = .int) ∧ ∀ stack,
      run ⟨stack, .value⟩ (signText negative ++ Nat.toDigits 10 whole) =
        some ⟨stack, .number part n⟩ := by
  have hminus : ∀ stack, step ⟨stack, .value⟩ '-' =
      some ⟨stack, .number .minus { negative := true }⟩ := fun _ => rfl
  rcases Nat.eq_zero_or_pos whole with rfl | hwhole
  · cases negative with
    | false => exact ⟨.zero, {}, .inl rfl, fun _ => rfl⟩
    | true => exact ⟨.zero, { negative := true }, .inl rfl, fun _ => rfl⟩
  · refine ⟨.int, { negative := negative, mantissa := whole }, .inr rfl, fun stack => ?_⟩
    cases negative with
    | false =>
        refine run_toDigits false stack _ (fun d hd hd' => ?_) whole hwhole
        interval_cases d <;> rfl
    | true =>
        rw [signText, if_pos rfl, run_append, run_singleton, hminus, Option.bind_some]
        refine run_toDigits true stack _ (fun d hd hd' => ?_) whole hwhole
        interval_cases d <;> rfl

/-- A part of a number that takes digits and stays is left by none of them. -/
theorem run_digits {part : NumberPart} (f : Number → ℕ → Number)
    (hstep : ∀ stack n c d, digit? c = some d →
      step ⟨stack, .number part n⟩ c = some ⟨stack, .number part (f n d)⟩)
    {ds : List Char} (hds : ∀ c ∈ ds, (digit? c).isSome) (n : Number) :
    ∃ n', ∀ stack, run ⟨stack, .number part n⟩ ds =
      some ⟨stack, .number part n'⟩ := by
  induction ds generalizing n with
  | nil => exact ⟨n, fun _ => rfl⟩
  | cons c ds ih =>
      obtain ⟨d, hd⟩ := Option.isSome_iff_exists.mp (hds c List.mem_cons_self)
      obtain ⟨n', hn'⟩ := ih (fun x hx => hds x (List.mem_cons_of_mem _ hx)) (f n d)
      refine ⟨n', fun stack => ?_⟩
      rw [run_cons (hstep stack n c d hd)]
      exact hn' stack

theorem run_decimals {ds : List Char} (hds : ∀ c ∈ ds, (digit? c).isSome)
    (n : Number) : ∃ n', ∀ stack, run ⟨stack, .number .frac n⟩ ds =
      some ⟨stack, .number .frac n'⟩ := by
  refine run_digits (fun n d =>
    { n with mantissa := n.mantissa * 10 + d, decimals := n.decimals + 1 })
    (fun stack n c d hd => ?_) hds n
  simp only [step, Number.next, hd]

theorem run_fraction {part : NumberPart} (hpart : part = .zero ∨ part = .int)
    (n : Number) {c : Char} {ds : List Char}
    (hds : ∀ x ∈ c :: ds, (digit? x).isSome) :
    ∃ n', ∀ stack, run ⟨stack, .number part n⟩ ('.' :: c :: ds) =
      some ⟨stack, .number .frac n'⟩ := by
  obtain ⟨d, hd⟩ := Option.isSome_iff_exists.mp (hds c List.mem_cons_self)
  obtain ⟨n', hn'⟩ := run_decimals (fun x hx => hds x (List.mem_cons_of_mem _ hx))
    { n with
      isFloat := true
      mantissa := n.mantissa * 10 + d
      decimals := n.decimals + 1 }
  refine ⟨n', fun stack => ?_⟩
  have hstart : step ⟨stack, .number part n⟩ '.' =
      some ⟨stack, .number .dot { n with isFloat := true }⟩ := by
    rcases hpart with rfl | rfl <;> rfl
  rw [run_cons hstart, run]
  simp only [step, Number.next, hd, Option.bind_some]
  exact hn' stack

theorem run_expDigits {ds : List Char} (hds : ∀ c ∈ ds, (digit? c).isSome)
    (n : Number) : ∃ n', ∀ stack, run ⟨stack, .number .expDigits n⟩ ds =
      some ⟨stack, .number .expDigits n'⟩ := by
  refine run_digits (fun n d => { n with exponent := n.exponent * 10 + d })
    (fun stack n c d hd => ?_) hds n
  simp only [step, Number.next, hd]

theorem run_exponent {part : NumberPart}
    (hpart : part = .zero ∨ part = .int ∨ part = .frac) (n : Number)
    (negative : Bool) {c : Char} {ds : List Char}
    (hds : ∀ x ∈ c :: ds, (digit? x).isSome) :
    ∃ n', ∀ stack, run ⟨stack, .number part n⟩
        ('e' :: (if negative then '-' else '+') :: c :: ds) =
      some ⟨stack, .number .expDigits n'⟩ := by
  obtain ⟨d, hd⟩ := Option.isSome_iff_exists.mp (hds c List.mem_cons_self)
  obtain ⟨n', hn'⟩ := run_expDigits (fun x hx => hds x (List.mem_cons_of_mem _ hx))
    { n with
      isFloat := true
      expNegative := negative || n.expNegative
      exponent := n.exponent * 10 + d }
  refine ⟨n', fun stack => ?_⟩
  have hstart : step ⟨stack, .number part n⟩ 'e' =
      some ⟨stack, .number .exp { n with isFloat := true }⟩ := by
    rcases hpart with rfl | rfl | rfl <;> rfl
  have hsign : step ⟨stack, .number .exp { n with isFloat := true }⟩
      (if negative then '-' else '+') = some ⟨stack, .number .expSign { n with
        isFloat := true
        expNegative := negative || n.expNegative }⟩ := by
    cases negative <;> rfl
  rw [run_cons hstart, run_cons hsign, run]
  simp only [step, Number.next, hd, Option.bind_some]
  exact hn' stack

/-- A decimal number with or without a fraction and an exponent. -/
theorem exists_numeric (negative : Bool) (whole : ℕ) (decimals : List Char)
    (hdecimals : ∀ c ∈ decimals, (digit? c).isSome)
    (exponent : Option (Bool × List Char))
    (hexponent : ∀ e ∈ exponent, e.2 ≠ [] ∧ ∀ c ∈ e.2, (digit? c).isSome) :
    ∃ v, Numeric (signText negative ++ Nat.toDigits 10 whole ++
      fractionText decimals ++ exponentText exponent) v := by
  obtain ⟨part, n, hpart, hwhole⟩ := run_whole negative whole
  have hfraction : ∃ part' n', (part' = .zero ∨ part' = .int ∨ part' = .frac) ∧
      ∀ stack, run ⟨stack, .number part n⟩ (fractionText decimals) =
        some ⟨stack, .number part' n'⟩ := by
    cases decimals with
    | nil => exact ⟨part, n, hpart.imp id .inl, fun _ => rfl⟩
    | cons c ds =>
        obtain ⟨n', hn'⟩ := run_fraction hpart n hdecimals
        exact ⟨.frac, n', .inr (.inr rfl), hn'⟩
  obtain ⟨part', n', hpart', hfraction⟩ := hfraction
  have hlast : ∃ part'' n'', part''.ends = true ∧ ∀ stack,
      run ⟨stack, .number part' n'⟩ (exponentText exponent) =
        some ⟨stack, .number part'' n''⟩ := by
    rcases exponent with - | ⟨negative', digits⟩
    · refine ⟨part', n', ?_, fun _ => rfl⟩
      rcases hpart' with rfl | rfl | rfl <;> rfl
    · obtain ⟨hne, hdigits⟩ := hexponent _ rfl
      cases digits with
      | nil => exact absurd rfl hne
      | cons c ds =>
          obtain ⟨n'', hn''⟩ := run_exponent hpart' n' negative' hdigits
          exact ⟨.expDigits, n'', rfl, hn''⟩
  obtain ⟨part'', n'', hends, hlast⟩ := hlast
  refine ⟨n''.toPy, fun stack => ⟨part'', n'', ?_, hends, rfl⟩⟩
  rw [run_append, run_append, hwhole, Option.bind_some, hfraction, Option.bind_some,
    hlast]

/-! ### Containers -/

def itemsText : List (List Char) → List Char
  | [] => []
  | [w] => w
  | w :: rest => w ++ ',' :: itemsText rest

theorem itemsText_cons (w : List Char) (rest : List (List Char)) :
    itemsText (w :: rest) = w ++ rest.flatMap fun w' => ',' :: w' := by
  induction rest generalizing w with
  | nil => simp [itemsText]
  | cons w' rest ih => simp [itemsText, ih w']

def memberText (key : String) (w : List Char) : List Char :=
  '"' :: (key.toList ++ '"' :: ':' :: w)

theorem memberText_append (key : String) (w w' : List Char) :
    memberText key w ++ w' = memberText key (w ++ w') := by
  simp only [memberText, List.cons_append, List.append_assoc]

structure Member where
  key : String
  text : List Char
  value : PyJson

def Member.Read (m : Member) : Prop := PlainText m.key ∧ Reads m.text m.value

def membersText (members : List Member) : List Char :=
  itemsText (members.map fun m => memberText m.key m.text)

def setAll (d : PyObject) (members : List Member) : PyObject :=
  members.foldl (fun d m => d.set m.key m.value) d

theorem setAll_cons (d : PyObject) (m : Member) (members : List Member) :
    setAll d (m :: members) = setAll (d.set m.key m.value) members := rfl

theorem lookup_setAll {key : String} (members : List Member) :
    (∀ m ∈ members, key ≠ m.key) →
      ∀ d : PyObject, (setAll d members).lookup key = d.lookup key := by
  induction members with
  | nil => exact fun _ _ => rfl
  | cons m members ih =>
      intro hkey d
      change (setAll (d.set m.key m.value) members).lookup key = d.lookup key
      rw [ih (fun m' hm' => hkey m' (List.mem_cons_of_mem _ hm')), PyObject.lookup_set,
        if_neg (hkey m List.mem_cons_self)]

theorem get_setAll {key : String} {members : List Member}
    (hkey : ∀ m ∈ members, key ≠ m.key) (d : PyObject) (default : PyJson) :
    (setAll d members).get key default = d.get key default := by
  rw [PyObject.get, PyObject.get, lookup_setAll members hkey]

theorem run_member {m : Member} (h : m.Read) (d : PyObject) (x : String)
    (stack : List Frame) {c : Char} (hc : Terminator c) :
    run ⟨.object d x :: stack, .nextKey⟩ (memberText m.key m.text ++ [c]) =
      resume (complete m.value (.object d m.key :: stack)) c := by
  have hquote : step ⟨.object d x :: stack, .nextKey⟩ '"' =
      some ⟨.object d x :: stack, .string true [] .plain⟩ := rfl
  have hkey : step ⟨.object d x :: stack, .string true m.key.toList .plain⟩ '"' =
      some ⟨.object d (String.ofList m.key.toList) :: stack, .colon⟩ := rfl
  have hcolon : step ⟨.object d m.key :: stack, .colon⟩ ':' =
      some ⟨.object d m.key :: stack, .value⟩ := rfl
  rw [memberText, List.cons_append, List.append_assoc, run_cons hquote, run_append,
    run_plain _ h.1, Option.bind_some, List.nil_append, List.cons_append,
    List.cons_append, run_cons hkey, String.ofList_toList, run_cons hcolon]
  exact h.2 _ c hc

/-- The rest of an object. -/
theorem run_members (members : List Member) :
    ∀ (m : Member), (∀ m' ∈ m :: members, m'.Read) →
      ∀ (d : PyObject) (x : String) (stack : List Frame),
        run ⟨.object d x :: stack, .nextKey⟩ (membersText (m :: members) ++ ['}']) =
          some (complete (.dict (setAll d (m :: members))) stack) := by
  induction members with
  | nil =>
      intro m h d x stack
      exact run_member (h m List.mem_cons_self) d x stack (.inr (.inl rfl))
  | cons m' members ih =>
      intro m h d x stack
      have hsplit : membersText (m :: m' :: members) ++ ['}'] =
          (memberText m.key m.text ++ [',']) ++
            (membersText (m' :: members) ++ ['}']) := by
        simp [membersText, itemsText]
      have hcomma : resume (complete m.value (.object d m.key :: stack)) ',' =
          some ⟨.object (d.set m.key m.value) "" :: stack, .nextKey⟩ := rfl
      rw [hsplit, run_append, run_member (h m List.mem_cons_self) d x stack (.inl rfl),
        hcomma, Option.bind_some,
        ih m' (fun y hy => h y (List.mem_cons_of_mem _ hy))]
      rfl

theorem run_firstKey (stack : List Frame) (key : String) (w w' : List Char) :
    run ⟨stack, .firstKey⟩ (memberText key w ++ w') =
      run ⟨stack, .nextKey⟩ (memberText key w ++ w') := rfl

theorem closed_object (m : Member) (members : List Member)
    (h : ∀ m' ∈ m :: members, m'.Read) :
    Closed ('{' :: (membersText (m :: members) ++ ['}']))
      (.dict (setAll [] (m :: members))) := by
  intro stack
  have hopen : step ⟨stack, .value⟩ '{' = some ⟨.object [] "" :: stack, .firstKey⟩ := rfl
  rw [run_cons hopen, ← run_members members m h [] "" stack]
  cases members with
  | nil => exact run_firstKey ..
  | cons m' members =>
      rw [membersText, List.map_cons, List.map_cons, itemsText, List.append_assoc]
      · exact run_firstKey ..
      · exact fun h => List.cons_ne_nil _ _ h

/-- The text does not open with white space or the end of an array. -/
def Opens (w : List Char) : Prop :=
  ∃ c rest, w = c :: rest ∧ isSpace c = false ∧ c ≠ ']'

theorem Opens.run_firstItem {w : List Char} (h : Opens w) (stack : List Frame) :
    run ⟨stack, .firstItem⟩ w = run ⟨stack, .value⟩ w := by
  obtain ⟨c, rest, rfl, hspace, hclose⟩ := h
  have hstep : step ⟨stack, .firstItem⟩ c = step ⟨stack, .value⟩ c := by
    simp only [step, hspace, if_neg hclose, Bool.false_eq_true, if_false]
  rw [run, run, hstep]

theorem run_items (items : List (List Char × PyJson)) :
    ∀ e : List Char × PyJson, (∀ e' ∈ e :: items, Reads e'.1 e'.2) →
      ∀ (read : List PyJson) (stack : List Frame),
        run ⟨.array read :: stack, .value⟩
            (itemsText ((e :: items).map Prod.fst) ++ [']']) =
          some (complete (.list (read ++ (e :: items).map Prod.snd)) stack) := by
  induction items with
  | nil =>
      intro e h read stack
      exact h e List.mem_cons_self _ ']' (.inr (.inr rfl))
  | cons e' items ih =>
      intro e h read stack
      have hsplit : itemsText ((e :: e' :: items).map Prod.fst) ++ [']'] =
          (e.1 ++ [',']) ++ (itemsText ((e' :: items).map Prod.fst) ++ [']']) := by
        simp [itemsText]
      have hcomma : resume (complete e.2 (.array read :: stack)) ',' =
          some ⟨.array (read ++ [e.2]) :: stack, .value⟩ := rfl
      rw [hsplit, run_append, h e List.mem_cons_self _ ',' (.inl rfl), hcomma,
        Option.bind_some, ih e' (fun y hy => h y (List.mem_cons_of_mem _ hy))]
      simp

theorem closed_array (items : List (List Char × PyJson))
    (h : ∀ e ∈ items, Reads e.1 e.2 ∧ Opens e.1) :
    Closed ('[' :: (itemsText (items.map Prod.fst) ++ [']']))
      (.list (items.map Prod.snd)) := by
  intro stack
  have hopen : step ⟨stack, .value⟩ '[' = some ⟨.array [] :: stack, .firstItem⟩ := rfl
  rw [run_cons hopen]
  cases items with
  | nil => rfl
  | cons e items =>
      rw [Opens.run_firstItem, run_items items e (fun e' he => (h e' he).1)]
      · rfl
      · obtain ⟨c, rest, hc, hrest⟩ := (h e List.mem_cons_self).2
        cases items with
        | nil => exact ⟨c, rest ++ [']'], by simp [itemsText, hc], hrest⟩
        | cons e' items =>
            exact ⟨c, rest ++ ',' :: itemsText ((e' :: items).map Prod.fst) ++ [']'],
              by simp [itemsText, hc], hrest⟩

end JsonText

end Semaforo
