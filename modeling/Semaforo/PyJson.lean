import Semaforo.FloatValue
import Mathlib.Data.Rat.Defs
import Mathlib.Tactic.Common

/-!
# JSON documents as Python values

What `json.loads` gives to a Python program, the exceptions that a program
meets when it takes such a value apart, and the passing of a document's members
as keyword arguments.
-/

namespace Semaforo

inductive PyJson where
  | null
  | bool (value : Bool)
  | int (value : ℤ)
  | float (value : FloatValue ℚ)
  | str (value : String)
  | list (items : List PyJson)
  | dict (members : List (String × PyJson))

inductive PyError where
  | typeError (message : String)
  | keyError (message : String)
  | valueError (message : String)
  | attributeError (message : String)
  | overflowError (message : String)
  deriving DecidableEq, Repr

/-- A dictionary with string keys, in insertion order. -/
abbrev PyObject := List (String × PyJson)

/-- A computation that does not raise has done each of its steps. -/
theorem bind_eq_ok {ε α β : Type} {x : Except ε α} {f : α → Except ε β}
    {b : β} : (x >>= f) = .ok b ↔ ∃ a, x = .ok a ∧ f a = .ok b := by
  cases x with
  | error e =>
      constructor
      · intro h
        cases h
      · rintro ⟨a, h, _⟩
        cases h
  | ok a =>
      constructor
      · intro h
        exact ⟨a, rfl, h⟩
      · rintro ⟨a', h, hf⟩
        cases h
        exact hf

namespace PyJson

/-- `type(x).__name__`. -/
def typeName : PyJson → String
  | null => "NoneType"
  | bool _ => "bool"
  | int _ => "int"
  | float _ => "float"
  | str _ => "str"
  | list _ => "list"
  | dict _ => "dict"

/-- `bool(x)`. -/
def truthy : PyJson → Bool
  | null => false
  | bool b => b
  | int i => i ≠ 0
  | float x => x ≠ .fin 0
  | str s => s ≠ ""
  | list items => !items.isEmpty
  | dict members => !members.isEmpty

def noAttribute (x : PyJson) (name : String) : PyError :=
  .attributeError
    ("'" ++ x.typeName ++ "' object has no attribute '" ++ name ++ "'")

/-- `iter(x)`, run to its end. -/
def iterate : PyJson → Except PyError (List PyJson)
  | list items => .ok items
  | dict members => .ok (members.map fun m => str m.1)
  | str s => .ok (s.toList.map fun c => str (String.ofList [c]))
  | x => .error (.typeError ("'" ++ x.typeName ++ "' object is not iterable"))

/-- `x.get`, for a key and a default. -/
def get (x : PyJson) (key : String) (default : PyJson) :
    Except PyError PyJson :=
  match x with
  | dict members => .ok ((members.lookup key).getD default)
  | x => .error (x.noAttribute "get")

/-- `x[key]`. -/
def item (x : PyJson) (key : String) : Except PyError PyJson :=
  match x with
  | dict members =>
      match members.lookup key with
      | some value => .ok value
      | none => .error (.keyError ("'" ++ key ++ "'"))
  | list _ =>
      .error (.typeError "list indices must be integers or slices, not str")
  | str _ => .error (.typeError "string indices must be integers, not 'str'")
  | x => .error (.typeError ("'" ++ x.typeName ++ "' object is not subscriptable"))

/-- How Python makes a float of an integer and of a text. -/
structure FloatReading where
  ofInt : ℤ → Except PyError (FloatValue ℚ)
  ofText : String → Except PyError (FloatValue ℚ)

/-- `float(x)`. -/
def toFloat (reading : FloatReading) : PyJson → Except PyError (FloatValue ℚ)
  | bool b => .ok (.fin (if b then 1 else 0))
  | int i => reading.ofInt i
  | float x => .ok x
  | str s => reading.ofText s
  | x => .error (.typeError
      ("float() argument must be a string or a real number, not '" ++
        x.typeName ++ "'"))

end PyJson

/-! ## Keyword arguments -/

/-- The keyword arguments that a function takes up in its `**` parameter: none
of them has the name of another parameter. -/
def Keywords (parameters : List String) :=
  {keywords : PyObject // ∀ m ∈ keywords, m.1 ∉ parameters}

namespace PyObject

def hasKey (d : PyObject) (key : String) : Bool := (d.lookup key).isSome

def get (d : PyObject) (key : String) (default : PyJson) : PyJson :=
  (d.lookup key).getD default

/-- `d[key] = value`. -/
def set (d : PyObject) (key : String) (value : PyJson) : PyObject :=
  if d.hasKey key then d.map fun m => if m.1 = key then (key, value) else m
  else d ++ [(key, value)]

/-- `d.pop(key, default)`: the value, and the dictionary afterwards. -/
def pop (d : PyObject) (key : String) (default : PyJson) : PyJson × PyObject :=
  (d.get key default, d.filter fun m => m.1 ≠ key)

/-- The keywords of a call `f(**d, **x)`. -/
def merge (function : String) (d : PyObject) : PyJson → Except PyError PyObject
  | .dict members =>
      match members.find? fun m => d.hasKey m.1 with
      | some m => .error (.typeError (function ++
          " got multiple values for keyword argument '" ++ m.1 ++ "'"))
      | none => .ok (d ++ members)
  | x => .error (.typeError (function ++
      " argument after ** must be a mapping, not " ++ x.typeName))

/-- What is left for the `**` parameter. -/
def rest (parameters : List String) (d : PyObject) : Keywords parameters :=
  ⟨d.filter fun m => m.1 ∉ parameters, fun m hm => by
    simpa using (List.mem_filter.mp hm).2⟩

def missingArguments (function : String) : List String → PyError
  | [first] => .typeError (function ++
      " missing 1 required positional argument: '" ++ first ++ "'")
  | missing => .typeError (function ++
      " missing 2 required positional arguments: '" ++
      "' and '".intercalate missing ++ "'")

/-- The check that a bound method makes of the keywords of a call, for its
parameters without a default. -/
def bindMethod (function : String) (required : List String) (d : PyObject) :
    Except PyError Unit :=
  if d.hasKey "self" then
    .error (.typeError (function ++
      " got multiple values for argument 'self'"))
  else
    match required.filter fun p => !d.hasKey p with
    | [] => .ok ()
    | missing => .error (missingArguments function missing)

theorem lookup_cons (m : String × PyJson) (d : PyObject) (key : String) :
    List.lookup key (m :: d) = if key = m.1 then some m.2 else List.lookup key d := by
  rw [List.lookup_cons]
  split_ifs with h
  · simp [h]
  · simp [beq_eq_false_iff_ne.mpr h]

theorem lookup_replace (k : String) (v : PyJson) (key : String) (d : PyObject) :
    List.lookup key (d.map fun m => if m.1 = k then (k, v) else m) =
      if key = k then (d.lookup key).map fun _ => v else d.lookup key := by
  induction d with
  | nil => simp
  | cons m rest ih =>
      rw [List.map_cons, lookup_cons, lookup_cons, ih]
      by_cases hm : m.1 = k
      · rw [if_pos hm, hm]
        split_ifs <;> rfl
      · rw [if_neg hm]
        by_cases hkey : key = m.1
        · rw [if_pos hkey, if_pos hkey, if_neg (hkey ▸ hm)]
        · rw [if_neg hkey, if_neg hkey]

theorem lookup_set (d : PyObject) (k : String) (v : PyJson) (key : String) :
    (d.set k v).lookup key = if key = k then some v else d.lookup key := by
  unfold set hasKey
  split_ifs with hk hkey hkey
  · obtain ⟨w, hw⟩ := Option.isSome_iff_exists.mp hk
    rw [lookup_replace, if_pos hkey, hkey, hw, Option.map_some]
  · rw [lookup_replace, if_neg hkey]
  · rw [List.lookup_append, hkey, Option.not_isSome_iff_eq_none.mp hk, Option.none_or,
      lookup_cons, if_pos rfl]
  · rw [List.lookup_append, lookup_cons, if_neg hkey, List.lookup_nil, Option.or_none]

theorem get_set_self (d : PyObject) (key : String) (v default : PyJson) :
    (d.set key v).get key default = v := by
  rw [PyObject.get, PyObject.lookup_set, if_pos rfl, Option.getD_some]

theorem hasKey_eq_false {d : PyObject} {key : String}
    (hd : ∀ m ∈ d, m.1 ≠ key) : d.hasKey key = false := by
  have hnone : d.lookup key = none := by
    rw [List.lookup_eq_none_iff]
    intro m hm
    simpa using fun h : key = m.1 => hd m hm h.symm
  rw [hasKey, hnone]
  rfl

theorem hasKey_append (d e : PyObject) (key : String) :
    (d ++ e : PyObject).hasKey key = (d.hasKey key || e.hasKey key) := by
  unfold hasKey
  rw [List.lookup_append]
  cases d.lookup key <;> rfl

theorem hasKey_keywords {parameters : List String}
    (keywords : Keywords parameters) {key : String} (hkey : key ∈ parameters) :
    hasKey keywords.1 key = false := by
  apply PyObject.hasKey_eq_false
  intro m hm hname
  exact keywords.2 m hm (hname ▸ hkey)

theorem bindMethod_eq_ok {function : String} {required : List String}
    {d : PyObject} (hself : d.hasKey "self" = false)
    (hrequired : ∀ p ∈ required, d.hasKey p = true) :
    d.bindMethod function required = .ok () := by
  have hnone : required.filter (fun p => !d.hasKey p) = [] := by
    rw [List.filter_eq_nil_iff]
    intro p hp
    simp [hrequired p hp]
  rw [bindMethod, hself, if_neg Bool.false_ne_true, hnone]

theorem bindMethod_eq_error {function name : String} {d : PyObject}
    (hself : d.hasKey "self" = false) (hname : d.hasKey name = false) :
    d.bindMethod function [name] = .error (missingArguments function [name]) := by
  rw [bindMethod, hself, if_neg Bool.false_ne_true]
  simp [hname]

/-- A dictionary and the keywords that a function has taken up are merged
without a clash if the dictionary has names of its parameters only. -/
theorem merge_keywords {function : String} {parameters : List String}
    {d : PyObject} (hd : ∀ m ∈ d, m.1 ∈ parameters)
    (metadata : Keywords parameters) :
    merge function d (.dict metadata.1) = .ok (d ++ metadata.1) := by
  have hfind : metadata.1.find? (fun m => d.hasKey m.1) = none := by
    rw [List.find?_eq_none]
    intro m hm
    have hfalse : d.hasKey m.1 = false := by
      apply hasKey_eq_false
      intro n hn hname
      exact metadata.2 m hm (hname ▸ hd n hn)
    simp [hfalse]
  simp only [merge, hfind]

theorem rest_append {parameters : List String} {d : PyObject}
    (hd : ∀ m ∈ d, m.1 ∈ parameters) (metadata : Keywords parameters) :
    rest parameters (d ++ metadata.1) = metadata := by
  apply Subtype.ext
  have hleft : d.filter (fun m => m.1 ∉ parameters) = [] := by
    rw [List.filter_eq_nil_iff]
    intro m hm
    simpa using hd m hm
  have hright : metadata.1.filter (fun m => m.1 ∉ parameters) = metadata.1 := by
    rw [List.filter_eq_self]
    intro m hm
    simpa using metadata.2 m hm
  change (d ++ metadata.1).filter (fun m => m.1 ∉ parameters) = metadata.1
  rw [List.filter_append, hleft, hright, List.nil_append]

end PyObject

end Semaforo
