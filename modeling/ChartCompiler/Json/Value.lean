/-!
# JSON values

The data that charts are made from and the options they become.  A number is either whole or a
double, and the two are kept apart: they are written differently and they are never equal.

An object is a list of members with distinct keys in ascending order.  `Members.insert` and
`Members.ofList` keep that order, and every object of this library is built through them, so two
objects with the same members are the same list.
-/

set_option autoImplicit false

namespace ChartCompiler

/-- A JSON value. -/
inductive Json where
  /-- The missing value. -/
  | null
  /-- A truth value. -/
  | bool (value : Bool)
  /-- A whole number. -/
  | integer (value : Int)
  /-- A double, always a finite one. -/
  | float (value : Float)
  /-- A text. -/
  | string (text : String)
  /-- A sequence of values. -/
  | array (items : List Json)
  /-- Members in ascending order of their keys. -/
  | object (members : List (String × Json))

/-- The members of an object. -/
abbrev Members := List (String × Json)

namespace Members

/-- The value under a key. -/
def find? (key : String) : Members → Option Json
  | [] => none
  | (name, value) :: rest => if name = key then some value else find? key rest

/-- Puts a value under a key, in its place among the ordered members; the value that stood there
is replaced. -/
def insert (key : String) (value : Json) : Members → Members
  | [] => [(key, value)]
  | (name, present) :: rest =>
    if key < name then (key, value) :: (name, present) :: rest
    else if key = name then (key, value) :: rest
    else (name, present) :: insert key value rest

/-- Orders members by key; of several under one key the last counts. -/
def ofList (entries : List (String × Json)) : Members :=
  entries.foldl (fun members (key, value) => insert key value members) []

/-- The keys in ascending order. -/
def keys (members : Members) : List String :=
  members.map (·.1)

end Members

namespace Json

instance : Inhabited Json := ⟨null⟩

instance : Coe String Json := ⟨string⟩

instance : Coe Bool Json := ⟨bool⟩

instance (number : Nat) : OfNat Json number := ⟨integer number⟩

/-- The value of a double: a number when it is finite, otherwise the missing value. -/
def ofFloat (value : Float) : Json :=
  if value.isFinite then float value else null

/-- The object with these members, in any order. -/
def record (entries : List (String × Json)) : Json :=
  object (Members.ofList entries)

/-- The array of some texts. -/
def strings (texts : List String) : Json :=
  array (texts.map string)

/-- The value of an optional text. -/
def ofString? : Option String → Json
  | some text => string text
  | none => null

/-- Puts a member into an object; a value of another kind is left alone. -/
def set (base : Json) (key : String) (value : Json) : Json :=
  match base with
  | object members => object (Members.insert key value members)
  | other => other

/-- Puts a member into an object when a condition holds. -/
def setIf (base : Json) (condition : Bool) (key : String) (value : Json) : Json :=
  if condition then base.set key value else base

/-- The members of an object. -/
def members? : Json → Option Members
  | object members => some members
  | _ => none

/-- The items of an array. -/
def items? : Json → Option (List Json)
  | array items => some items
  | _ => none

/-- The text of a string. -/
def string? : Json → Option String
  | string text => some text
  | _ => none

/-- The truth value of a boolean. -/
def bool? : Json → Option Bool
  | bool value => some value
  | _ => none

/-- The double a number stands for. -/
def number? : Json → Option Float
  | integer value => some (Float.ofInt value)
  | float value => some value
  | _ => none

/-! ## Equality -/

mutual

/-- Whether two values are equal.  Doubles are compared as numbers, so the two zeros agree. -/
def same : Json → Json → Bool
  | null, null => true
  | bool left, bool right => left == right
  | integer left, integer right => left == right
  | float left, float right => left == right
  | string left, string right => left == right
  | array left, array right => sameItems left right
  | object left, object right => sameMembers left right
  | _, _ => false

/-- Whether two sequences have equal values at the same places. -/
def sameItems : List Json → List Json → Bool
  | [], [] => true
  | left :: lefts, right :: rights => same left right && sameItems lefts rights
  | _, _ => false

/-- Whether two lists of members have equal keys and values at the same places. -/
def sameMembers : List (String × Json) → List (String × Json) → Bool
  | [], [] => true
  | (leftKey, left) :: lefts, (rightKey, right) :: rights =>
    leftKey == rightKey && same left right && sameMembers lefts rights
  | _, _ => false

end

end Json

end ChartCompiler
