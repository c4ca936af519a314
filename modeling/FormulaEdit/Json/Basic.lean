import FormulaEdit.Decimal.Binary

/-!
# JSON values

Objects keep their members in order.  Whole numbers are integers of any size;
a number with a point or an exponent is a floating-point number.
-/

namespace FormulaEdit

/-- A JSON value. -/
inductive Json where
  | null
  | bool (value : Bool)
  | int (value : Int)
  | float (value : Decimal.Binary64)
  | str (value : String)
  | arr (items : List Json)
  | obj (members : List (String × Json))
deriving Inhabited

namespace Json

/-- The members of an object, in order. -/
abbrev Members := List (String × Json)

/-- The value of a member. -/
def Members.get? : Members → String → Option Json
  | [], _ => none
  | (key, value) :: rest, name => if key = name then some value else Members.get? rest name

/-- Give a member a value: a known key keeps its place, a new one goes last. -/
def Members.put : Members → String → Json → Members
  | [], name, value => [(name, value)]
  | (key, old) :: rest, name, value =>
      if key = name then (key, value) :: rest else (key, old) :: Members.put rest name value

/-- Whether a value counts as true: everything but nothing, false, zero, and
empty text, arrays and objects. -/
def isTruthy : Json → Bool
  | .null => false
  | .bool value => value
  | .int value => value != 0
  | .float value => !value.isZero
  | .str value => !value.isEmpty
  | .arr items => !items.isEmpty
  | .obj members => !members.isEmpty

end Json

end FormulaEdit
