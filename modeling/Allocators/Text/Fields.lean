/-!
# Text of a value with named fields

`Name { first: 1, second: 2 }`: how layouts, blocks, requests and plans
are shown.
-/

namespace Allocators

namespace Fields

/-- One field: its name, a colon, its text. -/
def field (f : String × String) : String := f.1 ++ ": " ++ f.2

/-- The name of the value, then its fields in order between braces. -/
def render (name : String) (fields : List (String × String)) : String :=
  name ++ " \x7b " ++ ", ".intercalate (fields.map field) ++ " \x7d"

/-- A truth value's text. -/
def bool (b : Bool) : String := if b then "true" else "false"

/-- A value that may be missing: `None`, or its text inside `Some(…)`. -/
def option (text : Option String) : String :=
  match text with
  | none => "None"
  | some t => "Some(" ++ t ++ ")"

end Fields

end Allocators
