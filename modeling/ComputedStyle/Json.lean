import ComputedStyle.Text.JsonString

namespace ComputedStyle

/-- The values that occur in those files. -/
inductive JsonValue where
  | text (value : String)
  /-- A number by its text. -/
  | number (digits : String)
  | flag (value : Bool)
  | numbers (values : List Nat)
  /-- An object of counts. -/
  | counts (entries : List (String × Nat))

namespace JsonValue

def nat (n : Nat) : JsonValue := .number (toString n)

/-- A member of an object. -/
def member (name value : String) : String :=
  Text.JsonString.quote name ++ ":" ++ value

def commaSeparated (parts : List String) : String :=
  ",".intercalate parts

def braced (inside : String) : String :=
  "\x7b" ++ inside ++ "\x7d"

def render : JsonValue → String
  | text value => Text.JsonString.quote value
  | number digits => digits
  | flag value => if value then "true" else "false"
  | numbers values => "[" ++ commaSeparated (values.map toString) ++ "]"
  | counts entries =>
      braced (commaSeparated (entries.map fun (name, n) => member name (toString n)))

/-- An object with members in the given order. -/
def renderObject (members : List (String × JsonValue)) : String :=
  braced (commaSeparated (members.map fun (name, value) => member name value.render))

end JsonValue

end ComputedStyle
