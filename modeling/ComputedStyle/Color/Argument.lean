import ComputedStyle.Color.Calculation
import ComputedStyle.Color.Mixture

namespace ComputedStyle

/-- Why a text is not read as a color. -/
inductive ColorError where
  | unreadable
  /-- Where a percentage is wanted stands a calculation that gives none. -/
  | openPercentage
deriving DecidableEq, Repr

namespace Color

open Number Syntax

def readable (value : Option α) : Except ColorError α :=
  match value with
  | some a => .ok a
  | none => .error .unreadable

/-- An operand with the color that it stands for. -/
structure Argument extends Operand where
  color : Except ColorError Written

abbrev Arguments := List Argument

namespace Argument

/-- Whether an argument is this word. -/
def isNamed (word : String) (c : Argument) : Bool :=
  c.token.name?.any (isWord word)

/-- The amount of a function; brackets alone are no argument. -/
def calculated? (kind : Kind) (channels : Channels) (c : Argument) : Option Amount :=
  match c.token with
  | .function _ => c.amount kind channels
  | _ => none

def number? (channels : Channels) (c : Argument) : Option Single :=
  match c.token with
  | .number v => some v
  | .name name => channels.get? name
  | _ =>
      match c.calculated? .number channels with
      | some (.number v) => some v
      | _ => none

/-- The fraction of a percentage; none for what is no percentage at all. -/
def percentage? (c : Argument) : Except ColorError (Option Single) :=
  match c.token with
  | .percentage v => .ok (some v)
  | _ =>
      match c.calculated? .percentage [] with
      | some (.quantity q) => .ok (some q.value)
      | some _ => .error .openPercentage
      | none => .ok none

/-- The degrees of an angle. -/
def degrees? (c : Argument) : Option Single :=
  match Quantity.ofToken? c.token with
  | some q => q.degrees?
  | none =>
      match c.calculated? .angle [] with
      | some (.quantity q) => q.degrees?
      | _ => none

end Argument

end Color

end ComputedStyle
