import ComputedStyle.Text.Nesting

namespace ComputedStyle.StaticSelector

open Text

/-- Pseudo-classes that depend on interaction. -/
def dynamicNames : List String :=
  ["hover", "focus", "focus-within", "focus-visible", "active", "visited", "link", "any-link",
    "enabled", "disabled", "checked", "target"]

def elementNames : List String :=
  ["before", "after", "first-line", "first-letter", "marker", "placeholder", "selection",
    "backdrop"]

def isNameChar (c : Char) : Bool :=
  c.isAlphanum || c == '-'

/-- What a reader looking for colons remembers: its quote and the open square brackets. -/
structure Place where
  quote : Option Char
  squares : Nat

/-- Whether a colon outside quotes and square brackets introduces a pseudo-element or a dynamic
pseudo-class. -/
def needsStateFrom (place : Place) : List Char → Bool
  | [] => false
  | c :: rest =>
      match place.quote with
      | some q =>
          needsStateFrom (if c == q then { place with quote := none } else place) rest
      | none =>
          if c == '"' || c == '\'' then needsStateFrom { place with quote := some c } rest
          else if c == '[' then needsStateFrom { place with squares := place.squares + 1 } rest
          else if c == ']' then needsStateFrom { place with squares := place.squares - 1 } rest
          else if c == ':' && place.squares == 0 then
            let doubled := rest.head? == some ':'
            let start := if doubled then rest.drop 1 else rest
            let name := String.ofList (lower (start.takeWhile isNameChar))
            if doubled || name ∈ elementNames || name ∈ dynamicNames then true
            else needsStateFrom place rest
          else needsStateFrom place rest

def needsState (member : List Char) : Bool :=
  needsStateFrom ⟨none, 0⟩ member

/-- The members that need no state, in order. -/
def members (group : List Char) : List (List Char) :=
  ((splitTopLevel ',' group).map trim).filter fun member =>
    !member.isEmpty && !needsState member

/-- The group of the members that need no state; none when there is no such member. -/
def filter? (group : List Char) : Option String :=
  match members group with
  | [] => none
  | kept => some (", ".intercalate (kept.map String.ofList))

end ComputedStyle.StaticSelector
