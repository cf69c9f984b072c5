import ComputedStyle.Declaration.Shorthand
import ComputedStyle.Text.Comments

/-!
Reading the declarations of a rule body or a `style` attribute.

`Declaration.ofComponents` follows the rules of CSS for broken declarations: one costs the text up to
the next semicolon. `Declaration.ofPieces` splits at semicolons and colons only, and is used where
the first way finds nothing.
-/

namespace ComputedStyle

open Syntax

namespace Declaration

/-- The value without a last `!important`, whatever its case and spacing. -/
def withoutImportant (value : List Char) : List Char :=
  let trimmed := Text.trimRight value
  let lastWord := (trimmed.reverse.takeWhile (· != '!')).reverse
  let before := trimmed.take (trimmed.length - lastWord.length)
  if before.isEmpty then trimmed
  else if String.ofList (Text.lower (Text.trim lastWord)) = "important" then
    Text.trimRight before.dropLast
  else trimmed

/-- A name in lower case, except for a custom property, with the value's text; none if either is
blank. -/
def normalize? (name value : List Char) : Option Declaration :=
  let name := Text.trim name
  let value := Text.trim (withoutImportant (Text.stripComments value))
  if name.isEmpty || value.isEmpty then none
  else
    let custom := ['-', '-'].isPrefixOf name
    some ⟨String.ofList (if custom then name else Text.lower name), String.ofList value⟩

def isSemicolon (component : Component) : Bool :=
  component.token == .semicolon

def afterSemicolon (components : List Component) : List Component :=
  (components.dropWhile (!isSemicolon ·)).drop 1

def endsAtRule (component : Component) : Bool :=
  isSemicolon component || component.curly?.isSome

def afterAtRule (components : List Component) : List Component :=
  (components.dropWhile (!endsAtRule ·)).drop 1

/-- The declaration of a name and the components after it: a colon and a value. -/
def ofBody? (name : List Char) (body : List Component) : Option Declaration :=
  match body.dropWhile Component.isBlankOrComment with
  | colon :: value =>
      if colon.token = .colon then normalize? name (Component.textOf value) else none
  | [] => none

theorem length_afterSemicolon_le (components : List Component) :
    (afterSemicolon components).length ≤ components.length := by
  have := (List.dropWhile_sublist (!isSemicolon ·) (l := components)).length_le
  simp only [afterSemicolon, List.length_drop]
  omega

theorem length_afterAtRule_le (components : List Component) :
    (afterAtRule components).length ≤ components.length := by
  have := (List.dropWhile_sublist (!endsAtRule ·) (l := components)).length_le
  simp only [afterAtRule, List.length_drop]
  omega

/-- The declarations of a rule body. What starts with anything but a name is passed over up to the
next semicolon, an at-rule up to its end. -/
def ofComponents : List Component → List Declaration
  | [] => []
  | component :: rest =>
      match component.token with
      | .blank => ofComponents rest
      | .comment => ofComponents rest
      | .semicolon => ofComponents rest
      | .closing .curly => ofComponents rest
      | .atKeyword _ => ofComponents (afterAtRule rest)
      | .name name =>
          (ofBody? name (rest.takeWhile (!isSemicolon ·))).toList ++
            ofComponents (afterSemicolon rest)
      | _ => ofComponents (afterSemicolon rest)
termination_by components => components.length
decreasing_by
  all_goals
    have := length_afterSemicolon_le rest
    have := length_afterAtRule_le rest
    simp only [List.length_cons]
    omega

/-- The declarations between semicolons, each split at its first colon. -/
def ofPieces (text : List Char) : List Declaration :=
  (Text.splitTopLevel ';' text).filterMap fun piece =>
    match Text.splitOnce ':' piece with
    | some (name, value) => normalize? name value
    | none => none

/-- The declarations of a `style` attribute. -/
def ofInline (text : List Char) : List Declaration :=
  let found := ofComponents (Component.read text)
  if found.isEmpty && text.contains ':' then ofPieces text else found

end Declaration

/-- The style that a `style` attribute declares. -/
def StyleMap.ofInline (text : String) : Except ColorError StyleMap :=
  StyleMap.ofDeclarations (Declaration.ofInline text.toList)

end ComputedStyle
