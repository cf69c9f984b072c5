import ComputedStyle.Syntax.Lexeme

/-!
Component values: single lexemes and bracketed blocks.

A closing bracket ends the innermost open block if it is of its kind and is a lexeme like any other
if it is not. What is still open at the end of the text ends there.
-/

namespace ComputedStyle.Syntax

inductive Component where
  | single (lexeme : Lexeme)
  | block (opener : Lexeme) (contents : List Component) (closer : Option Lexeme)

def Token.opens? : Token → Option Bracket
  | .opening bracket => some bracket
  | .function _ => some .round
  | _ => none

mutual

/-- The characters a component was read from. -/
def Component.text : Component → List Char
  | .single lexeme => lexeme.text
  | .block opener contents closer =>
      opener.text ++ Component.textOf contents ++ (closer.map Lexeme.text).getD []

def Component.textOf : List Component → List Char
  | [] => []
  | component :: rest => component.text ++ Component.textOf rest

end

namespace Component

/-- A block whose end has not been read: its opener and what stands before it, in reverse. -/
structure OpenBlock where
  bracket : Bracket
  opener : Lexeme
  before : List Component

/-- What a left-to-right reader of lexemes holds: the open blocks, innermost first, and the
components read at the innermost level, in reverse. -/
structure Reader where
  blocks : List OpenBlock
  level : List Component

namespace Reader

def empty : Reader := ⟨[], []⟩

def push (reader : Reader) (component : Component) : Reader :=
  { reader with level := component :: reader.level }

/-- Ends the innermost block. -/
def close (reader : Reader) (closer : Option Lexeme) : Reader :=
  match reader.blocks with
  | [] => reader
  | inner :: outer =>
      ⟨outer, .block inner.opener reader.level.reverse closer :: inner.before⟩

def step (reader : Reader) (lexeme : Lexeme) : Reader :=
  match lexeme.token.opens? with
  | some bracket => ⟨⟨bracket, lexeme, reader.level⟩ :: reader.blocks, []⟩
  | none =>
      match reader.blocks with
      | inner :: _ =>
          if lexeme.token = .closing inner.bracket then reader.close (some lexeme)
          else reader.push (.single lexeme)
      | [] => reader.push (.single lexeme)

/-- Ends all open blocks; gives the components of the outermost level. -/
def finishWith : List OpenBlock → List Component → List Component
  | [], level => level.reverse
  | inner :: outer, level =>
      finishWith outer (.block inner.opener level.reverse none :: inner.before)

def finish (reader : Reader) : List Component :=
  finishWith reader.blocks reader.level

end Reader

def ofLexemes (lexemes : List Lexeme) : List Component :=
  (lexemes.foldl Reader.step .empty).finish

/-- The component values of a text. -/
def read (s : List Char) : List Component :=
  ofLexemes (lexemes s)

def token : Component → Token
  | single lexeme => lexeme.token
  | block opener _ _ => opener.token

def curly? : Component → Option (List Component)
  | block opener contents _ => if opener.token = .opening .curly then some contents else none
  | single _ => none

def isBlankOrComment (component : Component) : Bool :=
  component.token == .blank || component.token == .comment

end Component

end ComputedStyle.Syntax
