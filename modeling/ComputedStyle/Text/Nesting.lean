import ComputedStyle.Text.Blank

/-!
Splitting a text outside brackets and quotes.

`Nesting` is what a left-to-right reader remembers: the quote it is in and how many brackets are
open. A closing bracket with nothing open is ignored.
-/

namespace ComputedStyle.Text

structure Nesting where
  quote : Option Char
  depth : Nat
deriving DecidableEq, Repr

namespace Nesting

def top : Nesting := ⟨none, 0⟩

def isTop (state : Nesting) : Bool :=
  state.quote.isNone && state.depth == 0

/-- Which characters open and close a level. -/
structure Brackets where
  openers : List Char
  closers : List Char

def Brackets.round : Brackets := ⟨['('], [')']⟩

def Brackets.roundAndSquare : Brackets := ⟨['(', '['], [')', ']']⟩

/-- Reads one character. Inside quotes only the same quote counts. -/
def step (brackets : Brackets) (state : Nesting) (c : Char) : Nesting :=
  match state.quote with
  | some q => if c == q then { state with quote := none } else state
  | none =>
      if c == '"' || c == '\'' then { state with quote := some c }
      else if c ∈ brackets.openers then { state with depth := state.depth + 1 }
      else if c ∈ brackets.closers then { state with depth := state.depth - 1 }
      else state

end Nesting

/-- The walk behind `splitTopLevel`: `piece` holds the current piece in reverse. -/
def splitFrom (delimiter : Char) (state : Nesting) (piece : List Char) :
    List Char → List (List Char)
  | [] =>
      if state.isTop then [piece.reverse]
      else fields (· == delimiter) piece.reverse
  | c :: rest =>
      if c == delimiter && state.isTop then
        piece.reverse :: splitFrom delimiter state [] rest
      else
        splitFrom delimiter (state.step .roundAndSquare c) (c :: piece) rest

/-- Splits on `delimiter` outside round and square brackets and quotes. A last piece that ends
inside brackets or quotes is split at every `delimiter` it holds, so that one unclosed piece does
not swallow those after it. -/
def splitTopLevel (delimiter : Char) (s : List Char) : List (List Char) :=
  splitFrom delimiter .top [] s

/-- The walk behind `valueTokens`: `token` holds the current token in reverse. -/
def tokensFrom (state : Nesting) (token : List Char) : List Char → List (List Char)
  | [] => if token.isEmpty then [] else [token.reverse]
  | c :: rest =>
      if isBlank c && state.isTop then
        if token.isEmpty then tokensFrom state [] rest
        else token.reverse :: tokensFrom state [] rest
      else tokensFrom (state.step .round c) (c :: token) rest

/-- The tokens of a property value: what stands between blanks that are outside round brackets
and quotes. -/
def valueTokens (s : List Char) : List (List Char) :=
  tokensFrom .top [] (trim s)

end ComputedStyle.Text
