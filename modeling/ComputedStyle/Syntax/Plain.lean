import Mathlib.Data.List.Infix
import ComputedStyle.Syntax.Lexeme

namespace ComputedStyle.Syntax

/-- The round and square brackets that are open after a character, innermost first. A bracket that
closes any other than the innermost one has no place. -/
def openAfter? (outer : List Bracket) (c : Char) : Option (List Bracket) :=
  match c with
  | '(' => some (.round :: outer)
  | '[' => some (.square :: outer)
  | ')' => if outer.head? = some .round then some outer.tail else none
  | ']' => if outer.head? = some .square then some outer.tail else none
  | _ => some outer

/-- The two markers that hide a style sheet in an HTML comment. -/
def commentMarks : List (List Char) :=
  [['<', '!', '-', '-'], ['-', '-', '>']]

/-- No part of the text is a string, a comment, an escape, a block, a marker or the end of a
declaration. -/
structure IsUnmarked (s : List Char) : Prop where
  chars : ∀ c ∈ s, c ∉ ['"', '\'', '\\', '\x7b', '\x7d', ';']
  comments : ¬['/', '*'] <:+: s
  markers : ∀ mark ∈ commentMarks, ¬mark <:+: s

structure IsPlainText (s : List Char) : Prop extends IsUnmarked s where
  balanced : s.foldlM openAfter? [] = some []

/-- No part of the text is a string, a comment, an escape, a block or the end of a declaration; it may
hold markers. -/
structure IsFlat (s : List Char) : Prop where
  chars : ∀ c ∈ s, c ∉ ['"', '\'', '\\', '\x7b', '\x7d', ';']
  comments : ¬['/', '*'] <:+: s

structure IsFlatText (s : List Char) : Prop extends IsFlat s where
  balanced : s.foldlM openAfter? [] = some []

/-- A name without escapes. -/
structure IsName (s : List Char) : Prop where
  starts : startsName s
  chars : ∀ c ∈ s, isNameChar c

instance : DecidablePred IsUnmarked := fun s =>
  decidable_of_iff
    ((s.all fun c => c ∉ ['"', '\'', '\\', '\x7b', '\x7d', ';']) ∧ ¬['/', '*'] <:+: s ∧
      ∀ mark ∈ commentMarks, ¬mark <:+: s)
    ⟨fun h => ⟨by simpa using h.1, h.2.1, h.2.2⟩,
      fun h => ⟨by simpa using h.chars, h.comments, h.markers⟩⟩

instance : DecidablePred IsPlainText := fun s =>
  decidable_of_iff (IsUnmarked s ∧ s.foldlM openAfter? [] = some [])
    ⟨fun h => ⟨h.1, h.2⟩, fun h => ⟨h.toIsUnmarked, h.balanced⟩⟩

instance : DecidablePred IsFlatText := fun s =>
  decidable_of_iff
    (((s.all fun c => c ∉ ['"', '\'', '\\', '\x7b', '\x7d', ';']) ∧ ¬['/', '*'] <:+: s) ∧
      s.foldlM openAfter? [] = some [])
    ⟨fun h => ⟨⟨by simpa using h.1.1, h.1.2⟩, h.2⟩,
      fun h => ⟨⟨by simpa using h.chars, h.comments⟩, h.balanced⟩⟩

instance : DecidablePred IsName := fun s =>
  decidable_of_iff (startsName s ∧ s.all isNameChar)
    ⟨fun h => ⟨h.1, by simpa using h.2⟩, fun h => ⟨h.starts, by simpa using h.chars⟩⟩

end ComputedStyle.Syntax
