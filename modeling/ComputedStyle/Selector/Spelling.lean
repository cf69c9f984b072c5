import ComputedStyle.Selector.Reading

namespace ComputedStyle

open Text Number

structure IsNumeral (s : List Char) : Prop where
  nonempty : s ≠ []
  digits : ∀ c ∈ s, c.isDigit

/-- Texts of an integer that show its sign. -/
inductive SpelledSigned : Int → List Char → Prop where
  | plus (digits : List Char) (numeral : IsNumeral digits) :
      SpelledSigned (ofDigits digits) ('+' :: digits)
  | minus (digits : List Char) (numeral : IsNumeral digits) :
      SpelledSigned (-(ofDigits digits : Int)) ('-' :: digits)

inductive SpelledInteger : Int → List Char → Prop where
  | unsigned (digits : List Char) (numeral : IsNumeral digits) :
      SpelledInteger (ofDigits digits) digits
  | signed (n : Int) (s : List Char) (spelled : SpelledSigned n s) : SpelledInteger n s

/-- Texts of the coefficient of a formula. -/
inductive SpelledCoefficient : Int → List Char → Prop where
  | one : SpelledCoefficient 1 []
  | plusOne : SpelledCoefficient 1 ['+']
  | minusOne : SpelledCoefficient (-1) ['-']
  | integer (n : Int) (s : List Char) (spelled : SpelledInteger n s) : SpelledCoefficient n s

/-- Texts of a formula without blanks and capitals. -/
inductive Progression.Spelled : Progression → List Char → Prop where
  | even : Spelled ⟨2, 0⟩ ['e', 'v', 'e', 'n']
  | odd : Spelled ⟨2, 1⟩ ['o', 'd', 'd']
  | constant (b : Int) (s : List Char) (spelled : SpelledInteger b s) : Spelled ⟨0, b⟩ s
  | multiple (a : Int) (s : List Char) (spelled : SpelledCoefficient a s) :
      Spelled ⟨a, 0⟩ (s ++ ['n'])
  | sum (a b : Int) (s t : List Char) (coefficient : SpelledCoefficient a s)
      (constant : SpelledSigned b t) : Spelled ⟨a, b⟩ (s ++ 'n' :: t)

/-- A text with blanks put anywhere in it and any of its letters made capitals. -/
inductive Strewn : List Char → List Char → Prop where
  | nil : Strewn [] []
  | blank (c : Char) (s raw : List Char) (blank : isBlank c) (more : Strewn s raw) :
      Strewn s (c :: raw)
  | char (c : Char) (s raw : List Char) (more : Strewn s raw) : Strewn (c.toLower :: s) (c :: raw)

end ComputedStyle
