import ComputedStyle.Selector.Reading

namespace ComputedStyle

open Text Number

/-- An integer in decimal, with a minus before a negative one. -/
def integerText (n : Int) : List Char :=
  if n < 0 then '-' :: digitsOf n.natAbs else digitsOf n.natAbs

/-- The formula `an+b`. -/
def Progression.text (positions : Progression) : List Char :=
  let sign := if positions.offset < 0 then '-' else '+'
  integerText positions.step ++ 'n' :: sign :: digitsOf positions.offset.natAbs

/-- The character before the equals sign of an operator. -/
def AttributeOperator.mark? : AttributeOperator → Option Char
  | equals => none
  | includes => some '~'
  | dashMatch => some '|'
  | starts => some '^'
  | ends => some '$'
  | holds => some '*'

/-- What follows a value when letter case does not count. -/
def AttributeComparison.flag (comparison : AttributeComparison) : List Char :=
  if comparison.ignoresCase then [' ', 'i'] else []

def AttributeComparison.text (comparison : AttributeComparison) : List Char :=
  comparison.operator.mark?.toList ++
    '=' :: '"' :: (comparison.value.toList ++ '"' :: comparison.flag)

/-- What stands between the square brackets of an attribute test. -/
def AttributeTest.inner (test : AttributeTest) : List Char :=
  test.name.toList ++ (test.comparison.map AttributeComparison.text).getD []

def AttributeTest.text (test : AttributeTest) : List Char :=
  '[' :: (test.inner ++ [']'])

def PseudoClass.name : PseudoClass → String
  | root => "root"
  | firstChild => "first-child"
  | lastChild => "last-child"
  | onlyChild => "only-child"
  | firstOfType => "first-of-type"
  | lastOfType => "last-of-type"
  | nthChild _ => "nth-child"
  | nthLastChild _ => "nth-last-child"
  | nthOfType _ => "nth-of-type"
  | not _ => "not"
  | dynamic name => name
  | unsupported name => name

def bracketed (argument : Option (List Char)) : List Char :=
  (argument.map fun inner => '(' :: (inner ++ [')'])).getD []

mutual

def Compound.text : Compound → List Char
  | ⟨tag, ids, classes, attributes, pseudoClasses, pseudoElement⟩ =>
      (tag.map String.toList).getD [] ++ (ids.flatMap fun id => '#' :: id.toList) ++
        (classes.flatMap fun name => '.' :: name.toList) ++
        attributes.flatMap AttributeTest.text ++ PseudoClass.textAll pseudoClasses ++
        (pseudoElement.map fun name => ':' :: ':' :: name.toList).getD []

/-- The text between the brackets after the name of a pseudo-class. -/
def PseudoClass.argument? : PseudoClass → Option (List Char)
  | .nthChild positions => some positions.text
  | .nthLastChild positions => some positions.text
  | .nthOfType positions => some positions.text
  | .not inner => some inner.text
  | _ => none

def PseudoClass.textAll : List PseudoClass → List Char
  | [] => []
  | pseudo :: rest =>
      ':' :: (pseudo.name.toList ++ bracketed pseudo.argument?) ++ PseudoClass.textAll rest

end

/-! Selectors whose canonical text says all there is to them. -/

/-- Letters, digits, hyphens and underscores, at least one; beyond ASCII every character counts as a
letter that is not blank. -/
def IsIdent (name : String) : Prop :=
  name.toList ≠ [] ∧ ∀ c ∈ name.toList, Selector.isIdentChar c ∧ isBlank c = false

/-- An identifier without capitals of ASCII. -/
def IsLowerIdent (name : String) : Prop :=
  IsIdent name ∧ lower name.toList = name.toList

def isInt32 (n : Int) : Bool :=
  -(2 ^ 31) ≤ n && n < 2 ^ 31

structure Progression.IsNormal (positions : Progression) : Prop where
  step : isInt32 positions.step
  offset : isInt32 positions.offset

structure AttributeTest.IsNormal (test : AttributeTest) : Prop where
  name : IsLowerIdent test.name
  ascii : ∀ c ∈ test.name.toList, c.toNat < 0x80
  value : ∀ comparison, test.comparison = some comparison → '"' ∉ comparison.value.toList

/-- The names of pseudo-classes without arguments that have a meaning of their own. -/
def plainNames : List String :=
  ["root", "first-child", "last-child", "only-child", "first-of-type", "last-of-type"]

mutual

inductive Compound.IsNormal : Compound → Prop where
  | intro (compound : Compound) (nonempty : compound.isEmpty = false)
      (tag : ∀ name, compound.tag = some name → name = "*" ∨ IsLowerIdent name)
      (ids : ∀ id ∈ compound.ids, IsIdent id)
      (classes : ∀ name ∈ compound.classes, IsIdent name)
      (attributes : ∀ test ∈ compound.attributes, test.IsNormal)
      (pseudoClasses : ∀ pseudo ∈ compound.pseudoClasses, PseudoClass.IsNormal pseudo)
      (pseudoElement : ∀ name, compound.pseudoElement = some name → IsLowerIdent name) :
      Compound.IsNormal compound

inductive PseudoClass.IsNormal : PseudoClass → Prop where
  | root : PseudoClass.IsNormal .root
  | firstChild : PseudoClass.IsNormal .firstChild
  | lastChild : PseudoClass.IsNormal .lastChild
  | onlyChild : PseudoClass.IsNormal .onlyChild
  | firstOfType : PseudoClass.IsNormal .firstOfType
  | lastOfType : PseudoClass.IsNormal .lastOfType
  | nthChild (positions : Progression) (normal : positions.IsNormal) :
      PseudoClass.IsNormal (.nthChild positions)
  | nthLastChild (positions : Progression) (normal : positions.IsNormal) :
      PseudoClass.IsNormal (.nthLastChild positions)
  | nthOfType (positions : Progression) (normal : positions.IsNormal) :
      PseudoClass.IsNormal (.nthOfType positions)
  | not (inner : Compound) (normal : Compound.IsNormal inner) : PseudoClass.IsNormal (.not inner)
  | dynamic (name : String) (listed : name ∈ Selector.dynamicNames) :
      PseudoClass.IsNormal (.dynamic name)
  | unsupported (name : String) (ident : IsLowerIdent name)
      (other : name ∉ plainNames ++ Selector.dynamicNames ++ Selector.elementNames) :
      PseudoClass.IsNormal (.unsupported name)

end

def ComplexSelector.IsNormal (selector : ComplexSelector) : Prop :=
  ∀ compound ∈ selector.compounds, compound.IsNormal

def IsBlankText (s : List Char) : Prop :=
  ∀ c ∈ s, isBlank c

/-- What joins two compounds: blanks, or the sign of another combinator with blanks around it. -/
inductive Combinator.Written : Combinator → List Char → Prop where
  | blanks (text : List Char) (nonempty : text ≠ []) (blank : IsBlankText text) :
      Written .descendant text
  | sign (combinator : Combinator) (c : Char) (before after : List Char)
      (sign : Selector.Scan.combinatorOf? c = some combinator) (blankBefore : IsBlankText before)
      (blankAfter : IsBlankText after) : Written combinator (before ++ c :: after)

inductive ComplexSelector.Written : ComplexSelector → List Char → Prop where
  | compound (compound : Compound) : Written ⟨compound, []⟩ compound.text
  | join (left : ComplexSelector) (text joint : List Char) (combinator : Combinator)
      (compound : Compound) (written : Written left text) (joined : combinator.Written joint) :
      Written ⟨compound, (combinator, left.subject) :: left.context⟩
        (text ++ joint ++ compound.text)

/-- A text of a member of a group, with blanks around it. -/
def ComplexSelector.WrittenMember (selector : ComplexSelector) (piece : List Char) : Prop :=
  ∃ before text after, selector.Written text ∧ IsBlankText before ∧ IsBlankText after ∧
    piece = before ++ text ++ after

/-- A text of a group: texts of its members with commas between them. -/
inductive SelectorGroup.Written : List ComplexSelector → List Char → Prop where
  | one (member : ComplexSelector) (piece : List Char) (written : member.WrittenMember piece) :
      Written [member] piece
  | more (member : ComplexSelector) (piece : List Char) (members : List ComplexSelector)
      (text : List Char) (written : member.WrittenMember piece) (rest : Written members text) :
      Written (member :: members) (piece ++ ',' :: text)

end ComputedStyle
