import ComputedStyle.Document.Order
import ComputedStyle.Selector.Reading
import ComputedStyle.Text.Case

/-!
Matching selectors against the nodes of a document.

A complex selector is matched from its subject leftwards. A failed attempt says how far back the next
one has to start (`Outcome`), so that a deep tree is not searched again for every compound.
-/

namespace ComputedStyle

open Text

namespace Progression

/-- Whether `position` is `step · k + offset` for some `k ≥ 0`. -/
def contains (positions : Progression) (position : Nat) : Bool :=
  let difference : Int := position - positions.offset
  if positions.step = 0 then difference == 0
  else difference.tmod positions.step == 0 && 0 ≤ difference.tdiv positions.step

end Progression

/-- Whether `part` stands somewhere in a text. -/
def occursIn (part : List Char) : List Char → Bool
  | [] => part.isEmpty
  | c :: rest => part.isPrefixOf (c :: rest) || occursIn part rest

namespace AttributeOperator

/-- Compares the value of an attribute with an expected one. The empty text is no word and no part of
a value. -/
def holdsFor (operator : AttributeOperator) (expected actual : List Char) : Bool :=
  match operator with
  | equals => actual == expected
  | includes => !expected.isEmpty && (words isAsciiBlank actual).contains expected
  | dashMatch => actual == expected || (expected ++ ['-']).isPrefixOf actual
  | starts => !expected.isEmpty && expected.isPrefixOf actual
  | ends => !expected.isEmpty && expected.isSuffixOf actual
  | holds => !expected.isEmpty && occursIn expected actual

end AttributeOperator

def AttributeComparison.holdsFor (comparison : AttributeComparison) (actual : String) : Bool :=
  let expected := comparison.value.toList
  if comparison.ignoresCase then
    comparison.operator.holdsFor (lowerFull expected) (lowerFull actual.toList)
  else comparison.operator.holdsFor expected actual.toList

def AttributeTest.holdsFor (test : AttributeTest) (doc : Document) (id : NodeId) : Bool :=
  match doc.attribute? id test.name with
  | none => false
  | some actual =>
      match test.comparison with
      | none => true
      | some comparison => comparison.holdsFor actual

/-- Whether a tag in a selector admits the tag of an element. -/
def tagAdmits (expected : Option String) (tag : String) : Bool :=
  match expected with
  | none => true
  | some name => name == "*" || name.toLower == tag.toLower

mutual

/-- Whether a node is an element that has all a compound asks for. A compound about a pseudo-element
matches nothing. -/
def Compound.holdsFor (doc : Document) (id : NodeId) : Compound → Bool
  | ⟨tag, ids, classes, attributes, pseudoClasses, pseudoElement⟩ =>
      match doc.tag? id with
      | none => false
      | some name =>
          pseudoElement.isNone && tagAdmits tag name &&
            ids.all (doc.elementId? id == some ·) &&
            classes.all ((doc.classes id).contains ·) &&
            attributes.all (·.holdsFor doc id) &&
            PseudoClass.allHold doc id pseudoClasses

def PseudoClass.holdsFor (doc : Document) (id : NodeId) : PseudoClass → Bool
  | .root => doc.isRoot id
  | .firstChild => (doc.position id).elementIndex == 0
  | .lastChild => (doc.position id).elementIndex + 1 == doc.elementSiblingCount id
  | .onlyChild => doc.elementSiblingCount id == 1
  | .firstOfType => doc.typePosition id == 1
  | .lastOfType => doc.typePosition id == doc.typeCount id
  | .nthChild positions => positions.contains ((doc.position id).elementIndex + 1)
  | .nthLastChild positions =>
      positions.contains (doc.elementSiblingCount id - (doc.position id).elementIndex)
  | .nthOfType positions => positions.contains (doc.typePosition id)
  | .not inner => !inner.holdsFor doc id
  | .dynamic _ => false
  | .unsupported _ => false

def PseudoClass.allHold (doc : Document) (id : NodeId) : List PseudoClass → Bool
  | [] => true
  | pseudo :: rest => pseudo.holdsFor doc id && PseudoClass.allHold doc id rest

end

/-- How an attempt to place the compounds of a selector ends. -/
inductive Outcome where
  | matched
  /-- It can succeed from an earlier sibling at the nearest `~` to the right. -/
  | retrySibling
  /-- It can succeed from a higher ancestor at the nearest descendant combinator to the right. -/
  | retryAncestor
  /-- No other attempt can succeed. -/
  | never
deriving DecidableEq, Repr

namespace Combinator

/-- The first node to try on the left of a combinator. -/
def candidate? (combinator : Combinator) (doc : Document) (id : NodeId) : Option NodeId :=
  match combinator with
  | child => doc.parent? id
  | descendant => doc.parent? id
  | adjacentSibling => doc.previousElement? id
  | generalSibling => doc.previousElement? id

theorem candidate?_lt {combinator : Combinator} {doc : Document} {id p : NodeId}
    (h : combinator.candidate? doc id = some p) : p < id := by
  cases combinator
  · exact Document.parent?_lt h
  · exact Document.parent?_lt h
  · exact Document.previousElement?_lt h
  · exact Document.previousElement?_lt h

def exhausted : Combinator → Outcome
  | child => .never
  | descendant => .never
  | adjacentSibling => .retryAncestor
  | generalSibling => .retryAncestor

/-- The outcome after one attempt on the left, or none if the next node is to be tried. -/
def settles? : Combinator → Outcome → Option Outcome
  | _, .matched => some .matched
  | _, .never => some .never
  | adjacentSibling, outcome => some outcome
  | child, _ => some .retryAncestor
  | generalSibling, .retryAncestor => some .retryAncestor
  | _, _ => none

/-- Tries the nodes on the left of a combinator, nearest first. -/
def search (combinator : Combinator) (doc : Document) (attempt : NodeId → Outcome)
    (id : NodeId) : Outcome :=
  match _next : combinator.candidate? doc id with
  | none => combinator.exhausted
  | some current =>
      match combinator.settles? (attempt current) with
      | some outcome => outcome
      | none => combinator.search doc attempt current
termination_by id
decreasing_by exact candidate?_lt _next

end Combinator

namespace ComplexSelector

/-- Places a compound at a node and those on its left where their combinators allow. -/
def place (doc : Document) (compound : Compound) :
    List (Combinator × Compound) → NodeId → Outcome
  | context, id =>
      if !compound.holdsFor doc id then .retrySibling
      else
        match context with
        | [] => .matched
        | (combinator, left) :: rest => combinator.search doc (place doc left rest) id

def holdsFor (selector : ComplexSelector) (doc : Document) (id : NodeId) : Bool :=
  place doc selector.subject selector.context id = .matched

end ComplexSelector

/-- Whether a node is an element that some member of a group matches. -/
def SelectorGroup.holdsFor (group : SelectorGroup) (doc : Document) (id : NodeId) : Bool :=
  doc.isElement id && group.members.any (·.holdsFor doc id)

/-- Reads a selector group and matches it; a group that cannot be read matches nothing. -/
def selectorHoldsFor (text : String) (doc : Document) (id : NodeId) :
    Except SelectorError Bool :=
  match SelectorGroup.read text with
  | .ok group => .ok (group.holdsFor doc id)
  | .error .unreadable => .ok false
  | .error .brokenCharacter => .error .brokenCharacter

end ComputedStyle
