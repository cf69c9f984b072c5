import ComputedStyle.Number.Power

/-!
Selectors.

A complex selector is its subject and, to the left of it, compounds with the combinators that join
them to what stands on their right; so there is always one combinator fewer than there are compounds.
-/

namespace ComputedStyle

/-- How much a selector counts in the cascade: ids before classes before types. -/
structure Specificity where
  ids : Nat
  classes : Nat
  types : Nat
deriving DecidableEq, Repr

namespace Specificity

def zero : Specificity := ⟨0, 0, 0⟩

instance : Inhabited Specificity := ⟨zero⟩

/-- Counts stop at the greatest number of 16 bits. -/
def countLimit : Nat := 2 ^ 16 - 1

def add (a b : Specificity) : Specificity :=
  ⟨min countLimit (a.ids + b.ids), min countLimit (a.classes + b.classes),
    min countLimit (a.types + b.types)⟩

/-- Lexicographic order. -/
def lt (a b : Specificity) : Bool :=
  a.ids < b.ids ||
    (a.ids == b.ids && (a.classes < b.classes || (a.classes == b.classes && a.types < b.types)))

def max (a b : Specificity) : Specificity :=
  if a.lt b then b else a

def toList (s : Specificity) : List Nat :=
  [s.ids, s.classes, s.types]

def text (s : Specificity) : String :=
  "(" ++ ",".intercalate (s.toList.map toString) ++ ")"

end Specificity

/-- The positions `step · k + offset` for `k ≥ 0`. -/
structure Progression where
  step : Int
  offset : Int
deriving DecidableEq, Repr

inductive AttributeOperator where
  | equals
  | includes
  | dashMatch
  | starts
  | ends
  | holds
deriving DecidableEq, Repr

/-- What the value of an attribute is compared with. -/
structure AttributeComparison where
  operator : AttributeOperator
  value : String
  ignoresCase : Bool
deriving DecidableEq, Repr

/-- An attribute that must be there and may have to compare. -/
structure AttributeTest where
  name : String
  comparison : Option AttributeComparison
deriving DecidableEq, Repr

mutual

structure Compound where
  /-- A tag in lower case, or `*`. -/
  tag : Option String
  ids : List String
  classes : List String
  attributes : List AttributeTest
  pseudoClasses : List PseudoClass
  pseudoElement : Option String

inductive PseudoClass where
  | root
  | firstChild
  | lastChild
  | onlyChild
  | firstOfType
  | lastOfType
  | nthChild (positions : Progression)
  | nthLastChild (positions : Progression)
  | nthOfType (positions : Progression)
  | not (inner : Compound)
  /-- Depends on interaction, so no node of a static document has it. -/
  | dynamic (name : String)
  | unsupported (name : String)

end

namespace Compound

def empty : Compound := ⟨none, [], [], [], [], none⟩

instance : Inhabited Compound := ⟨empty⟩

def isEmpty (compound : Compound) : Bool :=
  compound.tag.isNone && compound.ids.isEmpty && compound.classes.isEmpty &&
    compound.attributes.isEmpty && compound.pseudoClasses.isEmpty &&
    compound.pseudoElement.isNone

/-- The tag, unless it stands for any tag. -/
def type? (compound : Compound) : Option String :=
  compound.tag.filter (· != "*")

end Compound

mutual

/-- The specificity of a compound: `:not` counts as its argument does. -/
def Compound.specificity : Compound → Specificity
  | ⟨tag, ids, classes, attributes, pseudoClasses, pseudoElement⟩ =>
      let types :=
        (if (tag.filter (· != "*")).isSome then 1 else 0) + (if pseudoElement.isSome then 1 else 0)
      PseudoClass.addAll
        ⟨ids.length % 2 ^ 16, (classes.length + attributes.length) % 2 ^ 16, types⟩ pseudoClasses

def PseudoClass.specificity : PseudoClass → Specificity
  | .not inner => inner.specificity
  | _ => ⟨0, 1, 0⟩

/-- Adds the specificities of pseudo-classes from the left. -/
def PseudoClass.addAll (sum : Specificity) : List PseudoClass → Specificity
  | [] => sum
  | pseudo :: rest => PseudoClass.addAll (sum.add pseudo.specificity) rest

end

inductive Combinator where
  | descendant
  | child
  | adjacentSibling
  | generalSibling
deriving DecidableEq, Repr

structure ComplexSelector where
  /-- The compound that the selected node itself matches. -/
  subject : Compound
  /-- From right to left, each combinator with the compound on its left. -/
  context : List (Combinator × Compound)

namespace ComplexSelector

/-- The compounds from left to right. -/
def compounds (selector : ComplexSelector) : List Compound :=
  (selector.context.map Prod.snd).reverse ++ [selector.subject]

/-- The combinators from left to right. -/
def combinators (selector : ComplexSelector) : List Combinator :=
  (selector.context.map Prod.fst).reverse

def hasCombinator (selector : ComplexSelector) : Bool :=
  !selector.context.isEmpty

def specificity (selector : ComplexSelector) : Specificity :=
  selector.compounds.foldl (fun sum compound => sum.add compound.specificity) .zero

end ComplexSelector

/-- A group of selectors, with the number of its members that could not be read. -/
structure SelectorGroup where
  members : List ComplexSelector
  unparsed : Nat

namespace SelectorGroup

/-- The greatest specificity of a member. -/
def specificity (group : SelectorGroup) : Specificity :=
  group.members.foldl (fun most member => most.max member.specificity) .zero

end SelectorGroup

end ComputedStyle
