import ComputedStyle.Proofs.Selector.Search
import ComputedStyle.RuleSet.Index

namespace ComputedStyle

namespace Document

/-- A tree that differs from another one in styles alone. -/
def SameMarkup (doc next : Document) : Prop :=
  ∀ id, next.node? id = (doc.node? id).map fun node =>
    { node with declared := next.declared id, computed := next.computed id }

namespace SameMarkup

variable {doc next : Document}

theorem refl (doc : Document) : doc.SameMarkup doc := by
  intro id
  rw [declared, computed]
  cases doc.node? id with
  | none => rfl
  | some node => rfl

theorem bind_node? (same : doc.SameMarkup next) {read : Node → Option β}
    (unstyled : ∀ node declared computed, read { node with declared, computed } = read node)
    (id : NodeId) : (next.node? id).bind read = (doc.node? id).bind read := by
  rw [same id, Option.bind_map]
  exact Option.bind_congr fun node _ => unstyled node _ _

theorem map_node? (same : doc.SameMarkup next) {read : Node → β}
    (unstyled : ∀ node declared computed, read { node with declared, computed } = read node)
    (id : NodeId) : (next.node? id).map read = (doc.node? id).map read := by
  rw [same id, Option.map_map]
  exact Option.map_congr fun node _ => unstyled node _ _

theorem tag? (same : doc.SameMarkup next) (id : NodeId) : next.tag? id = doc.tag? id :=
  same.bind_node? (fun _ _ _ => rfl) id

theorem isElement (same : doc.SameMarkup next) (id : NodeId) :
    next.isElement id = doc.isElement id := by
  rw [Document.isElement, Document.isElement, same.tag?]

theorem attribute? (same : doc.SameMarkup next) (id : NodeId) (name : String) :
    next.attribute? id name = doc.attribute? id name :=
  same.bind_node? (fun _ _ _ => rfl) id

theorem elementId? (same : doc.SameMarkup next) (id : NodeId) :
    next.elementId? id = doc.elementId? id :=
  same.attribute? id "id"

theorem classes (same : doc.SameMarkup next) (id : NodeId) : next.classes id = doc.classes id := by
  rw [Document.classes, Document.classes, same.map_node? fun _ _ _ => rfl]

theorem parent? (same : doc.SameMarkup next) (id : NodeId) : next.parent? id = doc.parent? id :=
  same.bind_node? (fun _ _ _ => rfl) id

theorem position (same : doc.SameMarkup next) (id : NodeId) :
    next.position id = doc.position id := by
  rw [Document.position, Document.position, same.map_node? fun _ _ _ => rfl]

theorem tally (same : doc.SameMarkup next) (id : NodeId) : next.tally id = doc.tally id := by
  rw [Document.tally, Document.tally, same.map_node? fun _ _ _ => rfl]

theorem isRoot (same : doc.SameMarkup next) (id : NodeId) : next.isRoot id = doc.isRoot id := by
  rw [Document.isRoot, Document.isRoot, same.parent?]

theorem previousElement? (same : doc.SameMarkup next) (id : NodeId) :
    next.previousElement? id = doc.previousElement? id := by
  rw [Document.previousElement?, Document.previousElement?, same.position]

theorem elementSiblingCount (same : doc.SameMarkup next) (id : NodeId) :
    next.elementSiblingCount id = doc.elementSiblingCount id := by
  simp only [Document.elementSiblingCount, same.parent?, same.tally]

theorem typePosition (same : doc.SameMarkup next) (id : NodeId) :
    next.typePosition id = doc.typePosition id := by
  rw [Document.typePosition, Document.typePosition, same.position]

theorem typeCount (same : doc.SameMarkup next) (id : NodeId) :
    next.typeCount id = doc.typeCount id := by
  simp only [Document.typeCount, same.parent?, same.tag?, same.tally]

theorem updateDeclared (same : doc.SameMarkup next) (id : NodeId) (change : StyleMap → StyleMap) :
    doc.SameMarkup (next.updateDeclared id change) := by
  intro other
  rw [declared, computed, Document.updateDeclared, node?_update, same other]
  cases doc.node? other with
  | none => split <;> rfl
  | some node => split <;> rfl

end SameMarkup

end Document

section Matching

variable {doc next : Document}

theorem AttributeTest.holdsFor_markup (same : doc.SameMarkup next) (id : NodeId)
    (test : AttributeTest) : test.holdsFor next id = test.holdsFor doc id := by
  rw [holdsFor, holdsFor, same.attribute?]

mutual

theorem Compound.holdsFor_markup (same : doc.SameMarkup next) (id : NodeId) :
    (compound : Compound) → compound.holdsFor next id = compound.holdsFor doc id
  | ⟨tag, ids, classes, attributes, pseudoClasses, pseudoElement⟩ => by
      simp only [Compound.holdsFor, same.tag?, same.elementId?, same.classes,
        AttributeTest.holdsFor_markup same, PseudoClass.allHold_markup same id pseudoClasses]

theorem PseudoClass.holdsFor_markup (same : doc.SameMarkup next) (id : NodeId) :
    (pseudo : PseudoClass) → pseudo.holdsFor next id = pseudo.holdsFor doc id
  | .root => same.isRoot id
  | .firstChild => by rw [PseudoClass.holdsFor, PseudoClass.holdsFor, same.position]
  | .lastChild => by
      rw [PseudoClass.holdsFor, PseudoClass.holdsFor, same.position, same.elementSiblingCount]
  | .onlyChild => by rw [PseudoClass.holdsFor, PseudoClass.holdsFor, same.elementSiblingCount]
  | .firstOfType => by rw [PseudoClass.holdsFor, PseudoClass.holdsFor, same.typePosition]
  | .lastOfType => by
      rw [PseudoClass.holdsFor, PseudoClass.holdsFor, same.typePosition, same.typeCount]
  | .nthChild _ => by rw [PseudoClass.holdsFor, PseudoClass.holdsFor, same.position]
  | .nthLastChild _ => by
      rw [PseudoClass.holdsFor, PseudoClass.holdsFor, same.position, same.elementSiblingCount]
  | .nthOfType _ => by rw [PseudoClass.holdsFor, PseudoClass.holdsFor, same.typePosition]
  | .not inner => by
      rw [PseudoClass.holdsFor, PseudoClass.holdsFor, Compound.holdsFor_markup same id inner]
  | .dynamic _ => rfl
  | .unsupported _ => rfl

theorem PseudoClass.allHold_markup (same : doc.SameMarkup next) (id : NodeId) :
    (pseudoClasses : List PseudoClass) →
      PseudoClass.allHold next id pseudoClasses = PseudoClass.allHold doc id pseudoClasses
  | [] => rfl
  | pseudo :: rest => by
      rw [PseudoClass.allHold, PseudoClass.allHold, PseudoClass.holdsFor_markup same id pseudo,
        PseudoClass.allHold_markup same id rest]

end

theorem Combinator.candidate?_markup (same : doc.SameMarkup next) (combinator : Combinator)
    (id : NodeId) : combinator.candidate? next id = combinator.candidate? doc id := by
  cases combinator with
  | child => exact same.parent? id
  | descendant => exact same.parent? id
  | adjacentSibling => exact same.previousElement? id
  | generalSibling => exact same.previousElement? id

theorem Combinator.search_markup (same : doc.SameMarkup next) (combinator : Combinator)
    (attempt : NodeId → Outcome) (id : NodeId) :
    combinator.search next attempt id = combinator.search doc attempt id := by
  induction id using Nat.strongRecOn with
  | ind id ih =>
      cases candidate : combinator.candidate? doc id with
      | none =>
          have stop := (combinator.candidate?_markup same id).trans candidate
          rw [search_of_none combinator candidate, search_of_none combinator stop]
      | some current =>
          have go := (combinator.candidate?_markup same id).trans candidate
          rw [search_of_some combinator candidate, search_of_some combinator go,
            ih current (candidate?_lt candidate)]

theorem ComplexSelector.place_markup (same : doc.SameMarkup next)
    (context : List (Combinator × Compound)) (compound : Compound) (id : NodeId) :
    place next compound context id = place doc compound context id := by
  induction context generalizing compound id with
  | nil => simp only [place, compound.holdsFor_markup same]
  | cons link rest ih =>
      have left : place next link.2 rest = place doc link.2 rest := funext (ih link.2)
      simp only [place, compound.holdsFor_markup same, left, link.1.search_markup same]

theorem SelectorGroup.holdsFor_markup (same : doc.SameMarkup next) (group : SelectorGroup)
    (id : NodeId) : group.holdsFor next id = group.holdsFor doc id := by
  simp only [holdsFor, same.isElement, ComplexSelector.holdsFor, ComplexSelector.place_markup same]

theorem Rule.holdsFor_markup (same : doc.SameMarkup next) (rule : Rule) (id : NodeId) :
    rule.holdsFor next id = rule.holdsFor doc id :=
  rule.selectors.holdsFor_markup same id

theorem RuleIndex.candidates_markup (same : doc.SameMarkup next) (index : RuleIndex)
    (id : NodeId) : index.candidates next id = index.candidates doc id := by
  simp only [candidates, filed, same.tag?, same.elementId?, same.classes]

end Matching

end ComputedStyle
