import ComputedStyle.Proofs.Selector.Search

namespace ComputedStyle

/-- How the node on the left of a combinator has to stand to the one on its right. -/
def Combinator.Joins (doc : Document) : Combinator → NodeId → NodeId → Prop
  | .descendant, a, b => doc.IsAncestor a b
  | .child, a, b => doc.parent? b = some a
  | .adjacentSibling, a, b => doc.ElementJustBefore a b
  | .generalSibling, a, b => doc.ElementBefore a b

theorem Combinator.joins_iff_reaches {doc : Document} (h : doc.Consistent)
    (combinator : Combinator) {a b : NodeId} (element : doc.isElement b) :
    combinator.Joins doc a b ↔ combinator.Reaches doc a b := by
  cases combinator with
  | descendant => exact Document.isAncestor_iff
  | child => exact Iff.rfl
  | adjacentSibling => exact (h.previousElement?_iff element).symm
  | generalSibling => exact (h.mem_precedingElements element).symm

theorem Compound.holdsFor_iff {doc : Document} {id : NodeId} {compound : Compound} :
    compound.holdsFor doc id ↔
      ∃ tag, doc.tag? id = some tag ∧ compound.pseudoElement = none ∧
        tagAdmits compound.tag tag ∧
        (∀ value ∈ compound.ids, doc.elementId? id = some value) ∧
        (∀ name ∈ compound.classes, name ∈ (doc.classes id).names) ∧
        (∀ test ∈ compound.attributes, test.holdsFor doc id) ∧
        PseudoClass.allHold doc id compound.pseudoClasses := by
  obtain ⟨tag, ids, classes, attributes, pseudoClasses, pseudoElement⟩ := compound
  cases found : doc.tag? id with
  | none => simp [holdsFor, found]
  | some name => simp [holdsFor, found, ClassList.contains, and_assoc]

theorem Compound.isElement_of_holdsFor {doc : Document} {id : NodeId} {compound : Compound}
    (holds : compound.holdsFor doc id) : doc.isElement id := by
  obtain ⟨tag, found, _⟩ := Compound.holdsFor_iff.1 holds
  rw [Document.isElement, found, Option.isSome_some]

theorem ComplexSelector.holdsFor_compound (doc : Document) (id : NodeId) (compound : Compound) :
    ComplexSelector.holdsFor ⟨compound, []⟩ doc id = compound.holdsFor doc id := by
  rw [ComplexSelector.holdsFor, ComplexSelector.place]
  cases compound.holdsFor doc id <;> rfl

theorem SelectorGroup.holdsFor_compound (doc : Document) (id : NodeId) (compound : Compound)
    (unparsed : Nat) :
    SelectorGroup.holdsFor ⟨[⟨compound, []⟩], unparsed⟩ doc id = compound.holdsFor doc id := by
  rw [SelectorGroup.holdsFor, List.any_cons, List.any_nil, Bool.or_false,
    ComplexSelector.holdsFor_compound]
  cases holds : compound.holdsFor doc id with
  | false => rw [Bool.and_false]
  | true => rw [Compound.isElement_of_holdsFor holds, Bool.and_true]

theorem selectorHoldsFor_compound {text : String} {compound : Compound}
    (read : SelectorGroup.read text = .ok ⟨[⟨compound, []⟩], 0⟩) (doc : Document) (id : NodeId) :
    selectorHoldsFor text doc id = .ok (compound.holdsFor doc id) := by
  rw [selectorHoldsFor, read]
  exact congrArg Except.ok (SelectorGroup.holdsFor_compound doc id compound 0)

namespace ComplexSelector

/-- Nodes for the compounds of a selector from left to right, the last one for its subject. -/
structure Placement (selector : ComplexSelector) (doc : Document) (id : NodeId)
    (node : Nat → NodeId) : Prop where
  last : node selector.combinators.length = id
  holds : ∀ (i : Nat) (compound : Compound),
    selector.compounds[i]? = some compound → compound.holdsFor doc (node i)
  joined : ∀ (i : Nat) (combinator : Combinator),
    selector.combinators[i]? = some combinator → combinator.Joins doc (node i) (node (i + 1))

/-- A selector with one more compound on its right. -/
def extend (selector : ComplexSelector) (combinator : Combinator) (subject : Compound) :
    ComplexSelector :=
  ⟨subject, (combinator, selector.subject) :: selector.context⟩

theorem compounds_extend (selector : ComplexSelector) (combinator : Combinator)
    (subject : Compound) :
    (selector.extend combinator subject).compounds = selector.compounds ++ [subject] := by
  simp [compounds, extend]

theorem combinators_extend (selector : ComplexSelector) (combinator : Combinator)
    (subject : Compound) :
    (selector.extend combinator subject).combinators = selector.combinators ++ [combinator] := by
  simp [combinators, extend]

theorem length_compounds (selector : ComplexSelector) :
    selector.compounds.length = selector.combinators.length + 1 := by
  simp [compounds, combinators]

theorem forall_getElem?_concat {items : List α} {last : α} {holds : Nat → α → Prop} :
    (∀ i item, (items ++ [last])[i]? = some item → holds i item) ↔
      (∀ i item, items[i]? = some item → holds i item) ∧ holds items.length last := by
  constructor
  · intro all
    refine ⟨fun i item found => ?_, all items.length last (by simp)⟩
    have bound := (List.getElem?_eq_some_iff.1 found).1
    exact all i item (by rw [List.getElem?_append_left bound, found])
  · rintro ⟨all, final⟩ i item found
    rcases Nat.lt_trichotomy i items.length with less | rfl | greater
    · rw [List.getElem?_append_left less] at found
      exact all i item found
    · rw [List.getElem?_concat_length] at found
      exact Option.some.inj found ▸ final
    · rw [List.getElem?_eq_none (by simp; omega)] at found
      cases found

theorem Placement.extend_iff {selector : ComplexSelector} {combinator : Combinator}
    {subject : Compound} {doc : Document} {id : NodeId} {node : Nat → NodeId} :
    (selector.extend combinator subject).Placement doc id node ↔
      selector.Placement doc (node selector.combinators.length) node ∧
        node (selector.combinators.length + 1) = id ∧ subject.holdsFor doc id ∧
        combinator.Joins doc (node selector.combinators.length) id := by
  constructor
  · rintro ⟨last, holds, joined⟩
    rw [combinators_extend, List.length_append] at last
    rw [compounds_extend, forall_getElem?_concat, length_compounds] at holds
    rw [combinators_extend, forall_getElem?_concat] at joined
    have final : node (selector.combinators.length + 1) = id := last
    rw [final] at holds joined
    exact ⟨⟨rfl, holds.1, joined.1⟩, final, holds.2, joined.2⟩
  · rintro ⟨⟨_, holds, joined⟩, final, held, join⟩
    refine ⟨?_, ?_, ?_⟩
    · rw [combinators_extend, List.length_append]
      exact final
    · rw [compounds_extend, forall_getElem?_concat, length_compounds, final]
      exact ⟨holds, held⟩
    · rw [combinators_extend, forall_getElem?_concat, final]
      exact ⟨joined, join⟩

/-- A placement depends only on the nodes of its compounds. -/
theorem Placement.congr {selector : ComplexSelector} {doc : Document} {id : NodeId}
    {node other : Nat → NodeId} (placement : selector.Placement doc id node)
    (same : ∀ i ≤ selector.combinators.length, other i = node i) :
    selector.Placement doc id other where
  last := (same _ (Nat.le_refl _)).trans placement.last
  holds i compound found := by
    have bound := (List.getElem?_eq_some_iff.1 found).1
    rw [length_compounds] at bound
    rw [same i (Nat.lt_succ_iff.1 bound)]
    exact placement.holds i compound found
  joined i combinator found := by
    have bound := (List.getElem?_eq_some_iff.1 found).1
    rw [same i (Nat.le_of_lt bound), same (i + 1) bound]
    exact placement.joined i combinator found

theorem placed_iff_placement {doc : Document} (h : doc.Consistent) (subject : Compound)
    (context : List (Combinator × Compound)) (id : NodeId) :
    Placed doc subject context id ↔
      ∃ node, (⟨subject, context⟩ : ComplexSelector).Placement doc id node := by
  induction context generalizing subject id with
  | nil =>
      constructor
      · intro holds
        refine ⟨fun _ => id, rfl, fun i compound found => ?_, fun i combinator found => ?_⟩
        · obtain rfl : subject = compound := by
            cases i <;> simp_all [compounds]
          exact holds
        · simp [combinators] at found
      · rintro ⟨node, last, holds, _⟩
        rw [← last]
        exact holds 0 subject rfl
  | cons entry rest ih =>
      obtain ⟨combinator, left⟩ := entry
      let selector : ComplexSelector := ⟨left, rest⟩
      change _ ↔ ∃ node, (selector.extend combinator subject).Placement doc id node
      constructor
      · rintro ⟨holds, a, reached, placed⟩
        obtain ⟨node, placement⟩ := (ih left a).1 placed
        have element := Compound.isElement_of_holdsFor holds
        let final := selector.combinators.length
        let next : Nat → NodeId := fun i => if i ≤ final then node i else id
        have same : ∀ i ≤ final, next i = node i := fun i bound => if_pos bound
        have placement' : selector.Placement doc a next := placement.congr same
        refine ⟨next, Placement.extend_iff.2 ⟨?_, if_neg (by simp [final]), holds, ?_⟩⟩
        · rw [placement'.last]
          exact placement'
        · rw [placement'.last]
          exact (combinator.joins_iff_reaches h element).2 reached
      · rintro ⟨node, placement⟩
        obtain ⟨earlier, _, holds, join⟩ := Placement.extend_iff.1 placement
        have element := Compound.isElement_of_holdsFor holds
        exact ⟨holds, _, (combinator.joins_iff_reaches h element).1 join,
          (ih left _).2 ⟨node, earlier⟩⟩

/-- The pruned search selects exactly the nodes for which there is a placement. -/
theorem holdsFor_iff_exists_placement (edits : List Edit) (selector : ComplexSelector)
    (id : NodeId) :
    selector.holdsFor (.ofEdits edits) id = true ↔
      ∃ node, selector.Placement (.ofEdits edits) id node := by
  have h := Document.consistent_ofEdits edits
  rw [selector.holdsFor_iff_placed h]
  exact placed_iff_placement h selector.subject selector.context id

end ComplexSelector

end ComputedStyle
