import ComputedStyle.Proofs.Document.Order

/-!
Ancestors and earlier siblings, said by the lists of children.

A node keeps only the number of the nearest element before it. In a consistent tree following these
numbers gives all elements before a node among the children of its parent, nearest first.
-/

namespace ComputedStyle.Document

variable {doc : Document}

/-- A node is above another one. -/
def IsAncestor (doc : Document) : NodeId → NodeId → Prop :=
  Relation.TransGen fun p c => doc.parent? c = some p

/-- An element stands before a node among the children of one parent. -/
def ElementBefore (doc : Document) (a b : NodeId) : Prop :=
  ∃ p before after, doc.children p = before ++ b :: after ∧ a ∈ before ∧ doc.isElement a

/-- An element stands before a node among the children of one parent, with no element between
them. -/
def ElementJustBefore (doc : Document) (a b : NodeId) : Prop :=
  ∃ p before between after, doc.children p = before ++ a :: between ++ b :: after ∧
    doc.isElement a ∧ ∀ c ∈ between, ¬doc.isElement c

theorem isAncestor_iff {a b : NodeId} : doc.IsAncestor a b ↔ a ∈ doc.ancestors b := by
  constructor
  · intro above
    induction above with
    | single parent =>
        rw [ancestors_of_child parent]
        exact List.mem_cons_self ..
    | tail _ parent ih =>
        rw [ancestors_of_child parent]
        exact List.mem_cons_of_mem _ ih
  · intro member
    induction b using ancestors.induct doc with
    | case1 b p up ih =>
        rw [ancestors_of_child up] at member
        rcases List.mem_cons.1 member with rfl | above
        · exact .single up
        · exact .tail (ih above) up
    | case2 b orphan =>
        rw [ancestors_of_root orphan] at member
        cases member

theorem precedingElements_of_first {id : NodeId} (first : doc.previousElement? id = none) :
    doc.precedingElements id = [] := by
  rw [precedingElements]
  split <;> simp_all

theorem precedingElements_of_later {id s : NodeId} (later : doc.previousElement? id = some s) :
    doc.precedingElements id = s :: doc.precedingElements s := by
  rw [precedingElements]
  split <;> simp_all

theorem lastElement_tallyOf (doc : Document) (children : List NodeId) :
    (doc.tallyOf children).lastElement = (children.filter doc.isElement).getLast? := by
  induction children using List.reverseRecOn with
  | nil => rfl
  | append_singleton children child ih =>
      rw [tallyOf_concat, List.filter_append]
      cases kind : doc.content child with
      | element tag =>
          have element : doc.isElement child := by rw [isElement_eq_content, kind]; rfl
          simp [element, Tally.count, Tally.place]
      | text value =>
          have text : doc.isElement child = false := by rw [isElement_eq_content, kind]; rfl
          simpa [text, Tally.count, Tally.place] using ih

namespace Consistent

theorem previousElement?_of_split (h : doc.Consistent) {p id : NodeId}
    {before after : List NodeId} (split : doc.children p = before ++ id :: after) :
    doc.previousElement? id =
      if doc.isElement id then (before.filter doc.isElement).getLast? else none := by
  rw [previousElement?, h.placed p before id after split, isElement_eq_content]
  cases doc.content id with
  | element tag => exact lastElement_tallyOf doc before
  | text value => rfl

theorem exists_split (h : doc.Consistent) {id p : NodeId} (parent : doc.parent? id = some p) :
    ∃ before after, doc.children p = before ++ id :: after :=
  List.append_of_mem ((h.listed id p).1 parent)

theorem parent?_previousElement (h : doc.Consistent) {id s : NodeId}
    (previous : doc.previousElement? id = some s) : doc.parent? s = doc.parent? id := by
  cases parent : doc.parent? id with
  | none =>
      rw [previousElement?, h.unplaced id parent] at previous
      cases previous
  | some p =>
      obtain ⟨before, after, split⟩ := h.exists_split parent
      rw [h.previousElement?_of_split split] at previous
      split at previous
      · have member := (List.mem_filter.1 (List.mem_of_getLast? previous)).1
        exact (h.listed s p).2 (by simp [split, member])
      · cases previous

/-- Elements before an element, from the nearest one on. -/
theorem precedingElements_of_split (h : doc.Consistent) {p id : NodeId}
    {before after : List NodeId} (split : doc.children p = before ++ id :: after)
    (element : doc.isElement id) :
    doc.precedingElements id = (before.filter doc.isElement).reverse := by
  induction id using precedingElements.induct doc generalizing before after with
  | case1 id s later ih =>
      have previous := h.previousElement?_of_split split
      rw [if_pos element, later] at previous
      obtain ⟨rest, found⟩ := List.getLast?_eq_some_iff.1 previous.symm
      obtain ⟨left, right, rfl, rest_eq, last⟩ := List.filter_eq_append_iff.1 found
      obtain ⟨skipped, tail, rfl, skips, element', _⟩ := List.filter_eq_cons_iff.1 last
      have earlier : doc.children p = (left ++ skipped) ++ s :: (tail ++ id :: after) := by
        simp [split]
      have texts : skipped.filter doc.isElement = [] := List.filter_eq_nil_iff.2 skips
      rw [precedingElements_of_later later, ih earlier element', found]
      simp [rest_eq, texts]
  | case2 id first =>
      have previous := h.previousElement?_of_split split
      rw [if_pos element, first] at previous
      rw [precedingElements_of_first first, List.getLast?_eq_none_iff.1 previous.symm]
      rfl

theorem mem_precedingElements (h : doc.Consistent) {a b : NodeId} (element : doc.isElement b) :
    a ∈ doc.precedingElements b ↔ doc.ElementBefore a b := by
  constructor
  · intro member
    cases parent : doc.parent? b with
    | none =>
        rw [precedingElements_of_first (by rw [previousElement?, h.unplaced b parent])] at member
        cases member
    | some p =>
        obtain ⟨before, after, split⟩ := h.exists_split parent
        rw [h.precedingElements_of_split split element, List.mem_reverse] at member
        obtain ⟨inside, element'⟩ := List.mem_filter.1 member
        exact ⟨p, before, after, split, inside, element'⟩
  · rintro ⟨p, before, after, split, inside, element'⟩
    rw [h.precedingElements_of_split split element, List.mem_reverse]
    exact List.mem_filter.2 ⟨inside, element'⟩

theorem previousElement?_iff (h : doc.Consistent) {a b : NodeId} (element : doc.isElement b) :
    doc.previousElement? b = some a ↔ doc.ElementJustBefore a b := by
  constructor
  · intro previous
    cases parent : doc.parent? b with
    | none =>
        rw [previousElement?, h.unplaced b parent] at previous
        cases previous
    | some p =>
        obtain ⟨before, after, split⟩ := h.exists_split parent
        rw [h.previousElement?_of_split split, if_pos element,
          List.getLast?_eq_some_iff] at previous
        obtain ⟨rest, found⟩ := previous
        obtain ⟨left, right, rfl, _, last⟩ := List.filter_eq_append_iff.1 found
        obtain ⟨skipped, tail, rfl, _, element', texts⟩ := List.filter_eq_cons_iff.1 last
        refine ⟨p, left ++ skipped, tail, after, by simp [split], element', ?_⟩
        exact List.filter_eq_nil_iff.1 texts
  · rintro ⟨p, before, between, after, split, element', texts⟩
    have skipped : between.filter doc.isElement = [] := List.filter_eq_nil_iff.2 texts
    rw [h.previousElement?_of_split split, if_pos element]
    simp [element', skipped]

end Consistent

end ComputedStyle.Document
