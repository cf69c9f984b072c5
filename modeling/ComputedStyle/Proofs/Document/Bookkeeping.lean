import ComputedStyle.Proofs.Dictionary
import ComputedStyle.Proofs.Document.Siblings

/-!
What a tree keeps beside its links.

A node keeps its place among its siblings, and a parent counts its children, as children are appended.
Counting the children of the parent again comes to the same (`Recounted`), whatever edits made the
tree, those that fail included. A text is placed among all children alone: among the elements it keeps
no place (`Unplaced`).
-/

namespace ComputedStyle

/-- An edit that cannot be made: a second root, a parent or a node that is not there, or a style in
which a color fails. -/
inductive Edit.Fails (doc : Document) : Edit → Prop where
  | secondRoot (tag : String) (taken : 0 < doc.size) : Fails doc (.addElement none tag)
  | noParent (p : NodeId) (tag : String) (missing : doc.size ≤ p) :
      Fails doc (.addElement (some p) tag)
  | noParentOfText (p : NodeId) (text : String) (missing : doc.size ≤ p) :
      Fails doc (.addText p text)
  | noElement (id : NodeId) (name value : String) (missing : doc.size ≤ id) :
      Fails doc (.setAttribute id name value)
  | noStyled (id : NodeId) (text : String) (missing : doc.size ≤ id) :
      Fails doc (.setInlineStyle id text)
  | attributeColor (id : NodeId) (name value : String) (error : ColorError)
      (style : name.toLower = "style") (failed : StyleMap.ofInline value = .error error) :
      Fails doc (.setAttribute id name value)
  | inlineColor (id : NodeId) (text : String) (error : ColorError)
      (failed : StyleMap.ofInline text = .error error) : Fails doc (.setInlineStyle id text)

namespace Document

section Failing

variable {doc : Document}

theorem add_none_eq_error_iff {content : Content} :
    (∃ error, doc.add none content = .error error) ↔ 0 < doc.size := by
  unfold add
  by_cases empty : doc.isEmpty
  · rw [if_pos empty]
    have zero : doc.size = 0 := by simpa [isEmpty, size] using empty
    simp [zero]
  · rw [if_neg empty]
    have positive : doc.size ≠ 0 := by simpa [isEmpty, size] using empty
    simpa using Nat.pos_of_ne_zero positive

theorem add_some_eq_error_iff {p : NodeId} {content : Content} :
    (∃ error, doc.add (some p) content = .error error) ↔ doc.size ≤ p := by
  unfold add
  by_cases bound : p < doc.nodes.size
  · simp [bound, size]
  · simpa [bound, size] using Nat.le_of_not_lt bound

theorem ofInline_nil : StyleMap.ofInline "" = .ok .empty := by
  cbv

theorem inlineStyle_eq_error_iff {id : NodeId} {text : String} :
    (∃ error, doc.inlineStyle id text = .error error) ↔
      doc.size ≤ id ∨ ∃ error, StyleMap.ofInline text = .error error := by
  unfold inlineStyle
  by_cases bound : id < doc.size
  · rw [if_pos bound]
    cases StyleMap.ofInline text <;> simp [Except.mapError, bound]
  · rw [if_neg bound]
    simpa using Or.inl (Nat.le_of_not_lt bound)

theorem map_eq_error_iff {x : Except ε α} {f : α → β} :
    (∃ error, (x >>= fun a => .ok (f a)) = .error error) ↔ ∃ error, x = .error error := by
  cases x <;> simp [bind, Except.bind]

theorem edit_eq_error_iff {change : Edit} :
    (∃ error, doc.edit change = .error error) ↔ change.Fails doc := by
  cases change with
  | addElement parent tag =>
      cases parent with
      | none =>
          refine add_none_eq_error_iff.trans ⟨.secondRoot tag, fun fails => ?_⟩
          cases fails
          assumption
      | some p =>
          refine add_some_eq_error_iff.trans ⟨.noParent p tag, fun fails => ?_⟩
          cases fails
          assumption
  | addText p text =>
      refine add_some_eq_error_iff.trans ⟨.noParentOfText p text, fun fails => ?_⟩
      cases fails
      assumption
  | setAttribute id name value =>
      refine (map_eq_error_iff.trans inlineStyle_eq_error_iff).trans ⟨?_, fun fails => ?_⟩
      · rintro (missing | ⟨error, failed⟩)
        · exact .noElement id name value missing
        · split at failed
          · next style => exact .attributeColor id name value error style failed
          · rw [ofInline_nil] at failed
            cases failed
      · cases fails with
        | noElement _ _ _ missing => exact .inl missing
        | attributeColor _ _ _ error style failed =>
            exact .inr ⟨error, by rw [if_pos style]; exact failed⟩
  | setInlineStyle id text =>
      refine (map_eq_error_iff.trans inlineStyle_eq_error_iff).trans ⟨?_, fun fails => ?_⟩
      · rintro (missing | ⟨error, failed⟩)
        · exact .noStyled id text missing
        · exact .inlineColor id text error failed
      · cases fails with
        | noStyled _ _ missing => exact .inl missing
        | inlineColor _ _ error failed => exact .inr ⟨error, failed⟩
  | restyle id declared computed =>
      refine ⟨?_, fun fails => ?_⟩
      · rintro ⟨error, failed⟩
        cases failed
      · cases fails

theorem attempt_of_fails {change : Edit} (fails : change.Fails doc) :
    doc.attempt change = doc := by
  obtain ⟨error, failed⟩ := edit_eq_error_iff.2 fails
  rw [attempt, failed]
  rfl

end Failing

section Counting

variable {doc : Document}

theorem content_of_tag? {id : NodeId} {tag : String} (own : doc.tag? id = some tag) :
    doc.content id = .element tag := by
  rw [tag?_eq_content] at own
  cases kind : doc.content id with
  | element name =>
      rw [kind] at own
      cases own
      rfl
  | text value =>
      rw [kind] at own
      cases own

theorem content_of_not_isElement {id : NodeId} (text : doc.isElement id = false) :
    ∃ value, doc.content id = .text value := by
  rw [isElement_eq_content] at text
  cases kind : doc.content id with
  | element tag =>
      rw [kind] at text
      cases text
  | text value => exact ⟨value, rfl⟩

def elementsAmong (doc : Document) (ids : List NodeId) : List NodeId :=
  ids.filter doc.isElement

def withTagAmong (doc : Document) (tag : String) (ids : List NodeId) : List NodeId :=
  ids.filter fun id => doc.tag? id = some tag

theorem elements_tallyOf (children : List NodeId) :
    (doc.tallyOf children).elements = (doc.elementsAmong children).length := by
  induction children using List.reverseRecOn with
  | nil => rfl
  | append_singleton children child ih =>
      rw [tallyOf_concat, elementsAmong, List.filter_append, List.length_append]
      cases kind : doc.content child with
      | element tag =>
          have element : doc.isElement child := by rw [isElement_eq_content, kind]; rfl
          simp [element, Tally.count, Tally.place, ih, elementsAmong]
      | text value =>
          have text : doc.isElement child = false := by rw [isElement_eq_content, kind]; rfl
          simp [text, Tally.count, Tally.place, ih, elementsAmong]

theorem types_tallyOf (tag : String) (children : List NodeId) :
    (doc.tallyOf children).types.get? tag =
      if doc.withTagAmong tag children = [] then none
      else some (doc.withTagAmong tag children).length := by
  induction children using List.reverseRecOn with
  | nil => rfl
  | append_singleton children child ih =>
      rw [tallyOf_concat, withTagAmong, List.filter_append, ← withTagAmong]
      cases kind : doc.content child with
      | element name =>
          have own : doc.tag? child = some name := by rw [tag?_eq_content, kind]; rfl
          by_cases same : name = tag
          · subst same
            have before : ((doc.tallyOf children).types.get? name).getD 0 =
                (doc.withTagAmong name children).length := by
              rw [ih]
              split
              · next empty => rw [empty]; rfl
              · rfl
            simp [Tally.count, Tally.place, Dictionary.get?_insert, own, before]
          · simp [Tally.count, Tally.place, Dictionary.get?_insert, own, same, Ne.symm same, ih]
      | text value =>
          have own : doc.tag? child = none := by rw [tag?_eq_content, kind]; rfl
          simp [Tally.count, Tally.place, own, ih]

end Counting

/-- What an element keeps about its place is what the children of its parent come to. -/
structure Recounted (doc : Document) (id : NodeId) (tag : String) (before after : List NodeId) :
    Prop where
  childIndex : (doc.position id).childIndex = before.length
  elementIndex : (doc.position id).elementIndex = (doc.elementsAmong before).length
  previous : doc.previousElement? id = (doc.elementsAmong before).getLast?
  preceding : doc.precedingElements id = (doc.elementsAmong before).reverse
  siblings : doc.elementSiblingCount id = (doc.elementsAmong (before ++ id :: after)).length
  typePosition : doc.typePosition id = (doc.withTagAmong tag before).length + 1
  typeCount : doc.typeCount id = (doc.withTagAmong tag (before ++ id :: after)).length

/-- What a node without a place among elements keeps. -/
structure Unplaced (doc : Document) (id : NodeId) : Prop where
  elementIndex : (doc.position id).elementIndex = 0
  previous : doc.previousElement? id = none
  preceding : doc.precedingElements id = []
  typePosition : doc.typePosition id = 1
  typeCount : doc.typeCount id = 1

namespace Consistent

variable {doc : Document} (h : doc.Consistent)

include h

theorem parent?_of_split {p id : NodeId} {before after : List NodeId}
    (split : doc.children p = before ++ id :: after) : doc.parent? id = some p :=
  (h.listed id p).2 (by simp [split])

theorem childIndex_of_split {p id : NodeId} {before after : List NodeId}
    (split : doc.children p = before ++ id :: after) :
    (doc.position id).childIndex = before.length := by
  rw [h.placed p before id after split]
  cases doc.content id <;> rfl

theorem siblings_of_split {p id : NodeId} {before after : List NodeId}
    (split : doc.children p = before ++ id :: after) :
    doc.elementSiblingCount id = (doc.elementsAmong (before ++ id :: after)).length := by
  rw [elementSiblingCount, h.parent?_of_split split]
  simp only [h.tallied, split]
  exact elements_tallyOf _

theorem recounted_of_split {p id : NodeId} {tag : String} {before after : List NodeId}
    (split : doc.children p = before ++ id :: after) (own : doc.tag? id = some tag) :
    doc.Recounted id tag before after where
  childIndex := h.childIndex_of_split split
  elementIndex := by
    rw [h.placed p before id after split, content_of_tag? own]
    exact elements_tallyOf before
  previous := by
    rw [h.previousElement?_of_split split, if_pos (by rw [isElement, own]; rfl)]
    rfl
  preceding := h.precedingElements_of_split split (by rw [isElement, own]; rfl)
  siblings := h.siblings_of_split split
  typePosition := by
    rw [typePosition, h.placed p before id after split, content_of_tag? own]
    simp only [Tally.place, types_tallyOf]
    split
    · next empty => rw [empty]; rfl
    · rfl
  typeCount := by
    have member : doc.withTagAmong tag (before ++ id :: after) ≠ [] := by
      simp [withTagAmong, own]
    simp only [typeCount, h.parent?_of_split split, own, h.tallied, split]
    rw [types_tallyOf, if_neg member]
    rfl

theorem unplaced_of_text {id : NodeId} (text : doc.isElement id = false) : doc.Unplaced id := by
  obtain ⟨value, content⟩ := content_of_not_isElement text
  have place : (doc.position id).elementIndex = 0 ∧ (doc.position id).typeIndex = 0 ∧
      (doc.position id).previousElement = none := by
    cases parent : doc.parent? id with
    | none => rw [h.unplaced id parent]; exact ⟨rfl, rfl, rfl⟩
    | some p =>
        obtain ⟨before, after, split⟩ := h.exists_split parent
        rw [h.placed p before id after split, content]
        exact ⟨rfl, rfl, rfl⟩
  refine ⟨place.1, place.2.2, precedingElements_of_first place.2.2, ?_, ?_⟩
  · rw [typePosition, place.2.1]
  · have tag : doc.tag? id = none := by rw [tag?_eq_content, content]; rfl
    unfold typeCount
    rw [tag]
    split <;> simp_all

theorem unplaced_of_root {id : NodeId} (root : doc.parent? id = none) : doc.Unplaced id := by
  have place := h.unplaced id root
  have previous : doc.previousElement? id = none := by rw [previousElement?, place]
  refine ⟨by rw [place], previous, precedingElements_of_first previous, ?_, ?_⟩
  · rw [typePosition, place]
  · unfold typeCount
    rw [root]

/-- A node that is not the root stands once among the children of one parent. -/
theorem count_children {id p : NodeId} (parent : doc.parent? id = some p) (q : NodeId) :
    (doc.children q).count id = if q = p then 1 else 0 := by
  split
  · next same =>
      subst same
      exact List.count_eq_one_of_mem (h.distinct q) ((h.listed id q).1 parent)
  · next other =>
      refine List.count_eq_zero.2 fun member => other ?_
      have also := (h.listed id q).2 member
      rw [parent] at also
      exact (Option.some.inj also).symm

theorem exists_parent {id : NodeId} (bound : id < doc.size) (other : id ≠ 0) :
    ∃ p, doc.parent? id = some p := by
  cases parent : doc.parent? id with
  | none => exact absurd (h.rooted id bound parent) other
  | some p => exact ⟨p, rfl⟩

theorem elementIndex_lt {id : NodeId} (element : doc.isElement id) :
    (doc.position id).elementIndex < doc.elementSiblingCount id := by
  cases parent : doc.parent? id with
  | none =>
      rw [h.unplaced id parent, elementSiblingCount, parent]
      exact Nat.one_pos
  | some p =>
      obtain ⟨before, after, split⟩ := h.exists_split parent
      obtain ⟨tag, own⟩ := Option.isSome_iff_exists.1 element
      have counts := h.recounted_of_split split own
      rw [counts.elementIndex, counts.siblings]
      simp [elementsAmong, element]

theorem typePosition_le {id : NodeId} : doc.typePosition id ≤ doc.typeCount id := by
  cases parent : doc.parent? id with
  | none =>
      have unplaced := h.unplaced_of_root parent
      rw [unplaced.typePosition, unplaced.typeCount]
  | some p =>
      cases own : doc.tag? id with
      | none =>
          have unplaced := h.unplaced_of_text (by rw [isElement, own]; rfl)
          rw [unplaced.typePosition, unplaced.typeCount]
      | some tag =>
          obtain ⟨before, after, split⟩ := h.exists_split parent
          have counts := h.recounted_of_split split own
          rw [counts.typePosition, counts.typeCount]
          simp [withTagAmong, own]

end Consistent

section Order

variable {doc : Document}

theorem sublist_subtree {id child : NodeId} (listed : child ∈ doc.children id) :
    (doc.subtree child).Sublist (doc.subtree id) := by
  rw [subtree_eq doc id]
  rw [List.flatMap_def]
  exact (List.sublist_flatten_of_mem (List.mem_map_of_mem listed)).cons id

theorem pair_sublist_subtree {id p child : NodeId} (member : p ∈ doc.subtree id)
    (listed : child ∈ doc.children p) : [p, child].Sublist (doc.subtree id) := by
  induction id using subtree.induct doc with
  | case1 id ih =>
      rw [subtree_eq] at member
      rcases List.mem_cons.1 member with rfl | below
      · rw [subtree_eq]
        refine List.Sublist.cons_cons p (List.singleton_sublist.2 (List.mem_flatMap.2 ?_))
        exact ⟨child, listed, by rw [subtree_eq]; exact List.mem_cons_self⟩
      · obtain ⟨top, above, inside⟩ := List.mem_flatMap.1 below
        exact (ih top above inside).trans (sublist_subtree above)

theorem Consistent.pair_sublist_preorder (h : doc.Consistent) {id p : NodeId}
    (parent : doc.parent? id = some p) : [p, id].Sublist doc.preorder := by
  have listed := (h.listed id p).1 parent
  have bound : p < doc.size := Nat.lt_trans (children_range listed).1 (children_range listed).2
  have inside := h.mem_preorder.2 bound
  have positive : 0 < doc.size := Nat.lt_of_le_of_lt (Nat.zero_le p) bound
  rw [preorder_eq_subtree_root positive] at inside ⊢
  exact pair_sublist_subtree inside listed

end Order

/-- What can be asked of a tree about its links, places and order is what its lists of children say,
and an edit that fails leaves all of it alone. -/
structure Bookkept (doc : Document) : Prop where
  listed : ∀ id p, doc.parent? id = some p ↔ id ∈ doc.children p
  root : ∀ p, 0 ∉ doc.children p
  once : ∀ id, id < doc.size → id ≠ 0 →
    ∃ p, p < id ∧ doc.parent? id = some p ∧
      ∀ q, (doc.children q).count id = if q = p then 1 else 0
  childIndex : ∀ p before id after, doc.children p = before ++ id :: after →
    (doc.position id).childIndex = before.length
  siblings : ∀ p before id after, doc.children p = before ++ id :: after →
    doc.elementSiblingCount id = (doc.elementsAmong (doc.children p)).length
  element : ∀ p before id after tag, doc.children p = before ++ id :: after →
    doc.tag? id = some tag → doc.Recounted id tag before after
  text : ∀ id, doc.isElement id = false → doc.Unplaced id
  rootPlace : doc.Unplaced 0 ∧ (doc.position 0).childIndex = 0 ∧ doc.elementSiblingCount 0 = 1
  elementIndex_lt : ∀ id, doc.isElement id →
    (doc.position id).elementIndex < doc.elementSiblingCount id
  typePosition_le : ∀ id, 1 ≤ doc.typePosition id ∧ doc.typePosition id ≤ doc.typeCount id
  preorder : doc.preorder = doc.root?.toList.flatMap doc.subtree
  subtree : ∀ id, doc.subtree id = id :: (doc.children id).flatMap doc.subtree
  visited : doc.preorder.Perm doc.ids
  parentsFirst : ∀ id p, doc.parent? id = some p → [p, id].Sublist doc.preorder
  fails : ∀ change, (∃ error, doc.edit change = .error error) ↔ change.Fails doc
  kept : ∀ change, change.Fails doc → doc.attempt change = doc

theorem parent?_zero (doc : Document) : doc.parent? 0 = none := by
  cases parent : doc.parent? 0 with
  | none => rfl
  | some p => exact absurd (parent?_lt parent) (Nat.not_lt_zero p)

/-- Every tree made by edits, some of which may have failed, keeps its books. -/
theorem bookkept_ofEdits (edits : List Edit) : (ofEdits edits).Bookkept := by
  have h := consistent_ofEdits edits
  have top := (ofEdits edits).parent?_zero
  refine
    { listed := h.listed
      root := fun p member => Nat.not_lt_zero p (children_range member).1
      once := fun id bound other => ?_
      childIndex := fun p before id after => h.childIndex_of_split
      siblings := fun p before id after split => ?_
      element := fun p before id after tag => h.recounted_of_split
      text := fun id => h.unplaced_of_text
      rootPlace := ⟨h.unplaced_of_root top, by rw [h.unplaced 0 top], ?_⟩
      elementIndex_lt := fun id => h.elementIndex_lt
      typePosition_le := fun id => ⟨Nat.le_add_left 1 _, h.typePosition_le⟩
      preorder := preorder_eq_subtree _
      subtree := subtree_eq _
      visited := h.preorder_perm_ids
      parentsFirst := fun id p => h.pair_sublist_preorder
      fails := fun change => edit_eq_error_iff
      kept := fun change => attempt_of_fails }
  · obtain ⟨p, parent⟩ := h.exists_parent bound other
    exact ⟨p, parent?_lt parent, parent, h.count_children parent⟩
  · rw [h.siblings_of_split split, split]
  · rw [elementSiblingCount, top]

/-- A text after an element keeps no element before it, and a text alone is not placed below the number
of elements. -/
theorem unplaced_text :
    (¬∀ edits p before id after, (ofEdits edits).children p = before ++ id :: after →
      (ofEdits edits).previousElement? id = ((ofEdits edits).elementsAmong before).getLast?) ∧
      ¬∀ edits id, id < (ofEdits edits).size →
        ((ofEdits edits).position id).elementIndex < (ofEdits edits).elementSiblingCount id := by
  constructor
  · intro all
    have claim := all [.addElement none "p", .addElement (some 0) "a", .addText 0 "t",
      .addElement (some 0) "b"] 0 [1] 2 [3] (by decide +kernel)
    revert claim
    decide +kernel
  · intro all
    have claim := all [.addElement none "p", .addText 0 "t"] 1 (by decide +kernel)
    revert claim
    decide +kernel

end Document

end ComputedStyle
