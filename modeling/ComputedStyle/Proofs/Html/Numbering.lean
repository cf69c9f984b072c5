import ComputedStyle.Proofs.Document.Attributes
import ComputedStyle.Proofs.Document.Order
import ComputedStyle.Proofs.Html.Copy

/-!
A page is a copy of what its markup shows.

A node is added before what is below it and after what stands before it, so the numbers of the copies
are their places in document order: a copy that starts at a number takes as many numbers as it has
nodes (`Document.IsCopy`). What is added later changes none of them but the parent, in its list of
children (`Document.Adds`). Only a style that cannot be read stops the copying.
-/

namespace ComputedStyle

namespace Html.Markup

mutual
/-- The values of the attribute `style` in a node and below it. -/
def styles : Markup → List String
  | element _ attributes children =>
      valuesOf "style" (attributes.map fun (name, value) => (name.toLower, value)) ++
        stylesOfAll children
  | text _ => []
  | comment => []

def stylesOfAll : List Markup → List String
  | [] => []
  | node :: rest => styles node ++ stylesOfAll rest
end

theorem stylesOfAll_append (nodes rest : List Markup) :
    stylesOfAll (nodes ++ rest) = stylesOfAll nodes ++ stylesOfAll rest := by
  induction nodes with
  | nil => rfl
  | cons node nodes ih => rw [List.cons_append, stylesOfAll, stylesOfAll, ih, List.append_assoc]

theorem exists_shown {root : Markup} (element : root.isElement) : ∃ kept, root.shown = [kept] := by
  cases root with
  | element name attributes children => exact ⟨_, rfl⟩
  | text value => cases element
  | comment => cases element

end Html.Markup

open Html

/-- A node as it is made, with attributes set in this order. -/
structure Node.IsMade (node : Node) (content : Content) (attributes : List (String × String)) :
    Prop where
  content : node.content = content
  keeps : node.Keeps (attributes.map fun (name, value) => (name.toLower, value))
  gathers : node.Gathers (attributes.map fun (name, value) => (name.toLower, value))
  computed : node.computed = .empty

namespace Document

/-- The numbers of nodes that follow each other with all that is below them. -/
def offsets (start : NodeId) : List Markup → List NodeId
  | [] => []
  | node :: rest => start :: offsets (start + node.size) rest

theorem offsets_append (start : NodeId) (nodes rest : List Markup) :
    offsets start (nodes ++ rest) =
      offsets start nodes ++ offsets (start + Markup.sizeOfAll nodes) rest := by
  induction nodes generalizing start with
  | nil => rfl
  | cons node nodes ih =>
      rw [List.cons_append, offsets, offsets, ih, Markup.sizeOfAll, Nat.add_assoc, List.cons_append]

def HasMade (doc : Document) (id : NodeId) (content : Content)
    (attributes : List (String × String)) : Prop :=
  ∃ node, doc.node? id = some node ∧ node.IsMade content attributes

mutual
/-- What a tree has at a node and below it is a copy of this one, numbered in document order. -/
def IsCopy (doc : Document) (id : NodeId) : Markup → Prop
  | .element name attributes children =>
      doc.HasMade id (.element name.toLower) attributes ∧
        doc.children id = offsets (id + 1) children ∧ AreCopies doc (id + 1) children
  | .text value => doc.HasMade id (.text value) [] ∧ doc.children id = []
  | .comment => False

def AreCopies (doc : Document) (start : NodeId) : List Markup → Prop
  | [] => True
  | node :: rest => IsCopy doc start node ∧ AreCopies doc (start + node.size) rest
end

theorem areCopies_append {doc : Document} {start : NodeId} {nodes rest : List Markup} :
    doc.AreCopies start (nodes ++ rest) ↔
      doc.AreCopies start nodes ∧ doc.AreCopies (start + Markup.sizeOfAll nodes) rest := by
  induction nodes generalizing start with
  | nil => simp [AreCopies, Markup.sizeOfAll]
  | cons node nodes ih =>
      rw [List.cons_append, AreCopies, AreCopies, ih, Markup.sizeOfAll, Nat.add_assoc, and_assoc]

theorem HasMade.congr {doc next : Document} {id : NodeId} {content : Content}
    {attributes : List (String × String)} (same : next.node? id = doc.node? id)
    (made : doc.HasMade id content attributes) : next.HasMade id content attributes := by
  obtain ⟨node, found, made⟩ := made
  exact ⟨node, same.trans found, made⟩

theorem children_congr {doc next : Document} {id : NodeId} (same : next.node? id = doc.node? id) :
    next.children id = doc.children id := by
  rw [children, children, same]

/-! A copy stays one in a tree that has the same nodes in its place. -/

mutual
theorem IsCopy.congr : ∀ {node : Markup} {doc next : Document} {id : Nat},
    (∀ other : Nat, id ≤ other → other < id + node.size → next.node? other = doc.node? other) →
      doc.IsCopy id node → next.IsCopy id node
  | .element name attributes children, doc, next, id, same, copy => by
      obtain ⟨made, listed, below⟩ := copy
      have own := same id (Nat.le_refl id) (by rw [Markup.size]; omega)
      refine ⟨made.congr own, (children_congr own).trans listed, ?_⟩
      refine AreCopies.congr (fun other lower upper => ?_) below
      exact same other (by omega) (by rw [Markup.size]; omega)
  | .text value, doc, next, id, same, copy => by
      obtain ⟨made, leaf⟩ := copy
      have own := same id (Nat.le_refl id) (by rw [Markup.size]; omega)
      exact ⟨made.congr own, (children_congr own).trans leaf⟩
  | .comment, doc, next, id, same, copy => copy

theorem AreCopies.congr : ∀ {nodes : List Markup} {doc next : Document} {start : Nat},
    (∀ other : Nat, start ≤ other → other < start + Markup.sizeOfAll nodes →
      next.node? other = doc.node? other) →
      doc.AreCopies start nodes → next.AreCopies start nodes
  | [], doc, next, start, same, copies => trivial
  | node :: rest, doc, next, start, same, copies => by
      obtain ⟨first, later⟩ := copies
      rw [Markup.sizeOfAll] at same
      refine ⟨first.congr fun other lower upper => ?_, later.congr fun other lower upper => ?_⟩
      · exact same other lower (by omega)
      · exact same other (by omega) (by omega)
end

mutual
theorem IsCopy.subtree_eq_range : ∀ {node : Markup} {doc : Document} {id : NodeId},
    doc.IsCopy id node → doc.subtree id = List.range' id node.size
  | .element name attributes children, doc, id, copy => by
      obtain ⟨-, listed, below⟩ := copy
      rw [subtree_eq, listed, below.flatMap_subtree, Markup.size, List.range'_succ]
  | .text value, doc, id, copy => by
      obtain ⟨-, leaf⟩ := copy
      rw [subtree_eq, leaf]
      rfl
  | .comment, doc, id, copy => copy.elim

theorem AreCopies.flatMap_subtree : ∀ {nodes : List Markup} {doc : Document} {start : NodeId},
    doc.AreCopies start nodes →
      (offsets start nodes).flatMap doc.subtree = List.range' start (Markup.sizeOfAll nodes)
  | [], doc, start, copies => rfl
  | node :: rest, doc, start, copies => by
      obtain ⟨first, later⟩ := copies
      rw [offsets, List.flatMap_cons, first.subtree_eq_range, later.flatMap_subtree,
        Markup.sizeOfAll, List.range'_append_1]
end

theorem add_some_eq_ok {doc next : Document} {p : NodeId} {content : Content} :
    doc.add (some p) content = .ok next ↔ ∃ bound, next = doc.append p content bound := by
  simp only [add]
  split
  · next bound => simp [bound, eq_comm]
  · next outside => simp [outside]

theorem add_none_eq_ok {doc next : Document} {content : Content} :
    doc.add none content = .ok next ↔ doc.isEmpty ∧ next = ofRoot content := by
  rw [add]
  split
  · next empty =>
      simp only [empty, true_and]
      exact ⟨fun made => (Except.ok.inj made).symm, fun made => congrArg Except.ok made.symm⟩
  · next taken => simp [taken]

theorem isMade_fresh (content : Content) (links : Links) :
    Node.IsMade { content, links } content [] :=
  ⟨rfl, Node.keeps_fresh content links, Node.gathers_fresh content links, rfl⟩

theorem hasMade_ofRoot (content : Content) : (ofRoot content).HasMade 0 content [] :=
  ⟨_, node?_ofRoot content 0, isMade_fresh content _⟩

section Append

variable {doc : Document} {p : NodeId} {content : Content} {bound : p < doc.nodes.size}

theorem hasMade_append : (doc.append p content bound).HasMade doc.size content [] :=
  ⟨_, (node?_append doc.size).trans (if_pos rfl), isMade_fresh content _⟩

theorem HasMade.append {id : NodeId} {other : Content} {attributes : List (String × String)}
    (made : doc.HasMade id other attributes) :
    (doc.append p content bound).HasMade id other attributes := by
  obtain ⟨node, found, made⟩ := made
  have old : id ≠ doc.size := by
    intro fresh
    rw [node?_eq_none fresh.ge] at found
    cases found
  by_cases same : id = p
  · subst same
    refine ⟨_, (node?_append id).trans ((if_neg old).trans ((if_pos rfl).trans (by rw [found]; rfl))), ?_⟩
    obtain ⟨names, values, classes⟩ := made.keeps
    exact ⟨made.content, ⟨names, values, classes⟩, made.gathers, made.computed⟩
  · refine ⟨node, ?_, made⟩
    rw [node?_append, if_neg old, if_neg same, found]

theorem node?_append_of_ne {id : NodeId} (old : id < doc.size) (other : id ≠ p) :
    (doc.append p content bound).node? id = doc.node? id := by
  rw [node?_append, if_neg (Nat.ne_of_lt old), if_neg other]

end Append

theorem children_of_size_le {doc : Document} {id : NodeId} (outside : doc.size ≤ id) :
    doc.children id = [] := by
  rw [children, node?_eq_none outside]
  rfl

theorem HasMade.setAttribute {doc next : Document} {id : NodeId} {content : Content}
    {attributes : List (String × String)} {name value : String}
    (made : doc.HasMade id content attributes) (set : doc.setAttribute id name value = .ok next) :
    next.HasMade id content (attributes ++ [(name, value)]) := by
  obtain ⟨node, found, own, keeps, gathers, computed⟩ := made
  obtain ⟨-, style, read, rfl⟩ := setAttribute_eq_ok.1 set
  refine ⟨setNodeAttribute name value style node, ?_, own, ?_, ?_, computed⟩
  · rw [node?_update, if_pos rfl, found]
    rfl
  · rw [List.map_append]
    exact keeps.setNodeAttribute name value style
  · rw [List.map_append]
    exact gathers.setNodeAttribute read

theorem HasMade.setAttributes {doc next : Document} {id : NodeId} {content : Content}
    {before attributes : List (String × String)} (made : doc.HasMade id content before)
    (set : doc.setAttributes id attributes = .ok next) :
    next.HasMade id content (before ++ attributes) := by
  induction attributes generalizing doc before with
  | nil =>
      cases set
      rwa [List.append_nil]
  | cons entry rest ih =>
      rw [Document.setAttributes, List.foldlM_cons, bind_eq_ok] at set
      obtain ⟨between, first, later⟩ := set
      rw [← List.singleton_append, ← List.append_assoc]
      exact ih (made.setAttribute first) later

/-- Two trees that differ in what one node keeps beside its links. -/
structure SameBut (id : NodeId) (doc next : Document) : Prop where
  size : next.size = doc.size
  children : ∀ p, next.children p = doc.children p
  others : ∀ other, other ≠ id → next.node? other = doc.node? other

theorem sameBut_setAttributes {doc next : Document} {id : NodeId}
    {attributes : List (String × String)} (set : doc.setAttributes id attributes = .ok next) :
    SameBut id doc next := by
  refine foldlM_ok_induction (motive := SameBut id doc) ?_ attributes
    ⟨rfl, fun _ => rfl, fun _ _ => rfl⟩ set
  intro state entry next same set
  obtain ⟨-, style, -, rfl⟩ := setAttribute_eq_ok.1 set
  refine ⟨size_update.trans same.size, fun p => (children_update p).trans (same.children p), ?_⟩
  intro other apart
  rw [node?_update, if_neg apart]
  exact same.others other apart

/-- What copies under a parent add to a tree: they take the next numbers, and of the nodes before
only the parent changes, in its list of children. -/
structure Adds (p : NodeId) (nodes : List Markup) (doc next : Document) : Prop where
  size : next.size = doc.size + Markup.sizeOfAll nodes
  listed : next.children p = doc.children p ++ offsets doc.size nodes
  kept : ∀ content attributes, doc.HasMade p content attributes → next.HasMade p content attributes
  others : ∀ id : Nat, id < doc.size → id ≠ p → next.node? id = doc.node? id
  copies : next.AreCopies doc.size nodes

namespace Adds

variable {p : NodeId} {doc between next : Document}

theorem refl (p : NodeId) (doc : Document) : Adds p [] doc doc where
  size := rfl
  listed := (List.append_nil _).symm
  kept _ _ made := made
  others _ _ _ := rfl
  copies := trivial

theorem trans {nodes rest : List Markup} (inside : p < doc.size) (first : Adds p nodes doc between)
    (later : Adds p rest between next) : Adds p (nodes ++ rest) doc next where
  size := by rw [later.size, first.size, Markup.sizeOfAll_append, Nat.add_assoc]
  listed := by
    rw [later.listed, first.listed, first.size, offsets_append, List.append_assoc]
  kept content attributes made := later.kept content attributes (first.kept content attributes made)
  others id old apart := by
    have wider : id < between.size := by rw [first.size]; exact Nat.lt_add_right _ old
    exact (later.others id wider apart).trans (first.others id old apart)
  copies := by
    refine areCopies_append.2 ⟨first.copies.congr fun other lower upper => ?_, ?_⟩
    · refine later.others other (first.size ▸ upper) ?_
      exact Nat.ne_of_gt (Nat.lt_of_lt_of_le inside lower)
    · rw [← first.size]
      exact later.copies

theorem isCopy {name : String} {attributes : List (String × String)} {children : List Markup}
    {id : NodeId} (below : Adds id children doc next) (last : doc.size = id + 1)
    (made : doc.HasMade id (.element name.toLower) attributes) (leaf : doc.children id = []) :
    next.IsCopy id (.element name attributes children) := by
  refine ⟨below.kept _ _ made, ?_, ?_⟩
  · rw [below.listed, leaf, last]
    rfl
  · rw [← last]
    exact below.copies

end Adds

theorem adds_element {name : String} {attributes : List (String × String)}
    {children : List Markup} {p : NodeId} {doc added ready next : Document} (inside : p < doc.size)
    (adds : doc.addElement (some p) name.toLower = .ok added)
    (sets : added.setAttributes doc.size attributes = .ok ready)
    (below : Adds doc.size children ready next) :
    Adds p [.element name attributes children] doc next := by
  obtain ⟨bound, rfl⟩ := add_some_eq_ok.1 adds
  rw [toLower_toLower] at sets
  have same := sameBut_setAttributes sets
  have last : ready.size = doc.size + 1 := same.size.trans size_append
  have apart : p ≠ doc.size := Nat.ne_of_lt inside
  have before : ∀ id : Nat, id < doc.size → next.node? id =
      (doc.append p (.element name.toLower) bound).node? id := by
    intro id old
    rw [below.others id (last ▸ Nat.lt_succ_of_lt old) (Nat.ne_of_lt old),
      same.others id (Nat.ne_of_lt old)]
  refine ⟨?_, ?_, ?_, ?_, ?_⟩
  · rw [below.size, last]
    simp only [Markup.sizeOfAll, Markup.size]
    omega
  · rw [children_congr (before p inside), children_append, if_pos rfl]
    rfl
  · intro content attributes made
    exact made.append.congr (before p inside)
  · intro id old other
    rw [before id old, node?_append_of_ne old other]
  · refine ⟨below.isCopy last (hasMade_append.setAttributes sets) ?_, trivial⟩
    rw [same.children, children_append, if_neg apart.symm, children_of_size_le (Nat.le_refl _)]

theorem adds_text {value : String} {p : NodeId} {doc next : Document} (inside : p < doc.size)
    (added : doc.addText p value = .ok next) : Adds p [.text value] doc next := by
  obtain ⟨bound, rfl⟩ := add_some_eq_ok.1 added
  have apart : p ≠ doc.size := Nat.ne_of_lt inside
  refine ⟨size_append, ?_, ?_, ?_, ⟨⟨hasMade_append, ?_⟩, trivial⟩⟩
  · rw [children_append, if_pos rfl]
    rfl
  · exact fun content attributes made => made.append
  · exact fun id old other => node?_append_of_ne old other
  · rw [children_append, if_neg apart.symm, children_of_size_le (Nat.le_refl _)]

theorem last_lt_size {doc added ready : Document} {p : NodeId} {tag : String}
    {attributes : List (String × String)} (adds : doc.addElement (some p) tag = .ok added)
    (sets : added.setAttributes doc.size attributes = .ok ready) : doc.size < ready.size := by
  obtain ⟨bound, rfl⟩ := add_some_eq_ok.1 adds
  rw [(sameBut_setAttributes sets).size, size_append]
  exact Nat.lt_succ_self _

mutual
theorem adds_shown : ∀ {node : Markup} {p : NodeId} {doc next : Document}, p < doc.size →
    node.shown.foldlM (copy (some p)) doc = .ok next → Adds p node.shown doc next
  | .element name attributes children, p, doc, next, inside, copied => by
      simp only [Markup.shown, List.foldlM_cons, List.foldlM_nil, bind_pure, copy,
        bind_eq_ok] at copied
      obtain ⟨added, adds, ready, sets, copied⟩ := copied
      rw [Markup.shown]
      refine adds_element inside adds sets ?_
      split at copied
      · next hidden =>
          cases copied
          rw [if_pos hidden]
          exact .refl _ _
      · next shown =>
          rw [if_neg shown]
          exact adds_shownAll (last_lt_size adds sets) copied
  | .text value, p, doc, next, inside, copied => by
      rw [Markup.shown] at copied ⊢
      split
      · next blank =>
          rw [if_pos blank] at copied
          cases copied
          exact .refl p doc
      · next visible =>
          simp only [if_neg visible, List.foldlM_cons, List.foldlM_nil, bind_pure, copy] at copied
          exact adds_text inside copied
  | .comment, p, doc, next, inside, copied => by
      cases copied
      exact .refl p doc

theorem adds_shownAll : ∀ {nodes : List Markup} {p : NodeId} {doc next : Document}, p < doc.size →
    copyAll p doc (Markup.shownAll nodes) = .ok next → Adds p (Markup.shownAll nodes) doc next
  | [], p, doc, next, inside, copied => by
      cases copied
      exact .refl p doc
  | node :: rest, p, doc, next, inside, copied => by
      rw [copyAll_eq_foldlM, Markup.shownAll, List.foldlM_append, bind_eq_ok] at copied
      obtain ⟨between, first, later⟩ := copied
      rw [← copyAll_eq_foldlM] at later
      have own := adds_shown inside first
      have wider : p < between.size := by
        rw [own.size]
        exact Nat.lt_add_right _ inside
      exact own.trans inside (adds_shownAll wider later)
end

theorem isCopy_ofMarkup {root : Markup} {doc : Document} (element : root.isElement)
    (made : ofMarkup root = .ok doc) :
    ∃ kept, root.shown = [kept] ∧ doc.IsCopy 0 kept ∧ doc.size = kept.size := by
  cases root with
  | element name attributes children =>
      simp only [ofMarkup, copyShown, Markup.shown_element, List.foldlM_cons, List.foldlM_nil,
        bind_pure, copy, bind_eq_ok] at made
      obtain ⟨added, adds, ready, sets, copied⟩ := made
      obtain ⟨-, rfl⟩ := add_none_eq_ok.1 adds
      rw [toLower_toLower] at sets
      have same := sameBut_setAttributes sets
      have inside : 0 < ready.size := by
        rw [same.size]
        exact Nat.zero_lt_one
      have below := adds_shownAll inside copied
      refine ⟨_, Markup.shown_element .., below.isCopy same.size ((hasMade_ofRoot _).setAttributes sets) ?_, ?_⟩
      · rw [same.children, children_ofRoot]
      · rw [below.size, same.size, Markup.size]
        exact Nat.add_comm _ _
  | text value => cases element
  | comment => cases element

theorem Consistent.setAttributes {doc next : Document} {id : NodeId}
    {attributes : List (String × String)} (h : doc.Consistent)
    (set : doc.setAttributes id attributes = .ok next) : next.Consistent := by
  refine foldlM_ok_induction (motive := Consistent) ?_ attributes h set
  exact fun state entry next holds set => holds.step (step_setAttribute set)

mutual
theorem Consistent.copy : ∀ {node : Markup} {doc next : Document} {parent : Option NodeId},
    doc.Consistent → copy parent doc node = .ok next → next.Consistent
  | .element name attributes children, doc, next, parent, h, copied => by
      simp only [Document.copy, bind_eq_ok] at copied
      obtain ⟨added, adds, ready, sets, copied⟩ := copied
      have own := h.step (step_add (Content.isLower_element _) adds)
      exact (own.setAttributes sets).copyAll copied
  | .text value, doc, next, none, h, copied => by
      cases copied
      exact h
  | .text value, doc, next, some p, h, copied => by
      have added : doc.add (some p) (.text value) = .ok next := copied
      exact h.step (step_add (Content.isLower_text value) added)
  | .comment, doc, next, parent, h, copied => by
      cases copied
      exact h

theorem Consistent.copyAll : ∀ {nodes : List Markup} {doc next : Document} {parent : NodeId},
    doc.Consistent → copyAll parent doc nodes = .ok next → next.Consistent
  | [], doc, next, parent, h, copied => by
      cases copied
      exact h
  | node :: rest, doc, next, parent, h, copied => by
      simp only [Document.copyAll, bind_eq_ok] at copied
      obtain ⟨between, own, copied⟩ := copied
      exact (h.copy own).copyAll copied
end

theorem consistent_ofMarkup {root : Markup} {doc : Document} (made : ofMarkup root = .ok doc) :
    doc.Consistent :=
  foldlM_ok_induction (motive := Consistent) (fun _ _ _ holds copied => holds.copy copied) _
    consistent_empty made

/-! Only a style that cannot be read stops the copying. -/

/-- The color error of one of these styles. -/
def Unreadable (styles : List String) (error : DocumentError) : Prop :=
  ∃ value ∈ styles, ∃ cause, StyleMap.ofInline value = .error cause ∧ error = .color cause

theorem Unreadable.mono {styles others : List String} {error : DocumentError}
    (sub : styles ⊆ others) (unreadable : Unreadable styles error) : Unreadable others error := by
  obtain ⟨value, member, failed⟩ := unreadable
  exact ⟨value, sub member, failed⟩

theorem of_setAttribute_eq_error {doc : Document} {id : NodeId} {name value : String}
    {error : DocumentError} (inside : id < doc.size)
    (failed : doc.setAttribute id name value = .error error) :
    name.toLower = "style" ∧
      ∃ cause, StyleMap.ofInline value = .error cause ∧ error = .color cause := by
  simp only [setAttribute, bind_eq_error, inlineStyle, if_pos inside] at failed
  rcases failed with failed | ⟨style, -, failed⟩
  · split at failed
    · next same =>
        cases read : StyleMap.ofInline value with
        | error cause =>
            rw [read] at failed
            cases failed
            exact ⟨same, cause, rfl, rfl⟩
        | ok style =>
            rw [read] at failed
            cases failed
    · rw [ofInline_nil] at failed
      cases failed
  · cases failed

theorem unreadable_setAttributes {doc : Document} {id : NodeId}
    {attributes : List (String × String)} {error : DocumentError} (inside : id < doc.size)
    (failed : doc.setAttributes id attributes = .error error) :
    Unreadable (valuesOf "style" (attributes.map fun (name, value) => (name.toLower, value)))
      error := by
  obtain ⟨before, ⟨name, value⟩, after, state, rfl, run, failed⟩ := foldlM_eq_error failed
  have bound : id < state.size := (sameBut_setAttributes run).size ▸ inside
  obtain ⟨same, cause, read, rfl⟩ := of_setAttribute_eq_error bound failed
  refine ⟨value, ?_, cause, read, rfl⟩
  simp [valuesOf, same]

theorem size_addElement {doc added : Document} {parent : Option NodeId} {tag : String}
    (adds : doc.addElement parent tag = .ok added) : added.size = doc.size + 1 := by
  rcases add_cases adds with ⟨empty, rfl⟩ | ⟨p, bound, rfl⟩
  · have zero : doc.size = 0 := by simpa [isEmpty, size] using empty
    rw [zero]
    rfl
  · exact size_append

theorem unreadable_element {name : String} {attributes : List (String × String)}
    {children : List Markup} {parent : Option NodeId} {doc added : Document}
    {error : DocumentError} (adds : doc.addElement parent name.toLower = .ok added)
    (failed : copy parent doc (.element name attributes children) = .error error)
    (below : ∀ ready : Document, doc.size < ready.size →
      copyAll doc.size ready children = .error error →
        Unreadable (Markup.stylesOfAll children) error) :
    Unreadable (Markup.styles (.element name attributes children)) error := by
  have fresh : doc.size < added.size := by
    rw [size_addElement adds]
    exact Nat.lt_succ_self _
  rw [copy, adds] at failed
  have after : (added.setAttributes doc.size attributes >>= fun ready =>
      copyAll doc.size ready children) = .error error := failed
  rcases bind_eq_error.1 after with failed | ⟨ready, sets, failed⟩
  · exact (unreadable_setAttributes fresh failed).mono (List.subset_append_left _ _)
  · rw [← (sameBut_setAttributes sets).size] at fresh
    exact (below ready fresh failed).mono (List.subset_append_right _ _)

theorem exists_add {doc : Document} {p : NodeId} (inside : p < doc.size) (content : Content) :
    ∃ added, doc.add (some p) content = .ok added :=
  ⟨doc.append p content inside, add_some_eq_ok.2 ⟨inside, rfl⟩⟩

mutual
theorem unreadable_shown : ∀ {node : Markup} {p : NodeId} {doc : Document} {error : DocumentError},
    p < doc.size → node.shown.foldlM (copy (some p)) doc = .error error →
      Unreadable (Markup.stylesOfAll node.shown) error
  | .element name attributes children, p, doc, error, inside, failed => by
      simp only [Markup.shown, List.foldlM_cons, List.foldlM_nil, bind_pure] at failed
      obtain ⟨added, adds⟩ := exists_add inside (.element name.toLower.toLower)
      rw [Markup.shown, Markup.stylesOfAll, Markup.stylesOfAll, List.append_nil]
      refine unreadable_element adds failed fun ready fresh failed => ?_
      split at failed
      · cases failed
      · next shown =>
          rw [if_neg shown]
          exact unreadable_shownAll fresh failed
  | .text value, p, doc, error, inside, failed => by
      rw [Markup.shown] at failed
      split at failed
      · cases failed
      · obtain ⟨added, adds⟩ := exists_add inside (.text value)
        simp only [List.foldlM_cons, List.foldlM_nil, bind_pure, copy, addText, adds] at failed
        cases failed
  | .comment, p, doc, error, inside, failed => by cases failed

theorem unreadable_shownAll : ∀ {nodes : List Markup} {p : NodeId} {doc : Document}
    {error : DocumentError}, p < doc.size →
    copyAll p doc (Markup.shownAll nodes) = .error error →
      Unreadable (Markup.stylesOfAll (Markup.shownAll nodes)) error
  | [], p, doc, error, inside, failed => by cases failed
  | node :: rest, p, doc, error, inside, failed => by
      rw [copyAll_eq_foldlM, Markup.shownAll, List.foldlM_append, bind_eq_error] at failed
      rw [Markup.shownAll, Markup.stylesOfAll_append]
      rcases failed with first | ⟨between, first, later⟩
      · exact (unreadable_shown inside first).mono (List.subset_append_left _ _)
      · rw [← copyAll_eq_foldlM] at later
        have wider : p < between.size := by
          rw [(adds_shown inside first).size]
          exact Nat.lt_add_right _ inside
        exact (unreadable_shownAll wider later).mono (List.subset_append_right _ _)
end

theorem unreadable_ofMarkup {root : Markup} {error : DocumentError} (element : root.isElement)
    (failed : ofMarkup root = .error error) :
    Unreadable (Markup.stylesOfAll root.shown) error := by
  cases root with
  | element name attributes children =>
      simp only [ofMarkup, copyShown, Markup.shown_element, List.foldlM_cons, List.foldlM_nil,
        bind_pure] at failed
      rw [Markup.shown_element, Markup.stylesOfAll, Markup.stylesOfAll, List.append_nil]
      have adds : empty.addElement none name.toLower = .ok _ := add_none_eq_ok.2 ⟨rfl, rfl⟩
      exact unreadable_element adds failed fun ready fresh failed =>
        unreadable_shownAll fresh failed
  | text value => cases element
  | comment => cases element

theorem HasMade.read_styles {doc : Document} {id : NodeId} {content : Content}
    {attributes : List (String × String)} (made : doc.HasMade id content attributes)
    {value : String}
    (member : value ∈ valuesOf "style" (attributes.map fun (name, value) => (name.toLower, value))) :
    ∃ style, StyleMap.ofInline value = .ok style := by
  obtain ⟨node, -, made⟩ := made
  obtain ⟨styles, all, -⟩ := made.gathers
  obtain ⟨i, bound, rfl⟩ := List.getElem_of_mem member
  obtain ⟨style, -, read⟩ := (mapM_eq_ok all).2 i _ (List.getElem?_eq_getElem bound)
  exact ⟨style, read⟩

mutual
theorem IsCopy.read_styles : ∀ {node : Markup} {doc : Document} {id : NodeId},
    doc.IsCopy id node → ∀ value ∈ node.styles, ∃ style, StyleMap.ofInline value = .ok style
  | .element name attributes children, doc, id, copy => by
      obtain ⟨made, -, below⟩ := copy
      intro value member
      rcases List.mem_append.1 member with own | other
      · exact made.read_styles own
      · exact below.read_styles value other
  | .text value, doc, id, copy => List.forall_mem_nil _
  | .comment, doc, id, copy => copy.elim

theorem AreCopies.read_styles : ∀ {nodes : List Markup} {doc : Document} {start : NodeId},
    doc.AreCopies start nodes →
      ∀ value ∈ Markup.stylesOfAll nodes, ∃ style, StyleMap.ofInline value = .ok style
  | [], doc, start, copies => List.forall_mem_nil _
  | node :: rest, doc, start, copies => by
      obtain ⟨first, later⟩ := copies
      intro value member
      rcases List.mem_append.1 member with own | other
      · exact first.read_styles value own
      · exact later.read_styles value other
end

end Document

namespace Html.Page

/-- A page whose document is a copy of a tree, numbered in document order, with the style sheets of
the markup that the tree is shown of. -/
structure IsCopy (page : Page) (root kept : Markup) : Prop where
  document : page.document.IsCopy 0 kept
  size : page.document.size = kept.size
  order : page.document.preorder = List.range page.document.size
  rooted : page.document.root? = some 0
  parents : ∀ id, id < page.document.size → (page.document.parent? id = none ↔ id = 0)
  consistent : page.document.Consistent
  sheets : page.sheets = root.sheets

theorem isCopy_of_ofNodes {nodes : List Markup} {root : Markup} {page : Page}
    (found : nodes.find? Markup.isElement = some root) (made : ofNodes nodes = .ok page) :
    ∃ kept, root.shown = [kept] ∧ page.IsCopy root kept := by
  rw [ofNodes_of_find? found, bind_eq_ok] at made
  obtain ⟨doc, built, made⟩ := made
  cases made
  obtain ⟨kept, shown, copy, size⟩ := Document.isCopy_ofMarkup (List.find?_some found) built
  have consistent := Document.consistent_ofMarkup built
  have positive : 0 < doc.size := by
    rw [size]
    cases kept <;> simp [Markup.size]
  refine ⟨kept, shown, copy, size, ?_, Document.root?_eq positive, fun id bound => ?_, consistent, rfl⟩
  · rw [Document.preorder_eq_subtree_root positive, copy.subtree_eq_range, size, List.range_eq_range']
  · constructor
    · exact consistent.rooted id bound
    · rintro rfl
      exact doc.parent?_zero

section Returns

variable {nodes : List Markup} {root kept : Markup}
  (found : nodes.find? Markup.isElement = some root) (shown : root.shown = [kept])

include found shown

theorem unreadable_of_ofNodes {error : DocumentError} (failed : ofNodes nodes = .error error) :
    Document.Unreadable kept.styles error := by
  rw [ofNodes_of_find? found] at failed
  rcases bind_eq_error.1 failed with failed | ⟨doc, -, failed⟩
  · have unreadable := Document.unreadable_ofMarkup (List.find?_some found) failed
    rwa [shown, Markup.stylesOfAll, Markup.stylesOfAll, List.append_nil] at unreadable
  · cases failed

theorem exists_ofNodes_iff : (∃ page, ofNodes nodes = .ok page) ↔
    ∀ value ∈ kept.styles, ∃ style, StyleMap.ofInline value = .ok style := by
  constructor
  · rintro ⟨page, made⟩
    obtain ⟨other, same, copy⟩ := isCopy_of_ofNodes found made
    rw [shown] at same
    cases same
    exact copy.document.read_styles
  · intro readable
    cases result : ofNodes nodes with
    | ok page => exact ⟨page, rfl⟩
    | error error =>
        obtain ⟨value, member, cause, failed, -⟩ := unreadable_of_ofNodes found shown result
        obtain ⟨style, read⟩ := readable value member
        rw [failed] at read
        cases read

end Returns

/-- A document without an element gives the empty page. Any other gives a copy of what is shown of
its first element, unless a style in that cannot be read. -/
theorem copies_nodes (nodes : List Markup) :
    (nodes.find? Markup.isElement = none → ofNodes nodes = .ok empty) ∧
      ∀ root, nodes.find? Markup.isElement = some root →
        ∃ kept, root.shown = [kept] ∧
          ((∃ page, ofNodes nodes = .ok page) ↔
            ∀ value ∈ kept.styles, ∃ style, StyleMap.ofInline value = .ok style) ∧
          (∀ page, ofNodes nodes = .ok page → page.IsCopy root kept) ∧
          ∀ error, ofNodes nodes = .error error → Document.Unreadable kept.styles error := by
  refine ⟨ofNodes_of_not_isElement, fun root found => ?_⟩
  obtain ⟨kept, shown⟩ := Markup.exists_shown (List.find?_some found)
  refine ⟨kept, shown, exists_ofNodes_iff found shown, fun page made => ?_,
    fun error => unreadable_of_ofNodes found shown⟩
  obtain ⟨other, same, copy⟩ := isCopy_of_ofNodes found made
  rw [shown] at same
  cases same
  exact copy

/-- A comment and blanks left out, a style sheet that is not of the tree, attributes set in turn, and
a second element of the document, which is no root. -/
theorem copies_nodes_styled :
    let root : Markup := .element "HTML" [("CLASS", "a a")]
      [.text "\n", .element "Style" [] [.text "p \x7b", .text "\x7d"], .comment,
        .element "p" [("id", "x"), ("style", "color: red")] [.text "t", .element "b" [] []],
        .element "script" [] [.element "p" [] []]]
    let kept : Markup := .element "HTML" [("CLASS", "a a")]
      [.element "Style" [] [],
        .element "p" [("id", "x"), ("style", "color: red")] [.text "t", .element "b" [] []],
        .element "script" [] []]
    let nodes : List Markup := [.comment, root, .element "p" [] []]
    nodes.find? Markup.isElement = some root ∧ root.shown = [kept] ∧
      ∃ page, ofNodes nodes = .ok page ∧ page.IsCopy root kept ∧ page.sheets = ["p \x7b\x7d"] ∧
        page.document.preorder = [0, 1, 2, 3, 4, 5] := by
  intro root kept nodes
  have found : nodes.find? Markup.isElement = some root := rfl
  have visible : root.shown = [kept] := by cbv
  obtain ⟨other, shown, returns, copied, -⟩ := (copies_nodes nodes).2 root found
  obtain rfl : kept = other := by
    rw [visible] at shown
    cases shown
    rfl
  have read : ∃ style, StyleMap.ofInline "color: red" = .ok style :=
    exists_of_isOk (by decide +kernel)
  have styles : kept.styles = ["color: red"] := by decide +kernel
  obtain ⟨page, made⟩ := returns.2 (by
    rw [styles]
    exact List.forall_mem_singleton.2 read)
  have copy := copied page made
  refine ⟨found, visible, page, made, copy, copy.sheets.trans (by decide +kernel), ?_⟩
  rw [copy.order, copy.size]
  decide +kernel

end Html.Page

end ComputedStyle
