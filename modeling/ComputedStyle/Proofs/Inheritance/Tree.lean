import ComputedStyle.Proofs.Document.Order
import ComputedStyle.Proofs.Inheritance.Element

/-!
Computed styles of a whole tree.

Document order has parents before their children, so when the style of a node is computed, that of
its parent is final. What comes out is said without the order: by the declarations of a node and its
ancestors alone (`styleOf`), and for an inherited property by the nearest of them that settles it.
-/

namespace ComputedStyle.Document

def styleUnder (doc : Document) (id : NodeId) (parent : StyleMap) : StyleMap :=
  if doc.isElement id then StyleMap.compute (doc.declared id) parent else parent

/-- The style that the declarations of a node and its ancestors come to. -/
def styleOf (doc : Document) (id : NodeId) : StyleMap :=
  match _parent : doc.parent? id with
  | some p => doc.styleUnder id (doc.styleOf p)
  | none => doc.styleUnder id .empty
termination_by id
decreasing_by exact parent?_lt _parent

theorem styleOf_of_root {doc : Document} {id : NodeId} (orphan : doc.parent? id = none) :
    doc.styleOf id = doc.styleUnder id .empty := by
  rw [styleOf]
  split <;> simp_all

theorem styleOf_of_child {doc : Document} {id p : NodeId} (parent : doc.parent? id = some p) :
    doc.styleOf id = doc.styleUnder id (doc.styleOf p) := by
  rw [styleOf]
  split <;> simp_all

/-- A tree that differs from another one in computed styles alone. -/
def IsRestyled (doc next : Document) : Prop :=
  ∀ id, next.node? id = (doc.node? id).map fun node => { node with computed := next.computed id }

namespace IsRestyled

variable {doc next : Document}

theorem refl (doc : Document) : doc.IsRestyled doc := by
  intro id
  rw [computed]
  cases doc.node? id with
  | none => rfl
  | some node => rfl

theorem declared (restyled : doc.IsRestyled next) (id : NodeId) :
    next.declared id = doc.declared id := by
  rw [Document.declared, Document.declared, restyled id]
  cases doc.node? id with
  | none => rfl
  | some node => rfl

theorem isElement (restyled : doc.IsRestyled next) (id : NodeId) :
    next.isElement id = doc.isElement id := by
  rw [Document.isElement, Document.isElement, tag?, tag?, restyled id]
  cases doc.node? id with
  | none => rfl
  | some node => rfl

theorem parent? (restyled : doc.IsRestyled next) (id : NodeId) :
    next.parent? id = doc.parent? id := by
  rw [Document.parent?, Document.parent?, restyled id]
  cases doc.node? id with
  | none => rfl
  | some node => rfl

theorem setComputed (restyled : doc.IsRestyled next) (id : NodeId) (style : StyleMap) :
    doc.IsRestyled (next.setComputed id style) := by
  intro other
  rw [computed, Document.setComputed, node?_update, restyled other]
  cases doc.node? other with
  | none => split <;> rfl
  | some node => split <;> rfl

end IsRestyled

section Walk

variable {doc next : Document}

theorem computed_setComputed {id : NodeId} (bound : id < doc.size) (style : StyleMap)
    (other : NodeId) :
    (doc.setComputed id style).computed other = if other = id then style else doc.computed other := by
  rw [computed, setComputed, node?_update]
  split
  · next same =>
      subst same
      rw [node?, Array.getElem?_eq_getElem bound]
      rfl
  · rfl

theorem computed_inheritAt (restyled : doc.IsRestyled next) {id : NodeId} (bound : id < next.size)
    (ready : ∀ p, doc.parent? id = some p → next.computed p = doc.styleOf p) :
    (next.inheritAt id).computed id = doc.styleOf id := by
  rw [inheritAt, computed_setComputed bound, if_pos rfl, restyled.isElement, restyled.declared,
    ← styleUnder, parentStyle, restyled.parent?]
  cases parent : doc.parent? id with
  | none => exact (styleOf_of_root parent).symm
  | some p => rw [styleOf_of_child parent, Option.map_some, ready p parent, Option.getD_some]

theorem inherit_spec (consistent : doc.Consistent) :
    doc.IsRestyled doc.inherit ∧ ∀ id, id < doc.size → doc.inherit.computed id = doc.styleOf id := by
  let motive (passed : List NodeId) (next : Document) : Prop :=
    doc.IsRestyled next ∧ next.size = doc.size ∧
      ∀ id ∈ passed, next.computed id = doc.styleOf id
  have passed : motive doc.preorder.reverse doc.inherit := by
    refine consistent.foldl_preorder ?_ ⟨IsRestyled.refl doc, rfl, List.forall_mem_nil _⟩
    intro passed next id bound ready ⟨restyled, size, final⟩
    rw [← size] at bound
    have own : (next.inheritAt id).computed id = doc.styleOf id :=
      computed_inheritAt restyled bound fun p parent => final p (ready p parent)
    refine ⟨restyled.setComputed id _, by rw [inheritAt, setComputed, size_update, size], ?_⟩
    refine List.forall_mem_cons.2 ⟨own, fun other member => ?_⟩
    by_cases same : other = id
    · rw [same, own]
    · rw [inheritAt, computed_setComputed bound, if_neg same]
      exact final other member
  refine ⟨passed.1, fun id bound => passed.2.2 id ?_⟩
  rw [List.mem_reverse]
  exact consistent.mem_preorder.2 bound

end Walk

/-! An inherited property, from the nearest node upwards that settles it. -/

section Settled

variable {doc : Document} {name : String}

/-- An element declares a value of its own for an inherited property. -/
def Settles (doc : Document) (name : String) (id : NodeId) (value : String) : Prop :=
  doc.isElement id ∧ (doc.declared id).get? name = some value ∧ isDeferring value = false

def settled? (doc : Document) (name : String) (id : NodeId) : Option String :=
  if doc.isElement id then ((doc.declared id).get? name).filter (!isDeferring ·) else none

theorem settled?_eq_some_iff {id : NodeId} {value : String} :
    doc.settled? name id = some value ↔ doc.Settles name id value := by
  unfold settled? Settles
  split
  · next element => simp [element, Option.filter_eq_some_iff]
  · next text => simp [text]

theorem settled?_eq_none_iff {id : NodeId} :
    doc.settled? name id = none ↔ ∀ value, ¬doc.Settles name id value := by
  rw [Option.eq_none_iff_forall_ne_some]
  exact forall_congr' fun value => not_congr settled?_eq_some_iff

/-- What an inherited property comes to, given the value that settles it. -/
def settledValue? (name : String) : Option String → Option String
  | some value => if isInitial value then initialValue? name else some value
  | none => initialValue? name

theorem settled?_of_deferring {id : NodeId} {value : String}
    (declared : (doc.declared id).get? name = some value) (deferring : isDeferring value) :
    doc.settled? name id = none := by
  unfold settled?
  split
  · simp [declared, deferring]
  · rfl

/-- What an element makes of an inherited property, if above it comes to what `above` settles. -/
theorem computeInherited?_eq {id : NodeId} {parent : StyleMap} {above : Option String}
    (inherited : isInherited name) (element : doc.isElement id)
    (higher : inheritedValue? name parent = settledValue? name above) :
    (doc.declared id).computeInherited? parent name =
      settledValue? name ((doc.settled? name id).or above) := by
  unfold StyleMap.computeInherited?
  split
  · next value declared =>
      rw [resolve?_of_inherited inherited]
      split
      · next deferring => rw [settled?_of_deferring declared deferring, Option.none_or, higher]
      · next own =>
          have settles : doc.settled? name id = some value :=
            settled?_eq_some_iff.2 ⟨element, declared, by simpa using own⟩
          rw [settles, Option.some_or, settledValue?]
  · next undeclared =>
      have silent : doc.settled? name id = none := by
        rw [settled?_eq_none_iff]
        rintro value ⟨_, found, _⟩
        cases undeclared.symm.trans found
      rw [silent, Option.none_or, higher]

theorem lineage_of_child {id p : NodeId} (parent : doc.parent? id = some p) :
    doc.lineage id = id :: doc.lineage p := by
  rw [lineage, ancestors_of_child parent, ← lineage]

theorem inheritedValue?_styleUnder {id : NodeId} {parent : StyleMap} {above : Option String}
    (inherited : isInherited name)
    (higher : inheritedValue? name parent = settledValue? name above) :
    inheritedValue? name (doc.styleUnder id parent) =
      settledValue? name ((doc.settled? name id).or above) := by
  unfold styleUnder
  split
  · next element =>
      rw [inheritedValue?, StyleMap.get?_compute, if_pos inherited,
        computeInherited?_or_initial inherited, computeInherited?_eq inherited element higher]
  · next text => simpa [settled?, text] using higher

theorem inheritedValue?_styleOf (inherited : isInherited name) (id : NodeId) :
    inheritedValue? name (doc.styleOf id) =
      settledValue? name ((doc.lineage id).findSome? (doc.settled? name)) := by
  induction id using ancestors.induct doc with
  | case1 id p up ih =>
      rw [styleOf_of_child up, inheritedValue?_styleUnder inherited ih, lineage_of_child up,
        List.findSome?_cons]
      cases doc.settled? name id <;> rfl
  | case2 id orphan =>
      have nothing : inheritedValue? name .empty = settledValue? name none := rfl
      rw [styleOf_of_root orphan, inheritedValue?_styleUnder inherited nothing, lineage,
        ancestors_of_root orphan, List.findSome?_cons]
      cases doc.settled? name id <;> rfl

theorem get?_styleOf_of_inherited (inherited : isInherited name) {id : NodeId}
    (element : doc.isElement id) :
    (doc.styleOf id).get? name =
      settledValue? name ((doc.lineage id).findSome? (doc.settled? name)) := by
  rw [← inheritedValue?_styleOf inherited id, inheritedValue?]
  have computed : ∃ parent, doc.styleOf id = StyleMap.compute (doc.declared id) parent := by
    cases parent : doc.parent? id with
    | none => exact ⟨_, by rw [styleOf_of_root parent, styleUnder, if_pos element]⟩
    | some p => exact ⟨_, by rw [styleOf_of_child parent, styleUnder, if_pos element]⟩
  obtain ⟨parent, computed⟩ := computed
  rw [computed, StyleMap.get?_compute, if_pos inherited, computeInherited?_or_initial inherited]

end Settled

section Inherit

variable {doc : Document}

theorem isSettled_styleUnder (id : NodeId) {parent : StyleMap} (settled : parent.IsSettled) :
    (doc.styleUnder id parent).IsSettled := by
  unfold styleUnder
  split
  · exact StyleMap.isSettled_compute _ settled
  · exact settled

theorem isSettled_styleOf (id : NodeId) : (doc.styleOf id).IsSettled := by
  induction id using ancestors.induct doc with
  | case1 id p up ih =>
      rw [styleOf_of_child up]
      exact isSettled_styleUnder id ih
  | case2 id orphan =>
      rw [styleOf_of_root orphan]
      exact isSettled_styleUnder id StyleMap.isSettled_empty

/-- What inheritance makes of a tree. -/
structure Inherits (doc next : Document) : Prop where
  settled : ∀ id name below d above value, doc.isElement id → isInherited name →
    doc.lineage id = below ++ d :: above → doc.Settles name d value →
    (∀ x ∈ below, ∀ other, ¬doc.Settles name x other) →
    (next.computed id).get? name = if isInitial value then initialValue? name else some value
  unsettled : ∀ id name, doc.isElement id → isInherited name →
    (∀ x ∈ doc.lineage id, ∀ value, ¬doc.Settles name x value) →
    (next.computed id).get? name = initialValue? name
  undeclared : ∀ id name, doc.isElement id → isInherited name = false →
    (doc.declared id).get? name = none → (next.computed id).get? name = none
  plain : ∀ id name value, doc.isElement id → isInherited name = false →
    (doc.declared id).get? name = some value → isWide value = false →
    (next.computed id).get? name = some value
  reset : ∀ id name value, doc.isElement id → isInherited name = false →
    (doc.declared id).get? name = some value →
    keywordOf value = "initial" ∨ keywordOf value = "unset" →
    (next.computed id).get? name = initialValue? name
  taken : ∀ id name value, doc.isElement id → isInherited name = false →
    (doc.declared id).get? name = some value → keywordOf value = "inherit" →
    (next.computed id).get? name =
      ((next.parentStyle id).get? name).or (initialValue? name)
  texts : ∀ id p, doc.isElement id = false → doc.parent? id = some p →
    next.computed id = next.computed p
  free : ∀ id, (next.computed id).IsSettled
  rest : doc.IsRestyled next

theorem computed_inherit_of_isElement (consistent : doc.Consistent) {id : NodeId}
    (element : doc.isElement id) :
    doc.inherit.computed id =
      StyleMap.compute (doc.declared id) (doc.inherit.parentStyle id) := by
  obtain ⟨restyled, final⟩ := inherit_spec consistent
  rw [final id (size_of_isElement element), parentStyle, restyled.parent?]
  cases parent : doc.parent? id with
  | none => rw [styleOf_of_root parent, styleUnder, if_pos element]; rfl
  | some p =>
      have bound : p < doc.size := (parent?_lt parent).trans (size_of_isElement element)
      rw [styleOf_of_child parent, styleUnder, if_pos element, Option.map_some, final p bound]
      rfl

theorem get?_inherit_of_reset (consistent : doc.Consistent) {id : NodeId} {name : String}
    (element : doc.isElement id) (reset : isInherited name = false) :
    (doc.inherit.computed id).get? name =
      ((doc.declared id).get? name).bind fun value =>
        resolve? name value (doc.inherit.parentStyle id) := by
  rw [computed_inherit_of_isElement consistent element, StyleMap.get?_compute, reset]
  rfl

theorem get?_inherit_of_inherited (consistent : doc.Consistent) {id : NodeId} {name : String}
    (element : doc.isElement id) (inherited : isInherited name) :
    (doc.inherit.computed id).get? name =
      settledValue? name ((doc.lineage id).findSome? (doc.settled? name)) := by
  rw [(inherit_spec consistent).2 id (size_of_isElement element),
    get?_styleOf_of_inherited inherited element]

theorem inherits_inherit (consistent : doc.Consistent) : Inherits doc doc.inherit where
  settled id name below d above value element inherited split settles silent := by
    have found : (doc.lineage id).findSome? (doc.settled? name) = some value := by
      rw [List.findSome?_eq_some_iff]
      refine ⟨below, d, above, split, settled?_eq_some_iff.2 settles, fun x member => ?_⟩
      exact settled?_eq_none_iff.2 (silent x member)
    rw [get?_inherit_of_inherited consistent element inherited, found]
    rfl
  unsettled id name element inherited silent := by
    have nothing : (doc.lineage id).findSome? (doc.settled? name) = none := by
      rw [List.findSome?_eq_none_iff]
      exact fun x member => settled?_eq_none_iff.2 (silent x member)
    rw [get?_inherit_of_inherited consistent element inherited, nothing]
    rfl
  undeclared id name element reset missing := by
    rw [get?_inherit_of_reset consistent element reset, missing]
    rfl
  plain id name value element reset declared plain := by
    have own : keywordOf value ≠ "inherit" := by
      intro same
      simp [isWide, isDeferring, same] at plain
    rw [get?_inherit_of_reset consistent element reset, declared, Option.bind_some,
      resolve?_of_reset reset, if_neg own, plain]
    rfl
  reset id name value element reset declared keyword := by
    have wide : isWide value := by
      rcases keyword with same | same <;> simp [isWide, isDeferring, isInitial, same]
    have own : keywordOf value ≠ "inherit" := by
      rcases keyword with same | same <;> simp [same]
    rw [get?_inherit_of_reset consistent element reset, declared, Option.bind_some,
      resolve?_of_reset reset, if_neg own, if_pos wide]
  taken id name value element reset declared keyword := by
    rw [get?_inherit_of_reset consistent element reset, declared, Option.bind_some,
      resolve?_of_reset reset, if_pos keyword]
    rfl
  texts id p text parent := by
    obtain ⟨_, final⟩ := inherit_spec consistent
    have bound := size_of_parent? parent
    rw [final id bound, final p ((parent?_lt parent).trans bound), styleOf_of_child parent,
      styleUnder, text]
    rfl
  free id := by
    obtain ⟨restyled, final⟩ := inherit_spec consistent
    by_cases bound : id < doc.size
    · rw [final id bound]
      exact isSettled_styleOf id
    · rw [computed, restyled id, node?_eq_none (Nat.le_of_not_lt bound)]
      exact StyleMap.isSettled_empty
  rest := (inherit_spec consistent).1

/-- Inheritance gives every element, of each inherited property, what the nearest element upwards
says that settles it, and of any other property what its own declaration says; no keyword is left,
and nothing but computed styles changes. -/
theorem inherit_correct (edits : List Edit) :
    let doc := ofEdits edits
    Inherits doc doc.inherit :=
  inherits_inherit (consistent_ofEdits edits)

end Inherit

end ComputedStyle.Document
