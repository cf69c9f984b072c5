import Mathlib
import ComputedStyle.Document

namespace ComputedStyle

/-- One change to a tree. `restyle` stands for what the passes over a tree write into it. -/
inductive Edit where
  | addElement (parent : Option NodeId) (tag : String)
  | addText (parent : NodeId) (text : String)
  | setAttribute (id : NodeId) (name value : String)
  | setInlineStyle (id : NodeId) (text : String)
  | restyle (id : NodeId) (declared computed : StyleMap)

def Content.tag? : Content → Option String
  | .element tag => some tag
  | .text _ => none

/-- Tags in lower case. -/
def Content.IsLower (content : Content) : Prop :=
  ∀ tag, content.tag? = some tag → tag.toLower = tag

theorem toLower_toLower (s : String) : s.toLower.toLower = s.toLower := by
  simp only [String.toLower, String.map_map]
  congr 1
  funext c
  exact Char.toLower_toLower_eq_toLower c

theorem Content.isLower_element (tag : String) : (Content.element tag.toLower).IsLower := by
  intro name same
  cases same
  exact toLower_toLower tag

theorem Content.isLower_text (value : String) : (Content.text value).IsLower := by
  intro name same
  cases same

namespace Document

def edit (doc : Document) : Edit → Except DocumentError Document
  | .addElement parent tag => doc.addElement parent tag
  | .addText parent text => doc.addText parent text
  | .setAttribute id name value => doc.setAttribute id name value
  | .setInlineStyle id text => doc.setInlineStyle id text
  | .restyle id declared computed =>
      .ok (doc.update id (fun node => { node with declared, computed }) fun _ => rfl)

def attempt (doc : Document) (change : Edit) : Document :=
  (doc.edit change).toOption.getD doc

def ofEdits (edits : List Edit) : Document :=
  edits.foldl attempt empty

/-- The content of a node; an empty text if there is no such node. -/
def content (doc : Document) (id : NodeId) : Content :=
  ((doc.node? id).map Node.content).getD (.text "")

theorem tag?_eq_content (doc : Document) (id : NodeId) :
    doc.tag? id = (doc.content id).tag? := by
  unfold tag? content
  cases doc.node? id with
  | none => rfl
  | some node => rfl

theorem isElement_eq_content (doc : Document) (id : NodeId) :
    doc.isElement id = (doc.content id).tag?.isSome := by
  rw [isElement, tag?_eq_content]

theorem node?_eq_none {doc : Document} {id : NodeId} (h : doc.size ≤ id) :
    doc.node? id = none :=
  Array.getElem?_eq_none h

theorem size_of_isElement {doc : Document} {id : NodeId} (element : doc.isElement id) : id < doc.size := by
  by_contra outside
  rw [isElement, tag?, node?_eq_none (Nat.le_of_not_lt outside)] at element
  cases element

theorem size_of_parent? {doc : Document} {id p : NodeId} (parent : doc.parent? id = some p) : id < doc.size := by
  by_contra outside
  rw [parent?, node?_eq_none (Nat.le_of_not_lt outside)] at parent
  cases parent

theorem inRange_ofRoot (content : Content) (id : Nat) (bound : id < 1) :
    ((#[{ content, links := { parent := none } }] : Array Node)[id]).links.InRange id 1 := by
  obtain rfl : id = 0 := Nat.lt_one_iff.1 bound
  constructor <;> simp

/-- The tree that `add` makes of the empty one. -/
def ofRoot (content : Content) : Document where
  nodes := #[{ content, links := { parent := none } }]
  inRange := inRange_ofRoot content

theorem node?_ofRoot (content : Content) (id : NodeId) :
    (ofRoot content).node? id =
      if id = 0 then some { content, links := { parent := none } } else none := by
  simp only [node?, ofRoot]
  cases id with
  | zero => rfl
  | succ id => rfl

/-! An updated node keeps its links; other nodes keep everything. -/

section Update

variable {doc : Document} {id : NodeId} {change : Node → Node}
  {keeps : ∀ node, (change node).links = node.links}

@[simp] theorem size_update : (doc.update id change keeps).size = doc.size := by
  simp [size, update]

theorem node?_update (other : NodeId) :
    (doc.update id change keeps).node? other =
      if other = id then (doc.node? other).map change else doc.node? other := by
  simp only [node?, update, Array.getElem?_modify, eq_comm]

theorem map_node?_update {f : Node → β} (same : ∀ node, f (change node) = f node)
    (other : NodeId) :
    ((doc.update id change keeps).node? other).map f = (doc.node? other).map f := by
  rw [node?_update]
  split
  · rw [Option.map_map]
    congr 1
    funext node
    exact same node
  · rfl

@[simp] theorem children_update (other : NodeId) :
    (doc.update id change keeps).children other = doc.children other := by
  simp only [children]
  rw [map_node?_update fun node => by rw [keeps]]

@[simp] theorem position_update (other : NodeId) :
    (doc.update id change keeps).position other = doc.position other := by
  simp only [position]
  rw [map_node?_update fun node => by rw [keeps]]

@[simp] theorem tally_update (other : NodeId) :
    (doc.update id change keeps).tally other = doc.tally other := by
  simp only [tally]
  rw [map_node?_update fun node => by rw [keeps]]

@[simp] theorem parent?_update (other : NodeId) :
    (doc.update id change keeps).parent? other = doc.parent? other := by
  simp only [parent?, node?_update]
  split
  · cases doc.node? other with
    | none => rfl
    | some node => simp [keeps]
  · rfl

theorem content_update (same : ∀ node, (change node).content = node.content)
    (other : NodeId) :
    (doc.update id change keeps).content other = doc.content other := by
  simp only [content]
  rw [map_node?_update same]

end Update

/-! An appended child has the size as its number; of the others only its parent changes. -/

section Append

variable {doc : Document} {p : NodeId} {content : Content} {h : p < doc.nodes.size}

/-- Where the next child of a node is placed, and what the node counts with it. -/
def placeUnder (doc : Document) (p : NodeId) (content : Content) : Position × Tally :=
  (doc.tally p).place (doc.children p).length doc.size content

@[simp] theorem size_append : (doc.append p content h).size = doc.size + 1 := by
  simp [size, append, appendUnder]

theorem node?_append (id : NodeId) :
    (doc.append p content h).node? id =
      if id = doc.size then
        some { content, links := { parent := some p, position := (doc.placeUnder p content).1 } }
      else if id = p then
        (doc.node? p).map fun node =>
          { node with links := node.links.append doc.size (doc.placeUnder p content).2 }
      else doc.node? id := by
  have found : doc.node? p = some doc.nodes[p] := Array.getElem?_eq_getElem h
  have place : doc.placeUnder p content =
      doc.nodes[p].links.tally.place doc.nodes[p].links.children.size doc.nodes.size content := by
    simp [placeUnder, tally, children, found, size]
  rw [place]
  simp only [node?, append, appendUnder, Array.getElem?_push, Array.size_modify,
    Array.getElem?_modify]
  by_cases fresh : id = doc.size
  · rw [if_pos fresh]
    exact if_pos fresh
  · rw [if_neg fresh, if_neg (show ¬id = doc.nodes.size from fresh)]
    by_cases same : id = p
    · subst same
      rw [if_pos rfl, if_pos rfl]
      rfl
    · rw [if_neg same, if_neg (Ne.symm same)]

@[simp] theorem parent?_append (id : NodeId) :
    (doc.append p content h).parent? id =
      if id = doc.size then some p else doc.parent? id := by
  simp only [parent?, node?_append]
  split
  · rfl
  · split
    · next same => subst same; cases doc.node? id <;> rfl
    · rfl

@[simp] theorem position_append (id : NodeId) :
    (doc.append p content h).position id =
      if id = doc.size then (doc.placeUnder p content).1 else doc.position id := by
  simp only [position, node?_append]
  split
  · rfl
  · split
    · next same => subst same; cases doc.node? id <;> rfl
    · rfl

@[simp] theorem content_append (id : NodeId) :
    (doc.append p content h).content id = if id = doc.size then content else doc.content id := by
  simp only [Document.content, node?_append]
  split
  · rfl
  · split
    · next same => subst same; cases doc.node? id <;> rfl
    · rfl

theorem node?_isSome (h : p < doc.nodes.size) : ∃ node, doc.node? p = some node :=
  ⟨doc.nodes[p], Array.getElem?_eq_getElem h⟩

@[simp] theorem children_append (id : NodeId) :
    (doc.append p content h).children id =
      if id = p then doc.children p ++ [doc.size] else doc.children id := by
  obtain ⟨parent, found⟩ := node?_isSome h
  have fresh : doc.size ≠ p := Nat.ne_of_gt h
  simp only [children, node?_append]
  split
  · next same => subst same; simp [fresh, node?_eq_none (Nat.le_refl doc.size)]
  · split
    · simp [found, Links.append]
    · rfl

@[simp] theorem tally_append (id : NodeId) :
    (doc.append p content h).tally id =
      if id = p then (doc.placeUnder p content).2 else doc.tally id := by
  obtain ⟨parent, found⟩ := node?_isSome h
  have fresh : doc.size ≠ p := Nat.ne_of_gt h
  simp only [tally, node?_append]
  split
  · next same => subst same; simp [fresh, node?_eq_none (Nat.le_refl doc.size)]
  · split
    · simp [found, Links.append]
    · rfl

end Append

theorem add_cases {doc next : Document} {parent : Option NodeId} {content : Content}
    (h : doc.add parent content = .ok next) :
    (doc.isEmpty ∧ next = ofRoot content) ∨
      ∃ p bound, next = doc.append p content bound := by
  unfold add at h
  cases parent with
  | none =>
      simp only at h
      split at h
      · next empty => exact .inl ⟨empty, (Except.ok.inj h).symm⟩
      · cases h
  | some p =>
      simp only at h
      split at h
      · next bound => exact .inr ⟨p, bound, (Except.ok.inj h).symm⟩
      · cases h

/-- What an edit makes of a tree. -/
inductive Step (doc : Document) : Document → Prop where
  | same : Step doc doc
  | root (content : Content) (empty : doc.isEmpty) (lower : content.IsLower) :
      Step doc (ofRoot content)
  | child (p : NodeId) (content : Content) (bound : p < doc.nodes.size)
      (lower : content.IsLower) : Step doc (doc.append p content bound)
  | update (id : NodeId) (change : Node → Node)
      (keeps : ∀ node, (change node).links = node.links)
      (same : ∀ node, (change node).content = node.content) : Step doc (doc.update id change keeps)

theorem step_add {doc next : Document} {parent : Option NodeId} {content : Content}
    (lower : content.IsLower) (h : doc.add parent content = .ok next) : Step doc next := by
  rcases add_cases h with ⟨empty, rfl⟩ | ⟨p, bound, rfl⟩
  · exact .root content empty lower
  · exact .child p content bound lower

theorem step_setAttribute {doc next : Document} {id : NodeId} {name value : String}
    (h : doc.setAttribute id name value = .ok next) : Step doc next := by
  unfold setAttribute at h
  cases style : doc.inlineStyle id (if name.toLower = "style" then value else "") with
  | error e => rw [style] at h; cases h
  | ok found =>
      rw [style] at h
      cases h
      exact .update id (setNodeAttribute name value found) (fun _ => rfl) fun _ => rfl

theorem step_setInlineStyle {doc next : Document} {id : NodeId} {text : String}
    (h : doc.setInlineStyle id text = .ok next) : Step doc next := by
  unfold setInlineStyle at h
  cases style : doc.inlineStyle id text with
  | error e => rw [style] at h; cases h
  | ok found =>
      rw [style] at h
      cases h
      exact .update id (fun node => { node with declared := node.declared.extend found })
        (fun _ => rfl) fun _ => rfl

theorem step_edit {doc next : Document} {change : Edit} (h : doc.edit change = .ok next) :
    Step doc next := by
  cases change with
  | addElement parent tag => exact step_add (Content.isLower_element tag) h
  | addText parent text =>
      have added : doc.add (some parent) (.text text) = .ok next := h
      exact step_add (Content.isLower_text text) added
  | setAttribute id name value => exact step_setAttribute h
  | setInlineStyle id text => exact step_setInlineStyle h
  | restyle id declared computed =>
      cases h
      exact .update id _ _ fun _ => rfl

theorem step_attempt (doc : Document) (change : Edit) : Step doc (doc.attempt change) := by
  unfold attempt
  cases result : doc.edit change with
  | error e => exact .same
  | ok next => exact step_edit result

theorem ofEdits_induction {motive : Document → Prop} (start : motive empty)
    (step : ∀ doc next, motive doc → Step doc next → motive next) (edits : List Edit) :
    motive (ofEdits edits) := by
  suffices run : ∀ doc, motive doc → motive (edits.foldl attempt doc) from run empty start
  induction edits with
  | nil => exact fun doc holds => holds
  | cons change rest ih =>
      intro doc holds
      exact ih _ (step doc _ holds (step_attempt doc change))

end Document

end ComputedStyle
