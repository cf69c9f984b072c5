import ComputedStyle.Declaration.Block
import ComputedStyle.Document.Attribute

/-!
Document trees.

Nodes stand in an array in the order in which they were added, and name each other by their place in
it. A node keeps its positions among its siblings and, for its children, what the positions of the
next child need, so that a question about siblings does not walk over them. `Links.InRange` bounds
every link of a node; all walks over a tree end because of it.
-/

namespace ComputedStyle

abbrev NodeId := Nat

inductive Content where
  | element (tag : String)
  | text (value : String)
deriving DecidableEq, Repr

/-- Where a node stands among the children of its parent; all counts start at zero. -/
structure Position where
  /-- Among all children. -/
  childIndex : Nat := 0
  /-- Among the elements. -/
  elementIndex : Nat := 0
  /-- Among the elements with the same tag. -/
  typeIndex : Nat := 0
  /-- The nearest element before it. -/
  previousElement : Option NodeId := none
deriving DecidableEq, Repr

/-- What is counted of the children of a node. -/
structure Tally where
  elements : Nat := 0
  lastElement : Option NodeId := none
  /-- How many elements there are of each tag. -/
  types : Dictionary Nat := .empty
deriving DecidableEq

structure Links where
  parent : Option NodeId
  children : Array NodeId := #[]
  position : Position := {}
  tally : Tally := {}
deriving DecidableEq

/-- Parents and earlier siblings have smaller numbers, children greater ones, and all are numbers of
nodes. -/
structure Links.InRange (links : Links) (id size : Nat) : Prop where
  parent : ∀ p, links.parent = some p → p < id
  children : ∀ c ∈ links.children, id < c ∧ c < size
  previous : ∀ p, links.position.previousElement = some p → p < id
  last : ∀ c, links.tally.lastElement = some c → c < size

/-- The position of a new child among `childIndex` others, and the tally with it counted. -/
def Tally.place (tally : Tally) (childIndex : Nat) (id : NodeId) : Content → Position × Tally
  | .text _ => ({ childIndex }, tally)
  | .element tag =>
      let count := (tally.types.get? tag).getD 0
      ({ childIndex
         elementIndex := tally.elements
         typeIndex := count
         previousElement := tally.lastElement },
        { elements := tally.elements + 1
          lastElement := some id
          types := tally.types.insert tag (count + 1) })

theorem Tally.place_previous {tally : Tally} {childIndex id : Nat} {content : Content}
    {p : NodeId}
    (h : (tally.place childIndex id content).1.previousElement = some p) :
    tally.lastElement = some p := by
  cases content <;> simp_all [place]

theorem Tally.place_last {tally : Tally} {childIndex id : Nat} {content : Content}
    {c : NodeId} (h : (tally.place childIndex id content).2.lastElement = some c) :
    c = id ∨ tally.lastElement = some c := by
  cases content <;> simp_all [place]

/-- The links of a parent once a child is appended. -/
def Links.append (links : Links) (id : NodeId) (tally : Tally) : Links :=
  { links with children := links.children.push id, tally }

theorem Links.InRange.grow {links : Links} {id size : Nat} (h : links.InRange id size) :
    links.InRange id (size + 1) where
  parent := h.parent
  children c mem := ⟨(h.children c mem).1, Nat.lt_succ_of_lt (h.children c mem).2⟩
  previous := h.previous
  last c last := Nat.lt_succ_of_lt (h.last c last)

theorem Links.InRange.append {links : Links} {id size : Nat} (h : links.InRange id size)
    (tally : Tally) (bound : id < size) (last : ∀ c, tally.lastElement = some c → c < size + 1) :
    (links.append size tally).InRange id (size + 1) where
  parent := h.parent
  children c mem := by
    simp only [Links.append, Array.mem_push] at mem
    rcases mem with mem | same
    · exact h.grow.children c mem
    · exact ⟨same ▸ bound, same ▸ Nat.lt_succ_self _⟩
  previous := h.previous
  last := last

structure Node where
  content : Content
  attributes : Attributes := {}
  classes : ClassList := {}
  declared : StyleMap := .empty
  computed : StyleMap := .empty
  links : Links
deriving DecidableEq

namespace Node

def tag? (node : Node) : Option String :=
  match node.content with
  | .element tag => some tag
  | .text _ => none

def isElement (node : Node) : Bool :=
  node.tag?.isSome

end Node

structure Document where
  nodes : Array Node
  inRange : ∀ (id : Nat) (h : id < nodes.size), nodes[id].links.InRange id nodes.size

inductive DocumentError where
  /-- A second node without a parent. -/
  | secondRoot
  | unknownNode (id : NodeId)
  /-- A color in the declarations of a node. -/
  | color (error : ColorError)
deriving DecidableEq, Repr

namespace Document

def empty : Document := ⟨#[], fun id h => absurd h (Nat.not_lt_zero id)⟩

instance : Inhabited Document := ⟨empty⟩

def size (doc : Document) : Nat :=
  doc.nodes.size

def isEmpty (doc : Document) : Bool :=
  doc.nodes.isEmpty

/-- The first node added is the root. -/
def root? (doc : Document) : Option NodeId :=
  if doc.isEmpty then none else some 0

def ids (doc : Document) : List NodeId :=
  List.range doc.size

def node? (doc : Document) (id : NodeId) : Option Node :=
  doc.nodes[id]?

theorem inRange_of_node? {doc : Document} {id : NodeId} {node : Node}
    (h : doc.node? id = some node) : node.links.InRange id doc.size := by
  obtain ⟨bound, rfl⟩ := Array.getElem?_eq_some_iff.1 h
  exact doc.inRange id bound

def tag? (doc : Document) (id : NodeId) : Option String :=
  (doc.node? id).bind Node.tag?

def isElement (doc : Document) (id : NodeId) : Bool :=
  (doc.tag? id).isSome

def attribute? (doc : Document) (id : NodeId) (name : String) : Option String :=
  (doc.node? id).bind (·.attributes.get? name)

/-- The value of the attribute `id`. -/
def elementId? (doc : Document) (id : NodeId) : Option String :=
  doc.attribute? id "id"

def classes (doc : Document) (id : NodeId) : ClassList :=
  ((doc.node? id).map Node.classes).getD {}

def declared (doc : Document) (id : NodeId) : StyleMap :=
  ((doc.node? id).map Node.declared).getD .empty

def computed (doc : Document) (id : NodeId) : StyleMap :=
  ((doc.node? id).map Node.computed).getD .empty

def parent? (doc : Document) (id : NodeId) : Option NodeId :=
  (doc.node? id).bind (·.links.parent)

def isRoot (doc : Document) (id : NodeId) : Bool :=
  (doc.parent? id).isNone

def children (doc : Document) (id : NodeId) : List NodeId :=
  ((doc.node? id).map (·.links.children.toList)).getD []

def position (doc : Document) (id : NodeId) : Position :=
  ((doc.node? id).map (·.links.position)).getD {}

def tally (doc : Document) (id : NodeId) : Tally :=
  ((doc.node? id).map (·.links.tally)).getD {}

theorem parent?_lt {doc : Document} {id p : NodeId} (h : doc.parent? id = some p) : p < id := by
  obtain ⟨node, hn, hp⟩ := Option.bind_eq_some_iff.1 h
  exact (inRange_of_node? hn).parent p hp

theorem children_range {doc : Document} {id c : NodeId} (h : c ∈ doc.children id) :
    id < c ∧ c < doc.size := by
  unfold children at h
  cases hn : doc.node? id with
  | none => simp [hn] at h
  | some node =>
      simp only [hn, Option.map_some, Option.getD_some, Array.mem_toList_iff] at h
      exact (inRange_of_node? hn).children c h

/-- The nearest element before a node among its siblings. -/
def previousElement? (doc : Document) (id : NodeId) : Option NodeId :=
  (doc.position id).previousElement

theorem previousElement?_lt {doc : Document} {id p : NodeId}
    (h : doc.previousElement? id = some p) : p < id := by
  unfold previousElement? position at h
  cases hn : doc.node? id with
  | none => simp [hn] at h
  | some node =>
      simp only [hn, Option.map_some, Option.getD_some] at h
      exact (inRange_of_node? hn).previous p h

/-- How many elements there are among the siblings of a node, itself included. -/
def elementSiblingCount (doc : Document) (id : NodeId) : Nat :=
  match doc.parent? id with
  | some p => (doc.tally p).elements
  | none => 1

/-- The place of a node among the elements with its tag, counted from one. -/
def typePosition (doc : Document) (id : NodeId) : Nat :=
  (doc.position id).typeIndex + 1

/-- How many elements with its tag there are among the siblings of a node. -/
def typeCount (doc : Document) (id : NodeId) : Nat :=
  match doc.parent? id, doc.tag? id with
  | some p, some tag => ((doc.tally p).types.get? tag).getD 1
  | _, _ => 1

def update (doc : Document) (id : NodeId) (change : Node → Node)
    (keeps : ∀ node, (change node).links = node.links) : Document where
  nodes := doc.nodes.modify id change
  inRange := by
    intro other h
    rw [Array.getElem_modify]
    simp only [Array.size_modify] at h ⊢
    split
    · rw [keeps]
      exact doc.inRange other h
    · exact doc.inRange other h

def appendUnder (nodes : Array Node) (p : NodeId) (parent : Node) (content : Content) :
    Array Node :=
  let id := nodes.size
  let (position, tally) := parent.links.tally.place parent.links.children.size id content
  (nodes.modify p fun node => { node with links := node.links.append id tally }).push
    { content, links := { parent := some p, position } }

/-- Appends a child under the node at `p`. -/
def append (doc : Document) (p : NodeId) (content : Content) (h : p < doc.nodes.size) :
    Document where
  nodes := appendUnder doc.nodes p doc.nodes[p] content
  inRange := by
    intro id bound
    have own := doc.inRange p h
    simp only [appendUnder, Array.size_push, Array.size_modify] at bound ⊢
    rw [Array.getElem_push]
    split
    · next less =>
        simp only [Array.size_modify] at less
        rw [Array.getElem_modify]
        split
        · next same =>
            subst same
            exact own.append _ h fun c last => by
              rcases Tally.place_last last with rfl | last
              · exact Nat.lt_succ_self _
              · exact Nat.lt_succ_of_lt (own.last c last)
        · exact (doc.inRange id less).grow
    · next notLess =>
        simp only [Array.size_modify] at notLess
        have same : id = doc.nodes.size := by omega
        subst same
        constructor
        · intro q hq
          simp only [Option.some.injEq] at hq
          exact hq ▸ h
        · simp
        · intro q hq
          exact own.last q (Tally.place_previous hq)
        · simp

/-- Appends a node under a parent, or as the root of an empty tree; its number is the size before. -/
def add (doc : Document) (parent : Option NodeId) (content : Content) :
    Except DocumentError Document :=
  match parent with
  | none =>
      if doc.isEmpty then
        .ok ⟨#[{ content, links := { parent := none } }], by
          intro id bound
          have : id = 0 := by
            simp only [List.size_toArray, List.length_cons, List.length_nil] at bound
            omega
          subst this
          constructor <;> simp⟩
      else .error .secondRoot
  | some p =>
      if h : p < doc.nodes.size then .ok (doc.append p content h)
      else .error (.unknownNode p)

/-- Adds an element; its tag is kept in lower case. -/
def addElement (doc : Document) (parent : Option NodeId) (tag : String) :
    Except DocumentError Document :=
  doc.add parent (.element tag.toLower)

def addText (doc : Document) (parent : NodeId) (text : String) : Except DocumentError Document :=
  doc.add (some parent) (.text text)

/-- The declarations of a text for a node; none if there is no such node. -/
def inlineStyle (doc : Document) (id : NodeId) (text : String) : Except DocumentError StyleMap :=
  if id < doc.size then (StyleMap.ofInline text).mapError .color
  else .error (.unknownNode id)

/-- A node with one attribute set. The class list follows the attribute `class`; `style` is what an
attribute of that name declares, and is added to what is declared already. -/
def setNodeAttribute (name value : String) (style : StyleMap) (node : Node) : Node :=
  let key := name.toLower
  { node with
    classes := if key = "class" then .ofText value else node.classes
    declared := node.declared.extend style
    attributes := node.attributes.insert key value }

def setAttribute (doc : Document) (id : NodeId) (name value : String) :
    Except DocumentError Document := do
  let style ← doc.inlineStyle id (if name.toLower = "style" then value else "")
  return doc.update id (setNodeAttribute name value style) fun _ => rfl

/-- Adds declarations to those of a node. -/
def setInlineStyle (doc : Document) (id : NodeId) (text : String) :
    Except DocumentError Document := do
  let style ← doc.inlineStyle id text
  return doc.update id (fun node => { node with declared := node.declared.extend style })
    fun _ => rfl

def updateDeclared (doc : Document) (id : NodeId) (change : StyleMap → StyleMap) : Document :=
  doc.update id (fun node => { node with declared := change node.declared }) fun _ => rfl

def setComputed (doc : Document) (id : NodeId) (style : StyleMap) : Document :=
  doc.update id (fun node => { node with computed := style }) fun _ => rfl

end Document

end ComputedStyle
