import ComputedStyle.Html.Markup
import ComputedStyle.Html.Name

namespace ComputedStyle.Html

inductive Item where
  | document
  | element (name : ElementName) (attributes : AttributeList)
  | text (value : String)
  | comment

structure Place where
  item : Item
  parent : Option Nat := none
  children : List Nat := []

structure Forest where
  places : Array Place

namespace Forest

/-- Just the document. -/
def start : Forest := ⟨#[{ item := .document }]⟩

def root : Nat := 0

variable (forest : Forest)

def item? (id : Nat) : Option Item :=
  (forest.places[id]?).map Place.item

def parent? (id : Nat) : Option Nat :=
  (forest.places[id]?).bind Place.parent

def children (id : Nat) : List Nat :=
  ((forest.places[id]?).map Place.children).getD []

/-- Adds a node without a parent; its number is the size before. -/
def create (item : Item) : Forest :=
  ⟨forest.places.push { item }⟩

def size : Nat :=
  forest.places.size

def change (id : Nat) (f : Place → Place) : Forest :=
  ⟨forest.places.modify id f⟩

/-- Takes a node away from its parent. -/
def detach (id : Nat) : Forest :=
  match forest.parent? id with
  | none => forest
  | some p =>
      (forest.change p fun place => { place with children := place.children.filter (· != id) }).change
        id fun place => { place with parent := none }

/-- Makes a node the last child of another. -/
def append (parent id : Nat) : Forest :=
  ((forest.detach id).change parent fun place =>
      { place with children := place.children ++ [id] }).change
    id fun place => { place with parent := some parent }

/-- The children of a parent with a new one before another. -/
def insertId (sibling id : Nat) : List Nat → List Nat
  | [] => [id]
  | child :: rest => if child = sibling then id :: child :: rest else child :: insertId sibling id rest

/-- Puts a node before one that has a parent. -/
def insertBefore (sibling id : Nat) : Forest :=
  let forest := forest.detach id
  match forest.parent? sibling with
  | none => forest
  | some p =>
      (forest.change p fun place =>
          { place with children := insertId sibling id place.children }).change
        id fun place => { place with parent := some p }

def isText (id : Nat) : Bool :=
  match forest.item? id with
  | some (.text _) => true
  | _ => false

/-- Adds a character to a text. -/
def extendText (id : Nat) (c : Char) : Forest :=
  forest.change id fun place =>
    match place.item with
    | .text value => { place with item := .text (value.push c) }
    | _ => place

def createText (c : Char) : Forest :=
  forest.create (.text (String.singleton c))

/-- Adds a character at the end of a node, to the text that is there or in a new one. -/
def appendCharacter (parent : Nat) (c : Char) : Forest :=
  match (forest.children parent).getLast?.filter forest.isText with
  | some id => forest.extendText id c
  | none =>
      let id := forest.size
      (forest.createText c).append parent id

/-- The node just before another among some siblings. -/
def before? (sibling : Nat) : List Nat → Option Nat
  | first :: second :: rest => if second = sibling then some first else before? sibling (second :: rest)
  | _ => none

def previous? (id : Nat) : Option Nat :=
  (forest.parent? id).bind fun p => before? id (forest.children p)

/-- Adds a character before a node that has a parent. -/
def insertCharacter (sibling : Nat) (c : Char) : Forest :=
  match (forest.previous? sibling).filter forest.isText with
  | some id => forest.extendText id c
  | none =>
      let id := forest.size
      (forest.createText c).insertBefore sibling id

/-- Moves the children of a node to the end of another. -/
def moveChildren (source target : Nat) : Forest :=
  (forest.children source).foldl (fun forest child => forest.append target child) forest

/-- Gives an element the attributes of a tag that it lacks. -/
def addMissing (id : Nat) (tag : Tag) : Forest :=
  forest.change id fun place =>
    match place.item with
    | .element name attributes =>
        { place with item := .element name (attributes.addMissing name.vocabulary tag) }
    | _ => place

/-- The tree under a node, as deep as `depth`. -/
def markup : Nat → Nat → Markup
  | 0, _ => .comment
  | depth + 1, id =>
      match forest.item? id with
      | some (.element name attributes) =>
          .element name.name (attributes.map fun entry => (entry.1.name, entry.2))
            ((forest.children id).map (markup depth))
      | some (.text value) => .text value
      | _ => .comment

/-- The nodes of the document. No path is longer than the number of nodes. -/
def document : List Markup :=
  (forest.children root).map (forest.markup forest.size)

end Forest

end ComputedStyle.Html
