import ComputedStyle.Text.Blank

namespace ComputedStyle

/-- Attributes in the order in which their names were first set; no name occurs twice. -/
structure Attributes where
  entries : List (String × String) := []
deriving DecidableEq, Repr

namespace Attributes

def get? (name : String) (attributes : Attributes) : Option String :=
  attributes.entries.lookup name

/-- Replaces the value of a name where it stands, or adds the name at the end. -/
def insertEntry (name value : String) : List (String × String) → List (String × String)
  | [] => [(name, value)]
  | entry :: rest =>
      if entry.1 = name then (name, value) :: rest
      else entry :: insertEntry name value rest

def insert (name value : String) (attributes : Attributes) : Attributes :=
  ⟨insertEntry name value attributes.entries⟩

def size (attributes : Attributes) : Nat :=
  attributes.entries.length

def isEmpty (attributes : Attributes) : Bool :=
  attributes.entries.isEmpty

end Attributes

/-- Class names in the order in which they first occur, without repetition. -/
structure ClassList where
  names : List String := []
deriving DecidableEq, Repr

namespace ClassList

def contains (name : String) (classes : ClassList) : Bool :=
  classes.names.contains name

/-- Adds a name that is not empty and not there yet at the end. -/
def insert (classes : ClassList) (name : String) : ClassList :=
  if name.isEmpty || classes.contains name then classes else ⟨classes.names ++ [name]⟩

/-- The names in a `class` attribute. -/
def ofText (raw : String) : ClassList :=
  ((Text.words Text.isAsciiBlank raw.toList).map String.ofList).foldl insert {}

def isEmpty (classes : ClassList) : Bool :=
  classes.names.isEmpty

end ClassList

end ComputedStyle
