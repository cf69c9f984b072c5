namespace ComputedStyle.Html

structure Tag where
  /-- In lower case, as are the names of attributes. -/
  name : String
  /-- No name occurs twice. -/
  attributes : List (String × String) := []
  selfClosing : Bool := false
deriving DecidableEq, Repr

namespace Tag

def attribute? (tag : Tag) (name : String) : Option String :=
  tag.attributes.lookup name

/-- Whether two tags have the same name and the same attributes, in any order. -/
def similar (a b : Tag) : Bool :=
  a.name == b.name && a.attributes.length == b.attributes.length &&
    a.attributes.all b.attributes.contains

end Tag

structure Doctype where
  name : Option String := none
  publicId : Option String := none
  systemId : Option String := none
  /-- Whether the declaration breaks off or is faulty. -/
  broken : Bool := false
deriving DecidableEq, Repr

/-- What follows a doctype depends on it only in this. -/
inductive Token where
  | startTag (tag : Tag)
  | endTag (name : String)
  | comment
  | doctype (doctype : Doctype)
  | character (c : Char)
  | endOfText
deriving DecidableEq, Repr

end ComputedStyle.Html
