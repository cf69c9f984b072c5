import ComputedStyle.Document.Order

namespace ComputedStyle

/-- The inherited properties, each with its initial value if it has one. -/
def inheritedProperties : List (String × Option String) := [
  ("font-family", none),
  ("font-size", none),
  ("font-style", some "normal"),
  ("font-weight", some "normal"),
  ("font-variant", some "normal"),
  ("color", some "#000000"),
  ("line-height", some "1.2"),
  ("letter-spacing", some "normal"),
  ("word-spacing", some "normal"),
  ("text-align", some "left"),
  ("text-indent", some "0"),
  ("text-transform", some "none"),
  ("white-space", some "normal"),
  ("direction", some "ltr"),
  ("list-style-type", some "disc"),
  ("list-style-position", some "outside"),
  ("list-style-image", none),
  ("border-collapse", some "separate"),
  ("border-spacing", some "2px"),
  ("caption-side", some "top"),
  ("empty-cells", some "show"),
  ("visibility", some "visible"),
  ("cursor", none),
  ("quotes", none)]

/-- Other properties with an initial value. -/
def resetProperties : List (String × String) := [
  ("display", "inline"),
  ("margin-top", "0"),
  ("margin-right", "0"),
  ("margin-bottom", "0"),
  ("margin-left", "0"),
  ("padding-top", "0"),
  ("padding-right", "0"),
  ("padding-bottom", "0"),
  ("padding-left", "0"),
  ("border-top-style", "none"),
  ("border-right-style", "none"),
  ("border-bottom-style", "none"),
  ("border-left-style", "none"),
  ("border-top-width", "medium"),
  ("border-right-width", "medium"),
  ("border-bottom-width", "medium"),
  ("border-left-width", "medium"),
  ("border-top-color", "currentcolor"),
  ("border-right-color", "currentcolor"),
  ("border-bottom-color", "currentcolor"),
  ("border-left-color", "currentcolor"),
  ("background-color", "transparent"),
  ("background-image", "none"),
  ("width", "auto"),
  ("height", "auto"),
  ("box-sizing", "content-box"),
  ("vertical-align", "baseline"),
  ("text-decoration", "none"),
  ("text-decoration-line", "none"),
  ("float", "none"),
  ("position", "static"),
  ("overflow", "visible")]

def isInherited (name : String) : Bool :=
  (inheritedProperties.lookup name).isSome

def initialValue? (name : String) : Option String :=
  match inheritedProperties.lookup name with
  | some initial => initial
  | none => resetProperties.lookup name

/-- What a declared value leaves of the choice between parent, initial value and itself. -/
inductive Source where
  | parent
  | initial
  | declared
deriving DecidableEq, Repr

/-- `unset` takes the parent's value for an inherited property and the initial one for any other. -/
def sourceOf (name value : String) : Source :=
  match (Text.trimmed value).toLower with
  | "inherit" => .parent
  | "initial" => .initial
  | "unset" => if isInherited name then .parent else .initial
  | _ => .declared

/-- The parent's computed value, or else the initial one. -/
def inheritedValue? (name : String) (parent : StyleMap) : Option String :=
  (parent.get? name).or (initialValue? name)

/-- The computed value of a declared one. -/
def resolve? (name value : String) (parent : StyleMap) : Option String :=
  match sourceOf name value with
  | .parent => inheritedValue? name parent
  | .initial => initialValue? name
  | .declared => some value

namespace StyleMap

/-- The computed value of an inherited property. -/
def computeInherited? (declared parent : StyleMap) (name : String) : Option String :=
  match declared.get? name with
  | some value => resolve? name value parent
  | none => inheritedValue? name parent

/-- The properties of a computed style, with their values. -/
def computedEntries (declared parent : StyleMap) : List (String × String) :=
  (inheritedProperties.filterMap fun (name, _) =>
      (computeInherited? declared parent name).map (name, ·)) ++
    declared.entries.filterMap fun (name, value) =>
      if isInherited name then none else (resolve? name value parent).map (name, ·)

/-- The computed style of an element. -/
def compute (declared parent : StyleMap) : StyleMap :=
  Dictionary.ofList (computedEntries declared parent)

end StyleMap

namespace Document

/-- The computed style of the parent of a node; empty for the root. -/
def parentStyle (doc : Document) (id : NodeId) : StyleMap :=
  ((doc.parent? id).map doc.computed).getD .empty

/-- Computes the style of one node from that of its parent. -/
def inheritAt (doc : Document) (id : NodeId) : Document :=
  let parent := doc.parentStyle id
  doc.setComputed id (if doc.isElement id then StyleMap.compute (doc.declared id) parent else parent)

/-- Computes the style of every node, parents first. -/
def inherit (doc : Document) : Document :=
  doc.preorder.foldl inheritAt doc

end Document

end ComputedStyle
