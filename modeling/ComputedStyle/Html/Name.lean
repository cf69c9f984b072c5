import ComputedStyle.Html.Token

namespace ComputedStyle.Html

inductive Vocabulary where
  | html
  | math
  | svg
deriving DecidableEq, Repr

structure ElementName where
  vocabulary : Vocabulary
  /-- In lower case. -/
  name : String
deriving DecidableEq, Repr

namespace ElementName

def html (name : String) : ElementName := ⟨.html, name⟩

def isHtml (element : ElementName) : Bool :=
  element.vocabulary == .html

def isIn (element : ElementName) (names : List String) : Bool :=
  element.isHtml && names.contains element.name

def isNamed (element : ElementName) (name : String) : Bool :=
  element.isHtml && element.name == name

/-- Whether text in a foreign element is read as in HTML, and most of its children, too. -/
def isTextIntegration (element : ElementName) : Bool :=
  element.vocabulary == .math && ["mi", "mo", "mn", "ms", "mtext"].contains element.name

/-- Whether all content of a foreign element is read as in HTML. -/
def isHtmlIntegration (element : ElementName) : Bool :=
  element.vocabulary == .svg && ["foreignobject", "desc", "title"].contains element.name

def isIntegration (element : ElementName) : Bool :=
  element.isTextIntegration || element.isHtmlIntegration

/-- Elements that no search for an open element crosses. -/
def boundsScope (element : ElementName) : Bool :=
  element.isIn ["applet", "caption", "html", "table", "td", "th", "marquee", "object", "template"] ||
    element.isIntegration

def boundsListScope (element : ElementName) : Bool :=
  element.isIn ["ol", "ul"] || element.boundsScope

def boundsButtonScope (element : ElementName) : Bool :=
  element.isNamed "button" || element.boundsScope

def boundsTableScope (element : ElementName) : Bool :=
  element.isIn ["html", "table", "template"]

def boundsSelectScope (element : ElementName) : Bool :=
  !element.isIn ["optgroup", "option"]

def impliesEnd (element : ElementName) : Bool :=
  element.isIn ["dd", "dt", "li", "option", "optgroup", "p", "rb", "rp", "rt", "rtc"]

def impliesEndInTemplate (element : ElementName) : Bool :=
  element.impliesEnd ||
    element.isIn ["caption", "colgroup", "tbody", "td", "tfoot", "th", "thead", "tr"]

def isHeading (element : ElementName) : Bool :=
  element.isIn ["h1", "h2", "h3", "h4", "h5", "h6"]

def isCell (element : ElementName) : Bool :=
  element.isIn ["td", "th"]

/-- Elements with rules of their own, which stop the search for other end tags. -/
def isSpecial (element : ElementName) : Bool :=
  element.isIn [
    "address", "applet", "area", "article", "aside", "base", "basefont", "bgsound", "blockquote",
    "body", "br", "button", "caption", "center", "col", "colgroup", "dd", "details", "dir", "div",
    "dl", "dt", "embed", "fieldset", "figcaption", "figure", "footer", "form", "frame", "frameset",
    "h1", "h2", "h3", "h4", "h5", "h6", "head", "header", "hgroup", "hr", "html", "iframe", "img",
    "input", "isindex", "li", "link", "listing", "main", "marquee", "menu", "meta", "nav",
    "noembed", "noframes", "noscript", "object", "ol", "p", "param", "plaintext", "pre", "script",
    "section", "select", "source", "style", "summary", "table", "tbody", "td", "template",
    "textarea", "tfoot", "th", "thead", "title", "tr", "track", "ul", "wbr", "xmp"]

end ElementName

/-- The vocabulary of an attribute; attributes are listed in this order. -/
inductive AttributeSpace where
  | none
  | xlink
  | xmlns
  | xml
deriving DecidableEq, Repr

def AttributeSpace.rank : AttributeSpace → Nat
  | none => 0
  | xlink => 1
  | xmlns => 2
  | xml => 3

structure AttributeName where
  space : AttributeSpace := .none
  name : String
deriving DecidableEq, Repr

namespace AttributeName

def precedes (a b : AttributeName) : Bool :=
  a.space.rank < b.space.rank || (a.space == b.space && a.name < b.name)

/-- Attributes of SVG elements whose names are not in lower case. -/
def svgNames : List String := [
  "attributeName", "attributeType", "baseFrequency", "baseProfile", "calcMode", "clipPathUnits",
  "diffuseConstant", "edgeMode", "filterUnits", "glyphRef", "gradientTransform", "gradientUnits",
  "kernelMatrix", "kernelUnitLength", "keyPoints", "keySplines", "keyTimes", "lengthAdjust",
  "limitingConeAngle", "markerHeight", "markerUnits", "markerWidth", "maskContentUnits",
  "maskUnits", "numOctaves", "pathLength", "patternContentUnits", "patternTransform",
  "patternUnits", "pointsAtX", "pointsAtY", "pointsAtZ", "preserveAlpha", "preserveAspectRatio",
  "primitiveUnits", "refX", "refY", "repeatCount", "repeatDur", "requiredExtensions",
  "requiredFeatures", "specularConstant", "specularExponent", "spreadMethod", "startOffset",
  "stdDeviation", "stitchTiles", "surfaceScale", "systemLanguage", "tableValues", "targetX",
  "targetY", "textLength", "viewBox", "viewTarget", "xChannelSelector", "yChannelSelector",
  "zoomAndPan"]

/-- Attributes of foreign elements that belong to a vocabulary of their own. -/
def foreignNames : List (String × AttributeName) := [
  ("xlink:actuate", ⟨.xlink, "actuate"⟩), ("xlink:arcrole", ⟨.xlink, "arcrole"⟩),
  ("xlink:href", ⟨.xlink, "href"⟩), ("xlink:role", ⟨.xlink, "role"⟩),
  ("xlink:show", ⟨.xlink, "show"⟩), ("xlink:title", ⟨.xlink, "title"⟩),
  ("xlink:type", ⟨.xlink, "type"⟩), ("xml:lang", ⟨.xml, "lang"⟩), ("xml:space", ⟨.xml, "space"⟩),
  ("xmlns", ⟨.xmlns, "xmlns"⟩), ("xmlns:xlink", ⟨.xmlns, "xlink"⟩)]

def ofTag (vocabulary : Vocabulary) (name : String) : AttributeName :=
  match vocabulary with
  | .html => { name }
  | .math => own (if name = "definitionurl" then "definitionURL" else name)
  | .svg => own ((svgNames.find? (·.toLower = name)).getD name)
where
  own (name : String) : AttributeName := (foreignNames.lookup name).getD { name }

end AttributeName

/-- Attributes in order, no two of one name. -/
abbrev AttributeList := List (AttributeName × String)

namespace AttributeList

/-- Adds an attribute, unless its name is there. -/
def insertMissing (name : AttributeName) (value : String) : AttributeList → AttributeList
  | [] => [(name, value)]
  | entry :: rest =>
      if entry.1 = name then entry :: rest
      else if name.precedes entry.1 then (name, value) :: entry :: rest
      else entry :: insertMissing name value rest

def addMissing (vocabulary : Vocabulary) (tag : Tag) (attributes : AttributeList) :
    AttributeList :=
  tag.attributes.foldl (fun attributes entry =>
    insertMissing (.ofTag vocabulary entry.1) entry.2 attributes) attributes

/-- The attributes of an element. -/
def ofTag (vocabulary : Vocabulary) (tag : Tag) : AttributeList :=
  addMissing vocabulary tag []

end AttributeList

end ComputedStyle.Html
