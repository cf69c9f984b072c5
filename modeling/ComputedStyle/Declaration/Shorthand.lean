import ComputedStyle.Color.Reading
import ComputedStyle.Dictionary
import ComputedStyle.Edges
import ComputedStyle.Text.Nesting

/-!
Shorthand properties and the longhands they stand for.

`Shorthand.longhands` names the longhands that a keyword is given to; `Shorthand.expandTokens` names
those that it gives the parts of a value. Only longhands are kept in a style, so everything after this
module knows no shorthand.
-/

namespace ComputedStyle

structure Declaration where
  name : String
  value : String
deriving DecidableEq, Repr

/-- The three properties that each border side has. -/
inductive BorderAspect where
  | width
  | style
  | color
deriving DecidableEq, Repr

namespace BorderAspect

def all : List BorderAspect := [width, style, color]

def name : BorderAspect → String
  | width => "width"
  | style => "style"
  | color => "color"

end BorderAspect

def borderProperty (side : Side) (aspect : BorderAspect) : String :=
  "border-" ++ side.name ++ "-" ++ aspect.name

/-- The two properties that have one value a side and no aspect. -/
inductive Spacing where
  | margin
  | padding
deriving DecidableEq, Repr

namespace Spacing

def name : Spacing → String
  | margin => "margin"
  | padding => "padding"

def property (spacing : Spacing) (side : Side) : String :=
  spacing.name ++ "-" ++ side.name

end Spacing

inductive Shorthand where
  | spacing (spacing : Spacing)
  | borderAspect (aspect : BorderAspect)
  | border
  | borderSide (side : Side)
  | borderRadius
  | gap
  | background
  | font
  | listStyle
deriving DecidableEq, Repr

namespace Shorthand

def ofName? : String → Option Shorthand
  | "margin" => some (.spacing .margin)
  | "padding" => some (.spacing .padding)
  | "border-width" => some (.borderAspect .width)
  | "border-style" => some (.borderAspect .style)
  | "border-color" => some (.borderAspect .color)
  | "border" => some .border
  | "border-top" => some (.borderSide .top)
  | "border-right" => some (.borderSide .right)
  | "border-bottom" => some (.borderSide .bottom)
  | "border-left" => some (.borderSide .left)
  | "border-radius" => some .borderRadius
  | "gap" => some .gap
  | "background" => some .background
  | "font" => some .font
  | "list-style" => some .listStyle
  | _ => none

/-- The corners in clockwise order from the top left. -/
def radiusProperties : List String :=
  ["border-top-left-radius", "border-top-right-radius", "border-bottom-right-radius",
    "border-bottom-left-radius"]

/-- The names of the longhands that a keyword is given to, in order. -/
def longhands : Shorthand → List String
  | spacing kind => Side.all.map kind.property
  | borderAspect aspect => Side.all.map (borderProperty · aspect)
  | border => Side.all.flatMap fun side => BorderAspect.all.map (borderProperty side)
  | borderSide side => BorderAspect.all.map (borderProperty side)
  | borderRadius => radiusProperties
  | gap => ["row-gap", "column-gap"]
  | background => ["background-color"]
  | font =>
      ["font-style", "font-variant", "font-weight", "font-size", "line-height", "font-family"]
  | listStyle => ["list-style-type", "list-style-position", "list-style-image"]

/-- Keywords that every property takes. -/
def wideKeywords : List String := ["inherit", "initial", "unset"]

def tokensOf (value : String) : List String :=
  (Text.valueTokens value.toList).map String.ofList

/-- Gives four names their values by the rule of `Edges.ofFanout?`. -/
def fanOut (names : List String) (tokens : List String) : List Declaration :=
  match Edges.ofFanout? tokens with
  | some edges => List.zipWith Declaration.mk names edges.toList
  | none => []

/-- The three parts of a border. -/
structure BorderParts where
  width : String
  style : String
  color : String
deriving DecidableEq, Repr

namespace BorderParts

/-- What a border is where nothing is said. -/
def initial : BorderParts := ⟨"medium", "none", "currentcolor"⟩

def styles : List String :=
  ["none", "hidden", "dotted", "dashed", "solid", "double", "groove", "ridge", "inset", "outset"]

/-- A digit or a point, after at most one sign. -/
def looksNumeric (token : String) : Bool :=
  let body :=
    match token.toList with
    | '+' :: rest => rest
    | '-' :: rest => rest
    | s => s
  match body with
  | c :: _ => c.isDigit || c == '.'
  | [] => false

def isWidth (token : String) : Bool :=
  token = "thin" || token = "medium" || token = "thick" || looksNumeric token

/-- Takes a token for a style, a width or a color; a later one replaces an earlier one. -/
def add (parts : BorderParts) (token : String) : BorderParts :=
  if token.toLower ∈ styles then { parts with style := token.toLower }
  else if isWidth token.toLower then { parts with width := token }
  else { parts with color := token }

def ofTokens (tokens : List String) : BorderParts :=
  tokens.foldl add initial

def declarations (parts : BorderParts) (side : Side) : List Declaration :=
  [⟨"border-" ++ side.name ++ "-width", parts.width⟩,
    ⟨"border-" ++ side.name ++ "-style", parts.style⟩,
    ⟨"border-" ++ side.name ++ "-color", parts.color⟩]

end BorderParts

def gradients : List String :=
  ["linear-gradient(", "radial-gradient(", "conic-gradient(", "repeating-linear-gradient(",
    "repeating-radial-gradient("]

def startsWith (token lead : String) : Bool :=
  lead.toList.isPrefixOf token.toList

def isGradient (token : String) : Bool :=
  gradients.any (startsWith token.toLower)

/-- What stands between the first opening bracket of a function and its last closing one. -/
def argumentText (token : List Char) : List Char :=
  let inner := (token.dropWhile (· != '(')).drop 1
  if inner.getLast? = some ')' then inner.dropLast else inner

/-- The parts of a gradient's stops, in reading order. -/
def gradientParts (token : String) : List String :=
  (Text.splitTopLevel ',' (argumentText token.toList)).flatMap fun stop =>
    (Text.valueTokens stop).map String.ofList

/-- A reader of colors, which may fail. -/
abbrev ColorReader := String → Except ColorError (Option Color)

def isColorBy (colorOf : ColorReader) (token : String) : Except ColorError Bool :=
  if token.toLower = "currentcolor" then .ok true
  else (colorOf token).map Option.isSome

/-- The one color a token of a background stands for. A gradient stands for the first part of its
stops that is a color, an address for none. -/
def colorOfToken? (colorOf : ColorReader) (token : String) :
    Except ColorError (Option String) :=
  if isGradient token then (gradientParts token).findM? (isColorBy colorOf)
  else if startsWith token "url(" then .ok none
  else (isColorBy colorOf token).map fun found => if found then some token else none

/-- The first color of a background. -/
def backgroundColor (colorOf : ColorReader) (tokens : List String) : Except ColorError String :=
  (tokens.findSomeM? (colorOfToken? colorOf)).map fun found => found.getD "transparent"

/-- The keywords before the size of a font. -/
structure FontKeywords where
  style : String := "normal"
  variant : String := "normal"
  weight : String := "normal"
deriving DecidableEq, Repr

namespace FontKeywords

def weights : List String :=
  ["bold", "bolder", "lighter", "100", "200", "300", "400", "500", "600", "700", "800", "900"]

/-- A weight has a name or is one of the hundreds below a thousand. -/
theorem mem_weights_iff {word : String} :
    word ∈ weights ↔ word ∈ ["bold", "bolder", "lighter"] ∨
      ∃ hundreds : Fin 9, word = toString (100 * (hundreds.val + 1)) := by
  have listed : weights = ["bold", "bolder", "lighter"] ++
      (List.finRange 9).map fun hundreds => toString (100 * (hundreds.val + 1)) := by
    decide
  rw [listed, List.mem_append]
  simp [eq_comm]

/-- Takes a token if it is one of the keywords. -/
def add? (keywords : FontKeywords) (token : String) : Option FontKeywords :=
  let word := token.toLower
  if word = "normal" then some keywords
  else if word = "italic" || word = "oblique" then some { keywords with style := word }
  else if word = "small-caps" then some { keywords with variant := word }
  else if word ∈ weights then some { keywords with weight := word }
  else none

/-- Takes keywords from the front; gives the tokens from the first other one on. -/
def takeFrom (keywords : FontKeywords) : List String → FontKeywords × List String
  | [] => (keywords, [])
  | token :: rest =>
      match keywords.add? token with
      | some more => takeFrom more rest
      | none => (keywords, token :: rest)

end FontKeywords

/-- A size, its line height, and the tokens of the family after them. -/
structure FontSize where
  size : String
  lineHeight : String
  family : List String
deriving DecidableEq, Repr

/-- Reads a size token and a line height that is joined to it by a slash, with or without blanks on
either side of the slash. -/
def FontSize.read (token : String) (rest : List String) : FontSize :=
  match Text.splitOnce '/' token.toList with
  | some (size, []) =>
      match rest with
      | lineHeight :: family => ⟨String.ofList size, lineHeight, family⟩
      | [] => ⟨String.ofList size, "normal", []⟩
  | some (size, lineHeight) => ⟨String.ofList size, String.ofList lineHeight, rest⟩
  | none =>
      match rest with
      | next :: more =>
          match next.toList with
          | ['/'] => ⟨token, more.head?.getD "normal", more.tail⟩
          | '/' :: lineHeight => ⟨token, String.ofList lineHeight, more⟩
          | _ => ⟨token, "normal", rest⟩
      | [] => ⟨token, "normal", []⟩

def FontKeywords.declarations (keywords : FontKeywords) : List Declaration :=
  [⟨"font-style", keywords.style⟩, ⟨"font-variant", keywords.variant⟩,
    ⟨"font-weight", keywords.weight⟩]

def FontSize.declarations (size : FontSize) : List Declaration :=
  [⟨"font-size", size.size⟩, ⟨"line-height", size.lineHeight⟩] ++
    (if size.family.isEmpty then []
      else [⟨"font-family", " ".intercalate size.family⟩])

def fontDeclarations (tokens : List String) : List Declaration :=
  let (keywords, rest) := ({} : FontKeywords).takeFrom tokens
  keywords.declarations ++
    match rest with
    | token :: more => (FontSize.read token more).declarations
    | [] => []

structure ListStyle where
  kind : String := "disc"
  position : String := "outside"
  image : String := "none"
deriving DecidableEq, Repr

def ListStyle.add (style : ListStyle) (token : String) : ListStyle :=
  let word := token.toLower
  if word = "inside" || word = "outside" then { style with position := word }
  else if startsWith word "url(" then { style with image := token }
  else { style with kind := word }

def ListStyle.declarations (style : ListStyle) : List Declaration :=
  [⟨"list-style-type", style.kind⟩, ⟨"list-style-position", style.position⟩,
    ⟨"list-style-image", style.image⟩]

/-- The part of a value before its first slash. -/
def beforeSlash (value : String) : String :=
  String.ofList (value.toList.takeWhile (· != '/'))

def gapDeclarations : List String → List Declaration
  | [] => []
  | [both] => [⟨"row-gap", both⟩, ⟨"column-gap", both⟩]
  | row :: column :: _ => [⟨"row-gap", row⟩, ⟨"column-gap", column⟩]

def corners : List String := ["top-left", "top-right", "bottom-right", "bottom-left"]

/-- The longhand declarations of a value that is not one of `wideKeywords`. -/
def expandTokens (shorthand : Shorthand) (value : String) (tokens : List String) :
    Except ColorError (List Declaration) :=
  match shorthand with
  | spacing kind => .ok (fanOut (Side.all.map fun side => kind.name ++ "-" ++ side.name) tokens)
  | borderAspect aspect =>
      .ok (fanOut (Side.all.map fun side => "border-" ++ side.name ++ "-" ++ aspect.name) tokens)
  | border => .ok (Side.all.flatMap (BorderParts.ofTokens tokens).declarations)
  | borderSide side => .ok ((BorderParts.ofTokens tokens).declarations side)
  | borderRadius =>
      .ok (fanOut (corners.map fun corner => "border-" ++ corner ++ "-radius")
        (tokensOf (beforeSlash value)))
  | gap => .ok (gapDeclarations tokens)
  | background =>
      (backgroundColor Color.read? tokens).map fun color => [⟨"background-color", color⟩]
  | font => .ok (fontDeclarations tokens)
  | listStyle => .ok (tokens.foldl ListStyle.add {}).declarations

def wideKeyword? : List String → Option String
  | [only] => if only.toLower ∈ wideKeywords then some only.toLower else none
  | _ => none

/-- The longhand declarations of a value. Only that of a background can fail, when a color in it
does. -/
def expand (shorthand : Shorthand) (value : String) : Except ColorError (List Declaration) :=
  let tokens := tokensOf value
  match wideKeyword? tokens with
  | some keyword => .ok (shorthand.longhands.map fun name => ⟨name, keyword⟩)
  | none => shorthand.expandTokens value tokens

end Shorthand

/-- The longhand declarations that a declaration stands for; one of a longhand stands for itself. -/
def Declaration.expand (declaration : Declaration) : Except ColorError (List Declaration) :=
  match Shorthand.ofName? declaration.name with
  | some shorthand => shorthand.expand declaration.value
  | none => .ok [declaration]

/-- Inserts longhand declarations; a later one replaces an earlier one. -/
def StyleMap.insertAll (style : StyleMap) (longhands : List Declaration) : StyleMap :=
  longhands.foldl (fun result longhand => result.insert longhand.name longhand.value) style

/-- Inserts a declaration's longhands. -/
def StyleMap.declare (style : StyleMap) (declaration : Declaration) :
    Except ColorError StyleMap :=
  declaration.expand.map style.insertAll

def StyleMap.ofDeclarations (declarations : List Declaration) : Except ColorError StyleMap :=
  declarations.foldlM StyleMap.declare Dictionary.empty

end ComputedStyle
