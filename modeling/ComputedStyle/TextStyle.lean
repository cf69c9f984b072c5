import ComputedStyle.Color.Reading
import ComputedStyle.Dictionary
import ComputedStyle.Length.Units
import ComputedStyle.Text.Nesting

namespace ComputedStyle

open Number

inductive FontStyle where
  | normal
  | italic
  | oblique
deriving DecidableEq, Repr

inductive TextAlign where
  | left
  | center
  | right
  | justify
deriving DecidableEq, Repr

inductive VerticalAlign where
  | baseline
  | top
  | middle
  | bottom
  | sub
  | super
  | textTop
  | textBottom
deriving DecidableEq, Repr

inductive TextDecoration where
  | none
  | underline
  | overline
  | lineThrough
deriving DecidableEq, Repr

inductive TextTransform where
  | none
  | uppercase
  | lowercase
  | capitalize
deriving DecidableEq, Repr

inductive LineHeight where
  /-- A multiple of the font size. -/
  | multiple (factor : Single)
  | absolute (height : Length)
deriving DecidableEq

namespace LineHeight

def normal : LineHeight := .multiple (.ofRatio false 12 10)

def height (fontSize : Length) : LineHeight → Length
  | multiple factor => fontSize.scale factor
  | absolute height => height

/-- Reads a line height. A number without a unit is a multiple; what is no length is the normal
height. -/
def read (fontSize : Length) (raw : String) : LineHeight :=
  if (Text.trimmed raw).toLower = "normal" then normal
  else
    match Quantity.read? raw.toList with
    | none => normal
    | some q =>
        if q.unit.isEmpty then .multiple q.value
        else
          let context : LengthContext :=
            { parentFontSize := some fontSize, percentageBase := some fontSize }
          match Length.read? context (Text.trimmed raw) with
          | some height => .absolute height
          | none => normal

end LineHeight

/-- The least and the greatest weight of a font. -/
def lightestWeight : Nat := 100

def heaviestWeight : Nat := 900

/-- A number brought into the range of font weights, without its fraction; zero for a NaN. -/
def weightOfNumber (x : Single) : Nat :=
  ((x.clamp (.ofNat lightestWeight) (.ofNat heaviestWeight)).truncate?.getD 0).toNat

/-- Reads a font weight: a keyword or a number, or else the normal weight. -/
def readFontWeight (raw : String) : Nat :=
  let word := (Text.trimmed raw).toLower
  match word with
  | "normal" => 400
  | "bold" => 700
  | "bolder" => 900
  | "lighter" => 300
  | _ => ((Binary.read? .single word.toList).map weightOfNumber).getD 400

def isQuote (c : Char) : Bool :=
  c == '"' || c == '\''

/-- A family name without blanks and quotes around it. -/
def familyName (piece : List Char) : List Char :=
  let bare := ((Text.trim piece).dropWhile isQuote).reverse.dropWhile isQuote
  Text.trim bare.reverse

def readFontFamily (raw : String) : List String :=
  (((Text.splitTopLevel ',' raw.toList).map familyName).filter (!·.isEmpty)).map String.ofList

def readFontStyle (word : String) : FontStyle :=
  if word = "italic" then .italic
  else if "oblique".toList.isPrefixOf word.toList then .oblique
  else .normal

def readTextAlign : String → TextAlign
  | "center" => .center
  | "right" => .right
  | "end" => .right
  | "justify" => .justify
  | _ => .left

def readVerticalAlign : String → VerticalAlign
  | "top" => .top
  | "middle" => .middle
  | "bottom" => .bottom
  | "sub" => .sub
  | "super" => .super
  | "text-top" => .textTop
  | "text-bottom" => .textBottom
  | _ => .baseline

def decorationWord? (word : List Char) : Option TextDecoration :=
  match String.ofList word with
  | "underline" => some .underline
  | "overline" => some .overline
  | "line-through" => some .lineThrough
  | "none" => some .none
  | _ => none

/-- The first word that is a decoration. -/
def readTextDecoration (value : String) : TextDecoration :=
  ((Text.words Text.isBlank value.toList).findSome? decorationWord?).getD .none

def readTextTransform : String → TextTransform
  | "uppercase" => .uppercase
  | "lowercase" => .lowercase
  | "capitalize" => .capitalize
  | _ => .none

structure TextStyle where
  fontSize : Length
  fontWeight : Nat
  fontStyle : FontStyle
  fontFamily : List String
  lineHeight : LineHeight
  color : Color
  background : Option Color
  textAlign : TextAlign
  verticalAlign : VerticalAlign
  decoration : TextDecoration
  transform : TextTransform
deriving DecidableEq

namespace TextStyle

/-- A property's value in lower case. -/
def wordOf? (style : StyleMap) (name : String) : Option String :=
  (style.get? name).map fun raw => (Text.trimmed raw).toLower

/-- The color behind the text; none where it is transparent or no color. -/
def backgroundOf (style : StyleMap) : Except ColorError (Option Color) :=
  match style.get? "background-color" with
  | none => .ok none
  | some raw => if (Text.trimmed raw).toLower = "transparent" then .ok none else Color.read? raw

/-- The text properties of a computed style. -/
def ofStyle (style : StyleMap) (fontSize : Length) : Except ColorError TextStyle := do
  let word (name : String) := (wordOf? style name).getD ""
  let color ← Color.ofText style
  let background ← backgroundOf style
  return {
    fontSize
    fontWeight := ((wordOf? style "font-weight").map readFontWeight).getD 400
    fontStyle := readFontStyle (word "font-style")
    fontFamily := ((style.get? "font-family").map readFontFamily).getD []
    lineHeight := ((style.get? "line-height").map (LineHeight.read fontSize)).getD .normal
    color
    background
    textAlign := readTextAlign (word "text-align")
    verticalAlign := readVerticalAlign (word "vertical-align")
    decoration :=
      (((wordOf? style "text-decoration-line").or (wordOf? style "text-decoration")).map
        readTextDecoration).getD .none
    transform := readTextTransform (word "text-transform") }

def isBold (style : TextStyle) : Bool :=
  600 ≤ style.fontWeight

def lineHeightLength (style : TextStyle) : Length :=
  style.lineHeight.height style.fontSize

end TextStyle

end ComputedStyle
