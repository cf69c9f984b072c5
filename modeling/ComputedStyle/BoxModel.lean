import ComputedStyle.Color.Reading
import ComputedStyle.Dictionary
import ComputedStyle.Edges
import ComputedStyle.Declaration.Shorthand
import ComputedStyle.Length.Units

namespace ComputedStyle

inductive BoxSizing where
  | contentBox
  | borderBox
deriving DecidableEq, Repr

structure BorderEdge where
  /-- The declared width, also where the border is absent. -/
  width : Length
  /-- The style keyword in lower case. -/
  style : String
  color : Color
deriving DecidableEq

namespace BorderEdge

/-- A border is there if it is wider than zero and its style shows. -/
def isPresent (edge : BorderEdge) : Bool :=
  edge.width.isPositive && edge.style != "none" && edge.style != "hidden"

/-- The width that takes up space. -/
def usedWidth (edge : BorderEdge) : Length :=
  if edge.isPresent then edge.width else .zero

end BorderEdge

structure BoxModel where
  margin : Edges Length
  padding : Edges Length
  border : Edges BorderEdge
  /-- None for `auto` and for what is no length. -/
  width : Option Length
  height : Option Length
  sizing : BoxSizing
deriving DecidableEq

namespace BoxModel

variable (context : LengthContext) (widths : BorderWidths) (style : StyleMap)

/-- A length property; zero where it is missing or no length. -/
def lengthOf (name : String) : Length :=
  ((style.get? name).bind (Length.read? context)).getD .zero

/-- A size property. -/
def sizeOf? (name : String) : Option Length :=
  match style.get? name with
  | none => none
  | some raw =>
      if (Text.trimmed raw).toLower = "auto" then none else Length.read? context raw

/-- The width of a border that declares none. -/
def mediumWidth : Length :=
  .ofPixels ((widths.pixels? "medium").getD 3)

/-- A border; `current` is the color it has unless it declares one. -/
def borderEdge (current : Color) (side : Side) : Except ColorError BorderEdge := do
  return {
    width :=
      ((style.get? (borderProperty side .width)).bind
        (Length.readBorderWidth? context widths)).getD (mediumWidth widths)
    style :=
      ((style.get? (borderProperty side .style)).map fun raw => (Text.trimmed raw).toLower).getD
        "none"
    color := ← Color.ofProperty style (borderProperty side .color) current }

def sizingOf : BoxSizing :=
  match style.get? "box-sizing" with
  | some raw => if (Text.trimmed raw).toLower = "border-box" then .borderBox else .contentBox
  | none => .contentBox

/-- The box of a computed style. -/
def ofStyle : Except ColorError BoxModel := do
  let current ← Color.ofText style
  let border ← Edges.ofSidesM (borderEdge context widths style current)
  return {
    margin := .ofSides fun side => lengthOf context style (Spacing.margin.property side)
    padding := .ofSides fun side => lengthOf context style (Spacing.padding.property side)
    border
    width := sizeOf? context style "width"
    height := sizeOf? context style "height"
    sizing := sizingOf style }

variable (box : BoxModel)

/-- The widths of the borders; zero where one is absent. -/
def borderWidths : Edges Length :=
  box.border.map BorderEdge.usedWidth

def hasBorder : Bool :=
  box.border.toList.any BorderEdge.isPresent

/-- From a declared size to that of the border box, given padding and border. -/
def outward (size padding border : Length) : Length :=
  match box.sizing with
  | .borderBox => size
  | .contentBox => size + padding + border

/-- From a declared size to that of the content, given padding and border. -/
def inward (size padding border : Length) : Length :=
  match box.sizing with
  | .contentBox => size
  | .borderBox => max (size - padding - border) .zero

def totalWidth : Option Length :=
  box.width.map fun size => box.outward size box.padding.horizontal box.borderWidths.horizontal

def totalHeight : Option Length :=
  box.height.map fun size => box.outward size box.padding.vertical box.borderWidths.vertical

def contentWidth : Option Length :=
  box.width.map fun size => box.inward size box.padding.horizontal box.borderWidths.horizontal

def contentHeight : Option Length :=
  box.height.map fun size => box.inward size box.padding.vertical box.borderWidths.vertical

/-- Margin, padding and border on the left and right. -/
def horizontalSpacing : Length :=
  box.margin.horizontal + box.padding.horizontal + box.borderWidths.horizontal

def verticalSpacing : Length :=
  box.margin.vertical + box.padding.vertical + box.borderWidths.vertical

end BoxModel

end ComputedStyle
