import ComputedStyle.BoxModel
import ComputedStyle.Document.FontSize
import ComputedStyle.Inheritance
import ComputedStyle.TextStyle

namespace ComputedStyle

/-- The steps from declarations to a styled document, in order. -/
inductive StyleStep where
  | inheritance
  | boxModel
  | typography
deriving DecidableEq, Repr

namespace StyleStep

def all : List StyleStep := [inheritance, boxModel, typography]

def name : StyleStep → String
  | inheritance => "inheritance"
  | boxModel => "box_model"
  | typography => "typography"

/-- The steps that are done before one. -/
def earlier (step : StyleStep) : List StyleStep :=
  all.takeWhile (· != step)

end StyleStep

/-- A color that ends a step. -/
structure StyleFault where
  step : StyleStep
  error : ColorError
deriving DecidableEq, Repr

structure StyledDocument where
  document : Document
  /-- By node, as are the boxes and the texts. -/
  fontSizes : Array Length
  /-- None for a text. -/
  boxes : Array (Option BoxModel)
  texts : Array TextStyle

namespace StyledDocument

/-- Where the lengths of a node's box refer to. -/
def boxContext (doc : Document) (sizes : Array Length) (base : Option Length) (id : NodeId) :
    LengthContext where
  parentFontSize := some (((doc.parent? id).bind (sizes[·]?)).getD defaultFontSize)
  rootFontSize := some ((doc.root?.bind (sizes[·]?)).getD defaultFontSize)
  percentageBase := base

def boxAt (doc : Document) (sizes : Array Length) (base : Option Length) (widths : BorderWidths)
    (id : NodeId) : Except ColorError (Option BoxModel) :=
  if doc.isElement id then do
    return some (← BoxModel.ofStyle (boxContext doc sizes base id) widths (doc.computed id))
  else .ok none

def textAt (doc : Document) (sizes : Array Length) (id : NodeId) : Except ColorError TextStyle :=
  TextStyle.ofStyle (doc.computed id) (sizes[id]?.getD defaultFontSize)

/-- Computes all styles of a tree whose declarations are merged: the boxes of all nodes before the
texts. -/
def ofDeclared (doc : Document) (base : Option Length) (widths : BorderWidths) :
    Except StyleFault StyledDocument := do
  let document := doc.inherit
  let sizes := document.fontSizes
  let boxes ← (document.ids.mapM (boxAt document sizes base widths)).mapError (⟨.boxModel, ·⟩)
  let texts ← (document.ids.mapM (textAt document sizes)).mapError (⟨.typography, ·⟩)
  return { document, fontSizes := sizes, boxes := boxes.toArray, texts := texts.toArray }

variable (styled : StyledDocument)

def size : Nat :=
  styled.document.size

def computedValue? (id : NodeId) (name : String) : Option String :=
  (styled.document.computed id).get? name

/-- The font size of a node; the default size for a number that is no node's. -/
def fontSize (id : NodeId) : Length :=
  styled.fontSizes[id]?.getD defaultFontSize

def box? (id : NodeId) : Option BoxModel :=
  styled.boxes[id]?.getD none

def text? (id : NodeId) : Option TextStyle :=
  styled.texts[id]?

end StyledDocument

end ComputedStyle
