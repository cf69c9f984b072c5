import ComputedStyle.Html.Forest
import ComputedStyle.Html.RawText

namespace ComputedStyle.Html

/-- Which rules are in force. -/
inductive Mode where
  | initial
  | beforeHtml
  | beforeHead
  | inHead
  | afterHead
  | inBody
  /-- In an element that holds no markup. -/
  | inText
  | inTable
  /-- Gathering text between the parts of a table. -/
  | inTableText
  | inCaption
  | inColumnGroup
  | inTableBody
  | inRow
  | inCell
  | inSelect
  | inSelectInTable
  | inTemplate
  | afterBody
  | inFrameset
  | afterFrameset
  | afterAfterBody
  | afterAfterFrameset
deriving DecidableEq, Repr

structure OpenElement where
  id : Nat
  name : ElementName
deriving DecidableEq, Repr

/-- Formatting elements are opened again where their end is out of order, up to the last marker. -/
inductive Formatting where
  | marker
  | element (id : Nat) (tag : Tag)
deriving DecidableEq, Repr

structure Builder where
  forest : Forest := .start
  /-- The open elements, innermost first. -/
  stack : List OpenElement := []
  /-- The formatting elements, latest first. -/
  formatting : List Formatting := []
  head? : Option Nat := none
  form? : Option Nat := none
  mode : Mode := .initial
  /-- The mode after text. -/
  returnMode : Mode := .inBody
  /-- The modes of open templates, innermost first. -/
  templateModes : List Mode := []
  framesetAllowed : Bool := true
  /-- Whether what does not belong in a table is put before it. -/
  fostering : Bool := false
  skipsNewline : Bool := false
  lenient : Bool := false
  /-- The text in a table so far, latest first. -/
  tableText : List Char := []
  model : ContentModel := .markup

/-- What a token leaves: the state, and the mode and token to go on with, if any. -/
structure Step where
  builder : Builder
  next : Option (Mode × Token) := none

namespace Builder

variable (b : Builder)

def done : Step := { builder := b }

def again (mode : Mode) (token : Token) : Step := { builder := b, next := some (mode, token) }

def currentIs (p : ElementName → Bool) : Bool :=
  b.stack.head?.any fun element => p element.name

def currentIsNamed (name : String) : Bool :=
  b.currentIs (·.isNamed name)

def hasOpen (name : String) : Bool :=
  b.stack.any fun element => element.name.isNamed name

def push (element : OpenElement) : Builder :=
  { b with stack := element :: b.stack }

def pop : Builder :=
  { b with stack := b.stack.tail }

/-- Closes elements down to one of some kind, which stays open. -/
def popTo (p : ElementName → Bool) : Builder :=
  { b with stack := b.stack.dropWhile (!p ·.name) }

/-- Closes elements down to one of some kind, and that one. -/
def popThrough (p : ElementName → Bool) : Builder :=
  (b.popTo p).pop

def popThroughNamed (name : String) : Builder :=
  b.popThrough (·.isNamed name)

/-- Closes elements as long as they are of some kind. -/
def popWhile (p : ElementName → Bool) : Builder :=
  { b with stack := b.stack.dropWhile (p ·.name) }

/-- Closes elements whose end may be implied, other than those of a name. -/
def impliedEndsExcept (name : String) : Builder :=
  b.popWhile fun element => element.impliesEnd && !element.isNamed name

def impliedEnds : Builder :=
  b.popWhile ElementName.impliesEnd

def remove (id : Nat) : Builder :=
  { b with stack := b.stack.eraseP (·.id == id) }

/-- Whether there is such an element before a bound. -/
def within (bounds : ElementName → Bool) (p : OpenElement → Bool) : List OpenElement → Bool
  | [] => false
  | element :: rest => p element || (!bounds element.name && within bounds p rest)

def inScope (bounds : ElementName → Bool) (p : ElementName → Bool) : Bool :=
  within bounds (p ·.name) b.stack

def inScopeNamed (bounds : ElementName → Bool) (name : String) : Bool :=
  b.inScope bounds (·.isNamed name)

/-- The outermost element. -/
def html? : Option OpenElement :=
  b.stack.getLast?

/-- The element just inside the outermost one, if it is a body. -/
def body? : Option OpenElement :=
  (b.stack.dropLast.getLast?).filter (·.name.isNamed "body")

inductive Spot where
  | inside (parent : Nat)
  | before (sibling : Nat)

/-- The spot for what does not belong in a table: before it, or in the element that holds it. -/
def fosterSpot : List OpenElement → Spot
  | [] => .inside Forest.root
  | [html] => .inside html.id
  | element :: holder :: rest =>
      if element.name.isNamed "template" then .inside element.id
      else if element.name.isNamed "table" then
        if (b.forest.parent? element.id).isSome then .before element.id else .inside holder.id
      else fosterSpot (holder :: rest)

/-- The spot for what is put into an element. -/
def spotIn (target : OpenElement) : Spot :=
  if b.fostering && target.name.isIn ["table", "tbody", "tfoot", "thead", "tr"] then
    b.fosterSpot b.stack
  else .inside target.id

def spot : Spot :=
  match b.stack with
  | [] => .inside Forest.root
  | element :: _ => b.spotIn element

def putAt (id : Nat) : Spot → Builder
  | .inside parent => { b with forest := b.forest.append parent id }
  | .before sibling => { b with forest := b.forest.insertBefore sibling id }

def addCharacter (c : Char) : Builder :=
  match b.spot with
  | .inside parent => { b with forest := b.forest.appendCharacter parent c }
  | .before sibling => { b with forest := b.forest.insertCharacter sibling c }

def addComment : Builder :=
  let spot := b.spot
  ({ b with forest := b.forest.create .comment }).putAt b.forest.size spot

/-- Adds a comment at the end of a node. -/
def addCommentTo (parent : Nat) : Builder :=
  { b with forest := (b.forest.create .comment).append parent b.forest.size }

/-- Adds an element that stays closed. -/
def addElement (vocabulary : Vocabulary) (tag : Tag) : Builder :=
  let spot := b.spot
  let item := Item.element ⟨vocabulary, tag.name⟩ (.ofTag vocabulary tag)
  ({ b with forest := b.forest.create item }).putAt b.forest.size spot

/-- Adds an element and opens it. -/
def openElement (vocabulary : Vocabulary) (tag : Tag) : Builder :=
  (b.addElement vocabulary tag).push ⟨b.forest.size, ⟨vocabulary, tag.name⟩⟩

def openTag (tag : Tag) : Builder :=
  b.openElement .html tag

/-- Adds an element for which there is no tag, and opens it. -/
def openNamed (name : String) : Builder :=
  b.openTag { name }

def addTag (tag : Tag) : Builder :=
  b.addElement .html tag

/-- Opens the outermost element. -/
def openRoot (tag : Tag) : Builder :=
  let id := b.forest.size
  let item := Item.element (.html "html") (.ofTag .html tag)
  ({ b with forest := (b.forest.create item).append Forest.root id }).push ⟨id, .html "html"⟩

/-- Opens an element that holds no markup. -/
def openText (tag : Tag) (model : ContentModel) : Builder :=
  { b.openTag tag with model, returnMode := b.mode, mode := .inText }

/-- Gives the outermost element the attributes of a tag that it lacks. -/
def mergeRoot (tag : Tag) : Builder :=
  match b.html? with
  | some html =>
      if b.hasOpen "template" then b else { b with forest := b.forest.addMissing html.id tag }
  | none => b

def selectMode (around : List OpenElement) : Mode :=
  match around.find? (·.name.isIn ["template", "table"]) with
  | some element => if element.name.isNamed "table" then .inSelectInTable else .inSelect
  | none => .inSelect

/-- The mode that the innermost element with rules of its own asks for. -/
def modeOf : List OpenElement → Mode
  | [] => .inBody
  | element :: around =>
      let name := element.name
      if name.isNamed "select" then selectMode around
      else if name.isCell && !around.isEmpty then .inCell
      else if name.isNamed "tr" then .inRow
      else if name.isIn ["tbody", "thead", "tfoot"] then .inTableBody
      else if name.isNamed "caption" then .inCaption
      else if name.isNamed "colgroup" then .inColumnGroup
      else if name.isNamed "table" then .inTable
      else if name.isNamed "template" then b.templateModes.headD .inBody
      else if name.isNamed "head" && !around.isEmpty then .inHead
      else if name.isNamed "body" then .inBody
      else if name.isNamed "frameset" then .inFrameset
      else if name.isNamed "html" then if b.head?.isSome then .afterHead else .beforeHead
      else modeOf around

def ownMode : Mode :=
  b.modeOf b.stack

def enter (mode : Mode) : Builder :=
  { b with mode }

/-- Takes up the mode that the open elements ask for. -/
def resetMode : Builder :=
  b.enter b.ownMode

def forbidFrameset : Builder :=
  { b with framesetAllowed := false }

end Builder

end ComputedStyle.Html
