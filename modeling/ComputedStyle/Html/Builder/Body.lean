import ComputedStyle.Html.Builder.Head

namespace ComputedStyle.Html

/-- Elements that end a paragraph. -/
def blockNames : List String := [
  "address", "article", "aside", "blockquote", "center", "details", "dialog", "dir", "div", "dl",
  "fieldset", "figcaption", "figure", "footer", "header", "hgroup", "main", "menu", "nav", "ol",
  "p", "section", "summary", "ul"]

/-- Elements that are closed by their own end tags. -/
def closableNames : List String := [
  "address", "article", "aside", "blockquote", "button", "center", "details", "dialog", "dir",
  "div", "dl", "fieldset", "figcaption", "figure", "footer", "header", "hgroup", "listing", "main",
  "menu", "nav", "ol", "pre", "section", "summary", "ul"]

def headingNames : List String := ["h1", "h2", "h3", "h4", "h5", "h6"]

def formattingNames : List String := [
  "b", "big", "code", "em", "font", "i", "s", "small", "strike", "strong", "tt", "u"]

/-- Tags that belong in a table or at the top of a document. -/
def misplacedNames : List String := [
  "caption", "col", "colgroup", "frame", "head", "tbody", "td", "tfoot", "th", "thead", "tr"]

namespace Builder

variable (b : Builder)

def addBodyCharacter (c : Char) : Builder :=
  let b := b.reopenFormatting
  (if Text.isAsciiBlank c then b else b.forbidFrameset).addCharacter c

def closeParagraph : Builder :=
  (b.impliedEndsExcept "p").popThroughNamed "p"

/-- Closes a paragraph, if one is open around here. -/
def endParagraph : Builder :=
  if b.inScopeNamed ElementName.boundsButtonScope "p" then b.closeParagraph else b

/-- Gives the body the attributes of a tag that it lacks. -/
def mergeBody (tag : Tag) : Builder :=
  match b.body? with
  | some body =>
      if b.hasOpen "template" then b
      else { b.forbidFrameset with forest := b.forest.addMissing body.id tag }
  | none => b

/-- Replaces the body by a frameset, if nothing is in it yet. -/
def replaceBody (tag : Tag) : Builder :=
  match b.body?, b.html? with
  | some body, some html =>
      if b.framesetAllowed then
        let b := { b with forest := b.forest.detach body.id, stack := [html] }
        (b.openTag tag).enter .inFrameset
      else b
  | _, _ => b

def itemToClose? (names : List String) : List OpenElement → Option String
  | [] => none
  | element :: rest =>
      if element.name.isIn names then some element.name.name
      else if element.name.isSpecial && !element.name.isIn ["address", "div", "p"] then none
      else itemToClose? names rest

def openItem (names : List String) (tag : Tag) : Builder :=
  let b := b.forbidFrameset
  let b :=
    match itemToClose? names b.stack with
    | some name => (b.impliedEndsExcept name).popThroughNamed name
    | none => b
  b.endParagraph.openTag tag

def openForm (tag : Tag) : Builder :=
  if b.hasOpen "template" then b.endParagraph.openTag tag
  else if b.form?.isSome then b
  else
    let b := b.endParagraph
    { b.openTag tag with form? := some b.forest.size }

def closeForm : Builder :=
  if b.hasOpen "template" then
    if b.inScopeNamed ElementName.boundsScope "form" then b.impliedEnds.popThroughNamed "form" else b
  else
    match b.form? with
    | none => b
    | some id =>
        let b := { b with form? := none }
        if within ElementName.boundsScope (·.id == id) b.stack then b.impliedEnds.remove id else b

def openButton (tag : Tag) : Builder :=
  let b :=
    if b.inScopeNamed ElementName.boundsScope "button" then b.impliedEnds.popThroughNamed "button"
    else b
  (b.reopenFormatting.openTag tag).forbidFrameset

/-- A link inside a link ends the outer one. -/
def openLink (tag : Tag) : Builder :=
  let outer := b.sinceMarker.find? (·.isNamed "a")
  let b :=
    match outer with
    | some (.element id _) => ((b.closeFormatting "a").forget id).remove id
    | _ => b
  b.reopenFormatting.openFormatting tag

def openNobr (tag : Tag) : Builder :=
  let b := b.reopenFormatting
  let b :=
    if b.inScopeNamed ElementName.boundsScope "nobr" then
      (b.closeFormatting "nobr").reopenFormatting
    else b
  b.openFormatting tag

def openTable (tag : Tag) : Builder :=
  let b := if b.lenient then b else b.endParagraph
  ((b.openTag tag).forbidFrameset).enter .inTable

def isHidden (tag : Tag) : Bool :=
  (tag.attribute? "type").any (·.toLower = "hidden")

def addVoid (tag : Tag) : Builder :=
  let b := b.reopenFormatting.addTag tag
  if tag.name = "input" && isHidden tag then b else b.forbidFrameset

def openSelect (tag : Tag) : Builder :=
  let b := (b.reopenFormatting.openTag tag).forbidFrameset
  b.enter (if [.inTable, .inCaption, .inTableBody, .inRow, .inCell].contains b.mode then
    .inSelectInTable else .inSelect)

def openOption (tag : Tag) : Builder :=
  (if b.currentIsNamed "option" then b.pop else b).reopenFormatting.openTag tag

/-- Opens the part of an annotation. -/
def openRuby (keep : Option String) (tag : Tag) : Builder :=
  let b :=
    if b.inScopeNamed ElementName.boundsScope "ruby" then
      match keep with
      | some name => b.impliedEndsExcept name
      | none => b.impliedEnds
    else b
  b.openTag tag

/-- Opens the outermost element of a foreign vocabulary. -/
def openForeign (vocabulary : Vocabulary) (tag : Tag) : Builder :=
  if tag.selfClosing then b.addElement vocabulary tag else b.openElement vocabulary tag

def openHeading (tag : Tag) : Builder :=
  let b := b.endParagraph
  (if b.currentIs ElementName.isHeading then b.pop else b).openTag tag

def openPre (tag : Tag) : Builder :=
  { (b.endParagraph.openTag tag).forbidFrameset with skipsNewline := true }

/-- Opens elements that hold text. -/
def openBodyText (tag : Tag) : Builder :=
  if tag.name = "textarea" then
    { b.forbidFrameset.openText tag (.escapable "textarea") with skipsNewline := true }
  else if tag.name = "xmp" then
    (b.endParagraph.reopenFormatting.forbidFrameset).openText tag (.raw "xmp")
  else if tag.name = "iframe" then b.forbidFrameset.openText tag (.raw "iframe")
  else b.openText tag (.raw tag.name)

/-- Elements of the body, by their start tags. -/
def openInBody (tag : Tag) : Builder :=
  if tag.isIn blockNames then b.endParagraph.openTag tag
  else if tag.isIn headingNames then b.openHeading tag
  else if tag.isIn ["pre", "listing"] then b.openPre tag
  else if tag.name = "form" then b.openForm tag
  else if tag.name = "li" then b.openItem ["li"] tag
  else if tag.isIn ["dd", "dt"] then b.openItem ["dd", "dt"] tag
  else if tag.name = "plaintext" then { b.endParagraph.openTag tag with model := .plain }
  else if tag.name = "button" then b.openButton tag
  else if tag.name = "a" then b.openLink tag
  else if tag.isIn formattingNames then b.reopenFormatting.openFormatting tag
  else if tag.name = "nobr" then b.openNobr tag
  else if tag.isIn ["applet", "marquee", "object"] then
    (b.reopenFormatting.openTag tag).addMarker.forbidFrameset
  else if tag.name = "table" then b.openTable tag
  else if tag.isIn ["area", "br", "embed", "img", "keygen", "wbr", "input"] then b.addVoid tag
  else if tag.name = "image" then b.addVoid { tag with name := "img" }
  else if tag.isIn ["param", "source", "track"] then b.addTag tag
  else if tag.name = "hr" then (b.endParagraph.addTag tag).forbidFrameset
  else if tag.isIn ["textarea", "xmp", "iframe", "noembed", "noscript"] then b.openBodyText tag
  else if tag.name = "select" then b.openSelect tag
  else if tag.isIn ["optgroup", "option"] then b.openOption tag
  else if tag.isIn ["rb", "rtc"] then b.openRuby none tag
  else if tag.isIn ["rp", "rt"] then b.openRuby (some "rtc") tag
  else if tag.name = "math" then b.openForeign .math tag
  else if tag.name = "svg" then b.openForeign .svg tag
  else if tag.isIn misplacedNames then b
  else b.reopenFormatting.openTag tag

def bodyStart (tag : Tag) : Step :=
  if tag.name = "html" then (b.mergeRoot tag).done
  else if tag.isIn headNames then b.headStart tag
  else if tag.name = "body" then (b.mergeBody tag).done
  else if tag.name = "frameset" then (b.replaceBody tag).done
  else (b.openInBody tag).done

/-- Closes an element of its own end tag. -/
def closeNamed (bounds : ElementName → Bool) (name : String) : Builder :=
  if b.inScopeNamed bounds name then b.impliedEnds.popThroughNamed name else b

def closeItem (bounds : ElementName → Bool) (name : String) : Builder :=
  if b.inScopeNamed bounds name then (b.impliedEndsExcept name).popThroughNamed name else b

/-- Closes the element of an end tag. -/
def closeInBody (name : String) : Builder :=
  if closableNames.contains name then b.closeNamed ElementName.boundsScope name
  else if name = "form" then b.closeForm
  else if name = "p" then
    (if b.inScopeNamed ElementName.boundsButtonScope "p" then b else b.openNamed "p").closeParagraph
  else if name = "li" then b.closeItem ElementName.boundsListScope name
  else if name = "dd" || name = "dt" then b.closeItem ElementName.boundsScope name
  else if headingNames.contains name then
    if b.inScope ElementName.boundsScope ElementName.isHeading then
      b.impliedEnds.popThrough ElementName.isHeading
    else b
  else if name = "a" || name = "nobr" || formattingNames.contains name then b.closeFormatting name
  else if ["applet", "marquee", "object"].contains name then
    if b.inScopeNamed ElementName.boundsScope name then
      (b.impliedEnds.popThroughNamed name).clearToMarker
    else b
  else if name = "br" then b.addVoid { name }
  else b.closeOther name

def bodyEnd (name : String) : Step :=
  if name = "template" then b.headEnd name
  else if name = "body" then
    if b.inScopeNamed ElementName.boundsScope "body" then (b.enter .afterBody).done else b.done
  else if name = "html" then
    if b.inScopeNamed ElementName.boundsScope "body" then b.again .afterBody (.endTag name)
    else b.done
  else (b.closeInBody name).done

def bodyStep : Token → Step
  | .character c => if c = Char.ofNat 0 then b.done else (b.addBodyCharacter c).done
  | .comment => b.addComment.done
  | .startTag tag => b.bodyStart tag
  | .endTag name => b.bodyEnd name
  | .doctype _ => b.done
  | .endOfText => if b.templateModes.isEmpty then b.done else b.templateEnd

/-- The rules in an element that holds no markup. -/
def textStep : Token → Step
  | .character c => (b.addCharacter c).done
  | .endTag _ => (b.pop.enter b.returnMode).done
  | .endOfText => b.pop.again b.returnMode .endOfText
  | _ => b.done

end Builder

end ComputedStyle.Html
