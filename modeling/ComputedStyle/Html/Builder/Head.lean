import ComputedStyle.Html.Builder.Formatting
import ComputedStyle.Html.Doctype

namespace ComputedStyle.Html

def Tag.isIn (tag : Tag) (names : List String) : Bool :=
  names.contains tag.name

/-- Start tags that belong in a head wherever they come. -/
def headNames : List String := [
  "base", "basefont", "bgsound", "link", "meta", "noframes", "script", "style", "template", "title"]

/-- End tags that may stand before an element for which there is no tag. -/
def lenientEnds : List String := ["head", "body", "html", "br"]

namespace Builder

variable (b : Builder)

def leaveTemplateMode : Builder :=
  { b with templateModes := b.templateModes.tail }

/-- Ends a template. -/
def closeTemplate : Builder :=
  let b := (b.popWhile ElementName.impliesEndInTemplate).popThroughNamed "template"
  b.clearToMarker.leaveTemplateMode.resetMode

def openTemplate (tag : Tag) : Builder :=
  let b := ((b.openTag tag).addMarker.forbidFrameset).enter .inTemplate
  { b with templateModes := .inTemplate :: b.templateModes }

def headStart (tag : Tag) : Step :=
  if tag.name = "html" then (b.mergeRoot tag).done
  else if tag.isIn ["base", "basefont", "bgsound", "link", "meta"] then (b.addTag tag).done
  else if tag.name = "title" then (b.openText tag (.escapable "title")).done
  else if tag.isIn ["noframes", "style", "noscript"] then (b.openText tag (.raw tag.name)).done
  else if tag.name = "script" then (b.openText tag .script).done
  else if tag.name = "template" then (b.openTemplate tag).done
  else if tag.name = "head" then b.done
  else b.pop.again .afterHead (.startTag tag)

def headEnd (name : String) : Step :=
  if name = "head" then (b.pop.enter .afterHead).done
  else if ["body", "html", "br"].contains name then b.pop.again .afterHead (.endTag name)
  else if name = "template" then
    if b.hasOpen "template" then b.closeTemplate.done else b.done
  else b.done

def headStep : Token → Step
  | .character c =>
      if Text.isAsciiBlank c then (b.addCharacter c).done else b.pop.again .afterHead (.character c)
  | .comment => b.addComment.done
  | .startTag tag => b.headStart tag
  | .endTag name => b.headEnd name
  | .doctype _ => b.done
  | .endOfText => b.pop.again .afterHead .endOfText

/-- Goes on without a doctype. -/
def beginLenient (token : Token) : Step :=
  ({ b with lenient := true }).again .beforeHtml token

def initialStep : Token → Step
  | .character c => if Text.isAsciiBlank c then b.done else b.beginLenient (.character c)
  | .comment => (b.addCommentTo Forest.root).done
  | .doctype doctype => ({ b with lenient := doctype.isLenient, mode := .beforeHtml }).done
  | token => b.beginLenient token

/-- Opens the outermost element though there is no tag for it. -/
def supplyRoot (token : Token) : Step :=
  (b.openRoot { name := "html" }).again .beforeHead token

def beforeHtmlStep : Token → Step
  | .character c => if Text.isAsciiBlank c then b.done else b.supplyRoot (.character c)
  | .comment => (b.addCommentTo Forest.root).done
  | .startTag tag =>
      if tag.name = "html" then ((b.openRoot tag).enter .beforeHead).done
      else b.supplyRoot (.startTag tag)
  | .endTag name => if lenientEnds.contains name then b.supplyRoot (.endTag name) else b.done
  | .doctype _ => b.done
  | .endOfText => b.supplyRoot .endOfText

def openHead (tag : Tag) : Builder :=
  { b.openTag tag with head? := some b.forest.size }

/-- Opens a head though there is no tag for it. -/
def supplyHead (token : Token) : Step :=
  (b.openHead { name := "head" }).again .inHead token

def beforeHeadStep : Token → Step
  | .character c => if Text.isAsciiBlank c then b.done else b.supplyHead (.character c)
  | .comment => b.addComment.done
  | .startTag tag =>
      if tag.name = "html" then (b.mergeRoot tag).done
      else if tag.name = "head" then ((b.openHead tag).enter .inHead).done
      else b.supplyHead (.startTag tag)
  | .endTag name => if lenientEnds.contains name then b.supplyHead (.endTag name) else b.done
  | .doctype _ => b.done
  | .endOfText => b.supplyHead .endOfText

/-- Processes a tag as in the head, which is open meanwhile. -/
def returnToHead (tag : Tag) : Step :=
  match b.head? with
  | none => b.done
  | some id =>
      let step := (b.push ⟨id, .html "head"⟩).headStart tag
      { step with builder := step.builder.remove id }

/-- Opens a body though there is no tag for it. -/
def supplyBody (token : Token) : Step :=
  (b.openNamed "body").again .inBody token

def afterHeadStep : Token → Step
  | .character c =>
      if Text.isAsciiBlank c then (b.addCharacter c).done else b.supplyBody (.character c)
  | .comment => b.addComment.done
  | .startTag tag =>
      if tag.name = "html" then (b.mergeRoot tag).done
      else if tag.name = "body" then (((b.openTag tag).forbidFrameset).enter .inBody).done
      else if tag.name = "frameset" then ((b.openTag tag).enter .inFrameset).done
      else if tag.isIn headNames then b.returnToHead tag
      else if tag.name = "head" then b.done
      else b.supplyBody (.startTag tag)
  | .endTag name =>
      if name = "template" then b.headEnd name
      else if ["body", "html", "br"].contains name then b.supplyBody (.endTag name)
      else b.done
  | .doctype _ => b.done
  | .endOfText => b.supplyBody .endOfText

/-- The end of the text inside a template closes it. -/
def templateEnd : Step :=
  if b.hasOpen "template" then
    let b := (b.popThroughNamed "template").clearToMarker.leaveTemplateMode
    b.again b.ownMode .endOfText
  else b.done

end Builder

end ComputedStyle.Html
