import ComputedStyle.Html.Builder.Body

namespace ComputedStyle.Html

/-- Parts of a table, in whose place others may come. -/
def tablePartNames : List String := [
  "caption", "col", "colgroup", "tbody", "td", "tfoot", "th", "thead", "tr"]

def sectionNames : List String := ["tbody", "tfoot", "thead"]

namespace Builder

variable (b : Builder)

/-- Processes a token as in the body, with what it adds put before the table. -/
def fosterStep (token : Token) : Step :=
  let step := ({ b with fostering := true }).bodyStep token
  { step with builder := { step.builder with fostering := false } }

def popToTable : Builder :=
  b.popTo ElementName.boundsTableScope

def popToSection : Builder :=
  b.popTo (·.isIn ["tbody", "tfoot", "thead", "template", "html"])

def popToRow : Builder :=
  b.popTo (·.isIn ["tr", "template", "html"])

def inTableScope (name : String) : Bool :=
  b.inScopeNamed ElementName.boundsTableScope name

/-- Starts gathering text, if the current element holds no text of its own. -/
def tableCharacter (c : Char) : Step :=
  if b.currentIs (·.isIn ["table", "tbody", "tfoot", "thead", "tr"]) then
    ({ b with returnMode := b.mode, tableText := [] }).again .inTableText (.character c)
  else b.fosterStep (.character c)

def tableStart (tag : Tag) : Step :=
  if tag.name = "caption" then ((b.popToTable.addMarker.openTag tag).enter .inCaption).done
  else if tag.name = "colgroup" then ((b.popToTable.openTag tag).enter .inColumnGroup).done
  else if tag.name = "col" then
    (b.popToTable.openNamed "colgroup").again .inColumnGroup (.startTag tag)
  else if tag.isIn sectionNames then ((b.popToTable.openTag tag).enter .inTableBody).done
  else if tag.isIn ["td", "th", "tr"] then
    (b.popToTable.openNamed "tbody").again .inTableBody (.startTag tag)
  else if tag.name = "table" then
    if b.inTableScope "table" then
      let b := b.popThroughNamed "table"
      b.again b.ownMode (.startTag tag)
    else b.done
  else if tag.isIn ["style", "script", "template"] then b.headStart tag
  else if tag.name = "input" && isHidden tag then (b.addTag tag).done
  else if tag.name = "form" then
    if !b.hasOpen "template" && b.form?.isNone then
      ({ b.addTag tag with form? := some b.forest.size }).done
    else b.done
  else b.fosterStep (.startTag tag)

def tableEnd (name : String) : Step :=
  if name = "table" then
    if b.inTableScope "table" then (b.popThroughNamed "table").resetMode.done else b.done
  else if name = "body" || name = "html" || tablePartNames.contains name then b.done
  else if name = "template" then b.headEnd name
  else b.fosterStep (.endTag name)

def tableStep : Token → Step
  | .character c => b.tableCharacter c
  | .comment => b.addComment.done
  | .startTag tag => b.tableStart tag
  | .endTag name => b.tableEnd name
  | .doctype _ => b.done
  | .endOfText => b.bodyStep .endOfText

/-- Adds the text that was gathered in a table: before it, unless all of it is blank. -/
def addTableText : Builder :=
  let text := b.tableText.reverse
  let b := { b with tableText := [] }
  if text.all Text.isAsciiBlank then text.foldl addCharacter b
  else text.foldl (fun b c => (b.fosterStep (.character c)).builder) b

def tableTextStep : Token → Step
  | .character c =>
      if c = Char.ofNat 0 then b.done else ({ b with tableText := c :: b.tableText }).done
  | token => b.addTableText.again b.returnMode token

def closeCaption : Builder :=
  (b.impliedEnds.popThroughNamed "caption").clearToMarker

def captionStep : Token → Step
  | .startTag tag =>
      if tag.isIn tablePartNames then
        if b.inTableScope "caption" then b.closeCaption.again .inTable (.startTag tag) else b.done
      else b.bodyStart tag
  | .endTag name =>
      if name = "caption" then
        if b.inTableScope "caption" then (b.closeCaption.enter .inTable).done else b.done
      else if name = "table" then
        if b.inTableScope "caption" then b.closeCaption.again .inTable (.endTag name) else b.done
      else if name = "body" || name = "html" || tablePartNames.contains name then b.done
      else b.bodyEnd name
  | token => b.bodyStep token

/-- Leaves a group of columns. -/
def leaveColumns (token : Token) : Step :=
  if b.currentIsNamed "colgroup" then b.pop.again .inTable token else b.done

def columnGroupStep : Token → Step
  | .character c =>
      if Text.isAsciiBlank c then (b.addCharacter c).done else b.leaveColumns (.character c)
  | .comment => b.addComment.done
  | .startTag tag =>
      if tag.name = "html" then (b.mergeRoot tag).done
      else if tag.name = "col" then (b.addTag tag).done
      else if tag.name = "template" then b.headStart tag
      else b.leaveColumns (.startTag tag)
  | .endTag name =>
      if name = "colgroup" then
        if b.currentIsNamed "colgroup" then (b.pop.enter .inTable).done else b.done
      else if name = "col" then b.done
      else if name = "template" then b.headEnd name
      else b.leaveColumns (.endTag name)
  | .doctype _ => b.done
  | .endOfText => b.bodyStep .endOfText

def leaveSection (token : Token) : Step :=
  if b.inScope ElementName.boundsTableScope (·.isIn ["table", "tbody", "tfoot"]) then
    b.popToSection.pop.again .inTable token
  else b.done

def tableBodyStep : Token → Step
  | .startTag tag =>
      if tag.name = "tr" then ((b.popToSection.openTag tag).enter .inRow).done
      else if tag.isIn ["td", "th"] then
        (b.popToSection.openNamed "tr").again .inRow (.startTag tag)
      else if tag.isIn tablePartNames then b.leaveSection (.startTag tag)
      else b.tableStart tag
  | .endTag name =>
      if sectionNames.contains name then
        if b.inTableScope name then (b.popToSection.pop.enter .inTable).done else b.done
      else if name = "table" then b.leaveSection (.endTag name)
      else if name = "body" || name = "html" || tablePartNames.contains name then b.done
      else b.tableEnd name
  | token => b.tableStep token

def leaveRow (token : Token) : Step :=
  if b.inTableScope "tr" then b.popToRow.pop.again .inTableBody token else b.done

def rowStep : Token → Step
  | .startTag tag =>
      if tag.isIn ["td", "th"] then
        (((b.popToRow.openTag tag).enter .inCell).addMarker).done
      else if tag.isIn tablePartNames then b.leaveRow (.startTag tag)
      else b.tableStart tag
  | .endTag name =>
      if name = "tr" then
        if b.inTableScope "tr" then (b.popToRow.pop.enter .inTableBody).done else b.done
      else if name = "table" then b.leaveRow (.endTag name)
      else if sectionNames.contains name then
        if b.inTableScope name then b.leaveRow (.endTag name) else b.done
      else if name = "body" || name = "html" || tablePartNames.contains name then b.done
      else b.tableEnd name
  | token => b.tableStep token

def closeCell : Builder :=
  (b.impliedEnds.popThrough ElementName.isCell).clearToMarker

def cellStep : Token → Step
  | .startTag tag =>
      if tag.isIn tablePartNames then
        if b.inScope ElementName.boundsTableScope ElementName.isCell then
          b.closeCell.again .inRow (.startTag tag)
        else b.done
      else b.bodyStart tag
  | .endTag name =>
      if name = "td" || name = "th" then
        if b.inTableScope name then
          (((b.impliedEnds.popThroughNamed name).clearToMarker).enter .inRow).done
        else b.done
      else if name = "table" || name = "tr" || sectionNames.contains name then
        if b.inTableScope name then b.closeCell.again .inRow (.endTag name) else b.done
      else if name = "body" || name = "html" || tablePartNames.contains name then b.done
      else b.bodyEnd name
  | token => b.bodyStep token

def closeSelect : Builder :=
  b.popThroughNamed "select"

def inSelectScope : Bool :=
  b.inScopeNamed ElementName.boundsSelectScope "select"

def selectStart (tag : Tag) : Step :=
  let b' := if b.currentIsNamed "option" then b.pop else b
  if tag.name = "html" then (b.mergeRoot tag).done
  else if tag.name = "option" then (b'.openTag tag).done
  else if tag.name = "optgroup" then
    ((if b'.currentIsNamed "optgroup" then b'.pop else b').openTag tag).done
  else if tag.name = "select" then
    if b.inSelectScope then b.closeSelect.resetMode.done else b.done
  else if tag.isIn ["input", "keygen", "textarea"] then
    if b.inSelectScope then
      let b := b.closeSelect
      b.again b.ownMode (.startTag tag)
    else b.done
  else if tag.isIn ["script", "template"] then b.headStart tag
  else b.done

/-- Whether the current element is an option in a group. -/
def inGroupedOption : Bool :=
  match b.stack with
  | option :: group :: _ => option.name.isNamed "option" && group.name.isNamed "optgroup"
  | _ => false

def selectEnd (name : String) : Step :=
  if name = "optgroup" then
    let b := if b.inGroupedOption then b.pop else b
    (if b.currentIsNamed "optgroup" then b.pop else b).done
  else if name = "option" then (if b.currentIsNamed "option" then b.pop else b).done
  else if name = "select" then
    if b.inSelectScope then b.closeSelect.resetMode.done else b.done
  else if name = "template" then b.headEnd name
  else b.done

def selectStep : Token → Step
  | .character c => if c = Char.ofNat 0 then b.done else (b.addCharacter c).done
  | .comment => b.addComment.done
  | .startTag tag => b.selectStart tag
  | .endTag name => b.selectEnd name
  | .doctype _ => b.done
  | .endOfText => b.bodyStep .endOfText

/-- Parts of a table that end a selection inside it. -/
def endsSelection (name : String) : Bool :=
  ["caption", "table", "tbody", "tfoot", "thead", "tr", "td", "th"].contains name

def selectInTableStep : Token → Step
  | .startTag tag =>
      if endsSelection tag.name then
        let b := b.closeSelect
        b.again b.ownMode (.startTag tag)
      else b.selectStart tag
  | .endTag name =>
      if endsSelection name then
        if b.inTableScope name then
          let b := b.closeSelect
          b.again b.ownMode (.endTag name)
        else b.done
      else b.selectEnd name
  | token => b.selectStep token

/-- Goes on in a template in another mode. -/
def templateAgain (mode : Mode) (tag : Tag) : Step :=
  ({ b with templateModes := mode :: b.templateModes.tail }).again mode (.startTag tag)

def templateStep : Token → Step
  | .startTag tag =>
      if tag.isIn headNames then b.headStart tag
      else if tag.name = "caption" || tag.name = "colgroup" || tag.isIn sectionNames then
        b.templateAgain .inTable tag
      else if tag.name = "col" then b.templateAgain .inColumnGroup tag
      else if tag.name = "tr" then b.templateAgain .inTableBody tag
      else if tag.isIn ["td", "th"] then b.templateAgain .inRow tag
      else b.templateAgain .inBody tag
  | .endTag name => if name = "template" then b.headEnd name else b.done
  | .endOfText => b.templateEnd
  | token => b.bodyStep token

end Builder

end ComputedStyle.Html
