import ComputedStyle.Html.Builder.After
import ComputedStyle.Html.Builder.Table
import ComputedStyle.Html.Scan

namespace ComputedStyle.Html

namespace Builder

variable (b : Builder)

/-- Processes a token by the rules of a mode. -/
def stepIn (mode : Mode) (token : Token) : Step :=
  match mode with
  | .initial => b.initialStep token
  | .beforeHtml => b.beforeHtmlStep token
  | .beforeHead => b.beforeHeadStep token
  | .inHead => b.headStep token
  | .afterHead => b.afterHeadStep token
  | .inBody => b.bodyStep token
  | .inText => b.textStep token
  | .inTable => b.tableStep token
  | .inTableText => b.tableTextStep token
  | .inCaption => b.captionStep token
  | .inColumnGroup => b.columnGroupStep token
  | .inTableBody => b.tableBodyStep token
  | .inRow => b.rowStep token
  | .inCell => b.cellStep token
  | .inSelect => b.selectStep token
  | .inSelectInTable => b.selectInTableStep token
  | .inTemplate => b.templateStep token
  | .afterBody => b.afterBodyStep token
  | .inFrameset => b.framesetStep token
  | .afterFrameset => b.afterFramesetStep token
  | .afterAfterBody => b.afterAfterBodyStep token
  | .afterAfterFrameset => b.afterAfterFramesetStep token

/-- Start tags that do not occur in foreign elements. -/
def breakoutNames : List String := [
  "b", "big", "blockquote", "body", "br", "center", "code", "dd", "div", "dl", "dt", "em", "embed",
  "h1", "h2", "h3", "h4", "h5", "h6", "head", "hr", "i", "img", "li", "listing", "menu", "meta",
  "nobr", "ol", "p", "pre", "ruby", "s", "small", "span", "strong", "strike", "sub", "sup", "table",
  "tt", "u", "ul", "var"]

def breaksOut (tag : Tag) : Bool :=
  tag.isIn breakoutNames ||
    (tag.name == "font" && ["color", "face", "size"].any fun name => (tag.attribute? name).isSome)

/-- Whether a start tag in a foreign element is read as in HTML. -/
def integratesTag (name : ElementName) (tag : Tag) : Bool :=
  name.isHtmlIntegration ||
    (name.isTextIntegration && !tag.isIn ["mglyph", "malignmark"]) ||
    (name == ⟨.math, "annotation-xml"⟩ && tag.name == "svg")

/-- Whether a token is processed by the rules for foreign elements. -/
def isForeign (token : Token) : Bool :=
  match b.stack with
  | [] => false
  | element :: _ =>
      !element.name.isHtml &&
        match token with
        | .character _ => !element.name.isIntegration
        | .startTag tag => !integratesTag element.name tag
        | .endOfText => false
        | _ => true

def leaveForeign : Builder :=
  b.pop.popTo fun element => element.isHtml || element.isIntegration

/-- Closes a foreign element; `first` tells whether no element was passed yet. -/
def foreignEnd (name : String) (first : Bool) : List OpenElement → Step
  | [] => b.done
  | [_] => b.done
  | element :: rest =>
      if !first && element.name.isHtml then b.stepIn b.mode (.endTag name)
      else if element.name.name == name then ({ b with stack := rest }).done
      else foreignEnd name false rest

def foreignStep (token : Token) : Step :=
  match token with
  | .character c =>
      if c = Char.ofNat 0 then (b.addCharacter replacement).done
      else ((if Text.isAsciiBlank c then b else b.forbidFrameset).addCharacter c).done
  | .comment => b.addComment.done
  | .startTag tag =>
      if breaksOut tag then b.leaveForeign.again b.mode (.startTag tag)
      else
        match b.stack with
        | element :: _ => (b.openForeign element.name.vocabulary tag).done
        | [] => b.done
  | .endTag name => b.foreignEnd name true b.stack
  | _ => b.done

def step (token : Token) : Step :=
  if b.isForeign token then b.foreignStep token else b.stepIn b.mode token

/-- Processes a token, going on with it at most so many times. -/
def settle : Nat → Builder → Token → Builder
  | 0, b, _ => b
  | turns + 1, b, token =>
      match b.step token with
      | ⟨b, none⟩ => b
      | ⟨b, some (mode, token)⟩ => settle turns (b.enter mode) token

/-- More turns than a token takes: each closes an element, opens one of the few that were missing, or
is the last but a few. -/
def turns : Nat :=
  4 * b.stack.length + 64

/-- Processes a token. A line break at the start of preformatted text is left out, and so is a
doctype that comes late. -/
def process (token : Token) : Builder :=
  let skips := b.skipsNewline && token == .character '\n'
  let b := { b with skipsNewline := false }
  match token with
  | .doctype _ => if b.mode = .initial then settle b.turns b token else b
  | _ => if skips then b else settle b.turns b token

/-- Processes a text. -/
def read (b : Builder) (s : List Char) : Builder :=
  if h : s = [] then b.process .endOfText
  else
    let foreign := b.stack.head?.any fun element => !element.name.isHtml
    let scanned := scan b.model foreign s
    have := length_scan_lt b.model foreign h
    (scanned.tokens.foldl process { b with model := .markup }).read scanned.rest
termination_by s.length

end Builder

/-- Line breaks as single line feeds. -/
def normalizeBreaks : List Char → List Char
  | '\r' :: '\n' :: s => '\n' :: normalizeBreaks s
  | '\r' :: s => '\n' :: normalizeBreaks s
  | c :: s => c :: normalizeBreaks s
  | [] => []

/-- The text without a byte order mark. -/
def withoutMark : List Char → List Char
  | '\uFEFF' :: s => s
  | s => s

/-- The nodes of the document of an HTML text. -/
def parse (text : String) : List Markup :=
  (({} : Builder).read (normalizeBreaks (withoutMark text.toList))).forest.document

end ComputedStyle.Html
