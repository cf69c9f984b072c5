import ComputedStyle.Digest
import ComputedStyle.Selector.Matching
import ComputedStyle.Stylesheet

namespace ComputedStyle

abbrev RuleId := Nat

/-- Why styling fails. -/
inductive StyleError where
  | selector (error : SelectorError)
  | color (error : ColorError)
  | document (error : DocumentError)
deriving DecidableEq, Repr

inductive Origin where
  | userAgent
  | author
deriving DecidableEq, Repr

/-- Rules of the user agent come before those of an author. -/
def Origin.rank : Origin → Nat
  | userAgent => 0
  | author => 1

structure Rule where
  id : RuleId
  selectorText : String
  selectors : SelectorGroup
  declarations : StyleMap
  specificity : Specificity
  origin : Origin

namespace Rule

def holdsFor (rule : Rule) (doc : Document) (node : NodeId) : Bool :=
  rule.selectors.holdsFor doc node

/-- Whether a rule comes before another by origin and specificity alone. -/
def weaker (a b : Rule) : Bool :=
  a.origin.rank < b.origin.rank ||
    (a.origin.rank == b.origin.rank && a.specificity.lt b.specificity)

/-- Cascade order: origin, specificity, place in the set. -/
def precedes (a b : Rule) : Bool :=
  a.weaker b || (!b.weaker a && a.id < b.id)

end Rule

structure RuleSet where
  rules : Array Rule := #[]
  skipped : List SkippedRule := []
  /-- How many selectors could not be read. -/
  unparsed : Nat := 0
  /-- Whether some sheet was read by `Stylesheet.looseRules`. -/
  usedFallback : Bool := false

namespace RuleSet

def empty : RuleSet := {}

def size (set : RuleSet) : Nat :=
  set.rules.size

def isEmpty (set : RuleSet) : Bool :=
  set.rules.isEmpty

def get? (set : RuleSet) (id : RuleId) : Option Rule :=
  set.rules[id]?

/-- Appends a rule unless its selector cannot be read or it declares nothing; gives its number. -/
def addRule (set : RuleSet) (selector : String) (declarations : StyleMap) (origin : Origin) :
    Except SelectorError (RuleSet × Option RuleId) :=
  match SelectorGroup.read selector with
  | .error .brokenCharacter => .error .brokenCharacter
  | .error .unreadable => .ok ({ set with unparsed := set.unparsed + 1 }, none)
  | .ok selectors =>
      let set := { set with unparsed := set.unparsed + selectors.unparsed }
      if declarations.isEmpty then .ok (set, none)
      else
        let rule : Rule :=
          { id := set.size
            selectorText := Text.trimmed selector
            selectors, declarations, origin
            specificity := selectors.specificity }
        .ok ({ set with rules := set.rules.push rule }, some set.size)

/-- Appends the rules of a parsed sheet. -/
def addSources (set : RuleSet) (origin : Origin) :
    List SourceRule → Except SelectorError RuleSet
  | [] => .ok set
  | source :: rest => do
      let (next, _) ← set.addRule source.selector source.declarations origin
      next.addSources origin rest

/-- The set with all that a parsed sheet leaves out. -/
def noteSheet (set : RuleSet) (sheet : Stylesheet) : RuleSet :=
  { set with
    skipped := set.skipped ++ sheet.skipped
    usedFallback := set.usedFallback || sheet.usedFallback }

def addSheet (set : RuleSet) (css : String) (origin : Origin) : Except StyleError RuleSet := do
  let sheet ← (Stylesheet.read css).mapError .color
  ((set.noteSheet sheet).addSources origin sheet.rules).mapError .selector

/-- Appends the rules of a style sheet; gives how many there are. -/
def appendSheet (set : RuleSet) (css : String) (origin : Origin) :
    Except StyleError (RuleSet × Nat) := do
  let next ← set.addSheet css origin
  return (next, next.size - set.size)

/-- Appends the rules of style sheets one after another. -/
def addSheets (set : RuleSet) (origin : Origin) : List String → Except StyleError RuleSet
  | [] => .ok set
  | css :: rest => do (← set.addSheet css origin).addSheets origin rest

def userAgentSheet : String :=
  "body \x7b font-size: 16px; line-height: 1.2; color: #000; margin: 8px; \x7d
h1 \x7b font-size: 2em; font-weight: bold; margin-top: 0.67em; margin-bottom: 0.67em; \x7d
h2 \x7b font-size: 1.5em; font-weight: bold; margin-top: 0.83em; margin-bottom: 0.83em; \x7d
h3 \x7b font-size: 1.17em; font-weight: bold; margin-top: 1em; margin-bottom: 1em; \x7d
h4 \x7b font-size: 1em; font-weight: bold; margin-top: 1.33em; margin-bottom: 1.33em; \x7d
h5 \x7b font-size: 0.83em; font-weight: bold; margin-top: 1.67em; margin-bottom: 1.67em; \x7d
h6 \x7b font-size: 0.67em; font-weight: bold; margin-top: 2.33em; margin-bottom: 2.33em; \x7d
p \x7b margin-top: 1em; margin-bottom: 1em; \x7d
b, strong, th \x7b font-weight: bold; \x7d
i, em, cite, var, dfn \x7b font-style: italic; \x7d
u, ins \x7b text-decoration: underline; \x7d
s, strike, del \x7b text-decoration: line-through; \x7d
sub \x7b vertical-align: sub; font-size: smaller; \x7d
sup \x7b vertical-align: super; font-size: smaller; \x7d
pre, code, kbd, samp, tt \x7b font-family: monospace; white-space: pre; \x7d
span, a, em, strong, i, b, u, small, label, code, sub, sup \x7b display: inline; \x7d
img \x7b display: inline-block; \x7d
div, p, section, article, header, footer, aside, nav, main, blockquote,
h1, h2, h3, h4, h5, h6, ul, ol, dl, dt, dd, pre, hr \x7b display: block; \x7d
li \x7b display: list-item; \x7d
ul, ol \x7b padding-left: 40px; margin-top: 1em; margin-bottom: 1em; \x7d
table \x7b display: table; border-collapse: separate; border-spacing: 2px; \x7d
thead \x7b display: table-header-group; \x7d
tbody \x7b display: table-row-group; \x7d
tr \x7b display: table-row; \x7d
td, th \x7b display: table-cell; padding: 1px; vertical-align: middle; \x7d
th \x7b text-align: center; \x7d
"

def userAgentDefaults : Except StyleError RuleSet :=
  empty.addSheet userAgentSheet .userAgent

/-- A text followed by a byte that ends it. -/
def terminated (text : String) (last : UInt8) : List UInt8 :=
  text.toUTF8.toList ++ [last]

/-- The bytes of a rule: its origin, its selector and its declarations, each ended by a mark. -/
def ruleBytes (rule : Rule) : List UInt8 :=
  UInt8.ofNat rule.origin.rank :: terminated rule.selectorText 0 ++
    rule.declarations.entries.flatMap (fun (name, value) =>
      terminated name ':'.toUInt8 ++ terminated value 0) ++ [0xff]

/-- The bytes of all rules in order. -/
def bytes (set : RuleSet) : List UInt8 :=
  set.rules.toList.flatMap ruleBytes

def fingerprint (set : RuleSet) : List UInt8 :=
  Digest.sha256 set.bytes

end RuleSet

end ComputedStyle
