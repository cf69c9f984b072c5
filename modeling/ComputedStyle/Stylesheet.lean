import ComputedStyle.Declaration.Block
import ComputedStyle.Stylesheet.Media
import ComputedStyle.Stylesheet.StaticSelector

/-!
Style sheets: their style rules in order, with the blocks of applicable `@media` rules in place.

`Stylesheet.read` is the reader. What it leaves out it lists as skipped. `Stylesheet.looseRules` is a
second, cruder reader for text in which the first finds no rule at all.
-/

namespace ComputedStyle

open Syntax

/-- A style rule as it stands in a sheet. -/
structure SourceRule where
  selector : String
  declarations : StyleMap
deriving DecidableEq

inductive SkipReason where
  /-- Every member of the selector group needs interaction or is about a pseudo-element. -/
  | dynamicSelector
  | atRule (name : String)
  | mediaNotApplicable
  | malformed
deriving DecidableEq, Repr

def SkipReason.label : SkipReason → String
  | dynamicSelector => "dynamic-selector"
  | atRule _ => "at-rule"
  | mediaNotApplicable => "media-not-applicable"
  | malformed => "malformed"

structure SkippedRule where
  prelude : String
  reason : SkipReason
deriving DecidableEq, Repr

structure Stylesheet where
  rules : List SourceRule
  skipped : List SkippedRule
  /-- Whether the rules come from `looseRules`. -/
  usedFallback : Bool
deriving DecidableEq

/-- A selector group and a body, as read. -/
structure RawRule where
  prelude : List Char
  declarations : List Declaration
deriving DecidableEq, Repr

namespace Stylesheet

/-- What the rules of one level give: style rules, skipped rules, and broken rules. -/
structure Level where
  rules : List RawRule := []
  skipped : List SkippedRule := []
  malformed : List SkippedRule := []

/-- One level after another. -/
def Level.append (a b : Level) : Level :=
  ⟨a.rules ++ b.rules, a.skipped ++ b.skipped, a.malformed ++ b.malformed⟩

/-- A level inside a block lists its broken rules after all it skips. -/
def Level.enclose (level : Level) : Level :=
  ⟨level.rules, level.skipped ++ level.malformed, []⟩

/-- At most 120 characters from before the first block. -/
def excerpt (text : List Char) : String :=
  String.ofList ((Text.trim (text.takeWhile (· != '\x7b'))).take 120)

def malformedRule (text : List Char) : SkippedRule :=
  ⟨excerpt text, .malformed⟩

/-- An at-rule's name and the text up to its block or semicolon. -/
structure AtRule where
  name : String
  condition : List Char

namespace AtRule

def read (name : List Char) (components : List Component) : AtRule :=
  ⟨String.ofList (Text.lower name),
    Text.trim (Text.stripComments (Component.textOf components))⟩

def isMedia (rule : AtRule) : Bool :=
  rule.name == "media"

/-- Whether the rules in the block count. -/
def applies (rule : AtRule) : Bool :=
  rule.isMedia && Media.applies rule.condition

def label (rule : AtRule) : String :=
  Text.trimmed ("@" ++ rule.name ++ " " ++ String.ofList rule.condition)

/-- How an at-rule that ends without a block is listed. -/
def skipStatement (rule : AtRule) : SkippedRule :=
  ⟨rule.label, .atRule rule.name⟩

/-- How an at-rule with a block is listed. -/
def skipBlock (rule : AtRule) : SkippedRule :=
  ⟨rule.label, if rule.isMedia then .mediaNotApplicable else .atRule rule.name⟩

end AtRule

def isCurly (component : Component) : Bool :=
  component.curly?.isSome

/-- What may stand between rules. -/
def isBetweenRules (component : Component) : Bool :=
  component.isBlankOrComment || component.token == .commentMark

/-- Whether a prelude starts as the declaration of a custom property does: with a name that starts
with two hyphens, and a colon. No rule starts so. -/
def startsCustomProperty (prelude : List Component) : Bool :=
  match prelude.filter (!·.isBlankOrComment) with
  | name :: colon :: _ =>
      name.token.name?.any (['-', '-'].isPrefixOf ·) && colon.token == .colon
  | _ => false

def qualifiedRule (prelude contents : List Component) : RawRule :=
  ⟨Text.trim (Component.textOf prelude), Declaration.ofComponents contents⟩

theorem sizeOf_curly_lt {component : Component} {contents : List Component}
    (h : component.curly? = some contents) : sizeOf contents < sizeOf component := by
  cases component with
  | single lexeme => simp [Component.curly?] at h
  | block opener inner closer =>
      simp only [Component.curly?] at h
      split at h
      · simp only [Option.some.injEq] at h
        subst h
        simp only [Component.block.sizeOf_spec]
        omega
      · simp at h

theorem sizeOf_dropWhile_le (p : Component → Bool) (components : List Component) :
    sizeOf (components.dropWhile p) ≤ sizeOf components := by
  induction components with
  | nil => simp
  | cons component rest ih =>
      unfold List.dropWhile
      split
      · simp only [List.cons.sizeOf_spec]
        omega
      · exact Nat.le_refl _

theorem sizeOf_tail_lt_self {p : Component → Bool} {components after : List Component}
    {last : Component} (h : components.dropWhile p = last :: after) :
    sizeOf after < sizeOf components := by
  have bound := sizeOf_dropWhile_le p components
  rw [h, List.cons.sizeOf_spec] at bound
  omega

theorem sizeOf_tail_lt {p : Component → Bool} {rest after : List Component}
    {last : Component} (component : Component) (h : rest.dropWhile p = last :: after) :
    sizeOf after < sizeOf (component :: rest) := by
  have bound := sizeOf_tail_lt_self h
  rw [List.cons.sizeOf_spec]
  omega

theorem sizeOf_head_lt {p : Component → Bool} {rest after : List Component}
    {last : Component} (component : Component) (h : rest.dropWhile p = last :: after) :
    sizeOf last < sizeOf (component :: rest) := by
  have bound := sizeOf_dropWhile_le p rest
  rw [h, List.cons.sizeOf_spec] at bound
  rw [List.cons.sizeOf_spec]
  omega

/-- The rules of one level. `first` tells whether no rule has been read yet: only then is a
`@charset` rule passed over in silence. -/
def readLevel (first : Bool) : List Component → Level
  | [] => {}
  | component :: rest =>
      if isBetweenRules component then readLevel first rest
      else
        match component.token with
        | .atKeyword name =>
            let rule := AtRule.read name (rest.takeWhile (!Declaration.endsAtRule ·))
            let silent := first && rule.name == "charset"
            match _ending : rest.dropWhile (!Declaration.endsAtRule ·) with
            | [] => if silent then {} else { skipped := [rule.skipStatement] }
            | last :: after =>
                if silent then readLevel false after
                else
                  match _block : last.curly? with
                  | none => Level.append { skipped := [rule.skipStatement] } (readLevel false after)
                  | some contents =>
                      let block :=
                        if rule.applies then (readLevel true contents).enclose
                        else { skipped := [rule.skipBlock] }
                      block.append (readLevel false after)
        | _ =>
            let prelude := (component :: rest).takeWhile (!isCurly ·)
            match _ending : (component :: rest).dropWhile (!isCurly ·) with
            | [] => { malformed := [malformedRule (Component.textOf prelude)] }
            | last :: after =>
                let own : Level :=
                  if startsCustomProperty prelude then
                    { malformed := [malformedRule (Component.textOf prelude)] }
                  else { rules := [qualifiedRule prelude (last.curly?.getD [])] }
                own.append (readLevel false after)
termination_by components => sizeOf components
decreasing_by
  · simp only [List.cons.sizeOf_spec]
    omega
  · exact sizeOf_tail_lt component _ending
  · exact sizeOf_tail_lt component _ending
  · exact Nat.lt_trans (sizeOf_curly_lt _block) (sizeOf_head_lt component _ending)
  · exact sizeOf_tail_lt component _ending
  · exact sizeOf_tail_lt_self _ending

/-- Whether an opening curly bracket stands before a closing one. -/
def looksLikeRules (css : List Char) : Bool :=
  ((Text.stripComments css).dropWhile (· != '\x7b')).contains '\x7d'

/-- Reads up to the bracket that closes the block `depth` levels down; gives the text before it and
the text after it. -/
def readBody (depth : Nat) : List Char → List Char × List Char
  | [] => ([], [])
  | c :: rest =>
      if c == '\x7d' && depth == 1 then ([], rest)
      else
        let inside :=
          if c == '\x7b' then depth + 1 else if c == '\x7d' then depth - 1 else depth
        let (body, after) := readBody inside rest
        (c :: body, after)

theorem length_readBody_le (depth : Nat) (s : List Char) :
    (readBody depth s).2.length ≤ s.length := by
  induction s generalizing depth with
  | nil => simp [readBody]
  | cons c rest ih =>
      unfold readBody
      split
      · simp
      · have := ih (if c == '\x7b' then depth + 1 else if c == '\x7d' then depth - 1 else depth)
        simp only [List.length_cons]
        omega

/-- The walk behind `looseRules`: `prelude` holds the text before the next block in reverse. -/
def looseRulesFrom (prelude : List Char) : List Char → List RawRule
  | [] => []
  | c :: rest =>
      if c == '\x7b' then
        let body := (readBody 1 rest).1
        let selector := Text.trim prelude.reverse
        let later := looseRulesFrom [] (readBody 1 rest).2
        if selector.isEmpty || selector.head? == some '@' || body.contains '\x7b' then later
        else ⟨selector, Declaration.ofPieces body⟩ :: later
      else if c == '\x7d' then looseRulesFrom [] rest
      else if c == ';' && (Text.trimLeft prelude.reverse).head? == some '@' then
        looseRulesFrom [] rest
      else looseRulesFrom (c :: prelude) rest
termination_by s => s.length
decreasing_by
  all_goals
    have := length_readBody_le 1 rest
    simp only [List.length_cons]
    omega

/-- The rules found by counting curly brackets alone. A rule whose body holds a block is left out,
and so is every at-rule. -/
def looseRules (css : List Char) : List RawRule :=
  looseRulesFrom [] (Text.stripComments css)

/-- A raw rule with the members of its group that can apply, or how it is skipped. -/
def settle (raw : RawRule) : Except ColorError (SkippedRule ⊕ SourceRule) :=
  let prelude := Text.stripComments raw.prelude
  match StaticSelector.filter? prelude with
  | none => .ok (.inl ⟨String.ofList (Text.trim prelude), .dynamicSelector⟩)
  | some selector =>
      (StyleMap.ofDeclarations raw.declarations).map fun style => .inr ⟨selector, style⟩

/-- The rules of a style sheet. It fails when a color in a background does. -/
def read (css : String) : Except ColorError Stylesheet := do
  let level := (readLevel true (Component.read css.toList)).enclose
  let fallback := level.rules.isEmpty && looksLikeRules css.toList
  let settled ← (if fallback then looseRules css.toList else level.rules).mapM settle
  return {
    rules := settled.filterMap fun item => item.getRight?
    skipped := level.skipped ++ settled.filterMap fun item => item.getLeft?
    usedFallback := fallback }

end Stylesheet

end ComputedStyle
