import ComputedStyle.Stylesheet
import ComputedStyle.Syntax.Plain

namespace ComputedStyle.Stylesheet

open Syntax

/-- A style rule with the names and the values of its declarations. -/
structure WrittenRule where
  selector : List Char
  declarations : List (List Char × List Char)

/-- What stands in a block whose at-rule is not known. -/
inductive BlockText where
  | last (text : List Char)
  | semicolon (text : List Char) (rest : BlockText)
  | block (before : List Char) (inside rest : BlockText)

/-- The items of a style sheet, first to last. -/
inductive Outline where
  | nil
  | rule (written : WrittenRule) (rest : Outline)
  | media (queries : List Char) (inside rest : Outline)
  | block (name prelude : List Char) (body : BlockText) (rest : Outline)
  | statement (name prelude : List Char) (rest : Outline)

/-! Text. The same blanks stand before every item, declaration and closing bracket. -/

section Render

variable (gap : List Char)

def renderDeclaration (declaration : List Char × List Char) : List Char :=
  gap ++ declaration.1 ++ ':' :: (declaration.2 ++ [';'])

def renderBlock (prelude body : List Char) : List Char :=
  prelude ++ '\x7b' :: (body ++ ['\x7d'])

def renderKeyword (name prelude : List Char) : List Char :=
  gap ++ '@' :: (name ++ ' ' :: prelude)

def WrittenRule.render (rule : WrittenRule) : List Char :=
  renderBlock (gap ++ rule.selector) (rule.declarations.flatMap (renderDeclaration gap) ++ gap)

end Render

def BlockText.render : BlockText → List Char
  | last text => text
  | semicolon text rest => text ++ ';' :: rest.render
  | block before inside rest => renderBlock before inside.render ++ rest.render

def Outline.render (gap : List Char) : Outline → List Char
  | nil => []
  | rule written rest => written.render gap ++ rest.render gap
  | media queries inside rest =>
      renderBlock (renderKeyword gap "media".toList queries) (inside.render gap ++ gap) ++
        rest.render gap
  | block name prelude body rest =>
      renderBlock (renderKeyword gap name prelude) body.render ++ rest.render gap
  | statement name prelude rest => renderKeyword gap name prelude ++ ';' :: rest.render gap

structure WrittenRule.IsPlain (rule : WrittenRule) : Prop where
  selector : IsPlainText rule.selector
  names : ∀ declaration ∈ rule.declarations, IsName declaration.1
  values : ∀ declaration ∈ rule.declarations, IsPlainText declaration.2

def isAtKeyword (component : Component) : Bool :=
  match component.token with
  | .atKeyword _ => true
  | _ => false

/-- No at-keyword comes first, and no name that starts with two hyphens before a colon. -/
structure StartsRule (prelude : List Component) : Prop where
  keyword : (prelude.find? (!·.isBlankOrComment)).any isAtKeyword = false
  custom : startsCustomProperty prelude = false

def BlockText.IsPlain : BlockText → Prop
  | last text => IsPlainText text
  | semicolon text rest => IsPlainText text ∧ rest.IsPlain
  | block before inside rest => IsPlainText before ∧ inside.IsPlain ∧ rest.IsPlain

/-- All texts are plain, and the blocks of unknown at-rules are not those of `@media`. -/
def Outline.IsPlain : Outline → Prop
  | nil => True
  | rule written rest => written.IsPlain ∧ rest.IsPlain
  | media queries inside rest => IsPlainText queries ∧ inside.IsPlain ∧ rest.IsPlain
  | block name prelude body rest =>
      (IsName name ∧ Text.lower name ≠ "media".toList) ∧ IsPlainText prelude ∧ body.IsPlain ∧
        rest.IsPlain
  | statement name prelude rest => IsName name ∧ IsPlainText prelude ∧ rest.IsPlain

def Outline.StartsRules : Outline → Prop
  | nil => True
  | rule written rest => StartsRule (Component.read written.selector) ∧ rest.StartsRules
  | media _ inside rest => inside.StartsRules ∧ rest.StartsRules
  | block _ _ _ rest => rest.StartsRules
  | statement _ _ rest => rest.StartsRules

instance : DecidablePred WrittenRule.IsPlain := fun rule =>
  decidable_of_iff (IsPlainText rule.selector ∧
      (∀ declaration ∈ rule.declarations, IsName declaration.1) ∧
      ∀ declaration ∈ rule.declarations, IsPlainText declaration.2)
    ⟨fun h => ⟨h.1, h.2.1, h.2.2⟩, fun h => ⟨h.selector, h.names, h.values⟩⟩

instance : DecidablePred StartsRule := fun prelude =>
  decidable_of_iff ((prelude.find? (!·.isBlankOrComment)).any isAtKeyword = false ∧
      startsCustomProperty prelude = false)
    ⟨fun h => ⟨h.1, h.2⟩, fun h => ⟨h.keyword, h.custom⟩⟩

instance BlockText.decidableIsPlain : DecidablePred BlockText.IsPlain
  | last text => inferInstanceAs (Decidable (IsPlainText text))
  | semicolon _ rest =>
      have := decidableIsPlain rest
      inferInstanceAs (Decidable (_ ∧ _))
  | block _ inside rest =>
      have := decidableIsPlain inside
      have := decidableIsPlain rest
      inferInstanceAs (Decidable (_ ∧ _ ∧ _))

instance Outline.decidableIsPlain : DecidablePred Outline.IsPlain
  | nil => inferInstanceAs (Decidable True)
  | rule _ rest =>
      have := decidableIsPlain rest
      inferInstanceAs (Decidable (_ ∧ _))
  | media _ inside rest =>
      have := decidableIsPlain inside
      have := decidableIsPlain rest
      inferInstanceAs (Decidable (_ ∧ _ ∧ _))
  | block _ _ _ rest =>
      have := decidableIsPlain rest
      inferInstanceAs (Decidable ((_ ∧ _) ∧ _ ∧ _ ∧ _))
  | statement _ _ rest =>
      have := decidableIsPlain rest
      inferInstanceAs (Decidable (_ ∧ _ ∧ _))

instance Outline.decidableStartsRules : DecidablePred Outline.StartsRules
  | nil => inferInstanceAs (Decidable True)
  | rule _ rest =>
      have := decidableStartsRules rest
      inferInstanceAs (Decidable (_ ∧ _))
  | media _ inside rest =>
      have := decidableStartsRules inside
      have := decidableStartsRules rest
      inferInstanceAs (Decidable (_ ∧ _))
  | block _ _ _ rest => decidableStartsRules rest
  | statement _ _ rest => decidableStartsRules rest

/-- The rules outside of all at-rules but `@media` rules that apply, in order. -/
def Outline.rules : Outline → List WrittenRule
  | nil => []
  | rule written rest => written :: rest.rules
  | media queries inside rest =>
      (if Media.applies queries then inside.rules else []) ++ rest.rules
  | block _ _ _ rest => rest.rules
  | statement _ _ rest => rest.rules

/-- The members of the group that can apply, with the expanded declarations; none if there is no such
member. -/
def WrittenRule.source? (rule : WrittenRule) : Except ColorError (Option SourceRule) :=
  match StaticSelector.members rule.selector with
  | [] => .ok none
  | members =>
      (StyleMap.ofDeclarations
        (rule.declarations.filterMap fun d => Declaration.normalize? d.1 d.2)).map fun style =>
        some ⟨", ".intercalate (members.map String.ofList), style⟩

/-- The rules that a style sheet has. -/
def Outline.sourceRules (outline : Outline) : Except ColorError (List SourceRule) :=
  (outline.rules.mapM WrittenRule.source?).map List.reduceOption

end ComputedStyle.Stylesheet
