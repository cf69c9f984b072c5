import Mathlib
import ComputedStyle.Proofs.Syntax.Component
import ComputedStyle.Proofs.Syntax.Lexeme
import ComputedStyle.Proofs.Text.Nesting
import ComputedStyle.Stylesheet

/-!
Style sheets that hold nothing but at-rules whose blocks do not count.

The reader of components takes no rule from them. The crude reader, which is asked next, counts
brackets and semicolons wherever they stand. So it takes none either only where those in a longer
token, in the prelude of an at-rule or without a partner do not mislead it.
-/

namespace ComputedStyle.Stylesheet

open Syntax Component

/-- An at-rule as it is read; it has a block unless it ends with a semicolon. -/
structure AtItem where
  keyword : Lexeme
  name : List Char
  prelude : List Component
  block : Option (List Component)

namespace AtItem

def rule (item : AtItem) : AtRule :=
  AtRule.read item.name item.prelude

def skipped (item : AtItem) : SkippedRule :=
  match item.block with
  | none => item.rule.skipStatement
  | some _ => item.rule.skipBlock

/-- The at-rule is no block of rules that count. -/
def IsSkipped (item : AtItem) : Prop :=
  item.block.isSome → item.rule.applies = false

end AtItem

/-- The components are at-rules, each with its semicolon or its whole block. -/
inductive AtRules : List Component → List AtItem → Prop where
  | nil : AtRules [] []
  | between (component : Component) (rest : List Component) (items : List AtItem)
      (between : component.isBlankOrComment) (more : AtRules rest items) :
      AtRules (component :: rest) items
  | statement (keyword : Lexeme) (name : List Char) (prelude : List Component)
      (semicolon : Lexeme) (rest : List Component) (items : List AtItem)
      (token : keyword.token = .atKeyword name)
      (inside : ∀ component ∈ prelude, Declaration.endsAtRule component = false)
      (ends : semicolon.token = .semicolon) (more : AtRules rest items) :
      AtRules (.single keyword :: prelude ++ .single semicolon :: rest)
        (⟨keyword, name, prelude, none⟩ :: items)
  | block (keyword : Lexeme) (name : List Char) (prelude : List Component)
      (opener : Lexeme) (contents : List Component) (closer : Lexeme) (rest : List Component)
      (items : List AtItem) (token : keyword.token = .atKeyword name)
      (inside : ∀ component ∈ prelude, Declaration.endsAtRule component = false)
      (opens : opener.token = .opening .curly) (more : AtRules rest items) :
      AtRules (.single keyword :: prelude ++ .block opener contents (some closer) :: rest)
        (⟨keyword, name, prelude, some contents⟩ :: items)

section Reader

variable {keyword : Lexeme} {name : List Char} {prelude rest : List Component} {last : Component}

theorem readLevel_atRule (token : keyword.token = .atKeyword name)
    (inside : ∀ component ∈ prelude, Declaration.endsAtRule component = false)
    (ends : Declaration.endsAtRule last) (first : Bool) :
    readLevel first (.single keyword :: prelude ++ last :: rest) =
      if first && (AtRule.read name prelude).name == "charset" then readLevel false rest
      else
        match last.curly? with
        | none =>
            Level.append { skipped := [(AtRule.read name prelude).skipStatement] }
              (readLevel false rest)
        | some contents =>
            (if (AtRule.read name prelude).applies then (readLevel true contents).enclose
              else { skipped := [(AtRule.read name prelude).skipBlock] }).append
              (readLevel false rest) := by
  have stop : (!Declaration.endsAtRule last) = false := by rw [ends]; rfl
  have go : ∀ component ∈ prelude, (!Declaration.endsAtRule component) = true :=
    fun component member => by rw [inside component member]; rfl
  have before : (prelude ++ last :: rest).takeWhile (!Declaration.endsAtRule ·) = prelude := by
    rw [List.takeWhile_append_of_pos go, List.takeWhile_cons_of_neg (by rw [stop]; decide),
      List.append_nil]
  have after : (prelude ++ last :: rest).dropWhile (!Declaration.endsAtRule ·) = last :: rest := by
    rw [List.dropWhile_append_of_pos go, List.dropWhile_cons_of_neg (by rw [stop]; decide)]
  have apart : isBetweenRules (.single keyword) = false := by
    simp [isBetweenRules, isBlankOrComment, Component.token, token]
  rw [List.cons_append, readLevel, apart, if_neg Bool.false_ne_true]
  split
  · next other same =>
      obtain rfl : name = other := by simpa [Component.token, token] using same
      rw [before]
      dsimp only
      split
      · next missing => cases after.symm.trans missing
      · next final later found =>
          cases after.symm.trans found
          split
          · rfl
          · split <;> simp_all
  · next other => exact absurd token (other name)

structure Level.Skips (level : Level) (items : List AtItem) : Prop where
  rules : level.rules = []
  malformed : level.malformed = []
  skipped : ∀ entry ∈ level.skipped, ∃ item ∈ items, entry = item.skipped

theorem Level.Skips.more {level : Level} {items : List AtItem} (skips : level.Skips items)
    (item : AtItem) : level.Skips (item :: items) where
  rules := skips.rules
  malformed := skips.malformed
  skipped entry member := by
    obtain ⟨other, found, same⟩ := skips.skipped entry member
    exact ⟨other, List.mem_cons_of_mem item found, same⟩

theorem Level.Skips.cons {level : Level} {items : List AtItem} (skips : level.Skips items)
    (item : AtItem) :
    (Level.append { skipped := [item.skipped] } level).Skips (item :: items) where
  rules := skips.rules
  malformed := skips.malformed
  skipped entry member := by
    rcases List.mem_cons.1 member with rfl | member
    · exact ⟨item, List.mem_cons_self, rfl⟩
    · exact (skips.more item).skipped entry member

theorem skips_readLevel {components : List Component} {items : List AtItem}
    (atRules : AtRules components items) (skipped : ∀ item ∈ items, item.IsSkipped) (first : Bool) :
    (readLevel first components).Skips items := by
  induction atRules generalizing first with
  | nil =>
      rw [readLevel]
      exact ⟨rfl, rfl, List.forall_mem_nil _⟩
  | between component rest items between _ ih =>
      rw [readLevel, if_pos (by rw [isBetweenRules, between, Bool.true_or])]
      exact ih skipped first
  | statement keyword name prelude semicolon rest items token inside ends _ ih =>
      have later := ih (fun item member => skipped item (List.mem_cons_of_mem _ member)) false
      have last : Declaration.endsAtRule (.single semicolon) := by
        simp [Declaration.endsAtRule, Declaration.isSemicolon, Component.token, ends]
      rw [readLevel_atRule token inside last]
      split
      · exact later.more _
      · exact later.cons ⟨keyword, name, prelude, none⟩
  | block keyword name prelude opener contents closer rest items token inside opens _ ih =>
      have later := ih (fun item member => skipped item (List.mem_cons_of_mem _ member)) false
      have curly : (Component.block opener contents (some closer)).curly? = some contents :=
        if_pos opens
      have last : Declaration.endsAtRule (.block opener contents (some closer)) := by
        rw [Declaration.endsAtRule, curly, Option.isSome_some, Bool.or_true]
      have idle : (AtRule.read name prelude).applies = false :=
        skipped _ List.mem_cons_self rfl
      rw [readLevel_atRule token inside last, curly]
      split
      · exact later.more _
      · dsimp only
        rw [idle]
        exact later.cons ⟨keyword, name, prelude, some contents⟩

end Reader

/-! The body of a block whose curly brackets are even. -/

section Body

/-- Reading over a text leaves the depth as it was. -/
def IsNeutral (u : List Char) : Prop :=
  ∀ depth rest, readBody (depth + 1) (u ++ rest) =
    (u ++ (readBody (depth + 1) rest).1, (readBody (depth + 1) rest).2)

theorem isNeutral_nil : IsNeutral [] :=
  fun _ _ => rfl

theorem IsNeutral.append {u v : List Char} (first : IsNeutral u) (second : IsNeutral v) :
    IsNeutral (u ++ v) := by
  intro depth rest
  rw [List.append_assoc, first, second, List.append_assoc]

theorem isNeutral_of_plain {u : List Char} (plain : '\x7b' ∉ u ∧ '\x7d' ∉ u) : IsNeutral u := by
  intro depth rest
  induction u with
  | nil => rfl
  | cons c others ih =>
      have own : c ≠ '\x7b' ∧ c ≠ '\x7d' := by
        constructor <;> (rintro rfl; simp at plain)
      have later := ih ⟨fun member => plain.1 (List.mem_cons_of_mem c member),
        fun member => plain.2 (List.mem_cons_of_mem c member)⟩
      rw [List.cons_append, readBody]
      simp [own.1, own.2, later]

theorem IsNeutral.enclose {u : List Char} (neutral : IsNeutral u) :
    IsNeutral ('\x7b' :: u ++ ['\x7d']) := by
  intro depth rest
  have inner := neutral (depth + 1) ('\x7d' :: rest)
  simp [readBody, inner]

theorem IsNeutral.readBody {u : List Char} (neutral : IsNeutral u) (rest : List Char) :
    readBody 1 (u ++ '\x7d' :: rest) = (u, rest) := by
  have read := neutral 0 ('\x7d' :: rest)
  simpa [Stylesheet.readBody] using read

/-- A curly bracket is a lexeme of its own, and a comment starts in no other lexeme. -/
structure IsPlain (lexeme : Lexeme) : Prop where
  comments : lexeme.StartsNoComment
  opening : lexeme.token ≠ .opening .curly → '\x7b' ∉ lexeme.text
  closing : lexeme.token ≠ .closing .curly → '\x7d' ∉ lexeme.text

instance : DecidablePred IsPlain := fun lexeme =>
  decidable_of_iff (lexeme.StartsNoComment ∧
      (lexeme.token ≠ .opening .curly → '\x7b' ∉ lexeme.text) ∧
      (lexeme.token ≠ .closing .curly → '\x7d' ∉ lexeme.text))
    ⟨fun h => ⟨h.1, h.2.1, h.2.2⟩, fun h => ⟨h.comments, h.opening, h.closing⟩⟩

/-- A comment, or a lexeme that does not mislead a reader of characters. -/
def IsHarmless (lexeme : Lexeme) : Prop :=
  lexeme.token = .comment ∨ IsPlain lexeme

instance : DecidablePred IsHarmless :=
  fun _ => inferInstanceAs (Decidable (_ ∨ _))

theorem isNeutral_bareText {lexeme : Lexeme} (harmless : IsHarmless lexeme)
    (opening : lexeme.token ≠ .opening .curly) (closing : lexeme.token ≠ .closing .curly) :
    IsNeutral (bareText [lexeme]) := by
  by_cases comment : lexeme.token = .comment
  · rw [bareText_comment comment]
    exact isNeutral_nil
  · have plain := harmless.resolve_left comment
    rw [bareText_singleton comment]
    exact isNeutral_of_plain ⟨plain.opening opening, plain.closing closing⟩

/-- Every curly bracket has its partner. -/
inductive IsEven : Component → Prop where
  | single (lexeme : Lexeme) (plain : lexeme.token ≠ .closing .curly) : IsEven (.single lexeme)
  | block (opener : Lexeme) (contents : List Component) (closer : Option Lexeme)
      (closed : opener.token = .opening .curly → closer.isSome)
      (inside : ∀ component ∈ contents, IsEven component) :
      IsEven (.block opener contents closer)

theorem isNeutral_lexemesOf {components : List Component}
    (each : ∀ component ∈ components, IsNeutral (bareText component.lexemes)) :
    IsNeutral (bareText (lexemesOf components)) := by
  induction components with
  | nil => exact isNeutral_nil
  | cons component rest ih =>
      rw [lexemesOf, bareText_append]
      refine (each component List.mem_cons_self).append (ih fun other member => ?_)
      exact each other (List.mem_cons_of_mem component member)

theorem opens?_eq_curly {token : Token} (opens : token.opens? = some .curly) :
    token = .opening .curly := by
  cases token with
  | opening bracket =>
      cases opens
      rfl
  | _ => cases opens

theorem closing_of_isMatched {opener closer : Lexeme} {contents : List Component}
    (matched : (Component.block opener contents (some closer)).IsMatched)
    (opening : opener.token = .opening .curly) :
    closer.token = .closing .curly ∧ ∀ component ∈ contents, component.IsMatched := by
  cases matched with
  | block _ bracket _ _ opens closes inside =>
      rw [opening] at opens
      cases opens
      exact ⟨closes closer rfl, inside⟩

theorem mem_lexemesOf {component : Component} {components : List Component}
    (member : component ∈ components) {lexeme : Lexeme} (inside : lexeme ∈ component.lexemes) :
    lexeme ∈ lexemesOf components := by
  rw [lexemesOf_eq_flatMap]
  exact List.mem_flatMap_of_mem member inside

theorem bareText_curly {opener closer : Lexeme} {contents : List Component}
    (opening : opener.token = .opening .curly) (closing : closer.token = .closing .curly)
    (first : opener.Shape) (last : closer.Shape) :
    bareText (Component.block opener contents (some closer)).lexemes =
      '\x7b' :: (bareText (lexemesOf contents) ++ ['\x7d']) := by
  have before : bareText [opener] = ['\x7b'] := bareText_mark first (by rw [opening]; rfl)
  have after : bareText [closer] = ['\x7d'] := bareText_mark last (by rw [closing]; rfl)
  rw [Component.lexemes, List.cons_append, bareText_cons, bareText_append, Option.toList_some,
    before, after]
  rfl

theorem isNeutral_lexemes {component : Component} (matched : component.IsMatched)
    (even : IsEven component)
    (spelled : ∀ lexeme ∈ component.lexemes, lexeme.Shape ∧ IsHarmless lexeme) :
    IsNeutral (bareText component.lexemes) := by
  induction matched with
  | single lexeme notOpening =>
      cases even with
      | single _ notClosing =>
          refine isNeutral_bareText (spelled lexeme List.mem_cons_self).2 (fun curly => ?_) notClosing
          rw [curly] at notOpening
          cases notOpening
  | block opener bracket contents closer opens closes _ ih =>
      cases even with
      | block _ _ _ closed even =>
          obtain ⟨own, rest⟩ := List.forall_mem_cons.1 spelled
          have inner : IsNeutral (bareText (lexemesOf contents)) := by
            refine isNeutral_lexemesOf fun component member => ?_
            refine ih component member (even component member) fun lexeme inside => ?_
            exact rest lexeme (List.mem_append_left _ (mem_lexemesOf member inside))
          by_cases curly : bracket = .curly
          · subst curly
            have opening := opens?_eq_curly opens
            obtain ⟨last, rfl⟩ := Option.isSome_iff_exists.1 (closed opening)
            have final := rest last (List.mem_append_right _ List.mem_cons_self)
            rw [bareText_curly opening (closes last rfl) own.1 final.1]
            exact inner.enclose
          · rw [Component.lexemes, List.cons_append, bareText_cons, bareText_append]
            refine (isNeutral_bareText own.2 ?_ ?_).append (inner.append ?_)
            · intro same
              rw [same] at opens
              exact curly (Option.some.inj opens).symm
            · intro same
              rw [same] at opens
              cases opens
            · cases closer with
              | none => exact isNeutral_nil
              | some last =>
                  have closing := closes last rfl
                  have final := rest last (List.mem_append_right _ List.mem_cons_self)
                  refine isNeutral_bareText final.2 ?_ ?_
                  · rw [closing]
                    rintro ⟨⟩
                  · rw [closing]
                    intro same
                    exact curly (Token.closing.inj same)

theorem isNeutral_contents {contents : List Component}
    (matched : ∀ component ∈ contents, component.IsMatched)
    (even : ∀ component ∈ contents, IsEven component)
    (spelled : ∀ lexeme ∈ lexemesOf contents, lexeme.Shape ∧ IsHarmless lexeme) :
    IsNeutral (bareText (lexemesOf contents)) := by
  refine isNeutral_lexemesOf fun component member => ?_
  refine isNeutral_lexemes (matched component member) (even component member) fun lexeme found => ?_
  exact spelled lexeme (mem_lexemesOf member found)

end Body

/-! What the crude reader makes of at-rules. -/

section Loose

/-- The at-rule does not mislead a reader of characters. -/
structure AtItem.IsTame (item : AtItem) : Prop where
  head : ∀ lexeme ∈ item.keyword :: lexemesOf item.prelude, lexeme.token ≠ .comment →
    ∀ c ∈ lexeme.text, c ≠ '\x7b' ∧ c ≠ '\x7d' ∧ c ≠ ';'
  even : ∀ contents, item.block = some contents → ∀ component ∈ contents, IsEven component

theorem looseRulesFrom_append {u : List Char}
    (plain : ∀ c ∈ u, c ≠ '\x7b' ∧ c ≠ '\x7d' ∧ c ≠ ';') (prelude rest : List Char) :
    looseRulesFrom prelude (u ++ rest) = looseRulesFrom (u.reverse ++ prelude) rest := by
  induction u generalizing prelude with
  | nil => rfl
  | cons c others ih =>
      obtain ⟨⟨opening, closing, semicolon⟩, later⟩ := List.forall_mem_cons.1 plain
      rw [List.cons_append, looseRulesFrom]
      simp only [beq_iff_eq, opening, closing, semicolon, if_false, Bool.and_eq_true, false_and]
      rw [ih later]
      simp

/-- The text of an at-rule up to its end, in reverse, after blanks. -/
def StartsAtRule (prelude : List Char) : Prop :=
  ∃ blanks text, prelude.reverse = blanks ++ '@' :: text ∧ ∀ c ∈ blanks, Text.isBlank c

theorem head?_trimLeft_of_startsAtRule {prelude : List Char} (starts : StartsAtRule prelude) :
    ∃ text, Text.trimLeft prelude.reverse = '@' :: text := by
  obtain ⟨blanks, text, same, blank⟩ := starts
  refine ⟨text, ?_⟩
  rw [same, Text.trimLeft, List.dropWhile_append_of_pos blank]
  rfl

theorem looseRulesFrom_semicolon {prelude : List Char} (starts : StartsAtRule prelude)
    (rest : List Char) : looseRulesFrom prelude (';' :: rest) = looseRulesFrom [] rest := by
  obtain ⟨text, same⟩ := head?_trimLeft_of_startsAtRule starts
  rw [looseRulesFrom]
  simp [same]

theorem looseRulesFrom_block {prelude body : List Char} (starts : StartsAtRule prelude)
    (neutral : IsNeutral body) (rest : List Char) :
    looseRulesFrom prelude ('\x7b' :: (body ++ '\x7d' :: rest)) = looseRulesFrom [] rest := by
  obtain ⟨text, same⟩ := head?_trimLeft_of_startsAtRule starts
  have head : (Text.trim prelude.reverse).head? = some '@' := by
    rw [Text.trim, same, Text.trimRight_cons_of_not_isBlank rfl]
    rfl
  rw [looseRulesFrom]
  simp [neutral.readBody, head]

theorem AtItem.IsTame.bareText {item : AtItem} (tame : item.IsTame) {lexemes : List Lexeme}
    (inside : ∀ lexeme ∈ lexemes, lexeme ∈ item.keyword :: lexemesOf item.prelude) :
    ∀ c ∈ bareText lexemes, c ≠ '\x7b' ∧ c ≠ '\x7d' ∧ c ≠ ';' := by
  intro c member
  obtain ⟨lexeme, kept, found⟩ := List.mem_flatMap.1 member
  obtain ⟨listed, visible⟩ := List.mem_filter.1 kept
  exact tame.head lexeme (inside lexeme listed) (by simpa using visible) c found

theorem isBlank_of_isBlankOrComment {component : Component} (matched : component.IsMatched)
    (between : component.isBlankOrComment)
    (spelled : ∀ lexeme ∈ component.lexemes, lexeme.Shape) :
    ∀ c ∈ bareText component.lexemes, Text.isBlank c := by
  cases matched with
  | single lexeme _ =>
      rw [Component.lexemes]
      simp only [isBlankOrComment, Component.token, Bool.or_eq_true, beq_iff_eq] at between
      rcases between with blank | comment
      · rw [bareText_singleton (by simp [blank])]
        intro c member
        exact isBlank_of_isSpace ((spelled lexeme List.mem_cons_self).isSpace blank c member)
      · rw [bareText_comment comment]
        exact List.forall_mem_nil _
  | block opener bracket contents closer opens _ _ =>
      simp only [isBlankOrComment, Component.token, Bool.or_eq_true, beq_iff_eq] at between
      rcases between with blank | comment
      · rw [blank] at opens
        cases opens
      · rw [comment] at opens
        cases opens

theorem ne_of_isBlank {c : Char} (blank : Text.isBlank c) :
    c ≠ '\x7b' ∧ c ≠ '\x7d' ∧ c ≠ ';' := by
  refine ⟨?_, ?_, ?_⟩ <;> (rintro rfl; revert blank; decide)

theorem startsAtRule_append {prelude : List Char} (blank : ∀ c ∈ prelude, Text.isBlank c)
    (text : List Char) : StartsAtRule (('@' :: text).reverse ++ prelude) := by
  refine ⟨prelude.reverse, text, by simp, fun c member => ?_⟩
  exact blank c (List.mem_reverse.1 member)

theorem looseRulesFrom_head {item : AtItem} (tame : item.IsTame)
    (token : item.keyword.token = .atKeyword item.name) (shape : item.keyword.Shape)
    {prelude : List Char} (blank : ∀ c ∈ prelude, Text.isBlank c) :
    ∃ next, StartsAtRule next ∧ ∀ rest,
      looseRulesFrom prelude (bareText (item.keyword :: lexemesOf item.prelude) ++ rest) =
        looseRulesFrom next rest := by
  obtain ⟨text, same⟩ := shape.text_of_atKeyword token
  have visible : item.keyword.token ≠ .comment := by
    rw [token]
    rintro ⟨⟩
  have whole : bareText (item.keyword :: lexemesOf item.prelude) =
      '@' :: (text ++ bareText (lexemesOf item.prelude)) := by
    rw [bareText_cons, bareText_singleton visible, same, List.cons_append]
  refine ⟨_, startsAtRule_append blank (text ++ bareText (lexemesOf item.prelude)), fun rest => ?_⟩
  rw [← whole]
  exact looseRulesFrom_append (tame.bareText fun _ member => member) prelude rest

section Item

variable {item : AtItem} (tame : item.IsTame) (token : item.keyword.token = .atKeyword item.name)
  (shape : item.keyword.Shape) {prelude : List Char} (blank : ∀ c ∈ prelude, Text.isBlank c)

include tame token shape blank

theorem looseRulesFrom_statement (rest : List Char) :
    looseRulesFrom prelude (bareText (item.keyword :: lexemesOf item.prelude) ++ ';' :: rest) =
      looseRulesFrom [] rest := by
  obtain ⟨next, starts, passed⟩ := looseRulesFrom_head tame token shape blank
  rw [passed, looseRulesFrom_semicolon starts]

theorem looseRulesFrom_blockRule {body : List Char} (neutral : IsNeutral body)
    (rest : List Char) :
    looseRulesFrom prelude (bareText (item.keyword :: lexemesOf item.prelude) ++
        '\x7b' :: (body ++ '\x7d' :: rest)) = looseRulesFrom [] rest := by
  obtain ⟨next, starts, passed⟩ := looseRulesFrom_head tame token shape blank
  rw [passed, looseRulesFrom_block starts neutral]

end Item

theorem looseRulesFrom_atRules {components : List Component} {items : List AtItem}
    (atRules : AtRules components items) (tame : ∀ item ∈ items, item.IsTame)
    (matched : ∀ component ∈ components, component.IsMatched)
    (spelled : ∀ lexeme ∈ lexemesOf components, lexeme.Shape ∧ IsHarmless lexeme)
    {prelude : List Char} (blank : ∀ c ∈ prelude, Text.isBlank c) :
    looseRulesFrom prelude (bareText (lexemesOf components)) = [] := by
  induction atRules generalizing prelude with
  | nil =>
      rw [lexemesOf, bareText, List.filter_nil, List.flatMap_nil, looseRulesFrom]
  | between component rest items between _ ih =>
      rw [lexemesOf] at spelled ⊢
      obtain ⟨own, later⟩ := List.forall_mem_append.1 spelled
      obtain ⟨first, others⟩ := List.forall_mem_cons.1 matched
      have blanks := isBlank_of_isBlankOrComment first between fun lexeme member =>
        (own lexeme member).1
      rw [bareText_append, looseRulesFrom_append fun c member => ne_of_isBlank (blanks c member)]
      refine ih tame others later fun c member => ?_
      rcases List.mem_append.1 member with added | before
      · exact blanks c (List.mem_reverse.1 added)
      · exact blank c before
  | statement keyword name head semicolon rest items token inside ends _ ih =>
      have parts : lexemesOf (.single keyword :: head ++ .single semicolon :: rest) =
          (keyword :: lexemesOf head) ++ (semicolon :: lexemesOf rest) := by
        simp [lexemesOf, lexemesOf_append, Component.lexemes]
      rw [parts] at spelled ⊢
      obtain ⟨first, ⟨last, later⟩⟩ :=
        (List.forall_mem_append.1 spelled).imp_right List.forall_mem_cons.1
      obtain ⟨own, others⟩ := List.forall_mem_cons.1 tame
      have shape := (first keyword List.mem_cons_self).1
      have semicolonText : bareText [semicolon] = [';'] :=
        bareText_mark last.1 (by rw [ends]; rfl)
      rw [bareText_append, bareText_cons semicolon, semicolonText, List.singleton_append,
        looseRulesFrom_statement own token shape blank]
      refine ih others (fun component member => matched component ?_) later
        (List.forall_mem_nil _)
      simp [member]
  | block keyword name head opener contents closer rest items token inside opens _ ih =>
      have parts : lexemesOf (.single keyword :: head ++ .block opener contents (some closer) :: rest) =
          (keyword :: lexemesOf head) ++
            ((Component.block opener contents (some closer)).lexemes ++ lexemesOf rest) := by
        simp [lexemesOf, lexemesOf_append, Component.lexemes]
      rw [parts] at spelled ⊢
      obtain ⟨first, ⟨last, later⟩⟩ :=
        (List.forall_mem_append.1 spelled).imp_right List.forall_mem_append.1
      obtain ⟨own, others⟩ := List.forall_mem_cons.1 tame
      have shape := (first keyword List.mem_cons_self).1
      have whole := matched (.block opener contents (some closer)) (by simp)
      obtain ⟨closing, within⟩ := closing_of_isMatched whole opens
      obtain ⟨opened, inner⟩ := List.forall_mem_cons.1 last
      have closed := inner closer (List.mem_append_right _ List.mem_cons_self)
      have neutral := isNeutral_contents within (own.even contents rfl) fun lexeme found =>
        inner lexeme (List.mem_append_left _ found)
      rw [bareText_append, bareText_append, bareText_curly opens closing opened.1 closed.1,
        List.cons_append, List.append_assoc, List.singleton_append,
        looseRulesFrom_blockRule own token shape blank neutral]
      refine ih others (fun component member => matched component ?_) later
        (List.forall_mem_nil _)
      simp [member]

theorem looseRules_atRules {css : String} {items : List AtItem}
    (atRules : AtRules (Component.read css.toList) items) (tame : ∀ item ∈ items, item.IsTame)
    (harmless : ∀ lexeme ∈ Syntax.lexemes css.toList, IsHarmless lexeme) :
    looseRules css.toList = [] := by
  have comments := stripComments_eq css.toList fun lexeme member =>
    (harmless lexeme member).imp_right IsPlain.comments
  have spelled : ∀ lexeme ∈ lexemesOf (Component.read css.toList),
      lexeme.Shape ∧ IsHarmless lexeme := by
    intro lexeme member
    rw [lexemesOf_read] at member
    exact ⟨shape_of_mem_lexemes member, harmless lexeme member⟩
  rw [looseRules, comments, ← lexemesOf_read]
  exact looseRulesFrom_atRules atRules tame (fun _ => isMatched_of_mem_read) spelled
    (List.forall_mem_nil _)

end Loose

/-- A style sheet of at-rules that are skipped, none of which misleads a reader of characters, gives
no rule, and lists nothing but these at-rules. -/
theorem read_atRules {css : String} {items : List AtItem}
    (atRules : AtRules (Component.read css.toList) items)
    (skipped : ∀ item ∈ items, item.IsSkipped)
    (harmless : ∀ lexeme ∈ Syntax.lexemes css.toList, IsHarmless lexeme)
    (tame : ∀ item ∈ items, item.IsTame) :
    ∃ sheet, read css = .ok sheet ∧ sheet.rules = [] ∧
      ∀ entry ∈ sheet.skipped, ∃ item ∈ items, entry = item.skipped := by
  have skips := skips_readLevel atRules skipped true
  have loose := looseRules_atRules atRules tame harmless
  have empty : ∀ fallback : Bool, (if fallback then looseRules css.toList
      else (readLevel true (Component.read css.toList)).enclose.rules) = [] := by
    intro fallback
    cases fallback with
    | true => exact loose
    | false => exact skips.rules
  refine ⟨_, by rw [read, empty, List.mapM_nil]; rfl, rfl, fun entry member => ?_⟩
  simp only [List.filterMap_nil, List.append_nil, Level.enclose, skips.malformed] at member
  exact skips.skipped entry member

theorem read_atRules_screen :
    ∃ sheet, read "@media screen\x7bp\x7bq:r\x7d\x7d" = .ok sheet ∧ sheet.rules = [] := by
  let keyword : Lexeme := ⟨.atKeyword "media".toList, "@media".toList⟩
  let prelude : List Component :=
    [.single ⟨.blank, [' ']⟩, .single ⟨.name "screen".toList, "screen".toList⟩]
  let opener : Lexeme := ⟨.opening .curly, ['\x7b']⟩
  let closer : Lexeme := ⟨.closing .curly, ['\x7d']⟩
  let inner : List Component :=
    [.single ⟨.name ['q'], ['q']⟩, .single ⟨.colon, [':']⟩, .single ⟨.name ['r'], ['r']⟩]
  let contents : List Component := [.single ⟨.name ['p'], ['p']⟩, .block opener inner (some closer)]
  have components : Component.read "@media screen\x7bp\x7bq:r\x7d\x7d".toList =
      .single keyword :: prelude ++ [.block opener contents (some closer)] := by
    cbv
  have lexemes : Syntax.lexemes "@media screen\x7bp\x7bq:r\x7d\x7d".toList =
      keyword :: lexemesOf prelude ++ opener :: lexemesOf contents ++ [closer] := by
    cbv
  have atRules : AtRules (Component.read "@media screen\x7bp\x7bq:r\x7d\x7d".toList)
      [⟨keyword, "media".toList, prelude, some contents⟩] :=
    components ▸ .block keyword _ prelude opener contents closer [] [] rfl
      (by simp [prelude, Declaration.endsAtRule, Declaration.isSemicolon, Component.token, curly?])
      rfl .nil
  have idle : (AtRule.read "media".toList prelude).applies = false := by
    cbv
  have plain : ∀ lexeme ∈ keyword :: lexemesOf prelude,
      ∀ c ∈ lexeme.text, c ≠ '\x7b' ∧ c ≠ '\x7d' ∧ c ≠ ';' := by
    simp [keyword, prelude, lexemesOf, Component.lexemes]
  have even : ∀ component ∈ contents, IsEven component := by
    intro component inside
    rcases List.mem_pair.1 inside with rfl | rfl
    · exact .single _ (by decide)
    · refine .block _ _ _ (fun _ => rfl) fun component inside => ?_
      simp only [inner, List.mem_cons, List.not_mem_nil, or_false] at inside
      rcases inside with rfl | rfl | rfl <;> exact .single _ (by decide)
  obtain ⟨sheet, found, empty, _⟩ := read_atRules atRules
    (by rintro item member; rw [List.mem_singleton.1 member]; exact fun _ => idle)
    (by rw [lexemes]; decide +kernel)
    (by
      rintro item member
      rw [List.mem_singleton.1 member]
      refine ⟨fun lexeme inside _ => plain lexeme inside, ?_⟩
      rintro _ ⟨⟩
      exact even)
  exact ⟨sheet, found, empty⟩

/-- A closing curly bracket in a string ends the block for the crude reader. -/
theorem read_atRules_string :
    ¬∀ (css : String) (items : List AtItem), AtRules (Component.read css.toList) items →
      (∀ item ∈ items, item.IsSkipped) → ∃ sheet, read css = .ok sheet ∧ sheet.rules = [] := by
  intro all
  let keyword : Lexeme := ⟨.atKeyword ['x'], ['@', 'x']⟩
  let opener : Lexeme := ⟨.opening .curly, ['\x7b']⟩
  let closer : Lexeme := ⟨.closing .curly, ['\x7d']⟩
  let inner : List Component :=
    [.single ⟨.name ['d'], ['d']⟩, .single ⟨.colon, [':']⟩, .single ⟨.name ['e'], ['e']⟩]
  let contents : List Component :=
    [.single ⟨.quoted ['\x7d', ' '], ['"', '\x7d', ' ', '"']⟩, .single ⟨.name ['c'], ['c']⟩,
      .block opener inner (some closer)]
  have components : Component.read "@x\x7b\"\x7d \"c\x7bd:e\x7d\x7d".toList =
      .single keyword :: [] ++ [.block opener contents (some closer)] := by
    cbv
  have atRules : AtRules (Component.read "@x\x7b\"\x7d \"c\x7bd:e\x7d\x7d".toList)
      [⟨keyword, ['x'], [], some contents⟩] :=
    components ▸ .block keyword _ [] opener contents closer [] [] rfl (List.forall_mem_nil _) rfl .nil
  have idle : (AtRule.read ['x'] []).applies = false := by
    cbv
  obtain ⟨sheet, found, empty⟩ := all _ _ atRules
    (by rintro item member; rw [List.mem_singleton.1 member]; exact fun _ => idle)
  have rules : (read "@x\x7b\"\x7d \"c\x7bd:e\x7d\x7d").map (·.rules.length) = .ok 1 := by
    cbv
  rw [found] at rules
  cases (Except.ok.inj rules).symm.trans (congrArg List.length empty)

end ComputedStyle.Stylesheet
