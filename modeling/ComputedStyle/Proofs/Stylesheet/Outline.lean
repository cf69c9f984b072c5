import Mathlib
import ComputedStyle.Proofs.Declaration.Components
import ComputedStyle.Proofs.Stylesheet.AtRules
import ComputedStyle.Proofs.Syntax.Words
import ComputedStyle.Proofs.Text.Nested
import ComputedStyle.Stylesheet.Outline

namespace ComputedStyle.Stylesheet

open Syntax Component

variable {gap : List Char} {cs rest : List Component} {first : Bool}

section Levels

theorem readLevel_between (between : ∀ component ∈ cs, isBetweenRules component) (first : Bool) :
    readLevel first (cs ++ rest) = readLevel first rest := by
  induction cs with
  | nil => rfl
  | cons component others ih =>
      obtain ⟨own, later⟩ := List.forall_mem_cons.1 between
      rw [List.cons_append, readLevel, if_pos own, ih later]

theorem startsRule_cons {component : Component} (blank : component.isBlankOrComment) :
    StartsRule (component :: cs) ↔ StartsRule cs := by
  have skipped : (component :: cs).find? (!·.isBlankOrComment) = cs.find? (!·.isBlankOrComment) :=
    List.find?_cons_of_neg (by simp [blank])
  have custom : startsCustomProperty (component :: cs) = startsCustomProperty cs := by
    unfold startsCustomProperty
    rw [List.filter_cons_of_neg (by simp [blank])]
  refine ⟨fun starts => ⟨?_, ?_⟩, fun starts => ⟨?_, ?_⟩⟩
  · rw [← skipped]
    exact starts.keyword
  · rw [← custom]
    exact starts.custom
  · rw [skipped]
    exact starts.keyword
  · rw [custom]
    exact starts.custom

theorem curly?_of_not_isEdge {component : Component} (inside : component.token.isEdge = false) :
    component.curly? = none :=
  curly?_eq_none (Token.ne_of_not_isEdge inside rfl)

theorem isCurly_of_not_isEdge {component : Component} (inside : component.token.isEdge = false) :
    isCurly component = false := by
  rw [isCurly, curly?_of_not_isEdge inside]
  rfl

theorem isSemicolon_of_not_isEdge {component : Component} (inside : component.token.isEdge = false) :
    Declaration.isSemicolon component = false :=
  beq_eq_false_iff_ne.2 (Token.ne_of_not_isEdge inside rfl)

theorem endsAtRule_of_not_isEdge {component : Component} (inside : component.token.isEdge = false) :
    Declaration.endsAtRule component = false := by
  rw [Declaration.endsAtRule, isSemicolon_of_not_isEdge inside, curly?_of_not_isEdge inside]
  rfl

theorem startsRule_blanks {gap : List Char} : StartsRule (blanks gap ++ cs) ↔ StartsRule cs := by
  cases gap with
  | nil => rfl
  | cons c others => exact startsRule_cons rfl

theorem readLevel_qualified {component : Component} {tail : List Component}
    (own : isBetweenRules component = false) (keyword : ∀ name, component.token ≠ .atKeyword name)
    (contents : List Component) (parts : component :: tail = cs ++ curlyBlock contents :: rest)
    (plain : ∀ component ∈ cs, isCurly component = false) (custom : startsCustomProperty cs = false)
    (first : Bool) :
    readLevel first (component :: tail) =
      Level.append { rules := [qualifiedRule cs contents] } (readLevel false rest) := by
  have go : ∀ component ∈ cs, (!isCurly component) = true :=
    fun component member => by rw [plain component member]; rfl
  have stop : ¬(!isCurly (curlyBlock contents)) = true := Bool.false_ne_true
  have before : (component :: tail).takeWhile (!isCurly ·) = cs := by
    rw [parts, List.takeWhile_append_of_pos go, List.takeWhile_cons_of_neg (by exact stop),
      List.append_nil]
  have after : (component :: tail).dropWhile (!isCurly ·) = curlyBlock contents :: rest := by
    rw [parts, List.dropWhile_append_of_pos go, List.dropWhile_cons_of_neg (by exact stop)]
  rw [readLevel, if_neg (by simp [own])]
  split
  · next name same => exact absurd same (keyword name)
  · dsimp only
    split
    · next missing => cases after.symm.trans missing
    · next last later found =>
        cases after.symm.trans found
        rw [before, if_neg (by simp [custom])]
        rfl

theorem readLevel_rule (contents : List Component)
    (inside : ∀ component ∈ cs, component.token.isEdge = false)
    (blank : ∀ component ∈ cs, component.isBlankOrComment → ∀ c ∈ component.text, Text.isBlank c)
    (starts : StartsRule cs) (first : Bool) :
    (readLevel first (cs ++ curlyBlock contents :: rest)).rules =
      ⟨Text.trim (textOf cs), Declaration.ofComponents contents⟩ :: (readLevel false rest).rules := by
  induction cs with
  | nil =>
      rw [List.nil_append, readLevel_qualified rfl (by rintro _ ⟨⟩) contents rfl
        (List.forall_mem_nil _) starts.custom]
      rfl
  | cons component others ih =>
      obtain ⟨own, later⟩ := List.forall_mem_cons.1 inside
      obtain ⟨spaces, blanks⟩ := List.forall_mem_cons.1 blank
      by_cases visible : component.isBlankOrComment
      · rw [List.cons_append, readLevel, if_pos (by simp [isBetweenRules, visible]),
          ih later blanks ((startsRule_cons visible).1 starts), textOf,
          Text.trim_append_left (spaces visible)]
      · have keyword : ∀ name, component.token ≠ .atKeyword name := by
          intro name same
          have found := starts.keyword
          rw [List.find?_cons_of_pos (by simp [visible]), Option.any_some, isAtKeyword, same] at found
          cases found
        have outside : isBetweenRules component = false := by
          simp only [isBetweenRules, visible, Bool.false_or, beq_eq_false_iff_ne]
          exact Token.ne_of_not_isEdge own rfl
        rw [List.cons_append, readLevel_qualified outside keyword contents
          (List.cons_append ..).symm (fun _ member => isCurly_of_not_isEdge (inside _ member))
          starts.custom]
        rfl

theorem rules_readLevel_atRule {keyword : Lexeme} {name : List Char} {last : Component}
    (token : keyword.token = .atKeyword name)
    (inside : ∀ component ∈ cs, Declaration.endsAtRule component = false)
    (ends : Declaration.endsAtRule last) (first : Bool) :
    (readLevel first (.single keyword :: cs ++ last :: rest)).rules =
      (if (AtRule.read name cs).applies then
          (last.curly?.map fun contents => (readLevel true contents).rules).getD []
        else []) ++ (readLevel false rest).rules := by
  rw [readLevel_atRule token inside ends]
  split
  · next silent =>
      have charset := beq_iff_eq.1 (Bool.and_eq_true_iff.1 silent).2
      have idle : (AtRule.read name cs).applies = false := by
        rw [AtRule.applies, AtRule.isMedia, charset]
        rfl
      rw [idle]
      rfl
  · cases last.curly? with
    | none =>
        rw [Option.map_none, Option.getD_none, ite_self]
        rfl
    | some contents =>
        dsimp only
        cases (AtRule.read name cs).applies <;> rfl

/-- The at-rule is a `@media` rule that applies. -/
def Applies (name prelude : List Char) : Bool :=
  Text.lower name == "media".toList && Media.applies prelude

theorem isName_media : IsName "media".toList := by
  decide

theorem applies_read {prelude : List Char} (name : List Char) (plain : IsPlainText prelude) :
    (AtRule.read name (Component.read (' ' :: prelude))).applies = Applies name prelude := by
  have padded := isPlainText_cons (c := ' ') rfl plain
  have condition : (AtRule.read name (Component.read (' ' :: prelude))).condition = Text.trim prelude := by
    rw [AtRule.read, textOf_read, stripComments_of_free padded.comments,
      Text.trim_cons_of_isBlank rfl]
  have media : Media.applies (Text.trim prelude) = Media.applies prelude := by
    rw [Media.applies, Media.applies, Text.trim_trim]
  have same : (String.ofList (Text.lower name) == "media") = (Text.lower name == "media".toList) := by
    rw [Bool.eq_iff_iff, beq_iff_eq, beq_iff_eq, ← String.toList_inj, String.toList_ofList]
  rw [AtRule.applies, condition, media, AtRule.isMedia, AtRule.read, same]
  rfl

end Levels

section Declarations

/-- The components of a declaration and its semicolon. -/
def declarationComponents (gap : List Char) (declaration : List Char × List Char) : List Component :=
  blanks gap ++ [.single ⟨.name declaration.1, declaration.1⟩] ++ [.single ⟨.colon, [':']⟩] ++
    Component.read declaration.2 ++ [.single ⟨.semicolon, [';']⟩]

theorem stands_declaration {declaration : List Char × List Char} (space : ∀ c ∈ gap, isSpace c)
    (name : IsName declaration.1) (value : IsPlainText declaration.2) :
    Stands (renderDeclaration gap declaration) (declarationComponents gap declaration) := by
  have before := (spells_name space name).mark (d := ':') rfl (by decide) rfl (by rintro ⟨⟩)
  have whole := (before.append_spells value.spells).mark (d := ';') rfl (by decide) rfl
    (by rintro ⟨⟩)
  simpa [renderDeclaration, declarationComponents] using whole

theorem ofComponents_declarationComponents {declaration : List Char × List Char}
    (value : IsPlainText declaration.2) (cs : List Component) :
    Declaration.ofComponents (declarationComponents gap declaration ++ cs) =
      (Declaration.normalize? declaration.1 declaration.2).toList ++
        Declaration.ofComponents cs := by
  obtain ⟨name, text⟩ := declaration
  have read := @Declaration.ofComponents_declaration (.single ⟨.semicolon, [';']⟩ :: cs)
    (Component.read text) [] name name ⟨.colon, [':']⟩ (List.forall_mem_nil _) rfl
    (fun component member => isSemicolon_of_not_isEdge (value.not_isEdge component member))
    (by rintro _ ⟨⟩; rfl)
  rw [textOf_read, Declaration.ofComponents_semicolon rfl] at read
  have parts : declarationComponents gap (name, text) ++ cs =
      blanks gap ++ (.single ⟨.name name, name⟩ :: ([] ++ .single ⟨.colon, [':']⟩ ::
        Component.read text) ++ .single ⟨.semicolon, [';']⟩ :: cs) := by
    simp [declarationComponents]
  rw [parts, Declaration.ofComponents_between fun _ => isBlankOrComment_of_mem_blanks, read]

theorem ofComponents_body {declarations : List (List Char × List Char)}
    (values : ∀ declaration ∈ declarations, IsPlainText declaration.2) :
    Declaration.ofComponents (declarations.flatMap (declarationComponents gap) ++ blanks gap) =
      declarations.filterMap fun d => Declaration.normalize? d.1 d.2 := by
  induction declarations with
  | nil =>
      have ends := Declaration.ofComponents_between
        (fun _ => @isBlankOrComment_of_mem_blanks gap _) []
      rw [List.append_nil] at ends
      rw [List.flatMap_nil, List.nil_append, ends, Declaration.ofComponents]
      rfl
  | cons declaration others ih =>
      obtain ⟨own, later⟩ := List.forall_mem_cons.1 values
      rw [List.flatMap_cons, List.append_assoc, ofComponents_declarationComponents own, ih later,
        List.filterMap_cons]
      cases Declaration.normalize? declaration.1 declaration.2 <;> rfl

theorem stands_body {declarations : List (List Char × List Char)} (space : ∀ c ∈ gap, isSpace c)
    (names : ∀ declaration ∈ declarations, IsName declaration.1)
    (values : ∀ declaration ∈ declarations, IsPlainText declaration.2) :
    Stands (declarations.flatMap (renderDeclaration gap))
      (declarations.flatMap (declarationComponents gap)) := by
  induction declarations with
  | nil => exact stands_nil
  | cons declaration others ih =>
      obtain ⟨name, names⟩ := List.forall_mem_cons.1 names
      obtain ⟨value, values⟩ := List.forall_mem_cons.1 values
      exact (stands_declaration space name value).append (ih names values)

end Declarations

section Items

variable (space : ∀ c ∈ gap, isSpace c)

include space

theorem stands_rule {rule : WrittenRule} (plain : rule.IsPlain) :
    Stands (rule.render gap) (Component.read (gap ++ rule.selector) ++
      [curlyBlock (rule.declarations.flatMap (declarationComponents gap) ++ blanks gap)]) :=
  (plain.selector.pad space).spells.block
    ((stands_body space plain.names plain.values).append_spells (spells_blanks space))

theorem stands_block {name prelude body : List Char} (named : IsName name)
    (plain : IsPlainText prelude) (inside : Spells body cs) :
    Stands (renderBlock (renderKeyword gap name prelude) body)
      (blanks gap ++ .single ⟨.atKeyword name, '@' :: name⟩ :: Component.read (' ' :: prelude) ++
        [curlyBlock cs]) :=
  (spells_keyword space named plain).block inside

theorem stands_statement {name prelude : List Char} (named : IsName name)
    (plain : IsPlainText prelude) :
    Stands (renderKeyword gap name prelude ++ [';'])
      (blanks gap ++ .single ⟨.atKeyword name, '@' :: name⟩ :: Component.read (' ' :: prelude) ++
        [.single ⟨.semicolon, [';']⟩]) :=
  (spells_keyword space named plain).mark rfl (by decide) rfl (by rintro ⟨⟩)

omit space

theorem isBetweenRules_of_mem_blanks {component : Component} (member : component ∈ blanks gap) :
    isBetweenRules component := by
  rw [isBetweenRules, isBlankOrComment_of_mem_blanks member, Bool.true_or]

theorem rules_readLevel_keyword {name prelude : List Char} {last : Component}
    (plain : IsPlainText prelude) (ends : Declaration.endsAtRule last) (first : Bool) :
    (readLevel first (blanks gap ++ .single ⟨.atKeyword name, '@' :: name⟩ ::
        Component.read (' ' :: prelude) ++ last :: rest)).rules =
      (if Applies name prelude then
          (last.curly?.map fun contents => (readLevel true contents).rules).getD []
        else []) ++ (readLevel false rest).rules := by
  have padded := isPlainText_cons (c := ' ') rfl plain
  rw [List.append_assoc, readLevel_between fun _ => isBetweenRules_of_mem_blanks,
    rules_readLevel_atRule rfl (fun component member =>
      endsAtRule_of_not_isEdge (padded.not_isEdge component member)) ends, applies_read name plain]

theorem isBlank_of_mem_read {s : List Char} (plain : IsPlainText s) {component : Component}
    (member : component ∈ Component.read s) (blank : component.isBlankOrComment) :
    ∀ c ∈ component.text, Text.isBlank c := fun c inside =>
  isBlank_of_isSpace (plain.isFlatText.isSpace_of_mem_read member blank c inside)

/-- The rule as it is read. -/
def WrittenRule.raw (rule : WrittenRule) : RawRule :=
  ⟨Text.trim rule.selector,
    rule.declarations.filterMap fun d => Declaration.normalize? d.1 d.2⟩

include space

theorem startsRule_pad {selector : List Char} (starts : StartsRule (Component.read selector)) :
    StartsRule (Component.read (gap ++ selector)) := by
  obtain ⟨blank, text, rfl, own, visible⟩ := exists_run isSpace selector
  have padding : ∀ c ∈ gap ++ blank, isSpace c := List.forall_mem_append.2 ⟨space, own⟩
  rw [read_blanks own visible, startsRule_blanks] at starts
  rw [← List.append_assoc, read_blanks padding visible, startsRule_blanks]
  exact starts

theorem rules_readLevel_rule {rule : WrittenRule} (plain : rule.IsPlain)
    (starts : StartsRule (Component.read rule.selector)) (first : Bool) :
    (readLevel first (Component.read (gap ++ rule.selector) ++
        curlyBlock (rule.declarations.flatMap (declarationComponents gap) ++ blanks gap) :: rest)).rules =
      rule.raw :: (readLevel false rest).rules := by
  have padded := plain.selector.pad space
  have trimmed : Text.trim (gap ++ rule.selector) = Text.trim rule.selector :=
    Text.trim_append_left (fun c member => isBlank_of_isSpace (space c member)) _
  rw [readLevel_rule _ padded.not_isEdge (fun _ => isBlank_of_mem_read padded)
    (startsRule_pad space starts), textOf_read, trimmed, ofComponents_body plain.values]
  rfl

end Items

section Outlines

variable (space : ∀ c ∈ gap, isSpace c)

theorem spells_text {text : BlockText} (plain : text.IsPlain) : ∃ cs, Spells text.render cs := by
  induction text with
  | last text => exact ⟨_, plain.spells⟩
  | semicolon text rest ih =>
      obtain ⟨own, later⟩ := plain
      obtain ⟨cs, more⟩ := ih later
      have first := own.spells.mark (d := ';') rfl (by decide) rfl (by rintro ⟨⟩)
      have whole := first.append_spells more
      rw [← List.append_cons] at whole
      exact ⟨_, whole⟩
  | block before inside rest ihInside ihRest =>
      obtain ⟨own, within, later⟩ := plain
      obtain ⟨cs, contents⟩ := ihInside within
      obtain ⟨ds, more⟩ := ihRest later
      exact ⟨_, (own.spells.block contents).append_spells more⟩

/-- Nothing but blanks holds no rule. -/
theorem rules_readLevel_blanks (first : Bool) : (readLevel first (blanks gap)).rules = [] := by
  have only := @readLevel_between (blanks gap) [] (fun _ => isBetweenRules_of_mem_blanks) first
  rw [List.append_nil] at only
  rw [only, readLevel]

include space

/-- A written style sheet is read as the rules of its outline, and what follows it as if it stood
alone. -/
theorem stands_render {outline : Outline} (plain : outline.IsPlain) (starts : outline.StartsRules) :
    ∃ cs, Stands (outline.render gap) cs ∧ ∀ first tail, ∃ later,
      (readLevel first (cs ++ tail)).rules =
        outline.rules.map WrittenRule.raw ++ (readLevel later tail).rules := by
  induction outline with
  | nil => exact ⟨[], stands_nil, fun first tail => ⟨first, rfl⟩⟩
  | rule written rest ih =>
      obtain ⟨cs, stands, rules⟩ := ih plain.2 starts.2
      refine ⟨_, (stands_rule space plain.1).append stands, fun first tail => ?_⟩
      obtain ⟨later, read⟩ := rules false tail
      refine ⟨later, ?_⟩
      rw [List.append_assoc, List.append_assoc, List.singleton_append,
        rules_readLevel_rule space plain.1 starts.1, read]
      rfl
  | media queries inside rest ihInside ihRest =>
      obtain ⟨cs, standsInside, rulesInside⟩ := ihInside plain.2.1 starts.1
      obtain ⟨ds, stands, rules⟩ := ihRest plain.2.2 starts.2
      refine ⟨_, (stands_block space isName_media plain.1
        (standsInside.append_spells (spells_blanks space))).append stands, fun first tail => ?_⟩
      obtain ⟨later, read⟩ := rules false tail
      refine ⟨later, ?_⟩
      rw [List.append_assoc, List.append_assoc, List.singleton_append,
        rules_readLevel_keyword plain.1 rfl, read]
      have live : Applies "media".toList queries = Media.applies queries := Bool.true_and _
      obtain ⟨last, contents⟩ := rulesInside true (blanks gap)
      rw [rules_readLevel_blanks, List.append_nil] at contents
      rw [live, Outline.rules, List.map_append, List.append_assoc]
      split
      · rw [← contents]
        rfl
      · rfl
  | block name prelude body rest ih =>
      obtain ⟨⟨named, other⟩, inside, within, following⟩ := plain
      obtain ⟨cs, contents⟩ := spells_text within
      obtain ⟨ds, stands, rules⟩ := ih following starts
      refine ⟨_, (stands_block space named inside contents).append stands, fun first tail => ?_⟩
      obtain ⟨later, read⟩ := rules false tail
      refine ⟨later, ?_⟩
      have idle : Applies name prelude = false := by
        rw [Applies, beq_eq_false_iff_ne.2 other, Bool.false_and]
      rw [List.append_assoc, List.append_assoc, List.singleton_append,
        rules_readLevel_keyword inside rfl, read, idle]
      rfl
  | statement name prelude rest ih =>
      obtain ⟨named, inside, following⟩ := plain
      obtain ⟨ds, stands, rules⟩ := ih following starts
      have whole := (stands_statement space named inside).append stands
      rw [← List.append_cons] at whole
      refine ⟨_, whole, fun first tail => ?_⟩
      obtain ⟨later, read⟩ := rules false tail
      refine ⟨later, ?_⟩
      rw [List.append_assoc, List.append_assoc, List.singleton_append,
        rules_readLevel_keyword inside rfl, read]
      rw [show (Component.single ⟨.semicolon, [';']⟩).curly? = none from rfl, Option.map_none,
        Option.getD_none, ite_self]
      rfl

end Outlines

/-! What the crude reader makes of written style sheets. -/

section Crude

variable {s u v : List Char}

/-- Unmarked texts with semicolons and whole blocks between them. -/
inductive IsLaid : List Char → Prop where
  | last (s : List Char) (unmarked : IsUnmarked s) : IsLaid s
  | semicolon (s rest : List Char) (unmarked : IsUnmarked s) (more : IsLaid rest) :
      IsLaid (s ++ ';' :: rest)
  | block (s inside rest : List Char) (unmarked : IsUnmarked s) (within : IsLaid inside)
      (more : IsLaid rest) : IsLaid (s ++ '\x7b' :: (inside ++ '\x7d' :: rest))

theorem IsLaid.comments (laid : IsLaid s) : ¬['/', '*'] <:+: s := by
  induction laid with
  | last s unmarked => exact unmarked.comments
  | semicolon s rest unmarked _ ih =>
      exact fun inside => (infix_of_append_cons (by decide) inside).elim unmarked.comments ih
  | block s inside rest unmarked _ _ ihInside ihRest =>
      intro within
      rcases infix_of_append_cons (by decide) within with before | within
      · exact unmarked.comments before
      · exact (infix_of_append_cons (by decide) within).elim ihInside ihRest

theorem apart_of_isUnmarked (unmarked : IsUnmarked s) :
    ∀ c ∈ s, c ≠ '\x7b' ∧ c ≠ '\x7d' ∧ c ≠ ';' := by
  intro c member
  have own := unmarked.chars c member
  simp only [List.mem_cons, List.not_mem_nil, or_false, not_or] at own
  exact own.2.2.2

theorem isNeutral_of_isUnmarked (unmarked : IsUnmarked s) : IsNeutral s :=
  isNeutral_of_plain ⟨fun member => unmarked.chars _ member (by decide),
    fun member => unmarked.chars _ member (by decide)⟩

theorem IsLaid.isNeutral (laid : IsLaid s) : IsNeutral s := by
  have semicolon : IsNeutral [';'] := isNeutral_of_plain (by decide)
  induction laid with
  | last s unmarked => exact isNeutral_of_isUnmarked unmarked
  | semicolon s rest unmarked _ ih =>
      exact (isNeutral_of_isUnmarked unmarked).append (semicolon.append ih)
  | block s inside rest unmarked _ _ ihInside ihRest =>
      have whole := (isNeutral_of_isUnmarked unmarked).append (ihInside.enclose.append ihRest)
      rwa [List.cons_append, List.cons_append, List.append_assoc, List.singleton_append] at whole

theorem isLaid_text {text : BlockText} (plain : text.IsPlain) : IsLaid text.render := by
  induction text with
  | last text => exact .last text plain.toIsUnmarked
  | semicolon text rest ih => exact .semicolon text _ plain.1.toIsUnmarked (ih plain.2)
  | block before inside rest ihInside ihRest =>
      have laid := IsLaid.block before _ _ plain.1.toIsUnmarked (ihInside plain.2.1)
        (ihRest plain.2.2)
      simpa [BlockText.render, renderBlock] using laid

variable (space : ∀ c ∈ gap, isSpace c)

include space

theorem isUnmarked_keyword {name prelude : List Char} (named : IsName name)
    (plain : IsPlainText prelude) : IsUnmarked (renderKeyword gap name prelude) := by
  have blank := isUnmarked_of_isSpace space
  have word := isUnmarked_of_isNameChar named.chars
  exact blank.append_cons (word.append_cons plain.toIsUnmarked (by decide)) (by decide)

theorem isLaid_declarations {declarations : List (List Char × List Char)}
    (names : ∀ declaration ∈ declarations, IsName declaration.1)
    (values : ∀ declaration ∈ declarations, IsPlainText declaration.2) (laid : IsLaid s) :
    IsLaid (declarations.flatMap (renderDeclaration gap) ++ s) := by
  induction declarations with
  | nil => exact laid
  | cons declaration others ih =>
      obtain ⟨name, names⟩ := List.forall_mem_cons.1 names
      obtain ⟨value, values⟩ := List.forall_mem_cons.1 values
      have own := ((isUnmarked_of_isNameChar name.chars).append_cons (d := ':')
        value.toIsUnmarked (by decide)).pad space
      have whole := IsLaid.semicolon _ _ own (ih names values)
      simpa [renderDeclaration] using whole

theorem isLaid_render {outline : Outline} (plain : outline.IsPlain) :
    IsLaid (outline.render gap ++ gap) := by
  induction outline with
  | nil => exact .last gap (isUnmarked_of_isSpace space)
  | rule written rest ih =>
      have body := isLaid_declarations space plain.1.names plain.1.values
        (.last gap (isUnmarked_of_isSpace space))
      have whole := IsLaid.block _ _ _ (plain.1.selector.toIsUnmarked.pad space) body (ih plain.2)
      simpa [Outline.render, WrittenRule.render, renderBlock] using whole
  | media queries inside rest ihInside ihRest =>
      have whole := IsLaid.block _ _ _ (isUnmarked_keyword space isName_media plain.1)
        (ihInside plain.2.1) (ihRest plain.2.2)
      simpa [Outline.render, renderBlock] using whole
  | block name prelude body rest ih =>
      obtain ⟨⟨named, -⟩, inside, within, later⟩ := plain
      have whole := IsLaid.block _ _ _ (isUnmarked_keyword space named inside)
        (isLaid_text within) (ih later)
      simpa [Outline.render, renderBlock] using whole
  | statement name prelude rest ih =>
      obtain ⟨named, inside, later⟩ := plain
      have whole := IsLaid.semicolon _ _ (isUnmarked_keyword space named inside) (ih later)
      simpa [Outline.render] using whole

theorem looseRulesFrom_gap (before : List Char) : looseRulesFrom before gap = [] := by
  have passed := looseRulesFrom_append (apart_of_isUnmarked (isUnmarked_of_isSpace space)) before []
  rwa [List.append_nil, looseRulesFrom] at passed

theorem looseRulesFrom_keyword {name prelude before : List Char} (named : IsName name)
    (plain : IsPlainText prelude) (blank : ∀ c ∈ before, Text.isBlank c) :
    ∃ next, StartsAtRule next ∧ ∀ rest,
      looseRulesFrom before (renderKeyword gap name prelude ++ rest) = looseRulesFrom next rest := by
  have unmarked := isUnmarked_keyword space named plain
  refine ⟨_, ⟨before.reverse ++ gap, name ++ ' ' :: prelude, ?_, ?_⟩,
    looseRulesFrom_append (apart_of_isUnmarked unmarked) before⟩
  · simp [renderKeyword]
  · refine List.forall_mem_append.2 ⟨fun c member => blank c (List.mem_reverse.1 member), ?_⟩
    exact fun c member => isBlank_of_isSpace (space c member)

theorem looseRulesFrom_renderBlock {name prelude before body : List Char} (named : IsName name)
    (plain : IsPlainText prelude) (blank : ∀ c ∈ before, Text.isBlank c) (laid : IsLaid body)
    (rest : List Char) :
    looseRulesFrom before (renderBlock (renderKeyword gap name prelude) body ++ rest) =
      looseRulesFrom [] rest := by
  obtain ⟨next, starts, passed⟩ := looseRulesFrom_keyword space named plain blank
  have parts : renderBlock (renderKeyword gap name prelude) body ++ rest =
      renderKeyword gap name prelude ++ '\x7b' :: (body ++ '\x7d' :: rest) := by
    simp [renderBlock]
  rw [parts, passed, looseRulesFrom_block starts laid.isNeutral]

/-- After blanks, each at-rule is dropped at its first bracket or semicolon. -/
theorem looseRulesFrom_render {outline : Outline} (plain : outline.IsPlain)
    (empty : outline.rules = []) {before : List Char} (blank : ∀ c ∈ before, Text.isBlank c) :
    looseRulesFrom before (outline.render gap ++ gap) = [] := by
  induction outline generalizing before with
  | nil => exact looseRulesFrom_gap space before
  | rule written rest ih => cases empty
  | media queries inside rest ihInside ihRest =>
      rw [Outline.render, List.append_assoc, looseRulesFrom_renderBlock space isName_media plain.1 blank
        (isLaid_render space plain.2.1)]
      exact ihRest plain.2.2 (List.append_eq_nil_iff.1 empty).2 (List.forall_mem_nil _)
  | block name prelude body rest ih =>
      obtain ⟨⟨named, -⟩, inside, within, later⟩ := plain
      rw [Outline.render, List.append_assoc, looseRulesFrom_renderBlock space named inside blank
        (isLaid_text within)]
      exact ih later empty (List.forall_mem_nil _)
  | statement name prelude rest ih =>
      obtain ⟨named, inside, later⟩ := plain
      obtain ⟨next, starts, passed⟩ := looseRulesFrom_keyword space named inside blank
      rw [Outline.render, List.append_assoc, passed, List.cons_append,
        looseRulesFrom_semicolon starts]
      exact ih later empty (List.forall_mem_nil _)

theorem looseRules_render {outline : Outline} (plain : outline.IsPlain)
    (empty : outline.rules = []) : looseRules (outline.render gap ++ gap) = [] := by
  rw [looseRules, stripComments_of_free (isLaid_render space plain).comments]
  exact looseRulesFrom_render space plain empty (List.forall_mem_nil _)

end Crude

section Settled

theorem members_trim (group : List Char) :
    StaticSelector.members (Text.trim group) = StaticSelector.members group := by
  rw [StaticSelector.members, Text.map_trim_splitTopLevel_trim (by decide), StaticSelector.members]

theorem settle_raw {rule : WrittenRule} (plain : rule.IsPlain) :
    (settle rule.raw).map Sum.getRight? = rule.source? := by
  have comments : ¬['/', '*'] <:+: Text.trim rule.selector := fun inside =>
    plain.selector.comments (inside.trans (Text.trim_infix _))
  rw [settle, WrittenRule.raw]
  dsimp only
  rw [stripComments_of_free comments, StaticSelector.filter?, members_trim, WrittenRule.source?]
  cases StaticSelector.members rule.selector with
  | nil => rfl
  | cons member others =>
      dsimp only
      cases StyleMap.ofDeclarations _ <;> rfl

theorem mapM_settle {rules : List WrittenRule} (plain : ∀ rule ∈ rules, rule.IsPlain) :
    ((rules.map WrittenRule.raw).mapM settle).map (List.map Sum.getRight?) =
      rules.mapM WrittenRule.source? := by
  induction rules with
  | nil => rfl
  | cons rule others ih =>
      obtain ⟨own, later⟩ := List.forall_mem_cons.1 plain
      rw [List.map_cons, List.mapM_cons, List.mapM_cons, ← settle_raw own, ← ih later]
      cases settle rule.raw with
      | error error => rfl
      | ok item => cases (others.map WrittenRule.raw).mapM settle <;> rfl

theorem isPlain_of_mem_rules {outline : Outline} (plain : outline.IsPlain) :
    ∀ rule ∈ outline.rules, rule.IsPlain := by
  induction outline with
  | nil => exact List.forall_mem_nil _
  | rule written rest ih => exact List.forall_mem_cons.2 ⟨plain.1, ih plain.2⟩
  | media queries inside rest ihInside ihRest =>
      refine List.forall_mem_append.2 ⟨?_, ihRest plain.2.2⟩
      split
      · exact ihInside plain.2.1
      · exact List.forall_mem_nil _
  | block name prelude body rest ih => exact ih plain.2.2.2
  | statement name prelude rest ih => exact ih plain.2.2

theorem rules_read_of_rules {css : List Char} {raws : List RawRule}
    (level : (readLevel true (Component.read css)).rules = raws)
    (loose : raws = [] → looseRules css = []) :
    (Stylesheet.read (String.ofList css)).map Stylesheet.rules =
      (raws.mapM settle).map fun settled => settled.filterMap Sum.getRight? := by
  have chosen : (if (readLevel true (Component.read css)).enclose.rules.isEmpty && looksLikeRules css
      then looseRules css else (readLevel true (Component.read css)).enclose.rules) = raws := by
    split
    · next empty =>
        have bare := List.isEmpty_iff.1 (Bool.and_eq_true_iff.1 empty).1
        have same : raws = [] := level.symm.trans bare
        rw [loose same, same]
    · exact level
  rw [Stylesheet.read, String.toList_ofList, chosen]
  cases raws.mapM settle <;> rfl

/-- The rules read from a written style sheet are those of its outline. -/
theorem rules_read_render {gap : List Char} (space : ∀ c ∈ gap, isSpace c) {outline : Outline}
    (plain : outline.IsPlain) (starts : outline.StartsRules) :
    (Stylesheet.read (String.ofList (outline.render gap ++ gap))).map Stylesheet.rules =
      outline.sourceRules := by
  obtain ⟨cs, stands, rules⟩ := stands_render space plain starts
  have components : Component.read (outline.render gap ++ gap) = cs ++ blanks gap :=
    (stands.append_spells (spells_blanks space)).reads.ofLexemes_eq
  obtain ⟨later, level⟩ := rules true (blanks gap)
  rw [rules_readLevel_blanks, List.append_nil, ← components] at level
  rw [rules_read_of_rules level fun bare =>
    looseRules_render space plain (List.map_eq_nil_iff.1 bare), Outline.sourceRules,
    ← mapM_settle (isPlain_of_mem_rules plain)]
  cases (outline.rules.map WrittenRule.raw).mapM settle with
  | error error => rfl
  | ok settled =>
      exact congrArg Except.ok (@List.filterMap_map _ _ _ Sum.getRight? id settled).symm

/-- Rules in `@media` blocks, one of which applies, beside other at-rules. -/
theorem rules_read_render_media :
    (Stylesheet.read (" @import x; @media print\x7b p:hover, a[b]\x7b margin: 1px; --x:(y); \x7d \x7d" ++
        " @media screen\x7b b\x7b c:d; \x7d \x7d @supports (d: e)\x7bf \x7bg: h;\x7d\x7d ")).map
        (fun sheet => sheet.rules.map fun rule => (rule.selector, rule.declarations.entries)) =
      .ok [("a[b]", [("--x", "(y)"), ("margin-bottom", "1px"), ("margin-left", "1px"),
        ("margin-right", "1px"), ("margin-top", "1px")])] := by
  let outline : Outline :=
    .statement "import".toList "x".toList <|
    .media "print".toList
      (.rule ⟨"p:hover, a[b]".toList,
        [("margin".toList, " 1px".toList), ("--x".toList, "(y)".toList)]⟩ .nil) <|
    .media "screen".toList (.rule ⟨"b".toList, [("c".toList, "d".toList)]⟩ .nil) <|
    .block "supports".toList "(d: e)".toList
      (.block "f ".toList (.semicolon "g: h".toList (.last [])) (.last [])) .nil
  have text : String.ofList (outline.render [' '] ++ [' ']) =
      " @import x; @media print\x7b p:hover, a[b]\x7b margin: 1px; --x:(y); \x7d \x7d" ++
        " @media screen\x7b b\x7b c:d; \x7d \x7d @supports (d: e)\x7bf \x7bg: h;\x7d\x7d " := by
    decide +kernel
  have space : ∀ c ∈ [' '], isSpace c := List.forall_mem_singleton.2 rfl
  have plain : outline.IsPlain := by decide +kernel
  have starts : outline.StartsRules := by decide +kernel
  have read := rules_read_render space plain starts
  rw [text] at read
  have source : outline.sourceRules.map
      (List.map fun rule => (rule.selector, rule.declarations.entries)) =
      .ok [("a[b]", [("--x", "(y)"), ("margin-bottom", "1px"), ("margin-left", "1px"),
        ("margin-right", "1px"), ("margin-top", "1px")])] := by
    decide +kernel
  rw [← source, ← read]
  cases Stylesheet.read (" @import x; @media print\x7b p:hover, a[b]\x7b margin: 1px; --x:(y); \x7d \x7d" ++
    " @media screen\x7b b\x7b c:d; \x7d \x7d @supports (d: e)\x7bf \x7bg: h;\x7d\x7d ") <;> rfl

/-- A selector that starts like a custom property is no selector for the reader. -/
theorem rules_read_render_custom :
    ¬∀ (gap : List Char) (outline : Outline), (∀ c ∈ gap, isSpace c) → outline.IsPlain →
      (Stylesheet.read (String.ofList (outline.render gap ++ gap))).map Stylesheet.rules =
        outline.sourceRules := by
  intro all
  let outline : Outline :=
    .rule ⟨['p'], [(['c'], ['d'])]⟩ (.rule ⟨"--x:root".toList, [(['e'], ['f'])]⟩ .nil)
  have same := congrArg (Except.map List.length) (all [' '] outline
    (List.forall_mem_singleton.2 rfl) (by decide +kernel))
  have found : (Except.map List.length ((Stylesheet.read
      (String.ofList (outline.render [' '] ++ [' ']))).map Stylesheet.rules)) = .ok 1 := by
    decide +kernel
  have source : Except.map List.length outline.sourceRules = .ok 2 := by
    decide +kernel
  cases (found.symm.trans same).trans source

end Settled

end ComputedStyle.Stylesheet
