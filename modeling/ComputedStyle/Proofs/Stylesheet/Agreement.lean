import Mathlib
import ComputedStyle.Proofs.Declaration.Recovery
import ComputedStyle.Proofs.Stylesheet.Outline

namespace ComputedStyle.Stylesheet

open Syntax Component Declaration Text

variable {gap s body css : List Char} {outer next : List Bracket} {pieces texts : List (List Char)}
  {meaning : Option (List Char × List Char)} {meanings : List (Option (List Char × List Char))}
  {declarations : List (List Char × List Char)} {rule : WrittenRule} {rules : List WrittenRule}

/-- Blanks, or a declaration with any blanks around its name. -/
inductive IsPieceOf : List Char → Option (List Char × List Char) → Prop where
  | blank (gap : List Char) (space : ∀ c ∈ gap, isSpace c) : IsPieceOf gap none
  | declaration (before name after value : List Char) (spaceBefore : ∀ c ∈ before, isSpace c)
      (named : IsName name) (spaceAfter : ∀ c ∈ after, isSpace c) (plain : IsPlainText value) :
      IsPieceOf (before ++ (name ++ after) ++ ':' :: value) (some (name, value))

/-- Declarations with one semicolon or more between any two of them. -/
inductive IsBodyOf : List Char → List (List Char × List Char) → Prop where
  | join (pieces : List (List Char)) (meanings : List (Option (List Char × List Char)))
      (each : List.Forall₂ IsPieceOf pieces meanings) :
      IsBodyOf ([';'].intercalate pieces) meanings.reduceOption

/-- A rule whose selector may have blanks around it. -/
inductive IsRuleOf : List Char → WrittenRule → Prop where
  | block (selector body : List Char) (declarations : List (List Char × List Char))
      (inside : IsBodyOf body declarations) :
      IsRuleOf (renderBlock selector body) ⟨selector, declarations⟩

/-- Plain text that can be seen and does not start like an at-rule. -/
structure IsPlainSelector (selector : List Char) : Prop extends IsPlainText selector where
  nonempty : trim selector ≠ []
  keyword : '@' ∉ (trim selector).head?

/-- One that does not start like a custom property either. -/
structure IsRuleSelector (selector : List Char) : Prop extends IsPlainSelector selector where
  custom : startsCustomProperty (Component.read selector) = false

section Pieces

theorem step_of_closer {c : Char} {bracket : Bracket} (closer : c ∈ [')', ']'])
    (step : (if outer.head? = some bracket then some outer.tail else none) = some next) :
    Nesting.step .roundAndSquare ⟨none, outer.length⟩ c = ⟨none, next.length⟩ := by
  cases outer with
  | nil => cases step
  | cons first others =>
      split at step
      · cases step
        exact Nesting.step_closer closer
      · cases step

theorem step_of_openAfter? {c : Char} (unquoted : c ∉ ['"', '\''])
    (step : openAfter? outer c = some next) :
    Nesting.step .roundAndSquare ⟨none, outer.length⟩ c = ⟨none, next.length⟩ := by
  unfold openAfter? at step
  split at step
  · cases step
    exact Nesting.step_opener (by decide)
  · cases step
    exact Nesting.step_opener (by decide)
  · exact step_of_closer (by decide) step
  · exact step_of_closer (by decide) step
  · next round square closing closing' =>
      cases step
      refine Nesting.step_of_isBare ?_
      simp only [IsBare, List.mem_cons, List.not_mem_nil, or_false, not_or] at unquoted ⊢
      exact ⟨unquoted.1, unquoted.2, round, closing, square, closing'⟩

/-- Where brackets are closed in order, counting them comes to the same. -/
theorem isPiece_of_balanced {d : Char} (chars : ∀ c ∈ s, c ∉ ['"', '\'', d])
    (run : s.foldlM openAfter? outer = some []) : IsPiece d ⟨none, outer.length⟩ s := by
  induction s generalizing outer with
  | nil =>
      cases run
      rfl
  | cons c others ih =>
      obtain ⟨own, later⟩ := List.forall_mem_cons.1 chars
      rw [List.foldlM_cons] at run
      obtain ⟨inner, step, more⟩ := Option.bind_eq_some_iff.1 run
      simp only [List.mem_cons, List.not_mem_nil, or_false, not_or] at own
      refine ⟨fun same => absurd same own.2.2, ?_⟩
      rw [step_of_openAfter? (by simp [own]) step]
      exact ih later more

theorem isPiece_of_isPlainText (plain : IsPlainText s) : IsPiece ';' .top s := by
  refine isPiece_of_balanced (fun c member => ?_) plain.balanced
  have own := plain.chars c member
  simp only [List.mem_cons, List.not_mem_nil, or_false, not_or] at own ⊢
  exact ⟨own.1, own.2.1, own.2.2.2.2.2⟩

theorem isUnmarked_nil : IsUnmarked [] :=
  isUnmarked_of_isSpace (List.forall_mem_nil _)

theorem isUnmarked_declaration {before name after value : List Char}
    (spaceBefore : ∀ c ∈ before, isSpace c) (named : IsName name)
    (spaceAfter : ∀ c ∈ after, isSpace c) (plain : IsPlainText value) :
    IsUnmarked (before ++ (name ++ after) ++ ':' :: value) := by
  have word := isUnmarked_of_isNameChar named.chars
  rw [List.append_assoc, List.append_assoc]
  refine IsUnmarked.pad ?_ spaceBefore
  cases after with
  | nil => exact word.append_cons plain.toIsUnmarked (by decide)
  | cons c others =>
      obtain ⟨own, later⟩ := List.forall_mem_cons.1 spaceAfter
      have marked := (isUnmarked_nil.append_cons (d := ':') plain.toIsUnmarked (by decide)).pad later
      exact word.append_cons marked (not_mem_of_all (by decide) own)

theorem not_mem_name {before name after : List Char} {d : Char} (visible : isSpace d = false)
    (other : isNameChar d = false) (spaceBefore : ∀ c ∈ before, isSpace c) (named : IsName name)
    (spaceAfter : ∀ c ∈ after, isSpace c) : d ∉ before ++ (name ++ after) := by
  simp only [List.mem_append, not_or]
  exact ⟨fun member => by simp [spaceBefore d member] at visible,
    fun member => by simp [named.chars d member] at other,
    fun member => by simp [spaceAfter d member] at visible⟩

theorem IsPieceOf.isPlainText (piece : IsPieceOf s meaning) : IsPlainText s := by
  cases piece with
  | blank _ space =>
      refine ⟨isUnmarked_of_isSpace space, foldlM_openAfter?_of_free (fun c member => ?_) []⟩
      exact isSpace_not_bracket (space c member)
  | declaration before name after value spaceBefore named spaceAfter plain =>
      refine ⟨isUnmarked_declaration spaceBefore named spaceAfter plain, ?_⟩
      have free : ∀ c ∈ before ++ (name ++ after) ++ [':'], c ∉ Syntax.brackets := by
        simp only [List.forall_mem_append, List.forall_mem_singleton]
        exact ⟨⟨fun c member => isSpace_not_bracket (spaceBefore c member),
          fun c member => not_mem_of_all (by decide) (named.chars c member),
          fun c member => isSpace_not_bracket (spaceAfter c member)⟩, by decide⟩
      rw [List.append_cons, List.foldlM_append, foldlM_openAfter?_of_free free]
      exact plain.balanced

theorem isPlainText_of_mem (each : List.Forall₂ IsPieceOf pieces meanings) :
    ∀ piece ∈ pieces, IsPlainText piece := by
  induction each with
  | nil => exact List.forall_mem_nil _
  | cons own _ ih => exact List.forall_mem_cons.2 ⟨own.isPlainText, ih⟩

/-- What a text between semicolons declares. -/
def declared (meaning : Option (List Char × List Char)) : Option Declaration :=
  meaning.bind fun declaration => normalize? declaration.1 declaration.2

theorem IsPieceOf.readsAs (piece : IsPieceOf s meaning) : ReadsAs s (declared meaning).toList := by
  cases piece with
  | blank _ space =>
      exact ⟨_, spells_blanks space, fun tail _ =>
        ofComponents_between (fun _ => isBlankOrComment_of_mem_blanks) tail⟩
  | declaration _ _ _ _ spaceBefore named spaceAfter plain =>
      exact (isHead_of_isName spaceBefore named spaceAfter).readsAs plain.isFlatText

theorem normalize?_of_trim {name word : List Char} (same : trim word = trim name)
    (value : List Char) : normalize? word value = normalize? name value := by
  rw [normalize?, same, ← normalize?]

theorem IsPieceOf.splitOnce (piece : IsPieceOf s meaning) :
    declared (splitOnce ':' s) = declared meaning := by
  cases piece with
  | blank _ space =>
      have free : ':' ∉ s := fun member => absurd (space _ member) (by decide)
      rw [splitOnce_eq_none free]
  | declaration before name after value spaceBefore named spaceAfter plain =>
      rw [splitOnce_append (not_mem_name (by decide) (by decide) spaceBefore named spaceAfter)]
      refine normalize?_of_trim ?_ value
      rw [trim_append_left fun c member => isBlank_of_isSpace (spaceBefore c member),
        trim_append_right fun c member => isBlank_of_isSpace (spaceAfter c member)]

end Pieces

section Bodies

theorem ofPieces_eq (text : List Char) :
    ofPieces text = (splitTopLevel ';' text).filterMap fun piece => declared (splitOnce ':' piece) := by
  refine List.filterMap_congr fun piece _ => ?_
  cases splitOnce ':' piece <;> rfl

theorem mem_intercalate {d c : Char} (member : c ∈ [d].intercalate pieces) :
    c = d ∨ ∃ piece ∈ pieces, c ∈ piece := by
  induction pieces with
  | nil => cases member
  | cons piece others ih =>
      cases others with
      | nil => exact .inr ⟨piece, List.mem_cons_self, by simpa using member⟩
      | cons next later =>
          rw [List.intercalate_cons_cons, List.append_assoc, List.mem_append, List.mem_append,
            List.mem_singleton] at member
          rcases member with own | same | rest
          · exact .inr ⟨piece, List.mem_cons_self, own⟩
          · exact .inl same
          · exact (ih rest).imp_right fun ⟨other, among, inside⟩ =>
              ⟨other, List.mem_cons_of_mem _ among, inside⟩

theorem filterMap_declared (meanings : List (Option (List Char × List Char))) :
    meanings.filterMap declared =
      meanings.reduceOption.filterMap fun declaration => normalize? declaration.1 declaration.2 := by
  rw [List.reduceOption, List.filterMap_filterMap]
  rfl

theorem exists_spells_body (inside : IsBodyOf body declarations) :
    ∃ cs, Spells body cs ∧ ofComponents cs =
      declarations.filterMap fun declaration => normalize? declaration.1 declaration.2 := by
  obtain ⟨pieces, meanings, each⟩ := inside
  have reads : List.Forall₂ ReadsAs pieces (meanings.map fun meaning => (declared meaning).toList) :=
    List.forall₂_map_right_iff.2 (each.imp fun _ _ => IsPieceOf.readsAs)
  obtain ⟨cs, spells, meant⟩ := exists_spells_intercalate reads
  refine ⟨cs, spells, ?_⟩
  rw [meant, ← List.flatMap_def, ← List.filterMap_eq_flatMap_toList, filterMap_declared]

theorem filterMap_splitOnce (each : List.Forall₂ IsPieceOf pieces meanings) :
    pieces.filterMap (fun piece => declared (splitOnce ':' piece)) = meanings.filterMap declared := by
  induction each with
  | nil => rfl
  | cons own _ ih => rw [List.filterMap_cons, List.filterMap_cons, own.splitOnce, ih]

theorem splitTopLevel_pieces (each : List.Forall₂ IsPieceOf pieces meanings) :
    (splitTopLevel ';' ([';'].intercalate pieces)).filterMap
        (fun piece => declared (splitOnce ':' piece)) = meanings.filterMap declared := by
  have whole : ∀ piece ∈ pieces, IsPiece ';' .top piece := fun piece member =>
    isPiece_of_isPlainText (isPlainText_of_mem each piece member)
  rw [← filterMap_splitOnce each]
  cases pieces with
  | nil => rfl
  | cons piece others => rw [splitTopLevel_intercalate (List.cons_ne_nil _ _) whole]

theorem ofPieces_body (inside : IsBodyOf body declarations) :
    ofPieces body =
      declarations.filterMap fun declaration => normalize? declaration.1 declaration.2 := by
  obtain ⟨pieces, meanings, each⟩ := inside
  rw [ofPieces_eq, splitTopLevel_pieces each, filterMap_declared]

theorem isLaid_intercalate (plain : ∀ piece ∈ pieces, IsUnmarked piece) :
    IsLaid ([';'].intercalate pieces) := by
  induction pieces with
  | nil => exact .last [] isUnmarked_nil
  | cons piece others ih =>
      obtain ⟨own, later⟩ := List.forall_mem_cons.1 plain
      cases others with
      | nil =>
          rw [List.intercalate_singleton]
          exact .last piece own
      | cons next others =>
          rw [List.intercalate_cons_cons, List.append_assoc]
          exact .semicolon piece _ own (ih later)

theorem IsBodyOf.isLaid (inside : IsBodyOf body declarations) : IsLaid body := by
  obtain ⟨pieces, meanings, each⟩ := inside
  exact isLaid_intercalate fun piece member => (isPlainText_of_mem each piece member).toIsUnmarked

theorem IsBodyOf.unbraced (inside : IsBodyOf body declarations) : '\x7b' ∉ body := by
  obtain ⟨pieces, meanings, each⟩ := inside
  intro member
  rcases mem_intercalate member with same | ⟨piece, among, inside⟩
  · cases same
  · exact (isPlainText_of_mem each piece among).chars _ inside (by decide)

end Bodies

section Rules

/-- A text whose first component but for blanks is an at-keyword starts with its mark. -/
theorem head?_trim_of_keyword {selector : List Char} {component : Component}
    (flat : IsFlatText selector)
    (first : (Component.read selector).find? (!·.isBlankOrComment) = some component)
    (keyword : isAtKeyword component) : (trim selector).head? = some '@' := by
  obtain ⟨-, front, others, read, blank⟩ := List.find?_eq_some_iff_append.1 first
  have member : component ∈ Component.read selector := by simp [read]
  obtain ⟨name, token⟩ : ∃ name, component.token = .atKeyword name := by
    unfold isAtKeyword at keyword
    split at keyword
    · next name token => exact ⟨name, token⟩
    · cases keyword
  obtain ⟨lexeme, listed, rfl⟩ := exists_single_of_mem_read member (by rw [token]; rfl)
  obtain ⟨text, same⟩ := (shape_of_mem_lexemes listed).text_of_atKeyword token
  have space : ∀ c ∈ textOf front, isSpace c :=
    isSpace_of_mem_textOf flat (fun c among => by simp [read, among])
      fun c among => by simpa using blank c among
  have whole : selector = textOf front ++ '@' :: (text ++ textOf others) := by
    rw [← textOf_read selector, read]
    simp [textOf_eq_flatMap, lexemesOf_append, lexemesOf, Component.lexemes, same]
  rw [whole, trim_append_left fun c among => isBlank_of_isSpace (space c among), trim,
    trimLeft_of_head (by rintro _ ⟨⟩; rfl), trimRight_cons_of_not_isBlank rfl, List.head?_cons]

theorem IsRuleSelector.startsRule {selector : List Char} (own : IsRuleSelector selector) :
    StartsRule (Component.read selector) := by
  refine ⟨(Option.any_eq_false _ _).2 fun component first => ?_, own.custom⟩
  by_contra keyword
  exact own.keyword (head?_trim_of_keyword own.isFlatText first (by simpa using keyword))

theorem exists_stands_rule {text : List Char} (written : IsRuleOf text rule)
    (own : IsRuleSelector rule.selector) :
    ∃ cs, Stands text cs ∧ ∀ first tail,
      (readLevel first (cs ++ tail)).rules = rule.raw :: (readLevel false tail).rules := by
  obtain ⟨selector, body, declarations, inside⟩ := written
  obtain ⟨cs, spells, meant⟩ := exists_spells_body inside
  refine ⟨_, own.spells.block spells, fun first tail => ?_⟩
  rw [List.append_assoc, List.singleton_append,
    readLevel_rule _ own.not_isEdge (fun _ => isBlank_of_mem_read own.toIsPlainText) own.startsRule,
    textOf_read, meant]
  rfl

theorem looseRulesFrom_rule {text : List Char} (written : IsRuleOf text rule)
    (plain : IsPlainSelector rule.selector) (rest : List Char) :
    looseRulesFrom [] (text ++ rest) = rule.raw :: looseRulesFrom [] rest := by
  obtain ⟨selector, body, declarations, inside⟩ := written
  have parts : renderBlock selector body ++ rest = selector ++ '\x7b' :: (body ++ '\x7d' :: rest) := by
    simp [renderBlock]
  have kept : ((trim selector).isEmpty || (trim selector).head? == some '@' ||
      body.contains '\x7b') = false := by
    rw [List.isEmpty_eq_false_iff.2 plain.nonempty, beq_eq_false_iff_ne.2 plain.keyword,
      List.contains_eq_mem, decide_eq_false inside.unbraced]
    rfl
  rw [parts, looseRulesFrom_append (apart_of_isUnmarked plain.toIsUnmarked), List.append_nil,
    looseRulesFrom, if_pos (beq_self_eq_true _)]
  simp only [inside.isLaid.isNeutral.readBody, List.reverse_reverse, kept, Bool.false_eq_true,
    if_false, ofPieces_body inside]
  rfl

end Rules

section Sheets

theorem exists_stands_rules (each : List.Forall₂ IsRuleOf texts rules)
    (plain : ∀ rule ∈ rules, IsRuleSelector rule.selector) :
    ∃ cs, Stands texts.flatten cs ∧ ∀ first tail, ∃ later,
      (readLevel first (cs ++ tail)).rules =
        rules.map WrittenRule.raw ++ (readLevel later tail).rules := by
  induction each with
  | nil => exact ⟨[], stands_nil, fun first tail => ⟨first, rfl⟩⟩
  | cons written _ ih =>
      obtain ⟨own, others⟩ := List.forall_mem_cons.1 plain
      obtain ⟨cs, stands, rule⟩ := exists_stands_rule written own
      obtain ⟨ds, standsLater, rules⟩ := ih others
      refine ⟨_, stands.append standsLater, fun first tail => ?_⟩
      obtain ⟨later, read⟩ := rules false tail
      refine ⟨later, ?_⟩
      rw [List.append_assoc, rule, read]
      rfl

theorem isLaid_rules (each : List.Forall₂ IsRuleOf texts rules)
    (plain : ∀ rule ∈ rules, IsUnmarked rule.selector) (last : IsLaid gap) :
    IsLaid (texts.flatten ++ gap) := by
  induction each with
  | nil => exact last
  | cons written _ ih =>
      obtain ⟨own, others⟩ := List.forall_mem_cons.1 plain
      obtain ⟨selector, body, declarations, inside⟩ := written
      have whole := IsLaid.block selector body _ own inside.isLaid (ih others)
      simpa [renderBlock] using whole

theorem looseRulesFrom_rules (space : ∀ c ∈ gap, isSpace c)
    (each : List.Forall₂ IsRuleOf texts rules)
    (plain : ∀ rule ∈ rules, IsPlainSelector rule.selector) :
    looseRulesFrom [] (texts.flatten ++ gap) = rules.map WrittenRule.raw := by
  induction each with
  | nil => exact looseRulesFrom_gap space []
  | cons written _ ih =>
      obtain ⟨own, others⟩ := List.forall_mem_cons.1 plain
      rw [List.flatten_cons, List.append_assoc, looseRulesFrom_rule written own, ih others]
      rfl

end Sheets

/-- On plain style sheets both readers give the written rules, and on plain bodies the written
declarations. -/
theorem readers_agree :
    (∀ (gap : List Char) (texts : List (List Char)) (rules : List WrittenRule),
      (∀ c ∈ gap, isSpace c) → List.Forall₂ IsRuleOf texts rules →
      (∀ rule ∈ rules, IsRuleSelector rule.selector) →
        (readLevel true (Component.read (texts.flatten ++ gap))).rules = rules.map WrittenRule.raw ∧
        looseRules (texts.flatten ++ gap) = rules.map WrittenRule.raw) ∧
    ∀ (body : List Char) (declarations : List (List Char × List Char)), IsBodyOf body declarations →
      let found := declarations.filterMap fun declaration =>
        normalize? declaration.1 declaration.2
      ofComponents (Component.read body) = found ∧ ofPieces body = found := by
  refine ⟨fun gap texts rules space each plain => ⟨?_, ?_⟩,
    fun body declarations inside => ⟨?_, ofPieces_body inside⟩⟩
  · obtain ⟨cs, stands, read⟩ := exists_stands_rules each plain
    have components : Component.read (texts.flatten ++ gap) = cs ++ blanks gap :=
      (stands.append_spells (spells_blanks space)).reads.ofLexemes_eq
    obtain ⟨later, level⟩ := read true (blanks gap)
    rwa [rules_readLevel_blanks, List.append_nil, ← components] at level
  · have laid := isLaid_rules each (fun rule member => (plain rule member).toIsUnmarked)
      (.last gap (isUnmarked_of_isSpace space))
    rw [looseRules, stripComments_of_free laid.comments]
    exact looseRulesFrom_rules space each fun rule member => (plain rule member).toIsPlainSelector
  · obtain ⟨cs, spells, meant⟩ := exists_spells_body inside
    have components : Component.read body = cs := spells.reads.ofLexemes_eq
    rw [components, meant]

theorem isRuleOf_single (selector name value : List Char) (named : IsName name)
    (plain : IsPlainText value) :
    IsRuleOf (renderBlock selector (name ++ ':' :: (value ++ [';']))) ⟨selector, [(name, value)]⟩ := by
  have blank : ∀ c ∈ ([] : List Char), isSpace c := List.forall_mem_nil _
  have inside := IsBodyOf.join _ _
    (.cons (.declaration [] name [] value blank named blank plain) (.cons (.blank [] blank) .nil))
  rw [List.intercalate_cons_cons, List.intercalate_singleton, List.append_nil name] at inside
  simpa using IsRuleOf.block selector _ _ inside

/-- A body that starts with a semicolon and does not end with one. -/
theorem readers_agree_spaced :
    let css := "p, .a:not(b) \x7b;color : Red !important;--X:(y)\x7d ".toList
    let body := ";color : Red !important;--X:(y)".toList
    let declarations : List Declaration := [⟨"color", "Red"⟩, ⟨"--X", "(y)"⟩]
    let rules : List RawRule := [⟨"p, .a:not(b)".toList, declarations⟩]
    ((readLevel true (Component.read css)).rules = rules ∧ looseRules css = rules) ∧
      (ofComponents (Component.read body) = declarations ∧ ofPieces body = declarations) := by
  intro css body declarations rules
  let selector := "p, .a:not(b) ".toList
  let color := [] ++ ("color".toList ++ [' ']) ++ ':' :: " Red !important".toList
  let custom := [] ++ ("--X".toList ++ []) ++ ':' :: "(y)".toList
  have blank : ∀ c ∈ ([] : List Char), isSpace c := List.forall_mem_nil _
  have one : ∀ c ∈ [' '], isSpace c := List.forall_mem_singleton.2 rfl
  have inside : IsBodyOf ([';'].intercalate [[], color, custom]) _ := .join _ _
    (.cons (.blank [] blank) (.cons (.declaration _ _ _ _ blank (by decide) one (by decide))
      (.cons (.declaration _ _ _ _ blank (by decide) blank (by decide)) .nil)))
  have text : [';'].intercalate [[], color, custom] = body := by decide +kernel
  rw [text] at inside
  have whole : [renderBlock selector body].flatten ++ [' '] = css := by decide +kernel
  have agree := readers_agree.1 [' '] _ _ one (.cons (.block selector _ _ inside) .nil)
    (List.forall_mem_singleton.2
      ⟨⟨by decide +kernel, by decide +kernel, by decide +kernel⟩, by decide +kernel⟩)
  have alone := readers_agree.2 _ _ inside
  rw [whole] at agree
  refine ⟨⟨agree.1.trans ?_, agree.2.trans ?_⟩, alone.1.trans ?_, alone.2.trans ?_⟩ <;> decide +kernel

/-- A selector that starts like a custom property is no selector for the reader of components. -/
theorem readers_agree_custom :
    ¬∀ (texts : List (List Char)) (rules : List WrittenRule), List.Forall₂ IsRuleOf texts rules →
      (∀ rule ∈ rules, IsPlainSelector rule.selector ∧
        ∀ mark ∈ ['@', '[', ']', '<'], mark ∉ rule.selector) →
        (readLevel true (Component.read texts.flatten)).rules = looseRules texts.flatten := by
  intro all
  have first := isRuleOf_single ['p'] ['c'] ['d'] (by decide) (by decide)
  have second := isRuleOf_single " --x:root".toList ['e'] ['f'] (by decide) (by decide)
  have plain : IsPlainSelector ['p'] ∧ IsPlainSelector " --x:root".toList := by
    refine ⟨⟨?_, ?_, ?_⟩, ?_, ?_, ?_⟩ <;> decide +kernel
  have same := congrArg List.length (all _ _ (.cons first (.cons second .nil))
    (List.forall_mem_cons.2 ⟨⟨plain.1, by simp⟩, List.forall_mem_singleton.2 ⟨plain.2, by simp⟩⟩))
  revert same
  decide +kernel

end ComputedStyle.Stylesheet
