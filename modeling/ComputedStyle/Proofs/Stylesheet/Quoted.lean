import Mathlib
import ComputedStyle.Proofs.Declaration.Quoted
import ComputedStyle.Proofs.RuleSet.Additions
import ComputedStyle.Proofs.Selector.Placement
import ComputedStyle.Proofs.Selector.Printing
import ComputedStyle.Proofs.Stylesheet.Outline

/-!
Style rules that test an attribute for a quoted value.

Between the text of a sheet and the selector of a rule the value is passed over by the reader of
components, by those that look for colons and commas, and by the readers of the selector. All of
them know strings but the one that takes comments out of the selector. Without the start of a comment
the value is tested as it is written (`RuleSet.addsTest`).
-/

namespace ComputedStyle

open Syntax Text

variable {s w : List Char} {tag key value : String}

/-- The names of a tag and an attribute, written without capitals and escapes. -/
structure AreTestNames (tag key : String) : Prop where
  tagName : IsName tag.toList
  tagIdent : IsLowerIdent tag
  keyName : IsName key.toList
  keyIdent : IsLowerIdent key
  ascii : ∀ c ∈ key.toList, c.toNat < 0x80

def attributeCompound (tag key value : String) : Compound :=
  ⟨some tag, [], [], [⟨key, some ⟨.equals, value, false⟩⟩], [], none⟩

section Selectors

theorem text_attributeCompound (tag key : String) (s : List Char) :
    (attributeCompound tag key (String.ofList s)).text =
      attributeSelector tag.toList key.toList s := by
  simp [attributeCompound, Compound.text, AttributeTest.text, AttributeTest.inner,
    AttributeComparison.text, AttributeComparison.flag, AttributeOperator.mark?,
    PseudoClass.textAll, attributeSelector, quoted]

variable (names : AreTestNames tag key)

include names

theorem AreTestNames.readsBack (unquoted : '"' ∉ s) :
    Selector.CompoundReadsBack (attributeCompound tag key (String.ofList s)) := by
  have test : AttributeTest.IsNormal ⟨key, some ⟨.equals, String.ofList s, false⟩⟩ :=
    ⟨names.keyIdent, names.ascii, by rintro _ ⟨⟩; rwa [String.toList_ofList]⟩
  exact .of_isNormal (.intro _ rfl (by rintro _ ⟨⟩; exact .inr names.tagIdent) nofun nofun
    (List.forall_mem_singleton.2 test) nofun nofun)

theorem trim_attributeSelector (unquoted : '"' ∉ s) :
    trim (attributeSelector tag.toList key.toList s) =
      attributeSelector tag.toList key.toList s := by
  rw [← text_attributeCompound]
  exact trim_of_isTrimmed (names.readsBack unquoted).isTrimmed

/-- The compound asks for the tag, whatever its case, and for the very value. -/
theorem AreTestNames.holdsFor_iff (doc : Document) (id : NodeId) :
    (attributeCompound tag key value).holdsFor doc id ↔
      ∃ own, doc.tag? id = some own ∧ own.toLower = tag ∧ doc.attribute? id key = some value := by
  have star : tag ≠ "*" := by
    rintro rfl
    exact absurd names.tagIdent.1 (by decide)
  have lower : tag.toLower = tag := by
    rw [← String.toList_inj]
    have same := names.tagIdent.2
    rwa [Text.lower, ← String.toList_map] at same
  have admits (own : String) : tagAdmits (some tag) own = true ↔ own.toLower = tag := by
    rw [tagAdmits, lower, Bool.or_eq_true, beq_iff_eq, beq_iff_eq, or_iff_right star, eq_comm]
  have tests : AttributeTest.holdsFor ⟨key, some ⟨.equals, value, false⟩⟩ doc id ↔
      doc.attribute? id key = some value := by
    rw [AttributeTest.holdsFor]
    cases doc.attribute? id key with
    | none => simp
    | some actual => simp [AttributeComparison.holdsFor, AttributeOperator.holdsFor, String.toList_inj]
  rw [Compound.holdsFor_iff]
  simp [attributeCompound, admits, tests, PseudoClass.allHold]

end Selectors

namespace StaticSelector

theorem needsStateFrom_append (plain : ∀ c ∈ s, c ∉ ['"', '\'', '[', ']', ':']) (n : Nat)
    (w : List Char) : needsStateFrom ⟨none, n⟩ (s ++ w) = needsStateFrom ⟨none, n⟩ w := by
  induction s with
  | nil => rfl
  | cons c rest ih =>
      obtain ⟨own, later⟩ := List.forall_mem_cons.1 plain
      simp only [List.mem_cons, List.not_mem_nil, or_false, not_or] at own
      simp [needsStateFrom, own, ih later]

theorem needsStateFrom_quoted (unquoted : '"' ∉ s) (n : Nat) (w : List Char) :
    needsStateFrom ⟨none, n⟩ (quoted s ++ w) = needsStateFrom ⟨none, n⟩ w := by
  have inside : needsStateFrom ⟨some '"', n⟩ (s ++ '"' :: w) = needsStateFrom ⟨none, n⟩ w := by
    induction s with
    | nil => simp [needsStateFrom]
    | cons c rest ih =>
        obtain ⟨other, later⟩ := not_or.1 (List.mem_cons.not.1 unquoted)
        simp [needsStateFrom, Ne.symm other, ih later]
  rw [← inside, quoted, List.cons_append, List.append_assoc, List.singleton_append, needsStateFrom]
  rfl

theorem needsState_attributeSelector (names : AreTestNames tag key) (unquoted : '"' ∉ s) :
    needsState (attributeSelector tag.toList key.toList s) = false := by
  have plain {name : String} (ident : IsIdent name) :
      ∀ c ∈ name.toList, c ∉ ['"', '\'', '[', ']', ':'] := fun c member =>
    not_mem_of_all (p := Selector.isIdentChar) (by decide) (ident.2 c member).1
  have opens : attributeSelector tag.toList key.toList s =
      tag.toList ++ '[' :: ((key.toList ++ ['=']) ++ (quoted s ++ [']'])) := by
    simp [attributeSelector]
  have inside : ∀ c ∈ key.toList ++ ['='], c ∉ ['"', '\'', '[', ']', ':'] :=
    List.forall_mem_append.2 ⟨plain names.keyIdent.1, List.forall_mem_singleton.2 (by decide)⟩
  have square (v : List Char) : needsStateFrom ⟨none, 0⟩ ('[' :: v) = needsStateFrom ⟨none, 1⟩ v :=
    rfl
  rw [needsState, opens, needsStateFrom_append (plain names.tagIdent.1), square,
    needsStateFrom_append inside, needsStateFrom_quoted unquoted]
  rfl

theorem filter?_attributeSelector (names : AreTestNames tag key) (unquoted : '"' ∉ s) :
    filter? (attributeSelector tag.toList key.toList s) =
      some (String.ofList (attributeSelector tag.toList key.toList s)) := by
  have back := names.readsBack unquoted
  have piece := Selector.isPiece_nested back.nested
  have nonempty := back.text_ne_nil
  rw [text_attributeCompound] at piece nonempty
  have own : members (attributeSelector tag.toList key.toList s) =
      [attributeSelector tag.toList key.toList s] := by
    rw [members, splitTopLevel, splitFrom_of_isPiece piece, List.reverse_nil, List.nil_append]
    simp [trim_attributeSelector names unquoted, nonempty, needsState_attributeSelector names unquoted]
  rw [filter?, own]
  rfl

end StaticSelector

namespace Stylesheet

open Component

section Sheets

variable {gap body rest : List Char} {contents : List Component} {front : Outline}
  {style : StyleMap}

/-- The text of a style rule, with blanks around its selector. -/
def ruleText (gap selector body : List Char) : List Char :=
  renderBlock (gap ++ selector ++ gap) body

variable (space : ∀ c ∈ gap, isSpace c) (names : AreTestNames tag key) (verbatim : IsVerbatim s)
  (spells : Spells body contents)

include space names verbatim

theorem spells_prelude : Spells (gap ++ attributeSelector tag.toList key.toList s ++ gap)
    (blanks gap ++ attributeComponents tag.toList key.toList s ++ blanks gap) := by
  have own := stands_attributeSelector names.tagName names.keyName verbatim
  have visible (w : List Char) :
      ∀ d ∈ (attributeSelector tag.toList key.toList s ++ w).head?, isSpace d = false := by
    rw [attributeSelector, List.append_assoc]
    exact visible_of_isName names.tagName _
  exact (own.pad space visible).append_spells (spells_blanks space)

include spells

theorem rules_readLevel_attribute (rest : List Char) (first : Bool) :
    (readLevel first (Component.read
        (ruleText gap (attributeSelector tag.toList key.toList s) body ++ rest))).rules =
      ⟨attributeSelector tag.toList key.toList s, Declaration.ofComponents contents⟩ ::
        (readLevel false (Component.read rest)).rules := by
  have prelude := spells_prelude space names verbatim
  have own : ∀ component ∈ attributeComponents tag.toList key.toList s,
      component.token.isEdge = false ∧ component.isBlankOrComment = false :=
    List.forall_mem_cons.2 ⟨⟨rfl, rfl⟩, List.forall_mem_singleton.2 ⟨rfl, rfl⟩⟩
  have cases {component : Component} (member : component ∈
      blanks gap ++ attributeComponents tag.toList key.toList s ++ blanks gap) :
      component ∈ blanks gap ∨ component ∈ attributeComponents tag.toList key.toList s := by
    simp only [List.mem_append] at member
    tauto
  have inside : ∀ component ∈
      blanks gap ++ attributeComponents tag.toList key.toList s ++ blanks gap,
        component.token.isEdge = false := by
    intro component member
    rcases cases member with padding | part
    · rw [isBlank_of_mem_blanks padding]
      rfl
    · exact (own component part).1
  have blank : ∀ component ∈
      blanks gap ++ attributeComponents tag.toList key.toList s ++ blanks gap,
        component.isBlankOrComment → ∀ c ∈ component.text, isBlank c := by
    intro component member between c held
    rcases cases member with padding | part
    · exact isBlank_of_isSpace (isSpace_of_mem_blanks space padding c held)
    · rw [(own component part).2] at between
      cases between
  have starts : StartsRule
      (blanks gap ++ attributeComponents tag.toList key.toList s ++ blanks gap) := by
    rw [List.append_assoc, startsRule_blanks]
    exact ⟨rfl, Bool.and_false _⟩
  have text : textOf (blanks gap ++ attributeComponents tag.toList key.toList s ++ blanks gap) =
      gap ++ attributeSelector tag.toList key.toList s ++ gap := by
    rw [← prelude.reads.ofLexemes_eq]
    exact textOf_read _
  rw [ruleText, renderBlock, (prelude.block spells).read_append, List.append_assoc,
    List.singleton_append, readLevel_rule contents inside blank starts, text,
    trim_append_right fun c member => isBlank_of_isSpace (space c member),
    trim_append_left fun c member => isBlank_of_isSpace (space c member),
    trim_attributeSelector names verbatim.unquoted]

omit space spells in
theorem settle_attribute (free : ¬['/', '*'] <:+: s) (declarations : List Declaration) :
    settle ⟨attributeSelector tag.toList key.toList s, declarations⟩ =
      (StyleMap.ofDeclarations declarations).map fun style =>
        .inr ⟨String.ofList (attributeSelector tag.toList key.toList s), style⟩ := by
  rw [settle]
  dsimp only
  rw [stripComments_of_free (attributeSelector_free names.tagName names.keyName free),
    StaticSelector.filter?_attributeSelector names verbatim.unquoted]

variable (free : ¬['/', '*'] <:+: s)
  (declared : StyleMap.ofDeclarations (Declaration.ofComponents contents) = .ok style)

include free declared

/-- Alone, the rule is the only one of its sheet. -/
theorem read_ruleText : ∃ sheet,
    Stylesheet.read (String.ofList
      (ruleText gap (attributeSelector tag.toList key.toList s) body)) = .ok sheet ∧
      sheet.rules = [⟨String.ofList (attributeSelector tag.toList key.toList s), style⟩] := by
  have level := rules_readLevel_attribute space names verbatim spells [] true
  have ends : Component.read [] = [] := by
    rw [Component.read, lexemes_nil]
    rfl
  rw [List.append_nil, ends, readLevel] at level
  have read := rules_read_of_rules level fun empty => absurd empty (List.cons_ne_nil _ _)
  rw [List.mapM_cons, settle_attribute names verbatim free, declared] at read
  exact map_eq_ok.1 read

theorem exists_rules_read (plain : front.IsPlain) (starts : front.StartsRules) {sheet : Stylesheet}
    (read : Stylesheet.read (String.ofList (front.render gap ++
      ruleText gap (attributeSelector tag.toList key.toList s) body ++ rest)) = .ok sheet) :
    ∃ before after, sheet.rules = before ++
      ⟨String.ofList (attributeSelector tag.toList key.toList s), style⟩ :: after := by
  obtain ⟨cs, stands, rules⟩ := stands_render space plain starts
  obtain ⟨later, level⟩ := rules true (Component.read
    (ruleText gap (attributeSelector tag.toList key.toList s) body ++ rest))
  rw [← stands.read_append, rules_readLevel_attribute space names verbatim spells rest later,
    ← List.append_assoc] at level
  have found := rules_read_of_rules level (by simp)
  rw [read] at found
  obtain ⟨settled, all, same⟩ := map_eq_ok.1 found.symm
  rw [List.mapM_append, List.mapM_cons, settle_attribute names verbatim free, declared] at all
  obtain ⟨first, -, all⟩ := bind_eq_ok.1 all
  obtain ⟨others, all, last⟩ := bind_eq_ok.1 all
  obtain ⟨_, own, all⟩ := bind_eq_ok.1 all
  obtain ⟨second, -, all⟩ := bind_eq_ok.1 all
  cases own
  cases all
  cases last
  refine ⟨first.filterMap Sum.getRight?, second.filterMap Sum.getRight?, ?_⟩
  rw [← same, List.filterMap_append, List.filterMap_cons]
  rfl

end Sheets

end Stylesheet

/-- A rule of a sheet, for exactly the elements with a tag, in any case, and with one value of an
attribute. -/
structure Rule.TestsAttribute (rule : Rule) (tag key : String) (value : List Char)
    (style : StyleMap) (origin : Origin) : Prop where
  source : rule.source = ⟨String.ofList (attributeSelector tag.toList key.toList value), style⟩
  origin : rule.origin = origin
  holdsFor_iff (doc : Document) (id : NodeId) : rule.holdsFor doc id ↔ ∃ own,
    doc.tag? id = some own ∧ own.toLower = tag ∧ doc.attribute? id key = some (String.ofList value)

namespace RuleSet

section Sets

variable {set next : RuleSet} {origin : Origin} {style : StyleMap} {added : List Rule}
  {before after : List SourceRule} (names : AreTestNames tag key) (unquoted : '"' ∉ s)
  (nonempty : style.isEmpty = false)

include names unquoted

theorem read_attributeSelector :
    SelectorGroup.read (String.ofList (attributeSelector tag.toList key.toList s)) =
      .ok ⟨[⟨attributeCompound tag key (String.ofList s), []⟩], 0⟩ := by
  have back := names.readsBack unquoted
  rw [← text_attributeCompound]
  exact SelectorGroup.read_nested back.nested back.read

include nonempty

theorem Appends.exists_testsAttribute (appends : Appends set next origin (before ++
      ⟨String.ofList (attributeSelector tag.toList key.toList s), style⟩ :: after) added) :
    ∃ first rule last, added = first ++ rule :: last ∧
      rule.TestsAttribute tag key s style origin ∧
      first.length ≤ before.length ∧ last.length ≤ after.length := by
  have read := read_attributeSelector names unquoted
  have usable : SourceRule.isUsable
      ⟨String.ofList (attributeSelector tag.toList key.toList s), style⟩ := by
    simp [SourceRule.isUsable, read, nonempty, Except.toOption]
  obtain ⟨first, rule, last, rfl, source, bounds⟩ := appends.exists_rule usable
  have own : rule ∈ first ++ rule :: last := by simp
  rw [SourceRule.trimmed, Text.trimmed, String.toList_ofList,
    trim_attributeSelector names unquoted] at source
  have reads := appends.reads rule own
  rw [show rule.selectorText = _ from congrArg SourceRule.selector source, read,
    Except.ok.injEq] at reads
  refine ⟨first, rule, last, rfl, ⟨source, appends.origin rule own, fun doc id => ?_⟩, bounds⟩
  rw [Rule.holdsFor, ← reads, SelectorGroup.holdsFor_compound, names.holdsFor_iff]

end Sets

/-- What the text of the rule adds to a set: alone only the rule, and among others, if their sheet
can be read, the rule in its place. -/
structure AddsTest (set : RuleSet) (origin : Origin) (gap text : List Char) (tag key : String)
    (value : List Char) (style : StyleMap) : Prop where
  alone : ∃ next rule, set.addSheet (String.ofList text) origin = .ok next ∧
    next.rules.toList = set.rules.toList ++ [rule] ∧ rule.TestsAttribute tag key value style origin
  among : ∀ (front : Stylesheet.Outline) (rest : List Char) (next : RuleSet), front.IsPlain →
    front.StartsRules →
    set.addSheet (String.ofList (front.render gap ++ text ++ rest)) origin = .ok next →
      ∃ first rule last, next.rules.toList = set.rules.toList ++ (first ++ rule :: last) ∧
        rule.TestsAttribute tag key value style origin

theorem addsTest {gap body : List Char} {contents : List Component} {style : StyleMap}
    (names : AreTestNames tag key) (verbatim : IsVerbatim s) (free : ¬['/', '*'] <:+: s)
    (space : ∀ c ∈ gap, isSpace c) (spells : Spells body contents)
    (declared : StyleMap.ofDeclarations (Declaration.ofComponents contents) = .ok style)
    (nonempty : style.isEmpty = false) (set : RuleSet) (origin : Origin) :
    set.AddsTest origin gap
      (Stylesheet.ruleText gap (attributeSelector tag.toList key.toList s) body) tag key s
      style := by
  have unquoted := verbatim.unquoted
  refine ⟨?_, fun front rest next plain starts call => ?_⟩
  · obtain ⟨sheet, read, rules⟩ :=
      Stylesheet.read_ruleText space names verbatim spells free declared
    have whole : ∀ source ∈ sheet.rules, ¬source.Breaks := by
      rw [rules]
      refine List.forall_mem_singleton.2 fun breaks => ?_
      rw [SourceRule.Breaks, read_attributeSelector names unquoted] at breaks
      cases breaks
    obtain ⟨next, added, call, appends⟩ := appends_addSheet set origin read whole
    rw [rules, ← List.nil_append [_]] at appends
    obtain ⟨first, rule, last, rfl, tests, front, behind⟩ :=
      appends.exists_testsAttribute names unquoted nonempty
    obtain rfl := List.length_eq_zero_iff.1 (Nat.le_zero.1 front)
    obtain rfl := List.length_eq_zero_iff.1 (Nat.le_zero.1 behind)
    exact ⟨next, rule, call, appends.rules, tests⟩
  · obtain ⟨sheet, added, read, appends⟩ := exists_of_addSheet call
    obtain ⟨before, after, rules⟩ := Stylesheet.exists_rules_read space names verbatim spells free
      declared plain starts read
    rw [rules] at appends
    obtain ⟨first, rule, last, rfl, tests, -⟩ :=
      appends.exists_testsAttribute names unquoted nonempty
    exact ⟨first, rule, last, appends.rules, tests⟩

end RuleSet

open Declaration RuleSet

/-- A string without the start of a comment is kept as it is written: as the value of a declaration,
where no other string is, and as the value that a selector tests. -/
theorem quoted_verbatim (verbatim : IsVerbatim s) :
    (∀ name, IsName name → trim name ≠ [] →
      Shorthand.ofName? (String.ofList (propertyName name)) = none →
        (StyleMap.ofInline (String.ofList (name ++ ':' :: ' ' :: quoted s)) =
            .ok (Dictionary.empty.insert (String.ofList (propertyName name))
              (String.ofList (quoted s))) ↔
          ¬['/', '*'] <:+: s)) ∧
      (¬['/', '*'] <:+: s → ∀ gap body contents style, (∀ c ∈ gap, isSpace c) →
        Spells body contents → StyleMap.ofDeclarations (ofComponents contents) = .ok style →
        style.isEmpty = false → ∀ (set : RuleSet) (origin : Origin),
          set.AddsTest origin gap
            (Stylesheet.ruleText gap (attributeSelector "a".toList "title".toList s) body)
            "a" "title" s style) := by
  have names : AreTestNames "a" "title" :=
    ⟨by decide, by decide, by decide, by decide, by simp⟩
  exact ⟨fun name named visible longhand =>
      StyleMap.ofInline_quoted named visible longhand verbatim,
    fun free gap body contents style space spells declared nonempty =>
      addsTest names verbatim free space spells declared nonempty⟩

/-- Colons, commas, brackets, an importance and the end of a comment. -/
theorem quoted_verbatim_marks :
    let value := "b:hover, ]) !important */"
    let doc := Document.ofEdits
      [.addElement none "A", .setAttribute 0 "title" value, .addElement (some 0) "a"]
    StyleMap.ofInline "--Q: \"b:hover, ]) !important */\"" =
        .ok (Dictionary.empty.insert "--Q" "\"b:hover, ]) !important */\"") ∧
      ∃ next rule, RuleSet.empty.addSheet "a[title=\"b:hover, ]) !important */\"]\x7bc:d\x7d"
          .author = .ok next ∧
        next.rules.toList = [rule] ∧ rule.holdsFor doc 0 = true ∧ rule.holdsFor doc 1 = false := by
  intro value doc
  have verbatim : IsVerbatim value.toList := by decide +kernel
  have free : ¬['/', '*'] <:+: value.toList := by decide +kernel
  obtain ⟨inline, sheets⟩ := quoted_verbatim verbatim
  have body : Spells "c:d".toList (Component.read "c:d".toList) :=
    IsPlainText.spells (by decide +kernel)
  have declared : StyleMap.ofDeclarations (ofComponents (Component.read "c:d".toList)) =
      .ok (Dictionary.empty.insert "c" "d") := by
    decide +kernel
  have kept := (inline "--Q".toList (by decide) (by decide +kernel) (by decide +kernel)).2 free
  obtain ⟨next, rule, call, rules, tests⟩ := (sheets free [] _ _ _ (List.forall_mem_nil _) body
    declared (by decide) .empty .author).alone
  have holds := tests.holdsFor_iff doc
  rw [String.ofList_toList] at holds
  have declaration : String.ofList ("--Q".toList ++ ':' :: ' ' :: quoted value.toList) =
      "--Q: \"b:hover, ]) !important */\"" := by
    decide +kernel
  have string : String.ofList (quoted value.toList) = "\"b:hover, ]) !important */\"" := by
    decide +kernel
  have sheet : String.ofList (Stylesheet.ruleText []
      (attributeSelector "a".toList "title".toList value.toList) "c:d".toList) =
        "a[title=\"b:hover, ]) !important */\"]\x7bc:d\x7d" := by
    decide +kernel
  have property : String.ofList (propertyName "--Q".toList) = "--Q" := by decide +kernel
  rw [declaration, string, property] at kept
  rw [sheet] at call
  refine ⟨kept, next, rule, call, rules, ?_, ?_⟩
  · exact (holds 0).2 ⟨"a", by decide +kernel, by decide +kernel, by decide +kernel⟩
  · rw [Bool.eq_false_iff, ne_eq, holds]
    rintro ⟨_, -, -, found⟩
    revert found
    decide +kernel

/-- A string that is a comment is taken out of the value. -/
theorem quoted_verbatim_comment :
    ¬∀ name s : List Char, IsName name → IsVerbatim s → trim name ≠ [] →
      Shorthand.ofName? (String.ofList (propertyName name)) = none →
        StyleMap.ofInline (String.ofList (name ++ ':' :: ' ' :: quoted s)) =
          .ok (Dictionary.empty.insert (String.ofList (propertyName name))
            (String.ofList (quoted s))) := by
  intro all
  have kept := all ['x'] "/* a */".toList (by decide) (by decide +kernel) (by decide +kernel)
    (by decide +kernel)
  have found : StyleMap.ofInline (String.ofList (['x'] ++ ':' :: ' ' :: quoted "/* a */".toList)) =
      .ok (Dictionary.empty.insert "x" "\"\"") := by
    decide +kernel
  rw [found] at kept
  revert kept
  decide +kernel

end ComputedStyle
