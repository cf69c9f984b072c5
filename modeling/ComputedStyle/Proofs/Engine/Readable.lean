import ComputedStyle.Proofs.Declaration.Longhands
import ComputedStyle.Proofs.Engine.Calls
import ComputedStyle.Proofs.Html.Numbering
import ComputedStyle.Proofs.RuleSet.Additions

/-!
Calls that give a result.

Two things stop a call: a color that the reader of colors does not get through, and a selector that
is cut inside of a character. Where neither stands in what is styled, there is a result
(`Call.exists_result_iff`).
-/

namespace ComputedStyle

/-- The reader of colors gets through a text, whether it is a color or not. -/
def Color.IsReadable (raw : String) : Prop :=
  ∃ color, read? raw = .ok color

theorem Edges.exists_ofSidesM_iff {f : Side → Except ε α} :
    (∃ edges, Edges.ofSidesM f = .ok edges) ↔ ∀ side, ∃ a, f side = .ok a := by
  simp only [Edges.ofSidesM, exists_bind_ok_iff]
  constructor
  · rintro ⟨top, first, right, second, bottom, third, left, fourth, -⟩ side
    cases side with
    | top => exact ⟨top, first⟩
    | right => exact ⟨right, second⟩
    | bottom => exact ⟨bottom, third⟩
    | left => exact ⟨left, fourth⟩
  · intro each
    obtain ⟨top, first⟩ := each .top
    obtain ⟨right, second⟩ := each .right
    obtain ⟨bottom, third⟩ := each .bottom
    obtain ⟨left, fourth⟩ := each .left
    exact ⟨top, first, right, second, bottom, third, left, fourth, _, rfl⟩

namespace StyleMap

/-- What a style says of a property can be read for a color. -/
def ReadsColor (style : StyleMap) (name : String) : Prop :=
  ∀ raw, style.get? name = some raw → Color.IsReadable raw

structure ReadsText (style : StyleMap) : Prop where
  color : style.ReadsColor "color"
  background : ∀ raw, style.get? "background-color" = some raw →
    (Text.trimmed raw).toLower ≠ "transparent" → Color.IsReadable raw

structure ReadsBox (style : StyleMap) : Prop where
  color : style.ReadsColor "color"
  borders : ∀ side, style.ReadsColor (borderProperty side .color)

variable {style : StyleMap} {name : String}

theorem exists_ofProperty_iff (other : Color) :
    (∃ color, Color.ofProperty style name other = .ok color) ↔ style.ReadsColor name := by
  unfold Color.ofProperty ReadsColor
  cases style.get? name with
  | none => exact ⟨fun _ => nofun, fun _ => ⟨other, rfl⟩⟩
  | some raw =>
      simp only [exists_bind_ok_iff, Option.some.injEq, forall_eq']
      exact ⟨fun ⟨color, read, _⟩ => ⟨color, read⟩, fun ⟨color, read⟩ => ⟨color, read, _, rfl⟩⟩

theorem exists_backgroundOf_iff : (∃ color, TextStyle.backgroundOf style = .ok color) ↔
    ∀ raw, style.get? "background-color" = some raw →
      (Text.trimmed raw).toLower ≠ "transparent" → Color.IsReadable raw := by
  unfold TextStyle.backgroundOf
  cases style.get? "background-color" with
  | none => exact ⟨fun _ => nofun, fun _ => ⟨none, rfl⟩⟩
  | some raw =>
      simp only [Option.some.injEq, forall_eq']
      split
      · next clear => exact ⟨fun _ other => absurd clear other, fun _ => ⟨none, rfl⟩⟩
      · next other => exact ⟨fun read _ => read, fun read => read other⟩

theorem exists_textStyle_iff (size : Length) :
    (∃ text, TextStyle.ofStyle style size = .ok text) ↔ style.ReadsText := by
  simp only [TextStyle.ofStyle, exists_bind_ok_iff]
  constructor
  · rintro ⟨color, text, background, behind, -⟩
    exact ⟨(exists_ofProperty_iff _).1 ⟨color, text⟩, exists_backgroundOf_iff.1 ⟨background, behind⟩⟩
  · rintro ⟨text, behind⟩
    obtain ⟨color, text⟩ := (exists_ofProperty_iff Color.black).2 text
    obtain ⟨background, behind⟩ := exists_backgroundOf_iff.2 behind
    exact ⟨color, text, background, behind, _, rfl⟩

theorem exists_borderEdge_iff (context : LengthContext) (widths : BorderWidths) (current : Color)
    (side : Side) : (∃ edge, BoxModel.borderEdge context widths style current side = .ok edge) ↔
      style.ReadsColor (borderProperty side .color) := by
  rw [← exists_ofProperty_iff current]
  simp only [BoxModel.borderEdge, exists_bind_ok_iff]
  exact ⟨fun ⟨color, read, _⟩ => ⟨color, read⟩, fun ⟨color, read⟩ => ⟨color, read, _, rfl⟩⟩

theorem exists_box_iff (context : LengthContext) (widths : BorderWidths) :
    (∃ box, BoxModel.ofStyle context widths style = .ok box) ↔ style.ReadsBox := by
  simp only [BoxModel.ofStyle, exists_bind_ok_iff]
  constructor
  · rintro ⟨current, text, edges, made, -⟩
    refine ⟨(exists_ofProperty_iff _).1 ⟨current, text⟩, fun side => ?_⟩
    apply (exists_borderEdge_iff context widths current side).1
    exact Edges.exists_ofSidesM_iff.1 ⟨edges, made⟩ side
  · rintro ⟨text, borders⟩
    obtain ⟨current, text⟩ := (exists_ofProperty_iff Color.black).2 text
    have each := fun side => (exists_borderEdge_iff context widths current side).2 (borders side)
    obtain ⟨edges, made⟩ := Edges.exists_ofSidesM_iff.2 each
    exact ⟨current, text, edges, made, _, rfl⟩

end StyleMap

/-- Every color that the computed styles of a tree are asked for can be read. -/
def Document.ReadsColors (doc : Document) : Prop :=
  ∀ id ∈ doc.ids, (doc.isElement id → (doc.computed id).ReadsBox) ∧ (doc.computed id).ReadsText

def Document.colorNames : List String :=
  ["color", "background-color"] ++ Side.all.map (borderProperty · .color)

/-- The values of all properties that may be read for a color. -/
def Document.colorValues (doc : Document) : List String :=
  doc.ids.flatMap fun id => colorNames.filterMap (doc.computed id).get?

theorem Document.readsColors_of_values {doc : Document}
    (readable : ∀ raw ∈ doc.colorValues, Color.IsReadable raw) : doc.ReadsColors := by
  intro id member
  have reads : ∀ name ∈ colorNames, (doc.computed id).ReadsColor name := by
    intro name listed raw given
    exact readable raw (List.mem_flatMap.2 ⟨id, member, List.mem_filterMap.2 ⟨name, listed, given⟩⟩)
  refine ⟨fun _ => ⟨reads _ (by decide), fun side => reads _ ?_⟩, reads _ (by decide), ?_⟩
  · cases side <;> decide
  · exact fun raw given _ => reads _ (by decide) raw given

theorem StyledDocument.exists_boxAt_iff (doc : Document) (sizes : Array Length)
    (base : Option Length) (widths : BorderWidths) (id : NodeId) :
    (∃ box, boxAt doc sizes base widths id = .ok box) ↔
      (doc.isElement id → (doc.computed id).ReadsBox) := by
  rw [boxAt]
  split
  · next element =>
      simp only [exists_bind_ok_iff, element, forall_const,
        ← StyleMap.exists_box_iff (boxContext doc sizes base id) widths]
      exact ⟨fun ⟨box, made, _⟩ => ⟨box, made⟩, fun ⟨box, made⟩ => ⟨box, made, _, rfl⟩⟩
  · next text => exact ⟨fun _ element => absurd element text, fun _ => ⟨none, rfl⟩⟩

theorem StyledDocument.exists_ofDeclared_iff (doc : Document) (base : Option Length)
    (widths : BorderWidths) :
    (∃ styled, ofDeclared doc base widths = .ok styled) ↔ doc.inherit.ReadsColors := by
  have boxes : (∃ made, doc.inherit.ids.mapM
      (boxAt doc.inherit doc.inherit.fontSizes base widths) = .ok made) ↔ _ := exists_mapM_ok_iff
  have texts : (∃ written, doc.inherit.ids.mapM
      (textAt doc.inherit doc.inherit.fontSizes) = .ok written) ↔ _ := exists_mapM_ok_iff
  simp only [exists_boxAt_iff] at boxes
  simp only [textAt, StyleMap.exists_textStyle_iff] at texts
  simp only [ofDeclared, exists_bind_ok_iff, mapError_eq_ok, Document.ReadsColors]
  constructor
  · rintro ⟨made, boxed, written, texted, -⟩ id member
    exact ⟨boxes.1 ⟨made, boxed⟩ id member, texts.1 ⟨written, texted⟩ id member⟩
  · intro reads
    obtain ⟨made, boxed⟩ := boxes.2 fun id member => (reads id member).1
    obtain ⟨written, texted⟩ := texts.2 fun id member => (reads id member).2
    exact ⟨made, boxed, written, texted, _, rfl⟩

/-- A background is a keyword, or its color can be found. -/
def Declaration.IsReadable (declaration : Declaration) : Prop :=
  Shorthand.ofName? declaration.name = some .background →
    Shorthand.wideKeyword? (Shorthand.tokensOf declaration.value) = none →
      ∃ color, Shorthand.backgroundColor Color.read? (Shorthand.tokensOf declaration.value) =
        .ok color

theorem Shorthand.exists_expand_iff (shorthand : Shorthand) (value : String) :
    (∃ longhands, shorthand.expand value = .ok longhands) ↔
      (shorthand = .background → wideKeyword? (tokensOf value) = none →
        ∃ color, backgroundColor Color.read? (tokensOf value) = .ok color) := by
  unfold expand
  dsimp only
  cases wideKeyword? (tokensOf value) with
  | some keyword => exact ⟨fun _ _ => nofun, fun _ => ⟨_, rfl⟩⟩
  | none =>
      cases shorthand with
      | background => simp [expandTokens, exists_map_ok_iff]
      | _ => simp [expandTokens]

theorem Declaration.exists_expand_iff (declaration : Declaration) :
    (∃ longhands, declaration.expand = .ok longhands) ↔ declaration.IsReadable := by
  unfold Declaration.expand Declaration.IsReadable
  cases Shorthand.ofName? declaration.name with
  | none => exact ⟨fun _ => nofun, fun _ => ⟨_, rfl⟩⟩
  | some shorthand =>
      rw [Option.some.injEq]
      exact shorthand.exists_expand_iff declaration.value

theorem Declaration.isReadable_of_ne {declaration : Declaration}
    (other : Shorthand.ofName? declaration.name ≠ some .background) : declaration.IsReadable :=
  fun shorthand => absurd shorthand other

theorem StyleMap.exists_ofDeclarations_iff (declarations : List Declaration) :
    (∃ style, ofDeclarations declarations = .ok style) ↔
      ∀ declaration ∈ declarations, declaration.IsReadable :=
  exists_foldlM_ok_iff fun _ declaration =>
    exists_map_ok_iff.trans declaration.exists_expand_iff

/-- What is kept of a rule has readable declarations and a selector of whole characters. -/
def RawRule.IsReadable (raw : RawRule) : Prop :=
  ∀ selector, StaticSelector.filter? (Text.stripComments raw.prelude) = some selector →
    (∀ declaration ∈ raw.declarations, declaration.IsReadable) ∧
      SelectorGroup.read selector ≠ .error .brokenCharacter

namespace Stylesheet

/-- The rules of a sheet before their declarations are expanded. -/
def rawRules (css : String) : List RawRule :=
  let level := (readLevel true (Syntax.Component.read css.toList)).enclose
  if level.rules.isEmpty && looksLikeRules css.toList then looseRules css.toList else level.rules

def IsReadable (css : String) : Prop :=
  ∀ raw ∈ rawRules css, raw.IsReadable

theorem exists_read_iff (css : String) : (∃ sheet, read css = .ok sheet) ↔
    ∀ raw ∈ rawRules css, ∃ settled, settle raw = .ok settled := by
  rw [← exists_mapM_ok_iff]
  unfold read
  simp only [exists_bind_ok_iff]
  exact ⟨fun ⟨settled, run, _⟩ => ⟨settled, run⟩, fun ⟨settled, run⟩ => ⟨settled, run, _, rfl⟩⟩

theorem mem_rules_iff {css : String} {sheet : Stylesheet} (found : read css = .ok sheet)
    (source : SourceRule) :
    source ∈ sheet.rules ↔ ∃ raw ∈ rawRules css, settle raw = .ok (.inr source) := by
  obtain ⟨settled, run, same⟩ := bind_eq_ok.1 found
  cases same
  obtain ⟨-, each⟩ := mapM_eq_ok run
  constructor
  · intro member
    obtain ⟨item, there, kept⟩ := List.mem_filterMap.1 member
    obtain ⟨raw, among, own⟩ := exists_of_mem_mapM run there
    cases item with
    | inl skipped => cases kept
    | inr other =>
        cases kept
        exact ⟨raw, among, own⟩
  · rintro ⟨raw, member, own⟩
    obtain ⟨i, bound, rfl⟩ := List.getElem_of_mem member
    obtain ⟨item, there, same⟩ := each i _ (List.getElem?_eq_getElem bound)
    rw [own, Except.ok.injEq] at same
    exact List.mem_filterMap.2 ⟨item, List.mem_of_getElem? there, same ▸ rfl⟩

theorem exists_settle_iff (raw : RawRule) : raw.IsReadable ↔
    (∃ settled, settle raw = .ok settled) ∧
      ∀ source, settle raw = .ok (.inr source) → ¬source.Breaks := by
  unfold RawRule.IsReadable settle
  dsimp only
  cases StaticSelector.filter? (Text.stripComments raw.prelude) with
  | none => simp
  | some selector =>
      rw [exists_map_ok_iff, StyleMap.exists_ofDeclarations_iff]
      simp only [Option.some.injEq, forall_eq', map_eq_ok, Sum.inr.injEq]
      refine and_congr_right fun readable => ?_
      obtain ⟨style, made⟩ := (StyleMap.exists_ofDeclarations_iff _).2 readable
      constructor
      · rintro whole _ ⟨_, -, rfl⟩
        exact whole
      · exact fun whole => whole _ ⟨style, made, rfl⟩

theorem isReadable_iff (css : String) : IsReadable css ↔
    ∃ sheet, read css = .ok sheet ∧ ∀ source ∈ sheet.rules, ¬source.Breaks := by
  constructor
  · intro readable
    obtain ⟨sheet, found⟩ := (exists_read_iff css).2 fun raw member =>
      ((exists_settle_iff raw).1 (readable raw member)).1
    refine ⟨sheet, found, fun source member => ?_⟩
    obtain ⟨raw, among, settled⟩ := (mem_rules_iff found source).1 member
    exact ((exists_settle_iff raw).1 (readable raw among)).2 source settled
  · rintro ⟨sheet, found, whole⟩ raw member
    refine (exists_settle_iff raw).2 ⟨(exists_read_iff css).1 ⟨sheet, found⟩ raw member, ?_⟩
    exact fun source settled => whole source ((mem_rules_iff found source).2 ⟨raw, member, settled⟩)

end Stylesheet

namespace RuleSet

theorem exists_addSheet_iff (set : RuleSet) (css : String) (origin : Origin) :
    (∃ next, set.addSheet css origin = .ok next) ↔ Stylesheet.IsReadable css := by
  rw [Stylesheet.isReadable_iff]
  constructor
  · rintro ⟨next, added⟩
    obtain ⟨sheet, read, calls⟩ := bind_eq_ok.1 added
    refine ⟨sheet, mapError_eq_ok.1 read, fun source member breaks => ?_⟩
    rw [addSources_of_breaks _ origin ⟨source, member, breaks⟩] at calls
    cases calls
  · rintro ⟨sheet, read, whole⟩
    obtain ⟨next, -, added, -⟩ := appends_addSheet set origin read whole
    exact ⟨next, added⟩

theorem exists_addSheets_iff (set : RuleSet) (origin : Origin) (sheets : List String) :
    (∃ next, set.addSheets origin sheets = .ok next) ↔
      ∀ css ∈ sheets, Stylesheet.IsReadable css := by
  induction sheets generalizing set with
  | nil => exact ⟨fun _ => List.forall_mem_nil _, fun _ => ⟨set, rfl⟩⟩
  | cons css rest ih =>
      rw [addSheets, exists_bind_ok_iff, List.forall_mem_cons, ← set.exists_addSheet_iff css origin]
      constructor
      · rintro ⟨next, added, others⟩
        exact ⟨⟨next, added⟩, (ih next).1 others⟩
      · rintro ⟨⟨next, added⟩, others⟩
        exact ⟨next, added, (ih next).2 others⟩

end RuleSet

namespace Config

/-- The sheets of a call, and that of the user agent where it is wanted, can be read. -/
structure ReadsSheets (config : Config) (sheets : List String) : Prop where
  base : config.userAgentDefaults → Stylesheet.IsReadable RuleSet.userAgentSheet
  author : ∀ css ∈ sheets, Stylesheet.IsReadable css

theorem exists_compile_iff (config : Config) (sheets : List String) :
    (∃ set, config.compile sheets = .ok set) ↔ config.ReadsSheets sheets := by
  have base : (∃ set, config.baseRules = .ok set) ↔
      (config.userAgentDefaults → Stylesheet.IsReadable RuleSet.userAgentSheet) := by
    rw [baseRules]
    split
    · next wanted =>
        rw [RuleSet.userAgentDefaults, RuleSet.exists_addSheet_iff]
        exact ⟨fun read _ => read, fun read => read wanted⟩
    · next unwanted => exact ⟨fun _ wanted => absurd wanted unwanted, fun _ => ⟨_, rfl⟩⟩
  simp only [compile, exists_bind_ok_iff, RuleSet.exists_addSheets_iff]
  constructor
  · rintro ⟨set, made, author⟩
    exact ⟨base.1 ⟨set, made⟩, author⟩
  · rintro ⟨wanted, author⟩
    obtain ⟨set, made⟩ := base.2 wanted
    exact ⟨set, made, author⟩

theorem exists_result_iff (config : Config) (doc : Document) (set : RuleSet) :
    (∃ result, config.result doc set = .ok result) ↔
      (Cascade.apply set (.build set) doc).1.inherit.ReadsColors := by
  simp only [result, exists_map_ok_iff, styled, mapError_eq_ok, style]
  exact StyledDocument.exists_ofDeclared_iff _ _ _

end Config

namespace Html

/-- The first element among some nodes, and no other. -/
def rootOf (nodes : List Markup) : List Markup :=
  (nodes.find? Markup.isElement).toList

/-- The values of the attribute `style` that a page copies can be read. -/
def ReadsStyles (nodes : List Markup) : Prop :=
  ∀ value ∈ Markup.stylesOfAll (Markup.shownAll (rootOf nodes)),
    ∀ declaration ∈ Declaration.ofInline value.toList, declaration.IsReadable

theorem Page.exists_ofNodes_sheets_iff (nodes : List Markup) :
    (∃ page, ofNodes nodes = .ok page) ↔ ReadsStyles nodes := by
  unfold ReadsStyles rootOf
  cases found : nodes.find? Markup.isElement with
  | none => exact ⟨fun _ => List.forall_mem_nil _, fun _ => ⟨_, ofNodes_of_not_isElement found⟩⟩
  | some root =>
      obtain ⟨kept, shown⟩ := Markup.exists_shown (List.find?_some found)
      have all : Markup.stylesOfAll (Markup.shownAll (some root).toList) = kept.styles := by
        simp [Markup.shownAll, shown, Markup.stylesOfAll]
      rw [exists_ofNodes_iff found shown, all]
      simp only [StyleMap.ofInline, StyleMap.exists_ofDeclarations_iff]

theorem Page.sheets_of_ofNodes {nodes : List Markup} {page : Page}
    (made : ofNodes nodes = .ok page) : page.sheets = Markup.sheetsOfAll (rootOf nodes) := by
  unfold rootOf
  cases found : nodes.find? Markup.isElement with
  | none =>
      rw [ofNodes_of_not_isElement found] at made
      cases made
      rfl
  | some root =>
      obtain ⟨kept, -, copy⟩ := isCopy_of_ofNodes found made
      simp [copy.sheets, Markup.sheetsOfAll]

end Html

namespace Call

/-- What a call is given can be read. -/
def ReadsTexts (config : Config) : Call → Prop
  | html text extra =>
      Html.ReadsStyles (Html.parse text) ∧
        config.ReadsSheets (Html.Markup.sheetsOfAll (Html.rootOf (Html.parse text)) ++ [extra])
  | tree _ sheets => config.ReadsSheets sheets
  | rules _ _ => True

theorem exists_input_iff (config : Config) (call : Call) :
    (∃ given, call.input config = .ok given) ↔ call.ReadsTexts config := by
  cases call with
  | html text extra =>
      have pages := Html.Page.exists_ofNodes_sheets_iff (Html.parse text)
      rw [input, ReadsTexts, ← pages, Html.Page.read]
      cases made : Html.Page.ofNodes (Html.parse text) with
      | error error => simp
      | ok page =>
          simp only [exists_map_ok_iff, Config.exists_compile_iff, Html.Page.sheets_of_ofNodes made]
          exact ⟨fun reads => ⟨⟨page, rfl⟩, reads⟩, And.right⟩
  | tree doc sheets => exact exists_map_ok_iff.trans (config.exists_compile_iff sheets)
  | rules doc additions => exact ⟨fun _ => trivial, fun _ => ⟨_, rfl⟩⟩

/-- What a call is given can be read, and so can the colors of the computed styles. -/
structure IsReadable (config : Config) (call : Call) : Prop where
  texts : call.ReadsTexts config
  colors : ∀ doc set, call.input config = .ok (doc, set) →
    (Cascade.apply set (.build set) doc).1.inherit.ReadsColors

theorem exists_result_iff (config : Config) (call : Call) :
    (∃ result, call.result config = .ok result) ↔ call.IsReadable config := by
  rw [result]
  refine exists_bind_ok_iff.trans ⟨?_, ?_⟩
  · rintro ⟨given, input, made⟩
    refine ⟨(call.exists_input_iff config).1 ⟨given, input⟩, fun doc set same => ?_⟩
    cases input.symm.trans same
    exact (config.exists_result_iff doc set).1 made
  · rintro ⟨texts, colors⟩
    obtain ⟨⟨doc, set⟩, input⟩ := (call.exists_input_iff config).2 texts
    exact ⟨_, input, (config.exists_result_iff doc set).2 (colors doc set input)⟩

end Call

end ComputedStyle
