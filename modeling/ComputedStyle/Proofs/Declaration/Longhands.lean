import ComputedStyle.Proofs.Dictionary
import ComputedStyle.Proofs.Except
import ComputedStyle.Stylesheet

namespace ComputedStyle

theorem Edges.exists_ofFanout {α : Type} {values : List α} (given : values ≠ []) :
    ∃ edges, Edges.ofFanout? values = some edges := by
  unfold Edges.ofFanout?
  split
  · exact absurd rfl given
  · exact ⟨_, rfl⟩
  · exact ⟨_, rfl⟩
  · exact ⟨_, rfl⟩
  · exact ⟨_, rfl⟩

namespace Shorthand

variable {shorthand : Shorthand} {value : String} {tokens : List String}
  {longhands : List Declaration}

theorem names_fanOut {names : List String} (four : names.length = 4) (tokens : List String) :
    tokens = [] ∧ fanOut names tokens = [] ∨
      (fanOut names tokens).map Declaration.name = names := by
  by_cases given : tokens = []
  · rw [given]
    exact .inl ⟨rfl, rfl⟩
  · obtain ⟨edges, found⟩ := Edges.exists_ofFanout given
    rw [fanOut, found]
    right
    match names, four with
    | [_, _, _, _], _ => rfl

theorem names_fontSize (size : FontSize) :
    size.declarations.map Declaration.name = ["font-size", "line-height"] ∨
      size.declarations.map Declaration.name = ["font-size", "line-height", "font-family"] := by
  unfold FontSize.declarations
  split
  · exact .inl rfl
  · exact .inr rfl

theorem names_fontDeclarations (tokens : List String) :
    ∃ n ∈ [3, 5, 6],
      (fontDeclarations tokens).map Declaration.name = Shorthand.font.longhands.take n := by
  unfold fontDeclarations
  obtain ⟨keywords, rest⟩ := ({} : FontKeywords).takeFrom tokens
  dsimp only
  rw [List.map_append]
  cases rest with
  | nil => exact ⟨3, by decide, rfl⟩
  | cons token more =>
      dsimp only
      rcases names_fontSize (FontSize.read token more) with names | names
      · rw [names]
        exact ⟨5, by decide, rfl⟩
      · rw [names]
        exact ⟨6, by decide, rfl⟩

theorem names_font (expanded : Shorthand.font.expand value = .ok longhands) :
    ∃ n ∈ [3, 5, 6], longhands.map Declaration.name = Shorthand.font.longhands.take n := by
  unfold expand at expanded
  dsimp only at expanded
  split at expanded
  · cases expanded
    exact ⟨6, by decide, rfl⟩
  · cases expanded
    exact names_fontDeclarations _

def ownTokens (shorthand : Shorthand) (value : String) : List String :=
  match shorthand with
  | borderRadius => tokensOf (beforeSlash value)
  | _ => tokensOf value

theorem names_map_wide (names : List String) (keyword : String) :
    (names.map fun name => Declaration.mk name keyword).map Declaration.name = names := by
  rw [List.map_map]
  exact List.map_id names

theorem names_gap (tokens : List String) :
    tokens = [] ∧ gapDeclarations tokens = [] ∨
      (gapDeclarations tokens).map Declaration.name = Shorthand.gap.longhands := by
  unfold gapDeclarations
  split
  · exact .inl ⟨rfl, rfl⟩
  · exact .inr rfl
  · exact .inr rfl

theorem names_borderSide (parts : BorderParts) (side : Side) :
    (parts.declarations side).map Declaration.name = (borderSide side).longhands := by
  cases side with
  | top => rfl
  | right => rfl
  | bottom => rfl
  | left => rfl

theorem names_border (parts : BorderParts) :
    (Side.all.flatMap parts.declarations).map Declaration.name = Shorthand.border.longhands := by
  simp only [List.map_flatMap, names_borderSide]
  rfl

theorem names_sides (kind : Spacing) :
    (Side.all.map fun side => kind.name ++ "-" ++ side.name) = (spacing kind).longhands := by
  cases kind with
  | margin => decide
  | padding => decide

theorem names_borderSides (aspect : BorderAspect) :
    (Side.all.map fun side => "border-" ++ side.name ++ "-" ++ aspect.name) =
      (borderAspect aspect).longhands := by
  cases aspect with
  | width => decide
  | style => decide
  | color => decide

theorem names_corners :
    (corners.map fun corner => "border-" ++ corner ++ "-radius") = borderRadius.longhands := by
  decide

/-- All but a font give every longhand a value, or none of them where there is no token. -/
theorem names_expandTokens (other : shorthand ≠ .font)
    (expanded : shorthand.expandTokens value (tokensOf value) = .ok longhands) :
    shorthand.ownTokens value = [] ∧ longhands = [] ∨
      longhands.map Declaration.name = shorthand.longhands := by
  cases shorthand with
  | spacing kind =>
      rw [expandTokens, names_sides, Except.ok.injEq] at expanded
      rw [← expanded]
      exact names_fanOut rfl _
  | borderAspect aspect =>
      rw [expandTokens, names_borderSides, Except.ok.injEq] at expanded
      rw [← expanded]
      exact names_fanOut rfl _
  | border =>
      rw [expandTokens, Except.ok.injEq] at expanded
      rw [← expanded]
      exact .inr (names_border _)
  | borderSide side =>
      rw [expandTokens, Except.ok.injEq] at expanded
      rw [← expanded]
      exact .inr (names_borderSide _ side)
  | borderRadius =>
      rw [expandTokens, names_corners, Except.ok.injEq] at expanded
      rw [← expanded]
      exact names_fanOut rfl _
  | gap =>
      rw [expandTokens, Except.ok.injEq] at expanded
      rw [← expanded]
      exact names_gap _
  | background =>
      rw [expandTokens] at expanded
      obtain ⟨color, -, rfl⟩ := map_eq_ok.1 expanded
      exact .inr rfl
  | font => exact absurd rfl other
  | listStyle =>
      rw [expandTokens, Except.ok.injEq] at expanded
      rw [← expanded]
      exact .inr rfl

theorem names_expand (other : shorthand ≠ .font)
    (expanded : shorthand.expand value = .ok longhands) :
    shorthand.ownTokens value = [] ∧ longhands = [] ∨
      longhands.map Declaration.name = shorthand.longhands := by
  unfold expand at expanded
  dsimp only at expanded
  split at expanded
  · cases expanded
    exact .inr (names_map_wide _ _)
  · exact names_expandTokens other expanded

theorem names_font_parts (expanded : Shorthand.font.expand value = .ok longhands) :
    (longhands.map Declaration.name).Sublist Shorthand.font.longhands ∧
      (longhands.map Declaration.name).take 3 = ["font-style", "font-variant", "font-weight"] ∧
      ("font-size" ∈ longhands.map Declaration.name ↔
        "line-height" ∈ longhands.map Declaration.name) := by
  obtain ⟨n, few, names⟩ := names_font expanded
  rw [names]
  refine ⟨List.take_sublist n _, ?_⟩
  simp only [List.mem_cons, List.not_mem_nil, or_false] at few
  rcases few with rfl | rfl | rfl
  · decide
  · decide
  · decide

theorem names_expand_sublist (expanded : shorthand.expand value = .ok longhands) :
    (longhands.map Declaration.name).Sublist shorthand.longhands := by
  by_cases font : shorthand = .font
  · subst font
    exact (names_font_parts expanded).1
  · rcases names_expand font expanded with ⟨-, nothing⟩ | names
    · rw [nothing]
      exact List.nil_sublist _
    · exact names ▸ List.Sublist.refl _

theorem nodup_longhands (shorthand : Shorthand) : shorthand.longhands.Nodup := by
  cases shorthand with
  | spacing kind => cases kind <;> decide
  | borderAspect aspect => cases aspect <;> decide
  | border => decide
  | borderSide side => cases side <;> decide
  | borderRadius => decide
  | gap => decide
  | background => decide
  | font => decide
  | listStyle => decide

theorem ofName?_of_mem_longhands {name : String} (member : name ∈ shorthand.longhands) :
    ofName? name = none := by
  have all : ∀ longhand ∈ shorthand.longhands, ofName? longhand = none := by
    cases shorthand with
    | spacing kind => cases kind <;> decide
    | borderAspect aspect => cases aspect <;> decide
    | border => decide
    | borderSide side => cases side <;> decide
    | borderRadius => decide
    | gap => decide
    | background => decide
    | font => decide
    | listStyle => decide
  exact all name member

theorem expand_error {e : ColorError} (failed : shorthand.expand value = .error e) :
    shorthand = .background ∧ backgroundColor Color.read? (tokensOf value) = .error e := by
  unfold expand at failed
  dsimp only at failed
  split at failed
  · cases failed
  · cases shorthand with
    | background =>
        refine ⟨rfl, ?_⟩
        rw [expandTokens] at failed
        cases found : backgroundColor Color.read? (tokensOf value) with
        | error other =>
            rw [found] at failed
            cases failed
            rfl
        | ok color =>
            rw [found] at failed
            cases failed
    | _ =>
        rw [expandTokens] at failed
        cases failed

end Shorthand

section Declarations

variable {declaration : Declaration} {longhands : List Declaration}

theorem Declaration.ofName?_of_mem_expand (expanded : declaration.expand = .ok longhands) :
    ∀ longhand ∈ longhands, Shorthand.ofName? longhand.name = none := by
  unfold Declaration.expand at expanded
  split at expanded
  · intro longhand member
    apply Shorthand.ofName?_of_mem_longhands
    apply (Shorthand.names_expand_sublist expanded).subset
    exact List.mem_map_of_mem member
  · next plain =>
      cases expanded
      intro longhand member
      rw [List.mem_singleton.1 member]
      exact plain

theorem Declaration.expand_of_plain (plain : Shorthand.ofName? declaration.name = none) :
    declaration.expand = .ok [declaration] := by
  rw [Declaration.expand, plain]

theorem Declaration.mapM_expand
    (plain : ∀ longhand ∈ longhands, Shorthand.ofName? longhand.name = none) :
    (longhands.mapM Declaration.expand).map List.flatten = .ok longhands := by
  have each :
      longhands.mapM Declaration.expand = .ok (longhands.map fun longhand => [longhand]) := by
    induction longhands with
    | nil => rfl
    | cons longhand rest ih =>
        obtain ⟨own, others⟩ := List.forall_mem_cons.1 plain
        rw [List.mapM_cons, expand_of_plain own, ih others]
        rfl
  rw [each]
  exact congrArg Except.ok (List.flatMap_singleton' longhands)

end Declarations

/-- No shorthand is a key. -/
def StyleMap.IsLonghand (style : StyleMap) : Prop :=
  ∀ name, (Shorthand.ofName? name).isSome → style.get? name = none

namespace StyleMap

variable {style : StyleMap}

theorem isLonghand_empty : IsLonghand Dictionary.empty :=
  fun _ _ => rfl

theorem IsLonghand.insert (holds : style.IsLonghand) {name : String}
    (plain : Shorthand.ofName? name = none) (value : String) :
    IsLonghand (style.insert name value) := by
  intro other shorthand
  have apart : other ≠ name := by
    rintro rfl
    rw [plain] at shorthand
    cases shorthand
  rw [Dictionary.get?_insert, if_neg apart]
  exact holds other shorthand

theorem IsLonghand.insertAll (holds : style.IsLonghand) {longhands : List Declaration}
    (plain : ∀ longhand ∈ longhands, Shorthand.ofName? longhand.name = none) :
    IsLonghand (style.insertAll longhands) := by
  induction longhands generalizing style with
  | nil => exact holds
  | cons longhand rest ih =>
      obtain ⟨own, others⟩ := List.forall_mem_cons.1 plain
      exact ih (holds.insert own longhand.value) others

theorem isLonghand_ofDeclarations {declarations : List Declaration}
    (made : StyleMap.ofDeclarations declarations = .ok style) : style.IsLonghand := by
  refine foldlM_ok_induction (motive := IsLonghand) ?_ declarations isLonghand_empty made
  intro earlier declaration later holds declared
  obtain ⟨longhands, expanded, rfl⟩ := map_eq_ok.1 declared
  exact holds.insertAll (Declaration.ofName?_of_mem_expand expanded)

end StyleMap

theorem Stylesheet.isLonghand_settle {raw : RawRule} {rule : SourceRule}
    (settled : settle raw = .ok (.inr rule)) : rule.declarations.IsLonghand := by
  unfold settle at settled
  dsimp only at settled
  split at settled
  · cases settled
  · obtain ⟨style, made, same⟩ := map_eq_ok.1 settled
    cases same
    exact StyleMap.isLonghand_ofDeclarations made

theorem Stylesheet.isLonghand_read {css : String} {sheet : Stylesheet}
    (found : Stylesheet.read css = .ok sheet) :
    ∀ rule ∈ sheet.rules, rule.declarations.IsLonghand := by
  obtain ⟨settled, run, same⟩ := bind_eq_ok.1 found
  cases same
  intro rule member
  obtain ⟨item, there, kept⟩ := List.mem_filterMap.1 member
  obtain ⟨raw, -, own⟩ := exists_of_mem_mapM run there
  cases item with
  | inl skipped => cases kept
  | inr other =>
      cases kept
      exact isLonghand_settle own

theorem Declaration.expand_of_shorthand {name : String} {shorthand : Shorthand}
    (known : Shorthand.ofName? name = some shorthand) (value : String) :
    Declaration.expand ⟨name, value⟩ = shorthand.expand value := by
  rw [Declaration.expand, known]

/-- A shorthand sets the same longhands by whatever way its value is read, once each and in one
order; only a font may stop early, after its keywords or before its family. Nothing that is set is a
shorthand, so that expanding again changes nothing and no style that is read has a shorthand for a
key. -/
theorem expand_longhands :
    (∀ name value shorthand, Shorthand.ofName? name = some shorthand →
      shorthand.longhands.Nodup ∧
      (∀ e, Declaration.expand ⟨name, value⟩ = .error e → shorthand = .background ∧
        Shorthand.backgroundColor Color.read? (Shorthand.tokensOf value) = .error e) ∧
      ∀ longhands, Declaration.expand ⟨name, value⟩ = .ok longhands →
        (shorthand ≠ .font → shorthand.ownTokens value ≠ [] →
          longhands.map Declaration.name = shorthand.longhands) ∧
        (shorthand = .font →
          (longhands.map Declaration.name).Sublist shorthand.longhands ∧
            (longhands.map Declaration.name).take 3 =
              ["font-style", "font-variant", "font-weight"] ∧
            ("font-size" ∈ longhands.map Declaration.name ↔
              "line-height" ∈ longhands.map Declaration.name))) ∧
    (∀ declaration longhands, Declaration.expand declaration = .ok longhands →
      (∀ longhand ∈ longhands, Shorthand.ofName? longhand.name = none) ∧
        (longhands.mapM Declaration.expand).map List.flatten = .ok longhands) ∧
    (∀ text style, StyleMap.ofInline text = .ok style → style.IsLonghand) ∧
    ∀ css sheet, Stylesheet.read css = .ok sheet →
      ∀ rule ∈ sheet.rules, rule.declarations.IsLonghand := by
  refine ⟨?_, ?_, ?_, ?_⟩
  · intro name value shorthand known
    rw [Declaration.expand_of_shorthand known]
    refine ⟨shorthand.nodup_longhands, fun e => Shorthand.expand_error, ?_⟩
    intro longhands expanded
    constructor
    · intro other given
      apply (Shorthand.names_expand other expanded).resolve_left
      exact fun nothing => given nothing.1
    · rintro rfl
      exact Shorthand.names_font_parts expanded
  · intro declaration longhands expanded
    have plain := Declaration.ofName?_of_mem_expand expanded
    exact ⟨plain, Declaration.mapM_expand plain⟩
  · intro text style made
    exact StyleMap.isLonghand_ofDeclarations made
  · intro css sheet found
    exact Stylesheet.isLonghand_read found

/-- A radius before a slash, a keyword for all sides and a font without a family. -/
theorem expand_longhands_short :
    let radius : Declaration := ⟨"border-radius", "1px 2px / 3px"⟩
    let margin : Declaration := ⟨"margin", " INHERIT"⟩
    let font : Declaration := ⟨"font", "bold 9px"⟩
    (∃ longhands, radius.expand = .ok longhands ∧
      longhands.map Declaration.name = Shorthand.radiusProperties) ∧
    (∃ longhands, margin.expand = .ok longhands ∧
      longhands.map Declaration.name =
        ["margin-top", "margin-right", "margin-bottom", "margin-left"]) ∧
    (∃ longhands, font.expand = .ok longhands ∧
      (longhands.map Declaration.name).Sublist Shorthand.font.longhands) ∧
    ∃ style, StyleMap.ofInline "font: bold 9px; margin: 0" = .ok style ∧
      style.get? "font" = none := by
  intro radius margin font
  obtain ⟨shorthands, -, inline, -⟩ := expand_longhands
  obtain ⟨radii, ofRadius⟩ : ∃ longhands, radius.expand = .ok longhands :=
    exists_of_isOk (by decide)
  obtain ⟨margins, ofMargin⟩ : ∃ longhands, margin.expand = .ok longhands :=
    exists_of_isOk (by decide +kernel)
  obtain ⟨parts, ofFont⟩ : ∃ longhands, font.expand = .ok longhands :=
    exists_of_isOk (by decide)
  obtain ⟨style, made⟩ : ∃ style, StyleMap.ofInline "font: bold 9px; margin: 0" = .ok style :=
    exists_of_isOk (by decide +kernel)
  refine ⟨⟨radii, ofRadius, ?_⟩, ⟨margins, ofMargin, ?_⟩, ⟨parts, ofFont, ?_⟩, ⟨style, made, ?_⟩⟩
  · exact ((shorthands _ _ .borderRadius rfl).2.2 _ ofRadius).1 (by decide) (by decide)
  · exact ((shorthands _ _ (.spacing .margin) rfl).2.2 _ ofMargin).1 (by decide) (by decide)
  · exact (((shorthands _ _ .font rfl).2.2 _ ofFont).2 rfl).1
  · exact inline _ _ made "font" rfl

end ComputedStyle
