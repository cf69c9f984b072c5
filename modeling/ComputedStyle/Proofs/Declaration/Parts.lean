import ComputedStyle.Proofs.Declaration.Border
import ComputedStyle.Proofs.Declaration.Longhands

/-!
What the longhands of a shorthand are given.

It is a word of the shorthand's own, or a token of the value, or a part that a slash or a gradient
sets off. Slashes are looked for without regard to brackets and quotes, and a gradient is taken to end
where its token ends; where nothing is cut in two by that, the parts of a closed value are closed.
-/

namespace ComputedStyle.Shorthand

open Text

/-- The text is cut at its first slash outside of brackets and quotes, if it is cut. -/
def SlashOutside (s : List Char) : Prop :=
  ∀ before after, splitOnce '/' s = some (before, after) → IsWhole before

/-- The argument of a gradient, between its brackets, is all of its token; or there is a color in it
before the last stop. -/
def StopsInside (token : String) : Prop :=
  ∃ name inner rest : List Char, token.toList = name ++ '(' :: (inner ++ ')' :: rest) ∧
    '(' ∉ name ∧ Closed IsUnsquare IsUnsquare inner ∧
    (rest = [] ∨ ∃ stop ∈ (splitTopLevel ',' inner).dropLast, ∃ part ∈ valueTokens stop,
      isColorBy Color.read? (String.ofList part) = .ok true)

/-- What stands for something that a value does not say. -/
def defaults : List String :=
  ["medium", "none", "currentcolor", "transparent", "normal", "disc", "outside"]

/-- What a longhand may be given by a value with these tokens. -/
inductive IsPart (tokens : List String) : String → Prop where
  | default (word : String) (known : word ∈ defaults) : IsPart tokens word
  | wide (keyword : String) (known : keyword ∈ wideKeywords) : IsPart tokens keyword
  | token (token : String) (member : token ∈ tokens) : IsPart tokens token
  | lower (token : String) (member : token ∈ tokens) : IsPart tokens token.toLower
  | family (last : List String) (ends : last <:+ tokens) : IsPart tokens (" ".intercalate last)
  | beforeSlash (before after : List Char)
      (member : String.ofList (before ++ '/' :: after) ∈ tokens) (outside : IsWhole before) :
      IsPart tokens (String.ofList before)
  | afterSlash (before after : List Char)
      (member : String.ofList (before ++ '/' :: after) ∈ tokens) (outside : IsWhole before) :
      IsPart tokens (String.ofList after)
  | stop (name inner rest stop part : List Char)
      (member : String.ofList (name ++ '(' :: (inner ++ ')' :: rest)) ∈ tokens)
      (argument : Closed IsUnsquare IsUnsquare inner) (held : stop ∈ splitTopLevel ',' inner)
      (own : part ∈ valueTokens stop)
      (color : isColorBy Color.read? (String.ofList part) = .ok true) :
      IsPart tokens (String.ofList part)

def AreParts (tokens : List String) (longhands : List Declaration) : Prop :=
  ∀ longhand ∈ longhands, IsPart tokens longhand.value

section Parts

variable {tokens rest : List String} {token value : String} {longhand : Declaration}
  {longhands others : List Declaration}

theorem isWhole_defaults : ∀ word ∈ defaults, IsWhole word.toList := by decide

theorem isWhole_wideKeywords : ∀ keyword ∈ wideKeywords, IsWhole keyword.toList := by
  decide

theorem toList_toLower (token : String) : token.toLower.toList = Text.lower token.toList :=
  String.toList_map

theorem IsPart.isWhole (part : IsPart tokens value)
    (whole : ∀ token ∈ tokens, IsWhole token.toList) : IsWhole value.toList := by
  induction part with
  | default word known => exact isWhole_defaults word known
  | wide keyword known => exact isWhole_wideKeywords keyword known
  | token token member => exact whole token member
  | lower token member =>
      rw [toList_toLower]
      exact (whole token member).lower
  | family last ends =>
      have blank : " ".toList = [' '] := rfl
      rw [String.toList_intercalate, blank]
      apply isWhole_intercalate
      intro t member
      obtain ⟨token, there, rfl⟩ := List.mem_map.1 member
      exact whole token (ends.subset there)
  | beforeSlash before after _ outside =>
      rw [String.toList_ofList]
      exact outside
  | afterSlash before after member outside =>
      have own := whole _ member
      rw [String.toList_ofList] at own ⊢
      apply Closed.of_cons (d := '/') (by decide)
      exact outside.of_append own
  | stop name inner rest stop part _ argument held own _ =>
      rw [String.toList_ofList]
      have closed : Closed IsUnsquare IsUnsquare stop := argument.mem_splitTopLevel (by decide) held
      exact (closed.mem_valueTokens own).2.isWhole

@[simp] theorem areParts_nil : AreParts tokens [] :=
  List.forall_mem_nil _

@[simp] theorem areParts_cons : AreParts tokens (longhand :: longhands) ↔
    IsPart tokens longhand.value ∧ AreParts tokens longhands :=
  List.forall_mem_cons

@[simp] theorem areParts_append : AreParts tokens (longhands ++ others) ↔
    AreParts tokens longhands ∧ AreParts tokens others :=
  List.forall_mem_append

theorem mem_toList_ofFanout {edges : Edges String} (found : Edges.ofFanout? tokens = some edges) :
    ∀ value ∈ edges.toList, value ∈ tokens := by
  unfold Edges.ofFanout? at found
  split at found
  · cases found
  all_goals
    cases found
    simp [Edges.toList]

theorem value_mem_of_mem_zipWith {names values : List String}
    (member : longhand ∈ List.zipWith Declaration.mk names values) : longhand.value ∈ values := by
  induction names generalizing values with
  | nil => cases member
  | cons name rest ih =>
      cases values with
      | nil => cases member
      | cons value others =>
          rcases List.mem_cons.1 member with rfl | later
          · exact List.mem_cons_self
          · exact List.mem_cons_of_mem value (ih later)

theorem value_mem_of_mem_fanOut {names : List String} (member : longhand ∈ fanOut names tokens) :
    longhand.value ∈ tokens := by
  unfold fanOut at member
  split at member
  · next edges found => exact mem_toList_ofFanout found _ (value_mem_of_mem_zipWith member)
  · cases member

theorem areParts_fanOut (names tokens : List String) : AreParts tokens (fanOut names tokens) :=
  fun _ member => .token _ (value_mem_of_mem_fanOut member)

theorem areParts_gap (tokens : List String) : AreParts tokens (gapDeclarations tokens) := by
  unfold gapDeclarations
  split
  · exact areParts_nil
  · next both =>
      have own : IsPart [both] both := .token both List.mem_cons_self
      simp [own]
  · next row column more =>
      have first : IsPart (row :: column :: more) row := .token row List.mem_cons_self
      have second : IsPart (row :: column :: more) column :=
        .token column (List.mem_cons_of_mem row List.mem_cons_self)
      simp [first, second]

theorem beforeSlash_cases (value : String) :
    splitOnce '/' value.toList = none ∧ beforeSlash value = value ∨
      ∃ before after, splitOnce '/' value.toList = some (before, after) ∧
        beforeSlash value = String.ofList before := by
  unfold beforeSlash
  rcases splitOnce_takeWhile '/' value.toList with ⟨unmarked, all⟩ | ⟨after, found⟩
  · rw [all, String.ofList_toList]
    exact .inl ⟨unmarked, rfl⟩
  · exact .inr ⟨_, after, found, rfl⟩

theorem isPart_of_mem_corners (closed : IsWhole value.toList) (outside : SlashOutside value.toList)
    (member : token ∈ tokensOf (beforeSlash value)) : IsPart (tokensOf value) token := by
  rcases beforeSlash_cases value with ⟨-, all⟩ | ⟨before, after, found, cut⟩
  · rw [all] at member
    exact .token token member
  · have front := outside before after found
    have whole := eq_of_splitOnce found
    have there := toList_of_mem_tokensOf member
    rw [cut, String.toList_ofList] at there
    have listed := front.mem_valueTokens_front (whole ▸ closed) (by decide) there
    rw [← whole] at listed
    rcases listed with own | ⟨more, longer⟩
    · exact .token token (List.mem_map.2 ⟨_, own, String.ofList_toList⟩)
    · have solid := (front.mem_valueTokens there).2.isWhole
      have part := IsPart.beforeSlash token.toList more (List.mem_map_of_mem longer) solid
      rwa [String.ofList_toList] at part

theorem areParts_corners (closed : IsWhole value.toList) (outside : SlashOutside value.toList)
    (names : List String) :
    AreParts (tokensOf value) (fanOut names (tokensOf (beforeSlash value))) :=
  fun _ member => isPart_of_mem_corners closed outside (value_mem_of_mem_fanOut member)

theorem BorderParts.get_set (parts : BorderParts) (aspect other : BorderAspect) (word : String) :
    (parts.set aspect word).get other = if other = aspect then word else parts.get other := by
  cases aspect <;> cases other <;> rfl

theorem BorderParts.isPart_get (tokens : List String) (aspect : BorderAspect) :
    IsPart tokens ((BorderParts.ofTokens tokens).get aspect) := by
  refine List.foldlRecOn (motive := fun parts : BorderParts => IsPart tokens (parts.get aspect))
    tokens BorderParts.add ?_ ?_
  · cases aspect with
    | width => exact .default _ (by decide)
    | style => exact .default _ (by decide)
    | color => exact .default _ (by decide)
  · intro parts holds token member
    rw [add_eq_set, get_set]
    split
    · unfold wordOf
      split
      · exact .lower token member
      · exact .token token member
    · exact holds

theorem areParts_borderSide (tokens : List String) (side : Side) :
    AreParts tokens ((BorderParts.ofTokens tokens).declarations side) := by
  have part := BorderParts.isPart_get tokens
  exact areParts_cons.2 ⟨part .width, areParts_cons.2 ⟨part .style,
    areParts_cons.2 ⟨part .color, areParts_nil⟩⟩⟩

theorem areParts_border (tokens : List String) :
    AreParts tokens (Side.all.flatMap (BorderParts.ofTokens tokens).declarations) := by
  intro longhand member
  obtain ⟨side, -, own⟩ := List.mem_flatMap.1 member
  exact areParts_borderSide tokens side longhand own

theorem ListStyle.areParts_iff {style : ListStyle} : AreParts tokens style.declarations ↔
    IsPart tokens style.kind ∧ IsPart tokens style.position ∧ IsPart tokens style.image := by
  simp [ListStyle.declarations]

theorem ListStyle.areParts_add {style : ListStyle} (holds : AreParts tokens style.declarations)
    (member : token ∈ tokens) : AreParts tokens (style.add token).declarations := by
  obtain ⟨kind, position, image⟩ := areParts_iff.1 holds
  apply areParts_iff.2
  unfold ListStyle.add
  dsimp only
  split
  · exact ⟨kind, .lower token member, image⟩
  · split
    · exact ⟨kind, position, .token token member⟩
    · exact ⟨.lower token member, position, image⟩

theorem areParts_listStyle (tokens : List String) :
    AreParts tokens (tokens.foldl ListStyle.add {}).declarations := by
  refine List.foldlRecOn (motive := fun style : ListStyle => AreParts tokens style.declarations)
    tokens ListStyle.add ?_ ?_
  · apply ListStyle.areParts_iff.2
    exact ⟨.default _ (by decide), .default _ (by decide), .default _ (by decide)⟩
  · intro style holds token member
    exact ListStyle.areParts_add holds member

theorem FontKeywords.areParts_iff {keywords : FontKeywords} :
    AreParts tokens keywords.declarations ↔ IsPart tokens keywords.style ∧
      IsPart tokens keywords.variant ∧ IsPart tokens keywords.weight := by
  simp [FontKeywords.declarations]

theorem FontKeywords.areParts_add? {keywords more : FontKeywords}
    (holds : AreParts tokens keywords.declarations) (member : token ∈ tokens)
    (added : keywords.add? token = some more) : AreParts tokens more.declarations := by
  obtain ⟨style, variant, weight⟩ := areParts_iff.1 holds
  apply areParts_iff.2
  unfold FontKeywords.add? at added
  dsimp only at added
  split at added
  · cases added
    exact ⟨style, variant, weight⟩
  · split at added
    · cases added
      exact ⟨.lower token member, variant, weight⟩
    · split at added
      · cases added
        exact ⟨style, .lower token member, weight⟩
      · split at added
        · cases added
          exact ⟨style, variant, .lower token member⟩
        · cases added

theorem FontKeywords.areParts_takeFrom {keywords : FontKeywords}
    (holds : AreParts tokens keywords.declarations) (ends : rest <:+ tokens) :
    AreParts tokens (keywords.takeFrom rest).1.declarations ∧
      (keywords.takeFrom rest).2 <:+ tokens := by
  induction rest generalizing keywords with
  | nil => exact ⟨holds, ends⟩
  | cons token others ih =>
      rw [FontKeywords.takeFrom]
      split
      · next more added =>
          have member : token ∈ tokens := ends.subset List.mem_cons_self
          apply ih (areParts_add? holds member added)
          exact (List.suffix_cons token others).trans ends
      · exact ⟨holds, ends⟩

theorem IsPart.normal : IsPart tokens "normal" :=
  .default "normal" (by decide)

theorem FontSize.areParts_declarations {size lineHeight : String} (sized : IsPart tokens size)
    (spaced : IsPart tokens lineHeight) (ends : rest <:+ tokens) :
    AreParts tokens (FontSize.declarations ⟨size, lineHeight, rest⟩) := by
  unfold FontSize.declarations
  rw [areParts_append]
  refine ⟨by simp [sized, spaced], ?_⟩
  split
  · exact areParts_nil
  · simp [IsPart.family rest ends]

theorem FontSize.areParts_read_unslashed (unslashed : splitOnce '/' token.toList = none)
    (ends : token :: rest <:+ tokens) :
    AreParts tokens (FontSize.read token rest).declarations := by
  have own : IsPart tokens token := .token token (ends.subset List.mem_cons_self)
  have later : rest <:+ tokens := (List.suffix_cons token rest).trans ends
  unfold FontSize.read
  rw [unslashed]
  dsimp only
  cases rest with
  | nil => exact areParts_declarations own .normal List.nil_suffix
  | cons next more =>
      have others : more <:+ tokens := (List.suffix_cons next more).trans later
      dsimp only
      split
      · cases more with
        | nil => exact areParts_declarations own .normal List.nil_suffix
        | cons lineHeight family =>
            apply areParts_declarations own
            · exact .token lineHeight (others.subset List.mem_cons_self)
            · exact (List.suffix_cons lineHeight family).trans others
      · next lineHeight _ slashed =>
          refine areParts_declarations own ?_ others
          apply IsPart.afterSlash [] lineHeight _ (.nil _)
          rw [List.nil_append, ← slashed, String.ofList_toList]
          exact later.subset List.mem_cons_self
      · exact areParts_declarations own .normal later

theorem FontSize.areParts_read (outside : SlashOutside token.toList)
    (ends : token :: rest <:+ tokens) :
    AreParts tokens (FontSize.read token rest).declarations := by
  cases found : splitOnce '/' token.toList with
  | none => exact areParts_read_unslashed found ends
  | some cut =>
      obtain ⟨size, lineHeight⟩ := cut
      have member : String.ofList (size ++ '/' :: lineHeight) ∈ tokens := by
        rw [← eq_of_splitOnce found, String.ofList_toList]
        exact ends.subset List.mem_cons_self
      have later : rest <:+ tokens := (List.suffix_cons token rest).trans ends
      have front := outside _ _ found
      have own := IsPart.beforeSlash size lineHeight member front
      unfold FontSize.read
      rw [found]
      cases lineHeight with
      | nil =>
          cases rest with
          | nil => exact areParts_declarations own .normal List.nil_suffix
          | cons next family =>
              apply areParts_declarations own
              · exact .token next (later.subset List.mem_cons_self)
              · exact (List.suffix_cons next family).trans later
      | cons c more =>
          exact areParts_declarations own (.afterSlash size (c :: more) member front) later

/-- The token that a font's size is read from. -/
def sizeToken? (tokens : List String) : Option String :=
  (({} : FontKeywords).takeFrom tokens).2.head?

theorem fontDeclarations_eq (tokens : List String) : ∃ keywords : FontKeywords,
    AreParts tokens keywords.declarations ∧
      (sizeToken? tokens = none ∧ fontDeclarations tokens = keywords.declarations ∨
        ∃ token rest, sizeToken? tokens = some token ∧ token :: rest <:+ tokens ∧
          fontDeclarations tokens =
            keywords.declarations ++ (FontSize.read token rest).declarations) := by
  have start : AreParts tokens ({} : FontKeywords).declarations :=
    FontKeywords.areParts_iff.2 ⟨.normal, .normal, .normal⟩
  have taken := FontKeywords.areParts_takeFrom start (List.suffix_refl tokens)
  unfold sizeToken? fontDeclarations
  generalize ({} : FontKeywords).takeFrom tokens = run at taken ⊢
  obtain ⟨keywords, rest⟩ := run
  obtain ⟨holds, ends⟩ := taken
  refine ⟨keywords, holds, ?_⟩
  cases rest with
  | nil => exact .inl ⟨rfl, List.append_nil _⟩
  | cons token more => exact .inr ⟨token, more, rfl, ends, rfl⟩

theorem areParts_font
    (outside : ∀ token, sizeToken? tokens = some token → SlashOutside token.toList) :
    AreParts tokens (fontDeclarations tokens) := by
  obtain ⟨keywords, holds, ⟨-, same⟩ | ⟨token, rest, read, ends, same⟩⟩ :=
    fontDeclarations_eq tokens
  · rw [same]
    exact holds
  · rw [same, areParts_append]
    exact ⟨holds, FontSize.areParts_read (outside token read) ends⟩

theorem argumentText_append {name : List Char} (plain : '(' ∉ name) (s : List Char) :
    argumentText (name ++ '(' :: s) = if s.getLast? = some ')' then s.dropLast else s := by
  have passed : ∀ c ∈ name, (c != '(') = true := by
    intro c member
    exact bne_iff_ne.2 (ne_of_mem_of_not_mem member plain)
  rw [argumentText, List.dropWhile_append_of_pos passed]
  rfl

theorem exists_argumentText {name : List Char} (plain : '(' ∉ name) (inner rest : List Char) :
    ∃ more, argumentText (name ++ '(' :: (inner ++ ')' :: rest)) = inner ++ more := by
  rw [argumentText_append plain]
  split
  · exact ⟨_, List.dropLast_append_of_ne_nil (List.cons_ne_nil ')' rest)⟩
  · exact ⟨_, rfl⟩

theorem argumentText_of_call {name : List Char} (plain : '(' ∉ name) (inner : List Char) :
    argumentText (name ++ '(' :: (inner ++ [')'])) = inner := by
  rw [argumentText_append plain, List.getLast?_concat, if_pos rfl, List.dropLast_concat]

theorem exists_stop_of_findM? {color : String} {name inner rest : List Char}
    (same : token.toList = name ++ '(' :: (inner ++ ')' :: rest)) (plain : '(' ∉ name)
    (closed : Closed IsUnsquare IsUnsquare inner)
    (ends : rest = [] ∨ ∃ stop ∈ (splitTopLevel ',' inner).dropLast, ∃ part ∈ valueTokens stop,
      isColorBy Color.read? (String.ofList part) = .ok true)
    (found : (gradientParts token).findM? (isColorBy Color.read?) = .ok (some color)) :
    ∃ stop ∈ splitTopLevel ',' inner, ∃ part ∈ valueTokens stop, String.ofList part = color := by
  unfold gradientParts at found
  rcases ends with rfl | ⟨stop, early, part, own, isColor⟩
  · rw [same, argumentText_of_call plain] at found
    obtain ⟨stop, held, listed⟩ := List.mem_flatMap.1 (of_findM? found).1
    exact ⟨stop, held, List.mem_map.1 listed⟩
  · obtain ⟨more, argument⟩ := exists_argumentText plain inner rest
    obtain ⟨others, pieces⟩ := closed.splitTopLevel_append (d := ',') (by decide) more
    rw [same, argument, pieces, List.flatMap_append] at found
    have sought := mem_of_findM?_append found
      ⟨_, List.mem_flatMap.2 ⟨stop, early, List.mem_map_of_mem own⟩, isColor⟩
    obtain ⟨stop, held, listed⟩ := List.mem_flatMap.1 sought
    exact ⟨stop, List.mem_of_mem_dropLast held, List.mem_map.1 listed⟩

theorem isPart_of_colorOfToken? {color : String} (member : token ∈ tokens)
    (inside : isGradient token → StopsInside token)
    (found : colorOfToken? Color.read? token = .ok (some color)) : IsPart tokens color := by
  unfold colorOfToken? at found
  split at found
  · next gradient =>
      obtain ⟨name, inner, rest, same, plain, closed, ends⟩ := inside gradient
      obtain ⟨stop, held, part, own, rfl⟩ := exists_stop_of_findM? same plain closed ends found
      refine .stop name inner rest stop part ?_ closed held own (of_findM? found).2
      rw [← same, String.ofList_toList]
      exact member
  · split at found
    · cases found
    · obtain ⟨isColor, -, given⟩ := map_eq_ok.1 found
      cases isColor with
      | false => cases given
      | true =>
          cases given
          exact .token token member

theorem isPart_of_backgroundColor {color : String}
    (inside : ∀ token ∈ tokens, isGradient token → StopsInside token)
    (found : backgroundColor Color.read? tokens = .ok color) : IsPart tokens color := by
  obtain ⟨first, searched, rfl⟩ := map_eq_ok.1 found
  cases first with
  | none => exact .default _ (by decide)
  | some color =>
      obtain ⟨token, member, given⟩ := exists_of_findSomeM? searched
      exact isPart_of_colorOfToken? member (inside token member) given

end Parts

/-! Values that are cut outside of brackets and quotes. -/

/-- Where a shorthand looks for slashes or takes a gradient apart, it cuts no part in two. -/
def CutsOutside (shorthand : Shorthand) (value : String) : Prop :=
  match shorthand with
  | borderRadius => SlashOutside value.toList
  | font => ∀ token, sizeToken? (tokensOf value) = some token → SlashOutside token.toList
  | background => ∀ token ∈ tokensOf value, isGradient token → StopsInside token
  | _ => True

section Values

variable {shorthand : Shorthand} {value : String} {longhands : List Declaration}

theorem areParts_expandTokens (closed : IsWhole value.toList)
    (outside : shorthand.CutsOutside value)
    (expanded : shorthand.expandTokens value (tokensOf value) = .ok longhands) :
    AreParts (tokensOf value) longhands := by
  cases shorthand with
  | spacing kind => exact Except.ok.inj expanded ▸ areParts_fanOut _ _
  | borderAspect aspect => exact Except.ok.inj expanded ▸ areParts_fanOut _ _
  | border => exact Except.ok.inj expanded ▸ areParts_border _
  | borderSide side => exact Except.ok.inj expanded ▸ areParts_borderSide _ side
  | borderRadius => exact Except.ok.inj expanded ▸ areParts_corners closed outside _
  | gap => exact Except.ok.inj expanded ▸ areParts_gap _
  | background =>
      rw [expandTokens] at expanded
      obtain ⟨color, found, rfl⟩ := map_eq_ok.1 expanded
      simp [isPart_of_backgroundColor outside found]
  | font => exact Except.ok.inj expanded ▸ areParts_font outside
  | listStyle => exact Except.ok.inj expanded ▸ areParts_listStyle _

theorem mem_wideKeywords {tokens : List String} {keyword : String}
    (wide : wideKeyword? tokens = some keyword) : keyword ∈ wideKeywords := by
  unfold wideKeyword? at wide
  split at wide
  · split at wide
    · next known =>
        cases wide
        exact known
    · cases wide
  · cases wide

theorem expand_of_not_wide (other : wideKeyword? (tokensOf value) = none) (shorthand : Shorthand) :
    shorthand.expand value = shorthand.expandTokens value (tokensOf value) := by
  unfold expand
  dsimp only
  rw [other]

theorem areParts_expand (closed : IsWhole value.toList) (outside : shorthand.CutsOutside value)
    (expanded : shorthand.expand value = .ok longhands) : AreParts (tokensOf value) longhands := by
  unfold expand at expanded
  dsimp only at expanded
  split at expanded
  · next keyword wide =>
      cases expanded
      intro longhand member
      obtain ⟨name, -, rfl⟩ := List.mem_map.1 member
      exact .wide keyword (mem_wideKeywords wide)
  · exact areParts_expandTokens closed outside expanded

/-! Values that are cut inside of brackets and quotes. -/

theorem values_fanOut {names tokens : List String} (four : names.length = 4)
    (few : tokens.length ≤ 4) : tokens <+: (fanOut names tokens).map Declaration.value := by
  match names, four with
  | [_, _, _, _], _ =>
      match tokens, few with
      | [], _ => exact List.nil_prefix
      | [a], _ => exact ⟨[a, a, a], rfl⟩
      | [a, b], _ => exact ⟨[a, b], rfl⟩
      | [_, b, _], _ => exact ⟨[b], rfl⟩
      | [_, _, _, _], _ => exact ⟨[], rfl⟩

theorem FontSize.size_read {token : String} {before after : List Char}
    (found : splitOnce '/' token.toList = some (before, after)) (rest : List String) :
    (FontSize.read token rest).size = String.ofList before := by
  unfold FontSize.read
  rw [found]
  cases after with
  | nil => cases rest <;> rfl
  | cons c more => rfl

theorem exists_cut_font {tokens : List String} {token : String}
    (read : sizeToken? tokens = some token) (inside : ¬SlashOutside token.toList) :
    ∃ longhand ∈ fontDeclarations tokens, ¬IsWhole longhand.value.toList := by
  unfold SlashOutside at inside
  push Not at inside
  obtain ⟨before, after, found, opened⟩ := inside
  obtain ⟨keywords, -, ⟨alone, -⟩ | ⟨other, rest, same, -, all⟩⟩ := fontDeclarations_eq tokens
  · rw [alone] at read
    cases read
  · obtain rfl := Option.some.inj (same.symm.trans read)
    rw [all]
    refine ⟨⟨"font-size", (FontSize.read other rest).size⟩, ?_, ?_⟩
    · exact List.mem_append_right _ (List.mem_append_left _ List.mem_cons_self)
    · rw [FontSize.size_read found, String.toList_ofList]
      exact opened

theorem exists_cut_corner (closed : IsWhole value.toList) (inside : ¬SlashOutside value.toList)
    (few : (tokensOf (beforeSlash value)).length ≤ 4) {names : List String}
    (four : names.length = 4) :
    ∃ longhand ∈ fanOut names (tokensOf (beforeSlash value)), ¬IsWhole longhand.value.toList := by
  have given : tokensOf (beforeSlash value) <+:
      (fanOut names (tokensOf (beforeSlash value))).map Declaration.value :=
    values_fanOut four few
  by_contra whole
  push Not at whole
  have each : ∀ token ∈ tokensOf (beforeSlash value), IsWhole token.toList := by
    intro token member
    obtain ⟨longhand, there, rfl⟩ := List.mem_map.1 (given.subset member)
    exact whole longhand there
  apply inside
  intro before after found
  rcases beforeSlash_cases value with ⟨unmarked, -⟩ | ⟨front, rest, marked, cut⟩
  · rw [unmarked] at found
    cases found
  · rw [marked] at found
    cases found
    rw [eq_of_splitOnce marked] at closed
    apply closed.of_valueTokens
    intro u member
    rw [cut] at each
    have own := each (String.ofList u) ?_
    · rwa [String.toList_ofList] at own
    · rw [tokensOf, String.toList_ofList]
      exact List.mem_map_of_mem member

end Values

/-- All that the longhands of a closed value are given are closed parts of it, where it is cut outside
of brackets and quotes. A font that is cut inside of them is given a part that is not closed, and so
are corners, unless there are more values than corners. -/
theorem expand_parts {name value : String} {shorthand : Shorthand}
    (known : ofName? name = some shorthand) (closed : IsWhole value.toList) :
    (shorthand.CutsOutside value → ∀ longhands, Declaration.expand ⟨name, value⟩ = .ok longhands →
      ∀ longhand ∈ longhands,
        IsPart (tokensOf value) longhand.value ∧ IsWhole longhand.value.toList) ∧
    (¬shorthand.CutsOutside value → wideKeyword? (tokensOf value) = none →
      shorthand = .font ∨
        shorthand = .borderRadius ∧ (tokensOf (beforeSlash value)).length ≤ 4 →
      ∃ longhands, Declaration.expand ⟨name, value⟩ = .ok longhands ∧
        ∃ longhand ∈ longhands, ¬IsWhole longhand.value.toList) := by
  rw [Declaration.expand_of_shorthand known]
  constructor
  · intro outside longhands expanded longhand member
    have part := areParts_expand closed outside expanded longhand member
    refine ⟨part, part.isWhole ?_⟩
    intro token listed
    exact (closed.mem_valueTokens (toList_of_mem_tokensOf listed)).2.isWhole
  · intro inside other cut
    rw [expand_of_not_wide other]
    rcases cut with rfl | ⟨rfl, few⟩
    · rw [CutsOutside] at inside
      push Not at inside
      obtain ⟨token, read, within⟩ := inside
      exact ⟨_, rfl, exists_cut_font read within⟩
    · exact ⟨_, rfl, exists_cut_corner closed inside few rfl⟩

/-- A font with a slash outside of brackets before one inside of them, a gradient with a layer after
it, and corners with a slash inside of brackets. -/
theorem expand_parts_nested :
    let sized := "italic 12px/calc(3 / 2) 'A (B', serif"
    let layered := "linear-gradient(to left, rgb(1 2 3), red),url(x)"
    let divided := "calc(10px / 2)"
    (∃ longhands, IsWhole sized.toList ∧ font.CutsOutside sized ∧
      Declaration.expand ⟨"font", sized⟩ = .ok longhands ∧
        ∀ longhand ∈ longhands,
          IsPart (tokensOf sized) longhand.value ∧ IsWhole longhand.value.toList) ∧
    (IsWhole layered.toList ∧ background.CutsOutside layered ∧
      Declaration.expand ⟨"background", layered⟩ = .ok [⟨"background-color", "rgb(1 2 3)"⟩] ∧
        IsPart (tokensOf layered) "rgb(1 2 3)") ∧
    ∃ longhands, IsWhole divided.toList ∧ ¬borderRadius.CutsOutside divided ∧
      Declaration.expand ⟨"border-radius", divided⟩ = .ok longhands ∧
        ∃ longhand ∈ longhands, ¬IsWhole longhand.value.toList := by
  intro sized layered divided
  refine ⟨?_, ?_, ?_⟩
  · have closed : IsWhole sized.toList := by decide
    have size : sizeToken? (tokensOf sized) = some "12px/calc(3 / 2)" := by decide +kernel
    have cut : splitOnce '/' "12px/calc(3 / 2)".toList =
        some ("12px".toList, "calc(3 / 2)".toList) := by decide
    have outside : font.CutsOutside sized := by
      intro token read before after found
      rw [size] at read
      cases read
      rw [cut] at found
      cases found
      decide
    have expanded : Declaration.expand ⟨"font", sized⟩ = .ok (fontDeclarations (tokensOf sized)) :=
      expand_of_not_wide (by decide) font
    exact ⟨_, closed, outside, expanded, (expand_parts rfl closed).1 outside _ expanded⟩
  · have closed : IsWhole layered.toList := by decide
    have only : tokensOf layered = [layered] := by decide
    have outside : background.CutsOutside layered := by
      intro token member _
      rw [only] at member
      rw [List.mem_singleton.1 member]
      refine ⟨"linear-gradient".toList, "to left, rgb(1 2 3), red".toList, ",url(x)".toList,
        by decide, by decide, by decide, .inr ?_⟩
      exact ⟨" rgb(1 2 3)".toList, by decide, "rgb(1 2 3)".toList, by decide,
        by decide +kernel⟩
    have expanded : Declaration.expand ⟨"background", layered⟩ =
        .ok [⟨"background-color", "rgb(1 2 3)"⟩] := by decide +kernel
    have parts := (expand_parts rfl closed).1 outside _ expanded _ List.mem_cons_self
    exact ⟨closed, outside, expanded, parts.1⟩
  · have closed : IsWhole divided.toList := by decide
    have cut : splitOnce '/' divided.toList = some ("calc(10px ".toList, " 2)".toList) := by
      decide
    have inside : ¬borderRadius.CutsOutside divided := by
      intro outside
      exact absurd (outside _ _ cut) (by decide)
    have few : (tokensOf (beforeSlash divided)).length ≤ 4 := by decide
    have other : wideKeyword? (tokensOf divided) = none := by decide +kernel
    have known : ofName? "border-radius" = some .borderRadius := rfl
    obtain ⟨longhands, expanded, part⟩ :=
      (expand_parts known closed).2 inside other (.inr ⟨rfl, few⟩)
    exact ⟨longhands, closed, inside, expanded, part⟩

/-- A slash inside of brackets cuts corners and a font, and a gradient is taken to go on after its
bracket. -/
theorem expand_parts_cut :
    (IsWhole "calc(10px / 2)".toList ∧
      Declaration.expand ⟨"border-radius", "calc(10px / 2)"⟩ =
        .ok (radiusProperties.map fun name => ⟨name, "calc(10px"⟩) ∧
      ¬IsWhole "calc(10px".toList) ∧
    (IsWhole "calc(1px/2) serif".toList ∧
      Declaration.expand ⟨"font", "calc(1px/2) serif"⟩ =
        .ok [⟨"font-style", "normal"⟩, ⟨"font-variant", "normal"⟩, ⟨"font-weight", "normal"⟩,
          ⟨"font-size", "calc(1px"⟩, ⟨"line-height", "2)"⟩, ⟨"font-family", "serif"⟩] ∧
      ¬IsWhole "2)".toList) ∧
    IsWhole "linear-gradient(var(--a)),rgb(0 0 0)".toList ∧
      Declaration.expand ⟨"background", "linear-gradient(var(--a)),rgb(0 0 0)"⟩ =
        .ok [⟨"background-color", "rgb(0 0 0"⟩] ∧
      ¬IsWhole "rgb(0 0 0".toList := by
  decide +kernel

end ComputedStyle.Shorthand
