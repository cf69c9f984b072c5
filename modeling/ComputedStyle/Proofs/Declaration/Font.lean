import ComputedStyle.Proofs.Declaration.Parts
import ComputedStyle.Proofs.Text.Spaced

namespace ComputedStyle.Shorthand

open Text

/-- The properties that are set by keywords before the size. -/
inductive FontAspect where
  | style
  | variant
  | weight
deriving DecidableEq, Repr

def FontAspect.all : List FontAspect := [style, variant, weight]

def FontAspect.words : FontAspect → List String
  | style => ["italic", "oblique"]
  | variant => ["small-caps"]
  | weight => FontKeywords.weights

/-- A keyword of the property, in any letter case. -/
def FontAspect.Takes (aspect : FontAspect) (token : String) : Prop :=
  token.toLower ∈ aspect.words

instance (aspect : FontAspect) : DecidablePred aspect.Takes :=
  fun token => inferInstanceAs (Decidable (token.toLower ∈ aspect.words))

def IsNormal (token : String) : Prop :=
  token.toLower = "normal"

instance : DecidablePred IsNormal := fun token => inferInstanceAs (Decidable (token.toLower = "normal"))

/-- Where the blanks are, if a slash joins a line height to a size. -/
inductive SlashBlanks where
  | none
  | after
  | before
  | around
deriving DecidableEq, Repr

structure WrittenFont where
  /-- At most one keyword a property. -/
  keyword : FontAspect → Option String
  /-- What stands among the keywords and sets nothing. -/
  normals : List String
  size : String
  lineHeight : Option (SlashBlanks × String)
  family : List String

namespace WrittenFont

def keywords (font : WrittenFont) : List String :=
  font.normals ++ FontAspect.all.filterMap font.keyword

/-- The tokens of the size and the line height. -/
def sized (font : WrittenFont) : List String :=
  match font.lineHeight with
  | none => [font.size]
  | some (.none, lineHeight) => [font.size ++ "/" ++ lineHeight]
  | some (.after, lineHeight) => [font.size ++ "/", lineHeight]
  | some (.before, lineHeight) => [font.size, "/" ++ lineHeight]
  | some (.around, lineHeight) => [font.size, "/", lineHeight]

/-- What the property of a keyword is set to. -/
def word (font : WrittenFont) (aspect : FontAspect) : String :=
  ((font.keyword aspect).map String.toLower).getD "normal"

def longhands (font : WrittenFont) : List Declaration :=
  [⟨"font-style", font.word .style⟩, ⟨"font-variant", font.word .variant⟩,
    ⟨"font-weight", font.word .weight⟩, ⟨"font-size", font.size⟩,
    ⟨"line-height", (font.lineHeight.map Prod.snd).getD "normal"⟩,
    ⟨"font-family", " ".intercalate font.family⟩]

structure IsWritten (font : WrittenFont) : Prop where
  keywords : ∀ aspect token, font.keyword aspect = some token → aspect.Takes token
  normals : ∀ token ∈ font.normals, IsNormal token
  sizeOther : ¬IsNormal font.size ∧ ∀ aspect : FontAspect, ¬aspect.Takes font.size
  size : '/' ∉ font.size.toList
  lineHeight : ∀ given ∈ font.lineHeight, given.2 ≠ "" ∧ '/' ∉ given.2.toList
  family : ∃ first rest, font.family = first :: rest ∧ first.toList.head? ≠ some '/'

end WrittenFont

section Keywords

variable {aspect other : FontAspect} {token size : String} {keywords : FontKeywords}
  {front rest : List String}

def FontKeywords.get (keywords : FontKeywords) : FontAspect → String
  | .style => keywords.style
  | .variant => keywords.variant
  | .weight => keywords.weight

def FontKeywords.set (keywords : FontKeywords) (aspect : FontAspect) (word : String) :
    FontKeywords :=
  match aspect with
  | .style => { keywords with style := word }
  | .variant => { keywords with variant := word }
  | .weight => { keywords with weight := word }

theorem FontKeywords.get_set (keywords : FontKeywords) (aspect other : FontAspect)
    (word : String) :
    (keywords.set aspect word).get other = if other = aspect then word else keywords.get other := by
  cases aspect <;> cases other <;> rfl

theorem FontAspect.eq_of_mem_words :
    ∀ first second : FontAspect, ∀ word ∈ first.words, word ∈ second.words → first = second := by
  intro first second
  cases first <;> cases second <;> decide

theorem FontAspect.Takes.eq (first : aspect.Takes token) (second : other.Takes token) :
    aspect = other :=
  eq_of_mem_words aspect other _ first second

theorem IsNormal.not_takes (normal : IsNormal token) (aspect : FontAspect) :
    ¬aspect.Takes token := by
  unfold FontAspect.Takes
  rw [normal]
  cases aspect <;> decide

theorem FontKeywords.add?_of_takes (takes : aspect.Takes token) (keywords : FontKeywords) :
    keywords.add? token = some (keywords.set aspect token.toLower) := by
  have special : ¬IsNormal token := fun normal => normal.not_takes aspect takes
  unfold add?
  dsimp only
  refine (if_neg special).trans ?_
  unfold FontAspect.Takes at takes
  generalize token.toLower = word at takes
  cases aspect with
  | style =>
      rcases List.mem_pair.1 takes with rfl | rfl <;> rfl
  | variant =>
      rw [List.mem_singleton.1 takes]
      rfl
  | weight =>
      have apart : ¬(word = "italic" || word = "oblique") = true ∧ word ≠ "small-caps" := by
        revert word
        decide
      exact (if_neg apart.1).trans ((if_neg apart.2).trans (if_pos takes))

theorem FontKeywords.add?_of_isNormal (normal : IsNormal token) (keywords : FontKeywords) :
    keywords.add? token = some keywords :=
  if_pos normal

theorem FontKeywords.add?_of_other (special : ¬IsNormal token)
    (other : ∀ aspect : FontAspect, ¬aspect.Takes token) (keywords : FontKeywords) :
    keywords.add? token = none := by
  have style : ¬(token.toLower = "italic" || token.toLower = "oblique") = true := by
    simpa [FontAspect.Takes, FontAspect.words] using other .style
  have variant : token.toLower ≠ "small-caps" := by
    simpa [FontAspect.Takes, FontAspect.words] using other .variant
  unfold add?
  dsimp only
  exact (if_neg special).trans ((if_neg style).trans ((if_neg variant).trans (if_neg (other .weight))))

/-- Keywords are taken up to the size; for each property its last keyword stays. -/
theorem FontKeywords.takeFrom_keywords (known : ∀ token ∈ front,
      IsNormal token ∨ ∃ aspect : FontAspect, aspect.Takes token)
    (special : ¬IsNormal size) (other : ∀ aspect : FontAspect, ¬aspect.Takes size)
    (keywords : FontKeywords) (rest : List String) :
    ∃ all : FontKeywords, keywords.takeFrom (front ++ size :: rest) = (all, size :: rest) ∧
      ∀ aspect : FontAspect, all.get aspect =
        ((front.filter (aspect.Takes ·)).getLast?.map String.toLower).getD (keywords.get aspect) := by
  induction front generalizing keywords with
  | nil =>
      refine ⟨keywords, ?_, fun aspect => rfl⟩
      rw [List.nil_append, takeFrom, add?_of_other special other]
  | cons token front ih =>
      obtain ⟨own, later⟩ := List.forall_mem_cons.1 known
      rw [List.cons_append, takeFrom]
      rcases own with normal | ⟨given, takes⟩
      · obtain ⟨all, taken, gets⟩ := ih later keywords
        refine ⟨all, by rw [add?_of_isNormal normal]; exact taken, fun aspect => ?_⟩
        rw [gets, List.filter_cons_of_neg (by simpa using normal.not_takes aspect)]
      · obtain ⟨all, taken, gets⟩ := ih later (keywords.set given token.toLower)
        refine ⟨all, by rw [add?_of_takes takes]; exact taken, fun aspect => ?_⟩
        rw [gets, get_set]
        by_cases same : aspect = given
        · subst same
          rw [if_pos rfl, List.filter_cons_of_pos (by simpa using takes), List.getLast?_cons]
          cases (front.filter (aspect.Takes ·)).getLast? <;> rfl
        · have apart : ¬aspect.Takes token := fun also => same (also.eq takes)
          rw [if_neg same, List.filter_cons_of_neg (by simpa using apart)]

variable {font : WrittenFont}

theorem WrittenFont.IsWritten.filter_keywords (written : font.IsWritten) (aspect : FontAspect) :
    font.keywords.filter (aspect.Takes ·) = (font.keyword aspect).toList := by
  have normals : font.normals.filter (aspect.Takes ·) = [] := by
    rw [List.filter_eq_nil_iff]
    intro token member
    simpa using (written.normals token member).not_takes aspect
  have own (given : FontAspect) : (font.keyword given).toList.filter (aspect.Takes ·) =
      if aspect = given then (font.keyword aspect).toList else [] := by
    split
    · next same =>
        subst same
        rw [List.filter_eq_self]
        intro token member
        simpa using written.keywords aspect token (Option.mem_toList.1 member)
    · next apart =>
        rw [List.filter_eq_nil_iff]
        intro token member
        have takes := written.keywords given token (Option.mem_toList.1 member)
        simpa using fun also : aspect.Takes token => apart (also.eq takes)
  have parts : FontAspect.all.filterMap font.keyword = (font.keyword .style).toList ++
      ((font.keyword .variant).toList ++ (font.keyword .weight).toList) := by
    rw [FontAspect.all, List.filterMap_cons, List.filterMap_cons, List.filterMap_cons,
      List.filterMap_nil]
    cases font.keyword .style <;> cases font.keyword .variant <;> cases font.keyword .weight <;> rfl
  rw [WrittenFont.keywords, parts, List.filter_append, List.filter_append, List.filter_append, normals, own, own,
    own]
  cases aspect <;> simp

theorem WrittenFont.IsWritten.known (written : font.IsWritten) {token : String}
    (member : token ∈ font.keywords) :
    IsNormal token ∨ ∃ aspect : FontAspect, aspect.Takes token := by
  rcases List.mem_append.1 member with normal | keyword
  · exact .inl (written.normals token normal)
  · obtain ⟨aspect, -, given⟩ := List.mem_filterMap.1 keyword
    exact .inr ⟨aspect, written.keywords aspect token given⟩

theorem getLast?_filter_of_perm {α : Type} {p : α → Bool} {items others : List α} {one : Option α}
    (arranged : items.Perm others) (found : others.filter p = one.toList) :
    (items.filter p).getLast? = one := by
  have kept := arranged.filter p
  rw [found] at kept
  cases one with
  | none => rw [List.perm_nil.1 kept]; rfl
  | some item => rw [List.perm_singleton.1 kept]; rfl

end Keywords

section Sizes

variable {font : WrittenFont}

theorem FontSize.read_of_slash {token : String} {size lineHeight : List Char}
    (cut : splitOnce '/' token.toList = some (size, lineHeight)) (nonempty : lineHeight ≠ [])
    (rest : List String) :
    FontSize.read token rest = ⟨String.ofList size, String.ofList lineHeight, rest⟩ := by
  unfold FontSize.read
  rw [cut]
  cases lineHeight with
  | nil => exact absurd rfl nonempty
  | cons c more => rfl

theorem FontSize.read_of_last_slash {token : String} {size : List Char}
    (cut : splitOnce '/' token.toList = some (size, [])) (lineHeight : String)
    (family : List String) :
    FontSize.read token (lineHeight :: family) = ⟨String.ofList size, lineHeight, family⟩ := by
  unfold FontSize.read
  rw [cut]

theorem FontSize.read_of_unslashed {size next : String} (whole : splitOnce '/' size.toList = none)
    (rest : List String) :
    FontSize.read size (next :: rest) =
      match next.toList with
      | ['/'] => ⟨size, rest.head?.getD "normal", rest.tail⟩
      | '/' :: lineHeight => ⟨size, String.ofList lineHeight, rest⟩
      | _ => ⟨size, "normal", next :: rest⟩ := by
  unfold FontSize.read
  split
  · next cut =>
      rw [whole] at cut
      cases cut
  · next cut =>
      rw [whole] at cut
      cases cut
  · rfl

/-- The size, the line height and the family come out again. -/
theorem FontSize.read_sized (written : font.IsWritten) :
    ∃ token rest, font.sized ++ font.family = token :: rest ∧
      (token = font.size ∨ '/' ∈ token.toList) ∧
      FontSize.read token rest =
        ⟨font.size, (font.lineHeight.map Prod.snd).getD "normal", font.family⟩ := by
  obtain ⟨keyword, normals, size, lineHeight, family⟩ := font
  obtain ⟨-, -, -, free, given, first, others, rfl, plain⟩ := written
  dsimp only at free given
  have whole := splitOnce_eq_none free
  cases lineHeight with
  | none =>
      refine ⟨size, first :: others, rfl, .inl rfl, ?_⟩
      rw [read_of_unslashed whole]
      split
      · next same => exact absurd (by rw [same]; rfl) plain
      · next same => exact absurd (by rw [same]; rfl) plain
      · rfl
  | some pair =>
      obtain ⟨blanks, lineHeight⟩ := pair
      obtain ⟨nonempty, -⟩ := given _ rfl
      have visible : lineHeight.toList ≠ [] := by simpa using nonempty
      cases blanks with
      | none =>
          refine ⟨size ++ "/" ++ lineHeight, first :: others, rfl, .inr (by simp), ?_⟩
          have cut := splitOnce_append free lineHeight.toList
          rw [read_of_slash (by simpa using cut) visible, String.ofList_toList, String.ofList_toList]
          rfl
      | after =>
          refine ⟨size ++ "/", lineHeight :: first :: others, rfl, .inr (by simp), ?_⟩
          have cut := splitOnce_append free []
          rw [read_of_last_slash (by simpa using cut), String.ofList_toList]
          rfl
      | before =>
          refine ⟨size, ("/" ++ lineHeight) :: first :: others, rfl, .inl rfl, ?_⟩
          have slashed : ("/" ++ lineHeight).toList = '/' :: lineHeight.toList := by simp
          obtain ⟨c, more, same⟩ := List.exists_cons_of_ne_nil visible
          have own : String.ofList (c :: more) = lineHeight := by rw [← same, String.ofList_toList]
          rw [read_of_unslashed whole, slashed, same]
          exact congrArg (FontSize.mk size · (first :: others)) own
      | around =>
          exact ⟨size, "/" :: lineHeight :: first :: others, rfl, .inl rfl, read_of_unslashed whole _⟩

end Sizes

section Fonts

variable {font : WrittenFont} {front : List String} {token : String}

theorem FontAspect.Takes.slash_not_mem {aspect : FontAspect} (takes : aspect.Takes token) :
    '/' ∉ token.toList := by
  have plain : ∀ word ∈ aspect.words, '/' ∉ word.toList := by cases aspect <;> decide
  intro member
  refine plain _ takes ?_
  rw [toList_toLower]
  exact List.mem_map.2 ⟨'/', member, rfl⟩

theorem IsNormal.slash_not_mem (normal : IsNormal token) : '/' ∉ token.toList := by
  intro member
  have inside : '/' ∈ token.toLower.toList := by
    rw [toList_toLower]
    exact List.mem_map.2 ⟨'/', member, rfl⟩
  rw [normal] at inside
  exact absurd inside (by decide)

theorem fontDeclarations_written (written : font.IsWritten) (arranged : front.Perm font.keywords) :
    fontDeclarations (front ++ (font.sized ++ font.family)) = font.longhands := by
  obtain ⟨token, rest, parts, size, read⟩ := FontSize.read_sized written
  have known : ∀ token ∈ front, IsNormal token ∨ ∃ aspect : FontAspect, aspect.Takes token :=
    fun token member => written.known (arranged.subset member)
  have special : ¬IsNormal token := by
    rcases size with rfl | slashed
    · exact written.sizeOther.1
    · exact fun normal => normal.slash_not_mem slashed
  have other : ∀ aspect : FontAspect, ¬aspect.Takes token := by
    rcases size with rfl | slashed
    · exact written.sizeOther.2
    · exact fun aspect takes => takes.slash_not_mem slashed
  obtain ⟨all, taken, gets⟩ := FontKeywords.takeFrom_keywords known special other {} rest
  have word (aspect : FontAspect) : all.get aspect = font.word aspect := by
    rw [gets, getLast?_filter_of_perm arranged (written.filter_keywords aspect)]
    cases aspect <;> rfl
  obtain ⟨first, others, family, -⟩ := written.family
  have named : font.family.isEmpty = false := by rw [family]; rfl
  unfold fontDeclarations
  rw [parts, taken]
  dsimp only
  rw [read, FontSize.declarations, named, FontKeywords.declarations, WrittenFont.longhands, ← word,
    ← word, ← word]
  rfl

theorem wideKeyword?_of_length {tokens : List String} (many : 2 ≤ tokens.length) :
    wideKeyword? tokens = none := by
  match tokens, many with
  | _ :: _ :: _, _ => rfl

theorem WrittenFont.length_sized (font : WrittenFont) : 1 ≤ font.sized.length := by
  obtain ⟨keyword, normals, size, lineHeight, family⟩ := font
  rcases lineHeight with - | ⟨- | - | - | -, lineHeight⟩
  all_goals exact Nat.succ_le_succ (Nat.zero_le _)

/-- All parts of a font come out of its shorthand, whatever the order of the keywords, wherever the
blanks around the slash, and however many blanks between the tokens. -/
theorem expand_font (written : font.IsWritten) (arranged : front.Perm font.keywords) :
    (∀ value, tokensOf value = front ++ (font.sized ++ font.family) →
      Declaration.expand ⟨"font", value⟩ = .ok font.longhands) ∧
    ∀ before s after : List Char, (∀ c ∈ before ++ after, isBlank c) →
      Spaced (isBlank ·) ((front ++ (font.sized ++ font.family)).map String.toList) s →
      (∀ token ∈ front ++ (font.sized ++ font.family),
        token ≠ "" ∧ Closed Anything IsSolid token.toList) →
      Declaration.expand ⟨"font", String.ofList (before ++ (s ++ after))⟩ = .ok font.longhands := by
  have tokens (value : String) (same : tokensOf value = front ++ (font.sized ++ font.family)) :
      Declaration.expand ⟨"font", value⟩ = .ok font.longhands := by
    have many : 2 ≤ (front ++ (font.sized ++ font.family)).length := by
      obtain ⟨first, others, family, -⟩ := written.family
      have sized := font.length_sized
      rw [List.length_append, List.length_append, family, List.length_cons]
      omega
    have other := wideKeyword?_of_length many
    have known : Shorthand.ofName? "font" = some .font := rfl
    rw [Declaration.expand_of_shorthand known,
      expand_of_not_wide (by rw [same, other]), same]
    exact congrArg Except.ok (fontDeclarations_written written arranged)
  refine ⟨tokens, ?_⟩
  intro before s after blank spaced each
  apply tokens
  have blanks := List.forall_mem_append.1 blank
  have own : ∀ t ∈ (front ++ (font.sized ++ font.family)).map String.toList,
      t ≠ [] ∧ Closed Anything IsSolid t := by
    intro t member
    obtain ⟨token, there, rfl⟩ := List.mem_map.1 member
    obtain ⟨nonempty, closed⟩ := each token there
    exact ⟨by simpa using nonempty, closed⟩
  rw [tokensOf, String.toList_ofList, valueTokens_of_spaced spaced own blanks.1 blanks.2, List.map_map]
  simp

/-- Keywords out of order and in capitals, blanks after the slash only, and a blank in quotes. -/
theorem expand_font_slash :
    Declaration.expand ⟨"font", "SMALL-CAPS  normal\tItalic 12px/ 1.5 'A  B', serif "⟩ =
      .ok [⟨"font-style", "italic"⟩, ⟨"font-variant", "small-caps"⟩, ⟨"font-weight", "normal"⟩,
        ⟨"font-size", "12px"⟩, ⟨"line-height", "1.5"⟩, ⟨"font-family", "'A  B', serif"⟩] := by
  let font : WrittenFont :=
    { keyword
        | .style => some "Italic"
        | .variant => some "SMALL-CAPS"
        | .weight => none
      normals := ["normal"]
      size := "12px"
      lineHeight := some (.after, "1.5")
      family := ["'A  B',", "serif"] }
  have written : font.IsWritten := by
    refine ⟨?_, by decide +kernel, ⟨by decide +kernel, ?_⟩, by decide, ?_, ⟨_, _, rfl, by decide⟩⟩
    · rintro (- | - | -) token ⟨⟩
      · decide +kernel
      · decide +kernel
    · rintro (- | - | -)
      · decide +kernel
      · decide +kernel
      · decide +kernel
    · rintro _ ⟨⟩
      decide
  have arranged : ["SMALL-CAPS", "normal", "Italic"].Perm font.keywords := by decide
  have space : ∀ c ∈ [' '], isBlank c := List.forall_mem_singleton.2 rfl
  have spaced : Spaced (isBlank ·) _ _ :=
    .more "SMALL-CAPS".toList [' ', ' '] _ _ (by decide) (List.forall_mem_cons.2 ⟨rfl, space⟩) <|
    .more "normal".toList ['\t'] _ _ (by decide) (List.forall_mem_singleton.2 rfl) <|
    .more "Italic".toList [' '] _ _ (by decide) space <|
    .more "12px/".toList [' '] _ _ (by decide) space <|
    .more "1.5".toList [' '] _ _ (by decide) space <|
    .more "'A  B',".toList [' '] _ _ (by decide) space <|
    .last "serif".toList
  have longhands := (expand_font written arranged).2 [] _ [' '] space spaced (by decide)
  have same : font.longhands = [⟨"font-style", "italic"⟩, ⟨"font-variant", "small-caps"⟩,
      ⟨"font-weight", "normal"⟩, ⟨"font-size", "12px"⟩, ⟨"line-height", "1.5"⟩,
      ⟨"font-family", "'A  B', serif"⟩] := by
    decide +kernel
  rw [same] at longhands
  exact longhands

end Fonts

end ComputedStyle.Shorthand
