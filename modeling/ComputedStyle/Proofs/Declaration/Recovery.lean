import ComputedStyle.Proofs.Declaration.Components
import ComputedStyle.Proofs.Except
import ComputedStyle.Proofs.Syntax.Words
import ComputedStyle.Proofs.Text.Case
import ComputedStyle.Proofs.Text.Nested

namespace ComputedStyle

open Syntax Component

namespace Declaration

variable {before word gap name s value last rest w : List Char}

/-- A name with blanks around it, in front of a colon. Its escapes are resolved. -/
structure IsHead (before word gap name : List Char) : Prop where
  spaceBefore : ∀ c ∈ before, isSpace c
  spaceAfter : ∀ c ∈ gap, isSpace c
  starts : startsName (word ++ gap ++ [':'])
  read : readName (word ++ gap ++ [':']) = (name, word.length)

/-- The name of a property; only those of custom properties keep their case. -/
def propertyName (name : List Char) : List Char :=
  if ['-', '-'].isPrefixOf (Text.trim name) then Text.trim name else Text.lower (Text.trim name)

/-- `!important`, in any case and spacing. -/
def IsImportance (s : List Char) : Prop :=
  ∃ w, s = '!' :: w ∧ Text.lower (Text.trim w) = "important".toList

/-- A text between semicolons, and what it declares: a name and a value that can be seen, or nothing,
where it starts with no such name and colon or ends at the colon. -/
inductive Declares : List Char → Option Declaration → Prop where
  | declaration {before word gap name value last : List Char} (head : IsHead before word gap name)
      (named : Text.trim name ≠ []) (flat : IsFlatText value) (unmarked : '!' ∉ value)
      (filled : Text.trim value ≠ []) (importance : last = [] ∨ IsImportance last) :
      Declares (before ++ (word ++ gap) ++ ':' :: (value ++ last))
        (some ⟨String.ofList (propertyName name), String.ofList (Text.trim value)⟩)
  | broken {s : List Char} (flat : IsFlatText s)
      (empty : ∀ before word gap name rest, s = before ++ (word ++ gap) ++ ':' :: rest →
        IsHead before word gap name → Text.trim name = [] ∨ Text.trim rest = []) :
      Declares s none

section Heads

theorem isHead_of_isName (spaceBefore : ∀ c ∈ before, isSpace c) (named : IsName word)
    (spaceAfter : ∀ c ∈ gap, isSpace c) : IsHead before word gap word where
  spaceBefore := spaceBefore
  spaceAfter := spaceAfter
  starts := by
    rw [List.append_assoc]
    exact startsName_append_of_isName named _
  read := by
    rw [List.append_assoc]
    exact readName_append_of_closes named.chars (Closes.pad (.cons (by decide) []) spaceAfter)

theorem IsHead.lexemes_append (head : IsHead before word gap name)
    (stop : ∀ d ∈ w.head?, d ∈ stops) :
    lexemes (before ++ (word ++ gap) ++ w) =
      blankLexemes before ++ ⟨.name name, word⟩ :: (blankLexemes gap ++ lexemes w) := by
  have follows : Follows ':' w := .stop w (by decide) stop
  have starts : startsName (word ++ (gap ++ w)) := by
    rw [← List.append_assoc, startsName_append follows]
    exact head.starts
  have read : readName (word ++ (gap ++ w)) = (name, word.length) := by
    rw [← List.append_assoc, readName_append follows, head.read]
    rw [head.read, List.length_append]
    exact Nat.le_add_right _ _
  rw [List.append_assoc, List.append_assoc,
    lexemes_blanks head.spaceBefore (visible_of_startsName starts),
    lexemes_of_readName starts read (follows.closes.pad head.spaceAfter),
    lexemes_blanks head.spaceAfter (follows.isSpace_head rfl)]

theorem IsHead.spells (head : IsHead before word gap name) :
    Spells (before ++ (word ++ gap))
      (blanks before ++ .single ⟨.name name, word⟩ :: blanks gap) := by
  have alone := head.lexemes_append (w := []) nofun
  rw [List.append_nil, lexemes_nil, List.append_nil] at alone
  refine ⟨?_, ?_⟩
  · rw [Ends, head.lexemes_append (by rintro _ ⟨⟩; decide), alone, List.append_assoc,
      List.cons_append]
  · rw [alone]
    exact (reads_blanks before).append
      ((reads_single rfl (by rintro ⟨⟩)).append (reads_blanks gap))

end Heads

section Values

theorem not_mem_trimRight {c : Char} (free : c ∉ s) : c ∉ Text.trimRight s := by
  obtain ⟨blanks, -, same⟩ := Text.exists_trimRight s
  rw [← same, List.mem_append, not_or] at free
  exact free.1

theorem takeWhile_of_free (free : '!' ∉ s) : s.reverse.takeWhile (· != '!') = s.reverse := by
  refine List.takeWhile_eq_self_iff.2 fun c member => ?_
  rw [bne_iff_ne]
  rintro rfl
  exact free (List.mem_reverse.1 member)

theorem withoutImportant_of_free (free : '!' ∉ value) :
    withoutImportant value = Text.trimRight value := by
  unfold withoutImportant
  dsimp only
  rw [takeWhile_of_free (not_mem_trimRight free), List.reverse_reverse, Nat.sub_self,
    List.take_zero]
  rfl

theorem isAlpha_or_isBlank (spelled : Text.lower (Text.trim w) = "important".toList) :
    ∀ c ∈ w, c.isAlpha ∨ Text.isBlank c := by
  refine Text.trim_induction (motive := fun t => ∀ c ∈ t, c.isAlpha ∨ Text.isBlank c) w ?_ ?_ ?_
  · intro c member
    have letters : "important".toList.all Char.isAlpha := by decide +kernel
    have lowered : c.toLower ∈ Text.lower (Text.trim w) := List.mem_map_of_mem member
    rw [spelled] at lowered
    have letter := List.all_eq_true.1 letters _ lowered
    rw [Char.isAlpha_toLower_eq_isAlpha] at letter
    exact .inl letter
  · exact fun b t own others => List.forall_mem_cons.2 ⟨.inr own, others⟩
  · exact fun b t own others =>
      List.forall_mem_append.2 ⟨others, List.forall_mem_singleton.2 (.inr own)⟩

/-- Neither a letter nor a blank. -/
def isMark (c : Char) : Bool :=
  !c.isAlpha && !Text.isBlank c

theorem isBlank_of_isMark {c : Char} (mark : isMark c) : Text.isBlank c = false := by
  rw [isMark, Bool.and_eq_true, Bool.not_eq_true', Bool.not_eq_true'] at mark
  exact mark.2

theorem not_mem_importance {c : Char} (spelled : Text.lower (Text.trim w) = "important".toList)
    (mark : isMark c) : c ∉ w := by
  intro member
  rw [isMark, Bool.and_eq_true, Bool.not_eq_true', Bool.not_eq_true'] at mark
  rcases isAlpha_or_isBlank spelled c member with letter | blank
  · rw [mark.1] at letter
    cases letter
  · rw [mark.2] at blank
    cases blank

theorem withoutImportant_append_importance (importance : IsImportance last) (value : List Char) :
    withoutImportant (value ++ last) = Text.trimRight value := by
  obtain ⟨w, rfl, spelled⟩ := importance
  have free := not_mem_trimRight (not_mem_importance spelled (c := '!') (by decide))
  have ends : (value ++ '!' :: Text.trimRight w).reverse.takeWhile (· != '!') =
      (Text.trimRight w).reverse := by
    rw [List.reverse_append, List.reverse_cons, List.append_assoc,
      List.takeWhile_append_of_pos (List.takeWhile_eq_self_iff.1 (takeWhile_of_free free)),
      List.singleton_append, List.takeWhile_cons_of_neg (by decide), List.append_nil]
  have front : (value ++ '!' :: Text.trimRight w).take
      ((value ++ '!' :: Text.trimRight w).length - (Text.trimRight w).length) = value ++ ['!'] := by
    rw [List.append_cons, List.length_append, Nat.add_sub_cancel, List.take_left]
  unfold withoutImportant
  dsimp only
  rw [Text.trimRight_append_cons (by decide), ends, List.reverse_reverse, front,
    Text.trim_trimRight, spelled, List.dropLast_concat]
  simp

theorem isFlatText_append_importance (flat : IsFlatText value) (importance : IsImportance last) :
    IsFlatText (value ++ last) := by
  obtain ⟨w, rfl, spelled⟩ := importance
  have outside {l : List Char} (marks : l.all isMark) : ∀ c ∈ w, c ∉ l := fun c member listed =>
    not_mem_importance spelled (List.all_eq_true.1 marks c listed) member
  refine ⟨⟨?_, fun inside => ?_⟩, ?_⟩
  · exact List.forall_mem_append.2
      ⟨flat.chars, List.forall_mem_cons.2 ⟨by decide, outside (by decide +kernel)⟩⟩
  · rcases infix_of_append_cons (by decide) inside with first | second
    · exact flat.comments first
    · exact not_mem_importance spelled (c := '/') (by decide) (second.subset List.mem_cons_self)
  · rw [List.foldlM_append, flat.balanced]
    refine foldlM_openAfter?_of_free ?_ []
    exact List.forall_mem_cons.2 ⟨by decide, outside (by decide +kernel)⟩

theorem normalize?_eq_none (free : ¬['/', '*'] <:+: rest)
    (empty : Text.trim name = [] ∨ Text.trim rest = []) : normalize? name rest = none := by
  unfold normalize?
  dsimp only
  rcases empty with unnamed | blank
  · rw [unnamed]
    rfl
  · have unmarked : '!' ∉ rest := fun member => by
      have own := Text.trim_eq_nil_iff.1 blank _ member
      revert own
      decide
    rw [stripComments_of_free free, withoutImportant_of_free unmarked, Text.trim_trimRight, blank,
      List.isEmpty_nil, Bool.or_true, if_pos rfl]

theorem normalize?_eq_some (free : ¬['/', '*'] <:+: value ++ last) (named : Text.trim name ≠ [])
    (unmarked : '!' ∉ value) (filled : Text.trim value ≠ [])
    (importance : last = [] ∨ IsImportance last) :
    normalize? name (value ++ last) =
      some ⟨String.ofList (propertyName name), String.ofList (Text.trim value)⟩ := by
  have bare : withoutImportant (value ++ last) = Text.trimRight value := by
    rcases importance with rfl | given
    · rw [List.append_nil, withoutImportant_of_free unmarked]
    · exact withoutImportant_append_importance given value
  unfold normalize?
  dsimp only
  rw [stripComments_of_free free, bare, Text.trim_trimRight, if_neg (by simp [named, filled])]
  rfl

end Values

section Broken

variable {first later : List Lexeme}

/-- A name among the lexemes, with blanks around it and a colon behind, heads the text. -/
theorem isHead_of_lexemes (free : '\\' ∉ s)
    (read : lexemes s = first ++ ⟨.name name, word⟩ :: later)
    (behind : later.flatMap Lexeme.text = gap ++ ':' :: rest)
    (spaceBefore : ∀ c ∈ first.flatMap Lexeme.text, isSpace c) (spaceAfter : ∀ c ∈ gap, isSpace c) :
    s = first.flatMap Lexeme.text ++ (word ++ gap) ++ ':' :: rest ∧
      IsHead (first.flatMap Lexeme.text) word gap name := by
  have whole : s = first.flatMap Lexeme.text ++ (word ++ gap) ++ ':' :: rest := by
    rw [← text_lexemes s, read, List.flatMap_append, List.flatMap_cons, behind]
    simp
  obtain ⟨c, others, n, scan, rfl, left⟩ := exists_scan read
  have text : c :: others = (c :: others.take n) ++ gap ++ ':' :: rest := by
    rw [List.append_assoc, ← behind, ← left, text_lexemes, List.cons_append,
      List.take_append_drop]
  have clean : '\\' ∉ c :: others := fun member => free (by
    rw [whole, List.append_assoc, ← text]
    exact List.mem_append_right _ member)
  obtain ⟨starts, named⟩ := readName_of_scan clean scan
  have follows : Follows ':' (':' :: rest) := .stop _ (by decide) (by rintro _ ⟨⟩; decide)
  refine ⟨whole, spaceBefore, spaceAfter, ?_, ?_⟩
  · rw [← startsName_append follows, ← text]
    exact starts
  · rw [← readName_append follows, ← text, named]
    have bare : '\\' ∉ c :: others.take n ++ gap ++ [':'] := by
      rw [text] at clean
      simp only [List.mem_append, List.mem_cons, not_or] at clean ⊢
      exact ⟨clean.1, clean.2.1, List.not_mem_nil⟩
    rw [length_readName bare, takeWhile_append_of_head (by rintro _ ⟨⟩; rfl)]
    exact (List.takeWhile_sublist _).length_le

variable {front gaps value others tail : List Component} {component colon : Component}

theorem isSpace_of_mem_textOf (flat : IsFlatText s)
    (within : ∀ component ∈ gaps, component ∈ Component.read s)
    (between : ∀ component ∈ gaps, component.isBlankOrComment) : ∀ c ∈ textOf gaps, isSpace c := by
  induction gaps with
  | nil => exact List.forall_mem_nil _
  | cons component others ih =>
      obtain ⟨own, within⟩ := List.forall_mem_cons.1 within
      obtain ⟨blank, between⟩ := List.forall_mem_cons.1 between
      exact List.forall_mem_append.2 ⟨flat.isSpace_of_mem_read own blank, ih within between⟩

/-- A name among the components, with blanks around it and a colon behind, heads the text. -/
theorem exists_head (flat : IsFlatText s)
    (read : Component.read s = front ++ component :: (gaps ++ colon :: value))
    (spaceBefore : ∀ component ∈ front, component.isBlankOrComment)
    (token : component.token = .name name)
    (spaceAfter : ∀ component ∈ gaps, component.isBlankOrComment) (mark : colon.token = .colon) :
    ∃ word, s = textOf front ++ (word ++ textOf gaps) ++ ':' :: textOf value ∧
      IsHead (textOf front) word (textOf gaps) name := by
  have member {c : Component} (listed : c ∈ front ++ component :: (gaps ++ colon :: value)) :
      c ∈ Component.read s := read ▸ listed
  have named : component ∈ Component.read s := member (by simp)
  have marked : colon ∈ Component.read s := member (by simp)
  obtain ⟨⟨_, word⟩, -, rfl⟩ := exists_single_of_mem_read named (by rw [token]; rfl)
  cases token
  obtain ⟨⟨_, text⟩, listed, rfl⟩ := exists_single_of_mem_read marked (by rw [mark]; rfl)
  cases mark
  obtain rfl : text = [':'] := (shape_of_mem_lexemes listed).text_of_mark rfl
  have lexed : lexemes s = lexemesOf front ++
      ⟨.name name, word⟩ :: (lexemesOf gaps ++ ⟨.colon, [':']⟩ :: lexemesOf value) := by
    rw [← lexemesOf_read, read, lexemesOf_append, lexemesOf, lexemesOf_append, lexemesOf]
    rfl
  have blanks : ∀ c ∈ textOf front, isSpace c :=
    isSpace_of_mem_textOf flat (fun _ own => member (List.mem_append_left _ own)) spaceBefore
  refine ⟨word, ?_⟩
  rw [textOf_eq_flatMap front] at blanks ⊢
  refine isHead_of_lexemes (fun escape => flat.chars _ escape (by decide)) lexed ?_ blanks
    (isSpace_of_mem_textOf flat (fun _ own => member (by simp [own])) spaceAfter)
  rw [List.flatMap_append, List.flatMap_cons, textOf_eq_flatMap, textOf_eq_flatMap]
  rfl

variable (flat : IsFlatText s)
  (empty : ∀ before word gap name rest, s = before ++ (word ++ gap) ++ ':' :: rest →
    IsHead before word gap name → Text.trim name = [] ∨ Text.trim rest = [])

include flat empty

theorem ofBody?_broken (read : Component.read s = front ++ component :: others)
    (spaceBefore : ∀ component ∈ front, component.isBlankOrComment)
    (token : component.token = .name name) : ofBody? name others = none := by
  have parts := List.takeWhile_append_dropWhile (p := isBlankOrComment) (l := others)
  unfold ofBody?
  split
  · next colon value same =>
      split
      · next mark =>
          rw [same] at parts
          rw [← parts] at read
          obtain ⟨word, whole, head⟩ := exists_head flat read spaceBefore token
            (fun component => List.mem_takeWhile_imp) mark
          refine normalize?_eq_none (fun inside => flat.comments (inside.trans ?_))
            (empty _ _ _ _ _ whole head)
          rw [whole]
          exact ((List.suffix_cons ':' _).trans (List.suffix_append _ _)).isInfix
      · rfl
  · rfl

/-- A broken declaration costs itself only. -/
theorem ofComponents_broken (last : ∀ component ∈ tail.head?, isSemicolon component) :
    ofComponents (Component.read s ++ tail) = ofComponents tail := by
  have semicolons : ∀ component ∈ Component.read s, isSemicolon component = false :=
    fun component member =>
      beq_eq_false_iff_ne.2 (flat.token_ne .semicolon rfl (by rintro ⟨⟩) component member)
  have ends : ∀ component ∈ Component.read s, endsAtRule component = false := by
    intro component member
    rw [endsAtRule, semicolons component member,
      curly?_eq_none (flat.token_ne (.opening .curly) rfl (by rintro ⟨⟩) component member)]
    rfl
  have parts := List.takeWhile_append_dropWhile (p := isBlankOrComment) (l := Component.read s)
  have spaceBefore : ∀ component ∈ (Component.read s).takeWhile isBlankOrComment,
      component.isBlankOrComment := fun component => List.mem_takeWhile_imp
  cases visible : (Component.read s).dropWhile isBlankOrComment with
  | nil =>
      rw [visible, List.append_nil] at parts
      rw [← parts]
      exact ofComponents_between spaceBefore tail
  | cons component others =>
      rw [visible] at parts
      have member : component ∈ Component.read s := by
        rw [← parts]
        exact List.mem_append_right _ List.mem_cons_self
      have later : ∀ c ∈ others, c ∈ Component.read s := fun c listed => by
        rw [← parts]
        exact List.mem_append_right _ (List.mem_cons_of_mem _ listed)
      have inside : ∀ c ∈ others, isSemicolon c = false :=
        fun c listed => semicolons c (later c listed)
      have passed := ofComponents_afterSemicolon inside last
      have first := List.head?_dropWhile_not isBlankOrComment (Component.read s)
      rw [visible, List.head?_cons] at first
      dsimp only at first
      rw [isBlankOrComment, Bool.or_eq_false_iff] at first
      have semicolon := semicolons component member
      have closing := flat.token_ne (.closing .curly) rfl (by rintro ⟨⟩) component member
      rw [← parts, List.append_assoc, ofComponents_between spaceBefore, List.cons_append,
        ofComponents]
      rw [isSemicolon] at semicolon
      cases token : component.token with
      | blank => simp [token] at first
      | comment => simp [token] at first
      | semicolon => simp [token] at semicolon
      | closing bracket =>
          cases bracket with
          | curly => exact absurd token closing
          | _ => exact passed
      | atKeyword keyword =>
          exact ofComponents_afterAtRule (fun c listed => ends c (later c listed)) last
      | name name =>
          dsimp only
          rw [takeWhile_append_of_ends inside last, passed,
            ofBody?_broken flat empty parts.symm spaceBefore token]
          rfl
      | _ => exact passed

end Broken

section Pieces

variable {meaning : Option Declaration} {pieces : List (List Char)}
  {meanings : List (Option Declaration)}

/-- A text gives these declarations wherever it stands between semicolons. -/
def ReadsAs (s : List Char) (found : List Declaration) : Prop :=
  ∃ cs, Spells s cs ∧ ∀ tail, (∀ component ∈ tail.head?, isSemicolon component) →
    ofComponents (cs ++ tail) = found ++ ofComponents tail

theorem IsHead.spells_declaration (head : IsHead before word gap name) (flat : IsFlatText rest) :
    Spells (before ++ (word ++ gap) ++ ':' :: rest)
      (blanks before ++ (.single ⟨.name name, word⟩ ::
        (blanks gap ++ .single ⟨.colon, [':']⟩ :: Component.read rest))) := by
  have colon := head.spells.mark (d := ':') rfl (by decide) rfl (by rintro ⟨⟩)
  simpa using colon.append_spells flat.spells

theorem IsHead.readsAs (head : IsHead before word gap name) (flat : IsFlatText rest) :
    ReadsAs (before ++ (word ++ gap) ++ ':' :: rest) (normalize? name rest).toList := by
  refine ⟨_, head.spells_declaration flat, fun tail ends => ?_⟩
  have inside : ∀ component ∈ Component.read rest, isSemicolon component = false :=
    fun component member =>
      beq_eq_false_iff_ne.2 (flat.token_ne .semicolon rfl nofun component member)
  rw [List.append_assoc, ofComponents_between fun _ => isBlankOrComment_of_mem_blanks,
    ofComponents_declaration (fun _ => isBlankOrComment_of_mem_blanks) rfl inside ends, textOf_read]

theorem Declares.readsAs (declares : Declares s meaning) : ReadsAs s meaning.toList := by
  cases declares with
  | @declaration before word gap name value last head named flat unmarked filled importance =>
      have whole : IsFlatText (value ++ last) := by
        rcases importance with rfl | given
        · rwa [List.append_nil]
        · exact isFlatText_append_importance flat given
      have reads := head.readsAs whole
      rwa [normalize?_eq_some whole.comments named unmarked filled importance] at reads
  | broken flat empty =>
      exact ⟨_, flat.spells, fun tail ends => ofComponents_broken flat empty ends⟩

theorem exists_spells_intercalate {found : List (List Declaration)}
    (reads : List.Forall₂ ReadsAs pieces found) :
    ∃ cs, Spells ([';'].intercalate pieces) cs ∧ ofComponents cs = found.flatten := by
  induction reads with
  | nil => exact ⟨[], spells_blanks (List.forall_mem_nil _), by rw [ofComponents]; rfl⟩
  | cons own more ih =>
      obtain ⟨ds, later, meant⟩ := ih
      obtain ⟨cs, first, reads⟩ := own
      cases more with
      | nil =>
          have alone := reads [] (by rintro _ ⟨⟩)
          rw [List.append_nil] at alone
          refine ⟨cs, by rwa [List.intercalate_singleton], ?_⟩
          rw [alone, ofComponents]
          rfl
      | cons =>
          have mark := first.mark (d := ';') rfl (by decide) rfl (by rintro ⟨⟩)
          have whole := mark.append_spells later
          rw [List.intercalate_cons_of_ne_nil (List.cons_ne_nil _ _)]
          refine ⟨_, whole, ?_⟩
          rw [List.append_assoc, reads _ (by rintro _ ⟨⟩; rfl), List.singleton_append,
            ofComponents_semicolon rfl, meant, ← List.flatten_cons]

theorem flatten_map_toList (meanings : List (Option Declaration)) :
    (meanings.map Option.toList).flatten = meanings.reduceOption := by
  rw [← List.flatMap_def]
  exact (List.filterMap_eq_flatMap_toList id meanings).symm

theorem ofInline_intercalate (declares : List.Forall₂ Declares pieces meanings)
    (nonempty : meanings.reduceOption ≠ []) :
    ofInline ([';'].intercalate pieces) = meanings.reduceOption := by
  have reads : List.Forall₂ ReadsAs pieces (meanings.map Option.toList) :=
    List.forall₂_map_right_iff.2 (declares.imp fun _ _ => Declares.readsAs)
  obtain ⟨cs, spells, meant⟩ := exists_spells_intercalate reads
  rw [flatten_map_toList] at meant
  have read : Component.read ([';'].intercalate pieces) = cs := spells.reads.ofLexemes_eq
  have found : (ofComponents cs).isEmpty = false := by
    rwa [meant, List.isEmpty_eq_false_iff]
  unfold ofInline
  dsimp only
  rw [read, found, Bool.false_and, if_neg Bool.false_ne_true, meant]

theorem declares_none (flat : IsFlatText s) (starts : startsName (s.dropWhile isSpace) = false) :
    Declares s none := by
  refine .broken flat fun before word gap name rest whole head => ?_
  have follows : Follows ':' (':' :: rest) := .stop _ (by decide) (by rintro _ ⟨⟩; decide)
  have named : startsName (word ++ gap ++ ':' :: rest) := by
    rw [startsName_append follows]
    exact head.starts
  rw [whole, List.append_assoc, List.dropWhile_append_of_pos head.spaceBefore] at starts
  cases parts : word ++ gap ++ ':' :: rest with
  | nil => simp at parts
  | cons c others =>
      rw [parts] at starts named
      have visible := visible_of_startsName named c rfl
      rw [List.dropWhile_cons_of_neg (by simp [visible]), named] at starts
      cases starts

end Pieces

end Declaration

namespace StyleMap

open Declaration

variable {style : StyleMap} {declarations longhands : List Declaration} {pieces : List (List Char)}
  {meanings : List (Option Declaration)}

theorem insertAll_append (style : StyleMap) (first second : List Declaration) :
    style.insertAll (first ++ second) = (style.insertAll first).insertAll second :=
  List.foldl_append

theorem get?_insertAll (style : StyleMap) (longhands : List Declaration) (name : String) :
    (style.insertAll longhands).get? name =
      ((longhands.reverse.find? (·.name == name)).map Declaration.value).or (style.get? name) := by
  induction longhands using List.reverseRecOn with
  | nil => rfl
  | append_singleton others longhand ih =>
      have last : (style.insertAll (others ++ [longhand])).get? name =
          if name = longhand.name then some longhand.value
          else (style.insertAll others).get? name := by
        rw [insertAll_append]
        exact Dictionary.get?_insert _ _ _ _
      rw [last, List.reverse_append, List.reverse_singleton, List.singleton_append]
      split
      · next same => rw [List.find?_cons_of_pos (by simp [same])]; rfl
      · next other => rw [List.find?_cons_of_neg (by simpa using Ne.symm other), ih]

theorem foldlM_declare (style : StyleMap) (declarations : List Declaration) :
    declarations.foldlM declare style =
      (declarations.mapM Declaration.expand).map fun longhands =>
        style.insertAll longhands.flatten := by
  induction declarations generalizing style with
  | nil => rfl
  | cons declaration others ih =>
      rw [List.foldlM_cons, List.mapM_cons, declare]
      cases declaration.expand with
      | error e => rfl
      | ok longhands =>
          refine (ih (style.insertAll longhands)).trans ?_
          cases others.mapM Declaration.expand with
          | error e => rfl
          | ok rest => exact congrArg Except.ok (insertAll_append style longhands rest.flatten).symm

/-- A broken declaration costs itself only, as long as there is another one: for each name, the style
holds the value that comes last among the longhands of the others. -/
theorem ofInline_pieces (declares : List.Forall₂ Declares pieces meanings)
    (nonempty : meanings.reduceOption ≠ []) :
    ofInline (String.ofList ([';'].intercalate pieces)) =
        (meanings.reduceOption.mapM Declaration.expand).map
          (fun longhands => insertAll Dictionary.empty longhands.flatten) ∧
      ∀ longhands, meanings.reduceOption.mapM Declaration.expand = .ok longhands →
        ∃ style, ofInline (String.ofList ([';'].intercalate pieces)) = .ok style ∧
          ∀ name, style.get? name =
            (longhands.flatten.reverse.find? (·.name == name)).map Declaration.value := by
  have inserted : ofInline (String.ofList ([';'].intercalate pieces)) =
      (meanings.reduceOption.mapM Declaration.expand).map fun longhands =>
        insertAll Dictionary.empty longhands.flatten := by
    rw [ofInline, String.toList_ofList, ofInline_intercalate declares nonempty]
    exact foldlM_declare Dictionary.empty meanings.reduceOption
  refine ⟨inserted, fun longhands expanded =>
    ⟨insertAll Dictionary.empty longhands.flatten, ?_, fun name => ?_⟩⟩
  · rw [inserted, expanded]
    rfl
  · exact (get?_insertAll _ _ _).trans (Option.or_none)

/-- Between two declarations of a color, a colon without a name and an at-rule. -/
theorem ofInline_last_color :
    ofInline "color: red; : nothing (a);@media x;COLOR :blue ! Important" =
      .ok (Dictionary.empty.insert "color" "blue") := by
  have red : Declares "color: red".toList (some ⟨"color", "red"⟩) :=
    @Declares.declaration [] "color".toList [] "color".toList " red".toList []
      (isHead_of_isName (List.forall_mem_nil _) (by decide +kernel) (List.forall_mem_nil _))
      (by decide +kernel) (by decide +kernel) (by decide) (by decide +kernel) (.inl rfl)
  have blue : Declares "COLOR :blue ! Important".toList (some ⟨"color", "blue"⟩) :=
    @Declares.declaration [] "COLOR".toList [' '] "COLOR".toList "blue ".toList "! Important".toList
      (isHead_of_isName (List.forall_mem_nil _) (by decide +kernel)
        (List.forall_mem_singleton.2 rfl))
      (by decide +kernel) (by decide +kernel) (by decide) (by decide +kernel)
      (.inr ⟨" Important".toList, rfl, by decide +kernel⟩)
  have colon : Declares " : nothing (a)".toList none :=
    declares_none (by decide +kernel) (by decide +kernel)
  have rule : Declares "@media x".toList none :=
    declares_none (by decide +kernel) (by decide +kernel)
  have whole := (ofInline_pieces (.cons red (.cons colon (.cons rule (.cons blue .nil))))
    (by decide)).1
  exact whole

/-- Other blanks than those of the syntax belong to a name, and are taken off its ends. -/
theorem ofInline_blank_name :
    IsName "\u1680color".toList ∧ IsFlatText " red".toList ∧
      ofInline "\u1680color: red" = .ok (Dictionary.empty.insert "color" "red") ∧
      ofInline "\u1680color: red" ≠
        ofDeclarations [⟨String.ofList (Text.lower "\u1680color".toList), "red"⟩] := by
  refine ⟨by decide +kernel, by decide +kernel, by decide +kernel, by decide +kernel⟩

end StyleMap

end ComputedStyle
