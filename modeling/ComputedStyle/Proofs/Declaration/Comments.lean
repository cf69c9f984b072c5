import Mathlib
import ComputedStyle.Proofs.Declaration.Components
import ComputedStyle.Proofs.Syntax.Words
import ComputedStyle.Proofs.Text.Nested

/-!
Comments around declarations.

The reader of components passes over comments between declarations and leaves out those that end a
value, so it gives the same declarations with and without them (`ofComponents_style`). The second
reader knows no comments, and is asked where the first finds nothing.
-/

namespace ComputedStyle.Declaration

open Syntax Component

variable {s text bare : List Char} {cs rest : List Component} {declaration : Declaration}
  {declarations : List Declaration}

/-- Blanks and comments, and the blanks alone. -/
inductive Gap : List Char → List Char → Prop where
  | nil : Gap [] []
  | blank (c : Char) (text bare : List Char) (space : isSpace c) (more : Gap text bare) :
      Gap (c :: text) (c :: bare)
  | comment (body text bare : List Char) (whole : ¬['*', '/'] <:+: body) (more : Gap text bare) :
      Gap ('/' :: '*' :: (body ++ '*' :: '/' :: text)) bare

/-- A name, a colon and a value, whose lexemes are complete and hide no start of a comment. -/
structure IsWritten (s : List Char) (declaration : Declaration) : Prop where
  ends : Ends s ';'
  closed : IsClosed (lexemes s)
  comments : ∀ lexeme ∈ lexemes s, lexeme.token = .comment ∨ lexeme.StartsNoComment
  parts : ∃ name nameText blanks colon value,
    Component.read s = .single ⟨.name name, nameText⟩ :: (blanks ++ .single colon :: value) ∧
      colon.token = .colon ∧ (∀ component ∈ blanks, component.isBlankOrComment) ∧
      (∀ component ∈ value, isSemicolon component = false) ∧
      normalize? name (textOf value) = some declaration

/-- What stands between two semicolons, with and without the comments around its declaration. No
blank after the declaration is taken for a part of it. -/
inductive Segment : List Char → List Char → List Declaration → Prop where
  | empty (text bare : List Char) (gap : Gap text bare) : Segment text bare []
  | declaration (before bareBefore s after bareAfter : List Char) (declaration : Declaration)
      (first : Gap before bareBefore) (written : IsWritten s declaration)
      (last : Gap after bareAfter) (apart : ∀ e ∈ after.take 1 ++ bareAfter.take 1, Ends s e) :
      Segment (before ++ (s ++ after)) (bareBefore ++ (s ++ bareAfter)) [declaration]

/-- A text of declarations, with and without the comments around them. -/
inductive Style : List Char → List Char → List Declaration → Prop where
  | last (text bare : List Char) (declarations : List Declaration)
      (segment : Segment text bare declarations) : Style text bare declarations
  | more (text bare : List Char) (declarations : List Declaration)
      (others bareOthers : List Char) (later : List Declaration)
      (segment : Segment text bare declarations) (style : Style others bareOthers later) :
      Style (text ++ ';' :: others) (bare ++ ';' :: bareOthers) (declarations ++ later)

section Gaps

theorem Gap.of_bare (gap : Gap text bare) : Gap bare bare := by
  induction gap with
  | nil => exact .nil
  | blank c text bare space _ ih => exact .blank c bare bare space ih
  | comment _ _ _ _ _ ih => exact ih

theorem Gap.space (gap : Gap text bare) : ∀ c ∈ bare, isSpace c := by
  induction gap with
  | nil => exact List.forall_mem_nil _
  | blank c text bare space _ ih => exact List.forall_mem_cons.2 ⟨space, ih⟩
  | comment _ _ _ _ _ ih => exact ih

theorem Gap.subset (gap : Gap text bare) : bare ⊆ text := by
  induction gap with
  | nil => exact List.nil_subset []
  | blank c text bare _ _ ih => exact List.cons_subset_cons c ih
  | comment body text bare _ _ ih =>
      refine List.Subset.trans ih fun c member => ?_
      simp [member]

theorem Gap.exists_run (gap : Gap text bare) : ∃ u v others, text = u ++ v ∧
    (∀ c ∈ u, isSpace c) ∧ (∀ d ∈ v.head?, isSpace d = false) ∧ Gap v others := by
  induction gap with
  | nil => exact ⟨[], [], [], rfl, List.forall_mem_nil _, by rintro _ ⟨⟩, .nil⟩
  | blank c text bare space _ ih =>
      obtain ⟨u, v, others, rfl, run, visible, more⟩ := ih
      exact ⟨c :: u, v, others, rfl, List.forall_mem_cons.2 ⟨space, run⟩, visible, more⟩
  | comment body text bare whole more _ =>
      exact ⟨[], _, bare, rfl, List.forall_mem_nil _, by rintro _ ⟨⟩; rfl,
        .comment body text bare whole more⟩

theorem commentLength_append_of_whole {body : List Char} (whole : ¬['*', '/'] <:+: body)
    (w : List Char) : commentLength (body ++ '*' :: '/' :: w) = body.length + 2 := by
  induction body with
  | nil => rfl
  | cons c others ih =>
      have later : ¬['*', '/'] <:+: others := fun inside =>
        whole (inside.trans (List.suffix_cons c others).isInfix)
      rw [List.cons_append, commentLength_cons, if_neg, ih later]
      · rfl
      · rintro ⟨rfl, slash⟩
        cases others with
        | nil => cases slash
        | cons d more =>
            cases slash
            exact whole ⟨[], more, rfl⟩

theorem Gap.stripComments (gap : Gap text bare) : Text.stripComments text = bare := by
  induction gap with
  | nil => rw [Text.stripComments]
  | blank c text bare space _ ih =>
      rw [stripComments_cons, ih]
      rintro rfl
      cases space
  | comment body text bare whole _ ih =>
      rw [Text.stripComments, commentLength_append_of_whole whole]
      have after : (body ++ '*' :: '/' :: text).drop (body.length + 2) = text := by
        rw [← List.drop_drop, List.drop_left]
        rfl
      rw [after, ih]

theorem lexemes_gap (text bare : List Char) (gap : Gap text bare) {w : List Char}
    (visible : ∀ d ∈ w.head?, isSpace d = false) :
    ∃ ls, lexemes (text ++ w) = ls ++ lexemes w ∧ ls.flatMap Lexeme.text = text ∧
      ∀ lexeme ∈ ls, lexeme.token = .blank ∨ lexeme.token = .comment := by
  cases gap with
  | nil => exact ⟨[], rfl, rfl, List.forall_mem_nil _⟩
  | blank c rest bare space more =>
      obtain ⟨u, v, others, parts, run, stop, later⟩ := more.exists_run
      have lengths := congrArg List.length parts
      obtain ⟨ls, read, texts, each⟩ := lexemes_gap v others later visible
      subst parts
      have apart : ∀ d ∈ (v ++ w).head?, isSpace d = false := by
        cases v with
        | nil => exact visible
        | cons d more => exact stop
      have blank := lexemes_blanks (List.forall_mem_cons.2 ⟨space, run⟩) apart
      refine ⟨⟨.blank, c :: u⟩ :: ls, ?_, ?_, ?_⟩
      · rw [List.cons_append, List.append_assoc, ← List.cons_append, blank, read]
        rfl
      · rw [List.flatMap_cons, texts, List.cons_append]
      · exact List.forall_mem_cons.2 ⟨.inl rfl, each⟩
  | comment body rest bare whole more =>
      obtain ⟨ls, read, texts, each⟩ := lexemes_gap rest bare more visible
      have length := commentLength_append_of_whole whole (rest ++ w)
      refine ⟨⟨.comment, '/' :: '*' :: (body ++ ['*', '/'])⟩ :: ls, ?_, ?_, ?_⟩
      · have parts : '/' :: '*' :: (body ++ '*' :: '/' :: rest) ++ w =
            '/' :: '*' :: (body ++ '*' :: '/' :: (rest ++ w)) := by simp
        rw [parts, lexemes_cons, scan_comment, length, List.drop_succ_cons, List.take_succ_cons,
          List.drop_length_add_append, List.take_length_add_append]
        exact congrArg _ read
      · rw [List.flatMap_cons, texts]
        simp
      · exact List.forall_mem_cons.2 ⟨.inr rfl, each⟩
termination_by text.length
decreasing_by
  · rw [List.length_append] at lengths
    rw [List.length_cons]
    omega
  · simp only [List.length_cons, List.length_append]
    omega

end Gaps

section Values

variable {first last : List Lexeme} {e : Char}

theorem lexemes_of_suffix (parts : lexemes s = first ++ last) :
    lexemes (last.flatMap Lexeme.text) = last := by
  induction first generalizing s with
  | nil =>
      rw [List.nil_append] at parts
      rw [← parts, text_lexemes]
  | cons lexeme others ih =>
      cases s with
      | nil =>
          rw [lexemes_nil] at parts
          cases parts
      | cons c rest =>
          rw [lexemes_cons, List.cons_append, List.cons.injEq] at parts
          exact ih parts.2

theorem ends_of_suffix (ends : Ends s e) (parts : lexemes s = first ++ last) :
    Ends (last.flatMap Lexeme.text) e := by
  have whole : lexemes (s ++ [e]) = first ++ (last ++ lexemes [e]) := by
    rw [ends, parts, List.append_assoc]
  have suffix := lexemes_of_suffix whole
  rw [List.flatMap_append, text_lexemes] at suffix
  rw [Ends, suffix, lexemes_of_suffix parts]

theorem lexemes_append_gap (ends : Ends s ';') (apart : ∀ e ∈ text.take 1, Ends s e)
    (gap : Gap text bare) {w : List Char} (closes : ∀ d ∈ w.head?, d = ';') :
    lexemes (s ++ (text ++ w)) = lexemes s ++ lexemes (text ++ w) := by
  cases gap with
  | nil =>
      refine lexemes_append s ends (.stop _ (by decide) fun d member => ?_)
      rw [closes d member]
      decide
  | blank c rest bare space more =>
      exact lexemes_append s (apart c List.mem_cons_self) (.space _ space)
  | comment body rest bare whole more =>
      refine lexemes_append s ends (.stop _ (by decide) ?_)
      rintro _ ⟨⟩
      decide

theorem startsNoComment_of_blank {lexeme : Lexeme} (shape : lexeme.Shape)
    (blank : lexeme.token = .blank) : lexeme.StartsNoComment := by
  refine .inr fun inside => ?_
  have slash : '/' ∈ lexeme.text ++ ['*'] := inside.subset List.mem_cons_self
  rcases List.mem_append.1 slash with member | star
  · cases shape.isSpace blank '/' member
  · simp at star

theorem stripComments_append_gap (ends : Ends s ';') (apart : ∀ e ∈ text.take 1, Ends s e)
    (comments : ∀ lexeme ∈ lexemes s, lexeme.token = .comment ∨ lexeme.StartsNoComment)
    (gap : Gap text bare) :
    Text.stripComments (s ++ text) = Text.stripComments s ++ bare := by
  obtain ⟨ls, read, -, each⟩ := lexemes_gap text bare gap (w := []) (by rintro _ ⟨⟩)
  have parts := lexemes_append_gap ends apart gap (w := []) (by rintro _ ⟨⟩)
  rw [List.append_nil] at read parts
  rw [lexemes_nil, List.append_nil] at read
  have blank : ∀ lexeme ∈ lexemes text, lexeme.token = .comment ∨ lexeme.StartsNoComment := by
    intro lexeme member
    rcases each lexeme (read ▸ member) with blank | comment
    · exact .inr (startsNoComment_of_blank (shape_of_mem_lexemes member) blank)
    · exact .inl comment
  have whole : ∀ lexeme ∈ lexemes (s ++ text), lexeme.token = .comment ∨ lexeme.StartsNoComment := by
    rw [parts]
    exact List.forall_mem_append.2 ⟨comments, blank⟩
  rw [stripComments_eq _ whole, parts, bareText_append, ← stripComments_eq s comments,
    ← stripComments_eq text blank, gap.stripComments]

theorem withoutImportant_append {blanks : List Char} (blank : ∀ c ∈ blanks, Text.isBlank c)
    (value : List Char) : withoutImportant (value ++ blanks) = withoutImportant value := by
  have same : Text.trimRight (value ++ blanks) = Text.trimRight value := by
    induction blanks using List.reverseRecOn with
    | nil => rw [List.append_nil]
    | append_singleton others c ih =>
        rw [List.forall_mem_append, List.forall_mem_singleton] at blank
        rw [← List.append_assoc, Text.trimRight_concat_of_isBlank blank.2, ih blank.1]
  rw [withoutImportant, same, withoutImportant]

theorem normalize?_append_gap (ends : Ends s ';') (apart : ∀ e ∈ text.take 1, Ends s e)
    (comments : ∀ lexeme ∈ lexemes s, lexeme.token = .comment ∨ lexeme.StartsNoComment)
    (gap : Gap text bare) (name : List Char) :
    normalize? name (s ++ text) = normalize? name s := by
  have blank : ∀ c ∈ bare, Text.isBlank c := fun c member =>
    isBlank_of_isSpace (gap.space c member)
  rw [normalize?, stripComments_append_gap ends apart comments gap, withoutImportant_append blank,
    normalize?]

end Values

section Styles

variable {ls : List Lexeme} {w : List Char}

theorem reads_gap (each : ∀ lexeme ∈ ls, lexeme.token = .blank ∨ lexeme.token = .comment) :
    Reads ls (ls.map .single) := by
  refine reads_singles (fun lexeme member => ?_) fun lexeme member => ?_
  · rcases each lexeme member with same | same <;> (rw [same]; rfl)
  · rcases each lexeme member with same | same <;> (rw [same]; rintro ⟨⟩)

theorem isBlankOrComment_of_mem_gap
    (each : ∀ lexeme ∈ ls, lexeme.token = .blank ∨ lexeme.token = .comment) :
    ∀ component ∈ ls.map Component.single, component.isBlankOrComment := by
  intro component member
  obtain ⟨lexeme, inside, rfl⟩ := List.mem_map.1 member
  rcases each lexeme inside with same | same <;> simp [isBlankOrComment, Component.token, same]

theorem textOf_singles (ls : List Lexeme) :
    textOf (ls.map .single) = ls.flatMap Lexeme.text := by
  induction ls with
  | nil => rfl
  | cons lexeme others ih => rw [List.map_cons, textOf, ih, List.flatMap_cons, Component.text]

theorem IsWritten.visible (written : IsWritten s declaration) (w : List Char) :
    ∀ d ∈ (s ++ w).head?, isSpace d = false := by
  obtain ⟨name, nameText, blanks, colon, value, read, -⟩ := written.parts
  have own := lexemesOf_read s
  rw [read, lexemesOf] at own
  cases s with
  | nil =>
      rw [lexemes_nil] at own
      cases own
  | cons c others =>
      rintro _ ⟨⟩
      by_contra space
      rw [lexemes_cons, Token.scan, if_pos (by simpa using space)] at own
      cases own

/-- A declaration and the gap after it, up to a semicolon or the end. -/
theorem ofComponents_written (written : IsWritten s declaration) (gap : Gap text bare)
    (apart : ∀ e ∈ text.take 1, Ends s e)
    (each : ∀ lexeme ∈ ls, lexeme.token = .blank ∨ lexeme.token = .comment)
    (texts : ls.flatMap Lexeme.text = text)
    (last : ∀ component ∈ rest.head?, isSemicolon component) :
    ofComponents (Component.read s ++ ls.map .single ++ rest) =
      declaration :: ofComponents rest := by
  obtain ⟨name, nameText, blanks, colon, value, read, token, between, inside, found⟩ := written.parts
  have suffix : Syntax.lexemes s =
      (⟨.name name, nameText⟩ :: lexemesOf blanks ++ [colon]) ++ lexemesOf value := by
    rw [← lexemesOf_read, read]
    simp [lexemesOf, lexemesOf_append, Component.lexemes]
  have valueText : (lexemesOf value).flatMap Lexeme.text = textOf value :=
    (textOf_eq_flatMap value).symm
  have whole : normalize? name (textOf (value ++ ls.map .single)) = some declaration := by
    have ends {e : Char} (ends : Ends s e) : Ends (textOf value) e :=
      valueText ▸ ends_of_suffix ends suffix
    have own : Syntax.lexemes (textOf value) = lexemesOf value :=
      valueText ▸ lexemes_of_suffix suffix
    have comments : ∀ lexeme ∈ Syntax.lexemes (textOf value),
        lexeme.token = .comment ∨ lexeme.StartsNoComment := by
      rw [own]
      refine fun lexeme member => written.comments lexeme ?_
      rw [suffix]
      exact List.mem_append_right _ member
    have parts : textOf (value ++ ls.map .single) = textOf value ++ text := by
      rw [textOf_eq_flatMap, lexemesOf_append, List.flatMap_append, ← textOf_eq_flatMap,
        ← textOf_eq_flatMap, textOf_singles, texts]
    rw [parts, normalize?_append_gap (ends written.ends) (fun e first => ends (apart e first)) comments
      gap, found]
  have values : ∀ component ∈ value ++ ls.map .single, isSemicolon component = false := by
    refine List.forall_mem_append.2 ⟨inside, fun component member => ?_⟩
    have blank := isBlankOrComment_of_mem_gap each component member
    simp only [isBlankOrComment, Bool.or_eq_true, beq_iff_eq] at blank
    rcases blank with same | same <;> simp [isSemicolon, same]
  have result := @ofComponents_declaration rest (value ++ ls.map .single) blanks name nameText colon
    between token values last
  rw [whole] at result
  have parts : Component.single ⟨.name name, nameText⟩ :: (blanks ++ .single colon :: value) ++
      ls.map .single = .single ⟨.name name, nameText⟩ ::
        (blanks ++ .single colon :: (value ++ ls.map .single)) := by
    simp
  rw [read, parts, result]
  rfl

theorem lexemes_segment (segment : Segment text bare declarations)
    (closes : ∀ d ∈ w.head?, d = ';') :
    ∃ ls, lexemes (text ++ w) = ls ++ lexemes w ∧ IsClosed ls ∧
      ∀ tail : List Component, (∀ component ∈ tail.head?, isSemicolon component) →
        ofComponents (ofLexemes ls ++ tail) = declarations ++ ofComponents tail := by
  have visible : ∀ d ∈ w.head?, isSpace d = false := by
    intro d first
    rw [closes d first]
    rfl
  cases segment with
  | empty _ _ gap =>
      obtain ⟨ls, read, -, each⟩ := lexemes_gap text bare gap visible
      refine ⟨ls, read, (reads_gap each).isClosed, fun tail _ => ?_⟩
      rw [(reads_gap each).ofLexemes_eq, ofComponents_between (isBlankOrComment_of_mem_gap each)]
      rfl
  | declaration before bareBefore s after bareAfter declaration first written last apart =>
      have apart := (List.forall_mem_append.1 apart).1
      obtain ⟨ls, readBefore, -, eachBefore⟩ := lexemes_gap before bareBefore first
        (written.visible (after ++ w))
      obtain ⟨ms, readAfter, texts, eachAfter⟩ := lexemes_gap after bareAfter last visible
      refine ⟨ls ++ (lexemes s ++ ms), ?_, ?_, fun tail ends => ?_⟩
      · rw [List.append_assoc, List.append_assoc, readBefore,
          lexemes_append_gap written.ends apart last closes, readAfter]
        simp only [List.append_assoc]
      · exact (reads_gap eachBefore).isClosed.append
          (written.closed.append (reads_gap eachAfter).isClosed)
      · rw [ofLexemes_append (reads_gap eachBefore).isClosed, ofLexemes_append written.closed,
          (reads_gap eachBefore).ofLexemes_eq, (reads_gap eachAfter).ofLexemes_eq,
          List.append_assoc, ofComponents_between (isBlankOrComment_of_mem_gap eachBefore)]
        exact ofComponents_written written last apart eachAfter texts ends

theorem ofComponents_style (style : Style text bare declarations) :
    ofComponents (Component.read text) = declarations := by
  induction style with
  | last text bare declarations segment =>
      obtain ⟨ls, read, closed, result⟩ := lexemes_segment segment (w := []) (by rintro _ ⟨⟩)
      have whole := result [] (by rintro _ ⟨⟩)
      rw [List.append_nil, lexemes_nil, List.append_nil] at read
      rw [List.append_nil, ofComponents, List.append_nil] at whole
      rw [Component.read, read, whole]
  | more text bare declarations others bareOthers later segment _ ih =>
      obtain ⟨ls, read, closed, result⟩ := lexemes_segment segment (w := ';' :: others)
        (by rintro _ ⟨⟩; rfl)
      have semicolon : IsClosed [⟨.semicolon, [';']⟩] := rfl
      have rest : ofLexemes (Syntax.lexemes (';' :: others)) =
          .single ⟨.semicolon, [';']⟩ :: Component.read others := by
        rw [lexemes_mark rfl (by decide)]
        exact ofLexemes_append semicolon (Syntax.lexemes others)
      rw [Component.read, read, ofLexemes_append closed, rest, result _ (by rintro _ ⟨⟩; rfl),
        ofComponents_semicolon rfl, ih]

theorem Segment.of_bare (segment : Segment text bare declarations) :
    Segment bare bare declarations := by
  cases segment with
  | empty _ _ gap => exact .empty _ _ gap.of_bare
  | declaration before bareBefore s after bareAfter declaration first written last apart =>
      have bare := (List.forall_mem_append.1 apart).2
      exact .declaration _ _ _ _ _ _ first.of_bare written last.of_bare
        (List.forall_mem_append.2 ⟨bare, bare⟩)

theorem Style.of_bare (style : Style text bare declarations) : Style bare bare declarations := by
  induction style with
  | last text bare declarations segment => exact .last _ _ _ segment.of_bare
  | more text bare declarations others bareOthers later segment _ ih =>
      exact .more _ _ _ _ _ _ segment.of_bare ih

theorem Segment.subset (segment : Segment text bare declarations) : bare ⊆ text := by
  cases segment with
  | empty _ _ gap => exact gap.subset
  | declaration before bareBefore s after bareAfter declaration first written last apart =>
      refine fun c member => ?_
      simp only [List.mem_append] at member ⊢
      exact member.imp (fun inside => first.subset inside)
        (Or.imp_right fun inside => last.subset inside)

theorem Style.subset (style : Style text bare declarations) : bare ⊆ text := by
  induction style with
  | last text bare declarations segment => exact segment.subset
  | more text bare declarations others bareOthers later segment _ ih =>
      refine fun c member => ?_
      simp only [List.mem_append, List.mem_cons] at member ⊢
      exact member.imp (fun inside => segment.subset inside) (Or.imp_right fun inside => ih inside)

/-- Comments before, between and after declarations change nothing, unless there is no declaration
and one of them holds a colon. -/
theorem ofInline_comments (style : Style text bare declarations)
    (found : declarations ≠ [] ∨ ':' ∉ text) :
    StyleMap.ofInline (String.ofList text) = StyleMap.ofInline (String.ofList bare) := by
  have result : ofInline text = declarations ∧ ofInline bare = declarations := by
    rw [ofInline, ofInline, ofComponents_style style, ofComponents_style style.of_bare]
    rcases found with found | plain
    · simp [found]
    · have bare : ':' ∉ bare := fun member => plain (style.subset member)
      simp [plain, bare]
  rw [StyleMap.ofInline, StyleMap.ofInline, String.toList_ofList, String.toList_ofList, result.1,
    result.2]

/-- Semicolons and colons in strings, brackets and comments. -/
theorem ofInline_comments_between :
    StyleMap.ofInline "/* x: y; */ a: \"b;c\" /* d */; --e: (f;g)/*:*/;/* i */" =
      StyleMap.ofInline " a: \"b;c\" ; --e: (f;g);" := by
  have first : IsWritten "a: \"b;c\"".toList ⟨"a", "\"b;c\""⟩ := by
    refine ⟨by decide +kernel, by decide +kernel, by decide +kernel, ?_⟩
    refine ⟨['a'], ['a'], [], ⟨.colon, [':']⟩, [.single ⟨.blank, [' ']⟩,
      .single ⟨.quoted "b;c".toList, "\"b;c\"".toList⟩], ?_, rfl, List.forall_mem_nil _, ?_, ?_⟩
    · cbv
    · simp [isSemicolon, Component.token]
    · decide +kernel
  have second : IsWritten "--e: (f;g)".toList ⟨"--e", "(f;g)"⟩ := by
    refine ⟨by decide +kernel, by decide +kernel, by decide +kernel, ?_⟩
    refine ⟨"--e".toList, "--e".toList, [], ⟨.colon, [':']⟩, [.single ⟨.blank, [' ']⟩,
      .block ⟨.opening .round, ['(']⟩ [.single ⟨.name ['f'], ['f']⟩, .single ⟨.semicolon, [';']⟩,
        .single ⟨.name ['g'], ['g']⟩] (some ⟨.closing .round, [')']⟩)], ?_, rfl,
      List.forall_mem_nil _, ?_, ?_⟩
    · cbv
    · simp [isSemicolon, Component.token]
    · decide +kernel
  have comment (body : List Char) (whole : ¬['*', '/'] <:+: body) {text bare : List Char}
      (more : Gap text bare) := Gap.comment body text bare whole more
  have space {text bare : List Char} (more : Gap text bare) := Gap.blank ' ' text bare rfl more
  have before := comment " x: y; ".toList (by decide) (space .nil)
  have after := space (comment " d ".toList (by decide) .nil)
  have last := comment " i ".toList (by decide) .nil
  have blank : Ends "a: \"b;c\"".toList ' ' := by decide +kernel
  have apart : ∀ e ∈ [' '] ++ [' '], Ends "a: \"b;c\"".toList e :=
    List.forall_mem_cons.2 ⟨blank, List.forall_mem_singleton.2 blank⟩
  have close : ∀ e ∈ ['/'] ++ [], Ends "--e: (f;g)".toList e :=
    List.forall_mem_singleton.2 (by decide +kernel)
  have style := Style.more _ _ _ _ _ _ (.declaration _ _ _ _ _ _ before first after apart)
    (.more _ _ _ _ _ _ (.declaration _ _ _ _ _ _ (space .nil) second
      (comment ":".toList (by decide) .nil) close) (.last _ _ _ (.empty _ _ last)))
  exact ofInline_comments style (.inl (List.cons_ne_nil _ _))

/-- A comment alone is a declaration for the reader that is asked where no declaration is found. -/
theorem ofInline_comments_alone :
    ¬∀ (text bare : List Char) (declarations : List Declaration), Style text bare declarations →
      StyleMap.ofInline (String.ofList text) = StyleMap.ofInline (String.ofList bare) := by
  intro all
  have gap := Gap.comment " a:b ".toList [] [] (by decide) .nil
  have same := congrArg (Except.map Dictionary.entries) (all _ _ _ (.last _ _ _ (.empty _ _ gap)))
  have found : (StyleMap.ofInline (String.ofList "/* a:b */".toList)).map Dictionary.entries =
      .ok [("/* a", "b */")] := by
    decide +kernel
  have empty : (StyleMap.ofInline (String.ofList [])).map Dictionary.entries = .ok [] := by
    decide +kernel
  cases (found.symm.trans same).trans empty

end Styles

end ComputedStyle.Declaration
