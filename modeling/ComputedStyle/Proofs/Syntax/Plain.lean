import Mathlib
import ComputedStyle.Proofs.Syntax.Boundary
import ComputedStyle.Syntax.Plain

namespace ComputedStyle.Syntax

open Number

variable {c : Char} {s t : List Char}

section Words

/-- A character of a name without escapes. -/
def isWordChar (c : Char) : Bool :=
  isNameChar c || c == '\x00'

theorem length_readName (free : '\\' ∉ s) : (readName s).2 = (s.takeWhile isWordChar).length := by
  induction s with
  | nil => rw [readName]; rfl
  | cons c rest ih =>
      obtain ⟨own, later⟩ := not_or.1 (List.mem_cons.not.1 free)
      have escape : (c == '\\') = false := beq_eq_false_iff_ne.2 (Ne.symm own)
      rw [readName_cons, escape, List.takeWhile_cons, isWordChar]
      cases name : isNameChar c with
      | true => simp [ih later]
      | false =>
          cases null : (c == '\x00') with
          | true => simp [ih later]
          | false => simp

theorem take_readName (free : '\\' ∉ s) : s.take (readName s).2 = s.takeWhile isWordChar := by
  rw [length_readName free]
  exact (List.prefix_iff_eq_take.1 (List.takeWhile_prefix _)).symm

theorem isNumeralChar_of_mem_take (member : c ∈ s.take (Numeral.read s).2) : isNumeralChar c := by
  obtain ⟨u, v, rfl, word, plain⟩ := exists_run isNumeralChar s
  rw [numeral_append plain, List.take_append_of_le_length (length_numeral_le u)] at member
  exact word c (List.mem_of_mem_take member)

theorem mem_take_readNumeric (free : '\\' ∉ s) (member : c ∈ s.take (readNumeric s).2) :
    isNumeralChar c ∨ isWordChar c ∨ c = '%' := by
  have later : '\\' ∉ s.drop (Numeral.read s).2 := fun inside => free (List.mem_of_mem_drop inside)
  rw [readNumeric_eq] at member
  unfold afterNumber at member
  split at member
  · next percent =>
      obtain ⟨rest, same⟩ := List.head?_eq_some_iff.1 (beq_iff_eq.1 percent)
      rw [List.take_add, same, List.mem_append] at member
      rcases member with own | last
      · exact .inl (isNumeralChar_of_mem_take own)
      · exact .inr (.inr (List.mem_singleton.1 last))
  split at member
  · rw [List.take_add, take_readName later, List.mem_append] at member
    rcases member with own | word
    · exact .inl (isNumeralChar_of_mem_take own)
    · exact .inr (.inl (List.mem_takeWhile_imp word))
  · exact .inl (isNumeralChar_of_mem_take member)

end Words

section Addresses

theorem length_badUrl (free : '\\' ∉ s) (closed : ')' ∈ s) :
    badUrlLength s = (s.takeWhile (· != ')')).length + 1 := by
  induction s with
  | nil => cases closed
  | cons c rest ih =>
      obtain ⟨own, later⟩ := not_or.1 (List.mem_cons.not.1 free)
      rw [badUrlLength_cons]
      split
      · next same => simp [same]
      · next other =>
          have inside := (List.mem_cons.1 closed).resolve_left (Ne.symm other)
          rw [if_neg (fun escape => own escape.1.symm), ih later inside,
            List.takeWhile_cons_of_pos (by simpa using other), List.length_cons]

theorem readUrlEnd_eq (free : '\\' ∉ s) (closed : ')' ∈ s) :
    (readUrlEnd s).2 = (s.takeWhile (· != ')')).length + 1 := by
  induction s with
  | nil => cases closed
  | cons c rest ih =>
      obtain ⟨own, later⟩ := not_or.1 (List.mem_cons.not.1 free)
      rw [readUrlEnd_cons]
      by_cases same : c = ')'
      · simp [same]
      · have inside := (List.mem_cons.1 closed).resolve_left (Ne.symm same)
        rw [List.takeWhile_cons_of_pos (by simpa using same), List.length_cons,
          if_neg (by simpa using same)]
        split
        · rw [ih later inside]
        · rw [length_badUrl later inside]

theorem readUrlBody_eq (free : '\\' ∉ s) (closed : ')' ∈ s) :
    (readUrlBody s).2 = (s.takeWhile (· != ')')).length + 1 := by
  induction s with
  | nil => cases closed
  | cons c rest ih =>
      obtain ⟨own, later⟩ := not_or.1 (List.mem_cons.not.1 free)
      rw [readUrlBody_cons]
      by_cases same : c = ')'
      · simp [same, isSpace, isNewline]
      · have inside := (List.mem_cons.1 closed).resolve_left (Ne.symm same)
        rw [List.takeWhile_cons_of_pos (by simpa using same), List.length_cons]
        split
        · rw [readUrlEnd_eq later inside]
        rw [if_neg (by simpa using same)]
        split
        · rw [length_badUrl later inside]
        rw [if_neg (by simpa using Ne.symm own), ih later inside]

/-- Whatever stands in its brackets, an address ends at the first one that closes. -/
theorem readUrl?_eq (free : '\\' ∉ s) (closed : ')' ∈ s) {token : Token} {n : Nat}
    (found : readUrl? s = some (token, n)) : n = (s.takeWhile (· != ')')).length + 1 := by
  have blanks : ∀ c ∈ s.takeWhile isSpace, (c != ')') = true := by
    intro c member
    have space := List.mem_takeWhile_imp member
    rw [bne_iff_ne]
    rintro rfl
    cases space
  have parts : s = s.takeWhile isSpace ++ s.drop (s.takeWhile isSpace).length := by
    conv_lhs => rw [← List.take_append_drop (s.takeWhile isSpace).length s]
    rw [← List.prefix_iff_eq_take.1 (List.takeWhile_prefix isSpace)]
  unfold readUrl? at found
  dsimp only at found
  generalize s.takeWhile isSpace = u at parts blanks found
  generalize s.drop u.length = t at parts found
  subst parts
  rw [List.takeWhile_append_of_pos blanks, List.length_append]
  have inside : ')' ∈ t := by
    refine (List.mem_append.1 closed).resolve_left fun blank => ?_
    simpa using blanks ')' blank
  cases t with
  | nil => cases inside
  | cons c rest =>
      dsimp only at found
      split at found
      · cases found
      · have body := readUrlBody_eq (fun member => free (List.mem_append_right u member)) inside
        cases found
        rw [body, Nat.add_assoc]

end Addresses

/-! Brackets, as they are counted in characters. -/

section Brackets

variable {outer inner after : List Bracket}

def brackets : List Char :=
  ['(', ')', '[', ']']

theorem foldlM_openAfter?_of_free (free : ∀ c ∈ s, c ∉ brackets) (outer : List Bracket) :
    s.foldlM openAfter? outer = some outer := by
  induction s with
  | nil => rfl
  | cons c rest ih =>
      obtain ⟨own, later⟩ := List.forall_mem_cons.1 free
      have kept : openAfter? outer c = some outer := by
        simp only [brackets, List.mem_cons, List.not_mem_nil, or_false, not_or] at own
        unfold openAfter?
        split
        · exact absurd rfl own.1
        · exact absurd rfl own.2.2.1
        · exact absurd rfl own.2.1
        · exact absurd rfl own.2.2.2
        · rfl
      rw [List.foldlM_cons, kept]
      exact ih later

/-- Nothing but a closing round bracket ends one that is open. -/
theorem openAfter?_keeps_round (free : ')' ∉ s)
    (run : s.foldlM openAfter? (inner ++ .round :: outer) = some after) :
    ∃ others, after = others ++ .round :: outer := by
  induction s generalizing inner with
  | nil =>
      cases run
      exact ⟨inner, rfl⟩
  | cons c rest ih =>
      obtain ⟨own, later⟩ := not_or.1 (List.mem_cons.not.1 free)
      rw [List.foldlM_cons, Option.bind_eq_bind, Option.bind_eq_some_iff] at run
      obtain ⟨next, step, run⟩ := run
      unfold openAfter? at step
      split at step
      · cases step
        exact @ih (.round :: inner) later run
      · cases step
        exact @ih (.square :: inner) later run
      · exact absurd rfl own
      · split at step
        · next first =>
            cases step
            cases inner with
            | nil => cases first
            | cons bracket others => exact @ih others later run
        · cases step
      · cases step
        exact ih later run

theorem closing_mem_of_balanced {u rest : List Char}
    (run : (u ++ '(' :: rest).foldlM openAfter? outer = some []) : ')' ∈ rest := by
  rw [List.foldlM_append, Option.bind_eq_bind, Option.bind_eq_some_iff] at run
  obtain ⟨next, -, run⟩ := run
  by_contra free
  have inside : rest.foldlM openAfter? ([] ++ .round :: next) = some [] := run
  obtain ⟨others, same⟩ := openAfter?_keeps_round free inside
  simp at same

end Brackets

/-- The tokens that open and close nothing and end nothing. -/
def Token.isInert : Token → Bool
  | .blank => true
  | .commentMark => true
  | .name _ => true
  | .atKeyword _ => true
  | .hash _ => true
  | .number _ => true
  | .percentage _ => true
  | .dimension _ _ => true
  | .colon => true
  | .comma => true
  | .symbol _ => true
  | _ => false

namespace Lexeme

/-- How the brackets in a lexeme go with its token. -/
inductive Bracketing : Lexeme → Prop where
  | inert (token : Token) (text : List Char) (inert : token.isInert)
      (free : ∀ c ∈ text, c ∉ brackets) : Bracketing ⟨token, text⟩
  | mark (c : Char) (token : Token) (bracket : c ∈ brackets) (mark : token.mark? = some c) :
      Bracketing ⟨token, [c]⟩
  | function (value word : List Char) (free : ∀ c ∈ word, c ∉ brackets) :
      Bracketing ⟨.function value, word ++ ['(']⟩
  | address (token : Token) (word inside : List Char) (address : token.isAddress)
      (free : ∀ c ∈ word, c ∉ brackets) (first : ')' ∉ inside) :
      Bracketing ⟨token, word ++ '(' :: (inside ++ [')'])⟩

end Lexeme

section Scan

theorem isWordChar_not_bracket (word : isWordChar c) : c ∉ brackets :=
  not_mem_of_all (by decide) word

theorem isSpace_not_bracket (space : isSpace c) : c ∉ brackets :=
  not_mem_of_all (by decide) space

theorem numeric_not_bracket (numeric : isNumeralChar c ∨ isWordChar c ∨ c = '%') :
    c ∉ brackets := by
  rcases numeric with numeral | word | rfl
  · exact not_mem_of_all (by decide) numeral
  · exact isWordChar_not_bracket word
  · decide

theorem isWordChar_of_startsName (plain : c ≠ '\\') (starts : startsName (c :: s)) :
    isWordChar c := by
  rw [startsName_cons, if_neg plain] at starts
  split at starts
  · next hyphen =>
      subst hyphen
      decide
  · simp only [isNameStart, isWordChar, isNameChar, Char.isAlphanum, Bool.or_eq_true] at starts ⊢
    tauto

theorem isInert_of_isNumeric {token : Token} (numeric : token.isNumeric) : token.isInert := by
  cases token <;> first | rfl | cases numeric

theorem le_of_not_mem_take {e : Char} {n : Nat} (free : e ∉ (s ++ [e]).take n) : n ≤ s.length := by
  by_contra long
  have whole : (s ++ [e]).take n = s ++ [e] := by
    refine List.take_of_length_le ?_
    rw [List.length_append, List.length_singleton]
    omega
  rw [whole] at free
  exact free (List.mem_append_right s List.mem_cons_self)

/-- A lexeme that stays within a text, and how it brackets. -/
structure Fits (c : Char) (s : List Char) (read : Token × Nat) : Prop where
  within : read.2 ≤ s.length
  bracketing : Lexeme.Bracketing ⟨read.1, c :: s.take read.2⟩

theorem fits_append {u v : List Char} {token : Token} {n : Nat} (size : n = u.length)
    (bracketing : Lexeme.Bracketing ⟨token, c :: u⟩) : Fits c (u ++ v) (token, n) := by
  subst size
  refine ⟨?_, ?_⟩
  · dsimp only
    rw [List.length_append]
    exact Nat.le_add_right _ _
  · dsimp only
    rwa [List.take_left]

/-- The length of the run that a text starts with, in front of a character of another kind. -/
theorem length_run {p : Char → Bool} {u v : List Char} {e : Char} (own : ∀ d ∈ u, p d)
    (other : ∀ d ∈ v.head?, p d = false) (stop : p e = false) :
    ((u ++ v ++ [e]).takeWhile p).length = u.length := by
  have ends : ∀ d ∈ [e].head?, p d = false := by
    rintro _ ⟨⟩
    exact stop
  rw [takeWhile_append_of_head ends, takeWhile_append_of_head other,
    List.takeWhile_eq_self_iff.2 own]

theorem fits_name (free : '\\' ∉ s) (own : c ∉ brackets) {token : Token} (inert : token.isInert) :
    Fits c s (token, (readName (s ++ [';'])).2) := by
  have all : '\\' ∉ s ++ [';'] := by simp [free]
  rw [length_readName all]
  obtain ⟨u, v, rfl, word, other⟩ := exists_run isWordChar s
  refine fits_append (length_run word other (by decide)) (.inert _ _ inert ?_)
  exact List.forall_mem_cons.2 ⟨own, fun d member => isWordChar_not_bracket (word d member)⟩

theorem fits_blank (space : isSpace c) :
    Fits c s (.blank, ((s ++ [';']).takeWhile isSpace).length) := by
  obtain ⟨u, v, rfl, run, other⟩ := exists_run isSpace s
  refine fits_append (length_run run other (by decide)) (.inert _ _ rfl ?_)
  exact List.forall_mem_cons.2 ⟨isSpace_not_bracket space,
    fun d member => isSpace_not_bracket (run d member)⟩

theorem fits_numeric (free : '\\' ∉ c :: s) (own : c ∉ brackets) :
    Fits c s ((readNumeric (c :: s ++ [';'])).1, (readNumeric (c :: s ++ [';'])).2 - 1) := by
  have all : '\\' ∉ c :: s ++ [';'] := by simpa using free
  have chars : ∀ d ∈ (c :: s ++ [';']).take (readNumeric (c :: s ++ [';'])).2,
      isNumeralChar d ∨ isWordChar d ∨ d = '%' := fun _ => mem_take_readNumeric all
  generalize (readNumeric (c :: s ++ [';'])).2 = n at chars
  have short : n ≤ (c :: s).length := by
    refine le_of_not_mem_take (e := ';') fun member => ?_
    have listed := chars ';' member
    revert listed
    decide
  refine ⟨by dsimp only; rw [List.length_cons] at short; omega,
    .inert _ _ (isInert_of_isNumeric (isNumeric_readNumeric _)) ?_⟩
  refine List.forall_mem_cons.2 ⟨own, fun d member => numeric_not_bracket (chars d ?_)⟩
  rw [List.take_append_of_le_length short]
  cases n with
  | zero => cases member
  | succ m => exact List.mem_cons_of_mem c member

theorem length_address {inside behind : List Char} {token : Token} {k : Nat}
    (free : '\\' ∉ inside ++ ')' :: behind) (first : ')' ∉ inside)
    (found : readUrl? (inside ++ ')' :: behind) = some (token, k)) : k = inside.length + 1 := by
  have before : ∀ d ∈ inside, (d != ')') = true := by
    intro d member
    rw [bne_iff_ne]
    rintro rfl
    exact first member
  rw [readUrl?_eq free (by simp) found, List.takeWhile_append_of_pos before,
    List.takeWhile_cons_of_neg (by simp), List.append_nil]

theorem fits_nameLike (free : '\\' ∉ c :: s) (word : isWordChar c)
    (closed : ∀ u rest, c :: s = u ++ '(' :: rest → ')' ∈ rest) :
    Fits c s ((readNameLike (c :: s ++ [';'])).1, (readNameLike (c :: s ++ [';'])).2 - 1) := by
  have all : '\\' ∉ c :: s ++ [';'] := by simpa using free
  obtain ⟨u, v, rfl, own, other⟩ := exists_run isWordChar s
  have chars : ∀ d ∈ c :: u, isWordChar d := List.forall_mem_cons.2 ⟨word, own⟩
  have outside : ∀ d ∈ c :: u, d ∉ brackets := fun d member => isWordChar_not_bracket (chars d member)
  have length : (readName (c :: (u ++ v) ++ [';'])).2 = u.length + 1 := by
    rw [length_readName all, ← List.cons_append, length_run chars other (by decide)]
    rfl
  have after : (c :: (u ++ v) ++ [';']).drop (u.length + 1) = v ++ [';'] := by
    simp
  rw [readNameLike_eq, length, after]
  generalize readName (c :: (u ++ v) ++ [';']) = name at length
  by_cases opens : v.head? = some '('
  · obtain ⟨rest, rfl⟩ := List.head?_eq_some_iff.1 opens
    obtain ⟨inside, behind, rfl, first⟩ := List.eq_append_cons_of_mem (closed (c :: u) rest rfl)
    have function : Fits c (u ++ '(' :: (inside ++ ')' :: behind))
        (.function name.1, name.2 + 1 - 1) := by
      rw [List.append_cons]
      exact fits_append (by simp [length]) (.function name.1 (c :: u) outside)
    rw [List.cons_append, afterName_paren]
    split
    · split
      · next token k found =>
          rw [List.append_assoc, List.cons_append] at found
          have size := length_address (fun member => all (by simp_all)) first found
          have parts : u ++ '(' :: (inside ++ ')' :: behind) =
              u ++ '(' :: (inside ++ [')']) ++ behind := by simp
          rw [parts]
          refine fits_append ?_ (.address token (c :: u) inside (isAddress_readUrl? found) outside first)
          simp only [length, size, List.length_append, List.length_cons, List.length_nil]
          omega
      · exact function
    · exact function
  · have plain : (v ++ [';']).head? ≠ some '(' := by
      rwa [ne_eq, head?_append_eq_some (by decide)]
    rw [afterName_of_ne plain]
    exact fits_append (by simp [length]) (.inert _ _ rfl outside)

theorem fits_symbol (other : singleToken? c = none) : Fits c s (.symbol c, 0) := by
  refine ⟨Nat.zero_le _, ?_⟩
  dsimp only
  rw [List.take_zero]
  refine .inert _ _ rfl (List.forall_mem_singleton.2 fun bracket => ?_)
  simp only [brackets, List.mem_cons, List.not_mem_nil, or_false] at bracket
  rcases bracket with rfl | rfl | rfl | rfl <;> cases other

theorem fits_single {token : Token} (mark : token.mark? = some c)
    (own : c ∉ ['\x7b', '\x7d', ';']) : Fits c s (token, 0) := by
  refine ⟨Nat.zero_le _, ?_⟩
  dsimp only
  rw [List.take_zero]
  by_cases bracket : c ∈ brackets
  · exact .mark c token bracket mark
  · refine .inert _ _ ?_ (List.forall_mem_singleton.2 bracket)
    cases token with
    | opening kind => cases kind <;> cases mark <;> simp [brackets] at bracket own
    | closing kind => cases kind <;> cases mark <;> simp [brackets] at bracket own
    | semicolon =>
        cases mark
        simp at own
    | colon => rfl
    | comma => rfl
    | _ => cases mark

theorem commentMarkLength_of_unmarked (markers : ∀ mark ∈ commentMarks, ¬mark <:+: s) :
    commentMarkLength s = 0 := by
  rw [commentMarkLength_eq]
  split
  · next first => exact absurd first.isInfix (markers _ (by decide))
  · split
    · next first => exact absurd first.isInfix (markers _ (by decide))
    · rfl

theorem fits_marker (mark : commentMarkLength (c :: s) ≠ 0) :
    Fits c s (.commentMark, commentMarkLength (c :: s) - 1) := by
  have plain : ∀ mark ∈ commentMarks, ∀ d ∈ mark, d ∉ brackets := by
    simp [commentMarks, brackets]
  have own {rest : List Char} (known : c :: rest ∈ commentMarks) (first : c :: rest <+: c :: s) :
      Fits c s (.commentMark, rest.length) := by
    obtain ⟨after, same⟩ := first
    rw [List.cons_append, List.cons.injEq] at same
    rw [← same.2]
    exact fits_append rfl (.inert _ _ rfl (plain _ known))
  rw [commentMarkLength_eq] at mark ⊢
  split
  · next first =>
      obtain rfl := (List.cons_prefix_cons.1 first).1
      exact own (by decide) first
  · next other =>
      rw [if_neg other] at mark
      split
      · next first =>
          obtain rfl := (List.cons_prefix_cons.1 first).1
          exact own (by decide) first
      · next unmarked =>
          rw [if_neg unmarked] at mark
          exact absurd rfl mark

theorem fits_scan (flat : IsFlat (c :: s))
    (closed : ∀ u rest, c :: s = u ++ '(' :: rest → ')' ∈ rest) :
    Fits c s (Token.scan c (s ++ [';'])) := by
  obtain ⟨own, later⟩ := List.forall_mem_cons.1 flat.chars
  simp only [List.mem_cons, List.not_mem_nil, or_false, not_or] at own
  have free : '\\' ∉ s := fun inside => later _ inside (by decide)
  have whole : '\\' ∉ c :: s := fun inside => flat.chars _ inside (by decide)
  have scan := scanned c (s ++ [';'])
  generalize Token.scan c (s ++ [';']) = read at scan
  cases scan with
  | blank space => exact fits_blank space
  | quoted value n proper quote =>
      simp only [List.mem_cons, List.not_mem_nil, or_false] at quote
      exact absurd quote (not_or.2 ⟨own.1, own.2.1⟩)
  | hash mark =>
      subst mark
      exact fits_name free (by decide) rfl
  | symbol other => exact fits_symbol other
  | comment others slash star =>
      subst slash
      have first := (head?_append_eq_some (by decide) s).1 (congrArg List.head? star)
      obtain ⟨rest, rfl⟩ := List.head?_eq_some_iff.1 first
      exact absurd ⟨[], rest, rfl⟩ flat.comments
  | numeric starts =>
      refine fits_numeric whole fun bracket => ?_
      simp only [brackets, List.mem_cons, List.not_mem_nil, or_false] at bracket
      rcases bracket with rfl | rfl | rfl | rfl <;> cases starts
  | commentMark marker =>
      rw [← List.cons_append, commentMarkLength_append (.cons (by decide) [])] at marker ⊢
      exact fits_marker marker
  | atKeyword mark =>
      subst mark
      exact fits_name free (by decide) rfl
  | nameLike starts =>
      exact fits_nameLike whole (isWordChar_of_startsName own.2.2.1 starts) closed
  | single token mark => exact fits_single mark (by simp [own])

end Scan

section Texts

theorem IsFlat.drop (flat : IsFlat s) (n : Nat) : IsFlat (s.drop n) where
  chars c member := flat.chars c (List.mem_of_mem_drop member)
  comments inside := flat.comments (inside.trans (List.drop_suffix n s).isInfix)

theorem IsUnmarked.isFlat (unmarked : IsUnmarked s) : IsFlat s :=
  ⟨unmarked.chars, unmarked.comments⟩

theorem IsPlainText.isFlatText (plain : IsPlainText s) : IsFlatText s :=
  ⟨plain.isFlat, plain.balanced⟩

theorem commentMark_not_mem_lexemes (markers : ∀ mark ∈ commentMarks, ¬mark <:+: s) :
    ∀ lexeme ∈ lexemes s, lexeme.token ≠ .commentMark := by
  fun_induction lexemes s with
  | case1 => exact List.forall_mem_nil _
  | case2 c rest token n scan ih =>
      refine List.forall_mem_cons.2 ⟨fun marker => ?_, ih fun mark listed inside => ?_⟩
      · exact scan_eq_commentMark ((congrArg Prod.fst scan).trans marker)
          (commentMarkLength_of_unmarked markers)
      · exact markers mark listed
          (inside.trans ((List.drop_suffix n rest).trans (List.suffix_cons c rest)).isInfix)

/-- Lexemes whose characters take one stack of open brackets to the empty one. -/
inductive Balances : List Bracket → List Lexeme → Prop where
  | nil : Balances [] []
  | cons (lexeme : Lexeme) (rest : List Lexeme) (outer inner : List Bracket)
      (bracketing : lexeme.Bracketing)
      (step : lexeme.text.foldlM openAfter? outer = some inner) (more : Balances inner rest) :
      Balances outer (lexeme :: rest)

theorem balances_lexemes (s : List Char) (outer : List Bracket) (flat : IsFlat s)
    (balanced : s.foldlM openAfter? outer = some []) :
    Ends s ';' ∧ Balances outer (lexemes s) := by
  match s with
  | [] =>
      cases balanced
      rw [lexemes_nil]
      exact ⟨by rw [Ends, lexemes_nil]; rfl, .nil⟩
  | c :: s =>
      have fits := fits_scan flat fun u rest same => closing_mem_of_balanced (same ▸ balanced)
      have alone := scan_append (.stop [] (by decide) (by simp)) c s fits.within
      rw [List.append_nil] at alone
      rw [Ends, List.cons_append, lexemes_cons, lexemes_cons c s, alone,
        List.take_append_of_le_length fits.within, List.drop_append_of_le_length fits.within]
      generalize Token.scan c (s ++ [';']) = read at fits
      rw [← List.take_append_drop read.2 s, ← List.cons_append, List.foldlM_append,
        Option.bind_eq_bind, Option.bind_eq_some_iff] at balanced
      obtain ⟨inner, step, later⟩ := balanced
      obtain ⟨ends, more⟩ := balances_lexemes (s.drop read.2) inner (flat.drop (read.2 + 1)) later
      exact ⟨congrArg _ ends, .cons _ _ outer inner fits.bracketing step more⟩
termination_by s.length
decreasing_by
  rw [List.length_drop, List.length_cons]
  omega

theorem IsFlatText.ends (flat : IsFlatText s) : Ends s ';' :=
  (balances_lexemes s [] flat.toIsFlat flat.balanced).1

theorem IsFlatText.balances (flat : IsFlatText s) : Balances [] (lexemes s) :=
  (balances_lexemes s [] flat.toIsFlat flat.balanced).2

end Texts

end ComputedStyle.Syntax
