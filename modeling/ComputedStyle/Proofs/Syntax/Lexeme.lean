import Mathlib.Data.List.DropRight
import ComputedStyle.Text.Blank
import ComputedStyle.Text.Comments

namespace ComputedStyle.Syntax

/-- The character that a token stands for alone. -/
def Token.mark? : Token → Option Char
  | .opening .round => some '('
  | .opening .square => some '['
  | .opening .curly => some '\x7b'
  | .closing .round => some ')'
  | .closing .square => some ']'
  | .closing .curly => some '\x7d'
  | .colon => some ':'
  | .semicolon => some ';'
  | .comma => some ','
  | _ => none

theorem mark?_of_singleToken? {c : Char} {token : Token} (h : singleToken? c = some token) :
    token.mark? = some c := by
  unfold singleToken? at h
  split at h
  all_goals cases h
  all_goals rfl

/-- Neither blank nor comment, no at-keyword and no mark. -/
def Token.isOther : Token → Bool
  | .blank => false
  | .comment => false
  | .atKeyword _ => false
  | token => token.mark?.isNone

/-- How the text of a lexeme goes with its token. -/
inductive Lexeme.Shape : Lexeme → Prop where
  | blank (text : List Char) (spaces : ∀ c ∈ text, isSpace c) : Shape ⟨.blank, text⟩
  | comment (text : List Char) : Shape ⟨.comment, text⟩
  | keyword (name text : List Char) : Shape ⟨.atKeyword name, '@' :: text⟩
  | mark (c : Char) (token : Token) (mark : token.mark? = some c) : Shape ⟨token, [c]⟩
  | other (token : Token) (text : List Char) (other : token.isOther) : Shape ⟨token, text⟩

/-- The token of an address, well-formed or not. -/
def Token.isAddress : Token → Bool
  | .url => true
  | .badUrl => true
  | _ => false

theorem isAddress_readUrlEnd (s : List Char) : (readUrlEnd s).1.isAddress := by
  induction s with
  | nil => rfl
  | cons c rest ih =>
      rw [readUrlEnd]
      split
      · rfl
      · split
        · exact ih
        · rfl

theorem isAddress_readUrlBody (s : List Char) : (readUrlBody s).1.isAddress := by
  fun_induction readUrlBody s with
  | case1 => rfl
  | case2 c rest space token n found =>
      have address := isAddress_readUrlEnd rest
      rwa [found] at address
  | case3 => rfl
  | case4 => rfl
  | case5 => rfl
  | case6 c rest _ _ _ _ _ _ k _ token n found ih => rwa [found] at ih
  | case7 c rest _ _ _ _ token n found ih => rwa [found] at ih

theorem isAddress_readUrl? {s : List Char} {token : Token} {n : Nat}
    (found : readUrl? s = some (token, n)) : token.isAddress := by
  unfold readUrl? at found
  dsimp only at found
  split at found
  · cases found
    rfl
  · split at found
    · cases found
    · cases found
      exact isAddress_readUrlBody _

/-- The tokens that start with a name. -/
def Token.isNameLike : Token → Bool
  | .name _ => true
  | .function _ => true
  | token => token.isAddress

theorem isNameLike_of_isAddress {token : Token} (address : token.isAddress) : token.isNameLike := by
  cases token <;> first | rfl | cases address

theorem isNameLike_readNameLike (s : List Char) : (readNameLike s).1.isNameLike := by
  unfold readNameLike
  dsimp only
  split
  · split
    · split
      · next found => exact isNameLike_of_isAddress (isAddress_readUrl? found)
      · rfl
    · rfl
  · rfl

/-- The tokens that start with a number. -/
def Token.isNumeric : Token → Bool
  | .number _ => true
  | .percentage _ => true
  | .dimension _ _ => true
  | _ => false

theorem isNumeric_readNumeric (s : List Char) : (readNumeric s).1.isNumeric := by
  unfold readNumeric
  dsimp only
  split
  · rfl
  · split <;> rfl

theorem isOther_of_isNameLike {token : Token} (named : token.isNameLike) : token.isOther := by
  cases token <;> first | rfl | cases named

theorem isOther_of_isNumeric {token : Token} (numeric : token.isNumeric) : token.isOther := by
  cases token <;> first | rfl | cases numeric

/-- What the scanner can read, and where it reads it. -/
inductive Token.Scanned (c : Char) (rest : List Char) : Token × Nat → Prop where
  | blank (space : isSpace c) : Scanned c rest (.blank, (rest.takeWhile isSpace).length)
  | quoted (value : List Char) (n : Nat) (proper : Bool) (quote : c ∈ ['"', '\'']) :
      Scanned c rest (if proper then .quoted value else .badQuoted, n)
  | hash (mark : c = '#') : Scanned c rest (.hash (readName rest).1, (readName rest).2)
  | symbol (other : singleToken? c = none) : Scanned c rest (.symbol c, 0)
  | comment (others : List Char) (slash : c = '/') (star : rest = '*' :: others) :
      Scanned c rest (.comment, commentLength others + 1)
  | numeric (starts : startsNumber (c :: rest)) :
      Scanned c rest ((readNumeric (c :: rest)).1, (readNumeric (c :: rest)).2 - 1)
  | commentMark (marker : commentMarkLength (c :: rest) ≠ 0) :
      Scanned c rest (.commentMark, commentMarkLength (c :: rest) - 1)
  | atKeyword (mark : c = '@') : Scanned c rest (.atKeyword (readName rest).1, (readName rest).2)
  | nameLike (starts : startsName (c :: rest)) :
      Scanned c rest ((readNameLike (c :: rest)).1, (readNameLike (c :: rest)).2 - 1)
  | single (token : Token) (mark : token.mark? = some c) : Scanned c rest (token, 0)

theorem scanned (c : Char) (rest : List Char) : Token.Scanned c rest (Token.scan c rest) := by
  unfold Token.scan
  dsimp only
  split
  · next space => exact .blank space
  split
  · next quote => exact .quoted _ _ _ (by simpa using quote)
  split
  · next hash =>
      obtain rfl := beq_iff_eq.1 hash
      split
      · exact .hash rfl
      · exact .symbol rfl
  split
  · next opens =>
      obtain ⟨slash, star⟩ := Bool.and_eq_true_iff.1 opens
      obtain ⟨others, rfl⟩ := List.head?_eq_some_iff.1 (beq_iff_eq.1 star)
      exact .comment others (beq_iff_eq.1 slash) rfl
  split
  · next starts => exact .numeric starts
  split
  · next marker => exact .commentMark (bne_iff_ne.1 marker)
  split
  · next keyword => exact .atKeyword (beq_iff_eq.1 (Bool.and_eq_true_iff.1 keyword).1)
  split
  · next starts => exact .nameLike starts
  cases single : singleToken? c with
  | none => exact .symbol single
  | some token => exact .single token (mark?_of_singleToken? single)

theorem shape_scan (c : Char) (rest : List Char) :
    Lexeme.Shape ⟨(Token.scan c rest).1, c :: rest.take (Token.scan c rest).2⟩ := by
  have scan := scanned c rest
  generalize Token.scan c rest = read at scan
  cases scan with
  | blank space =>
      refine .blank _ fun d member => ?_
      rw [← List.prefix_iff_eq_take.1 (List.takeWhile_prefix _)] at member
      rcases List.mem_cons.1 member with rfl | member
      · exact space
      · exact List.mem_takeWhile_imp member
  | quoted value n proper quote => cases proper <;> exact .other _ _ rfl
  | comment => exact .comment _
  | numeric => exact .other _ _ (isOther_of_isNumeric (isNumeric_readNumeric _))
  | atKeyword mark =>
      subst mark
      exact .keyword _ _
  | nameLike => exact .other _ _ (isOther_of_isNameLike (isNameLike_readNameLike _))
  | single token mark => exact .mark c token mark
  | _ => exact .other _ _ rfl

theorem exists_scan {s text : List Char} {token : Token} {first later : List Lexeme}
    (read : lexemes s = first ++ ⟨token, text⟩ :: later) :
    ∃ c rest n, Token.scan c rest = (token, n) ∧ text = c :: rest.take n ∧
      lexemes (rest.drop n) = later := by
  fun_induction lexemes s generalizing first with
  | case1 => simp at read
  | case2 c rest found n scan ih =>
      cases first with
      | nil =>
          obtain ⟨same, after⟩ := List.cons.inj read
          cases same
          exact ⟨c, rest, n, scan, rfl, after⟩
      | cons lexeme others => exact ih (List.cons.inj read).2

theorem shape_of_mem_lexemes {s : List Char} {lexeme : Lexeme} (member : lexeme ∈ lexemes s) :
    lexeme.Shape := by
  fun_induction lexemes s with
  | case1 => cases member
  | case2 c rest token n scan ih =>
      rcases List.mem_cons.1 member with rfl | member
      · have shape := shape_scan c rest
        rwa [scan] at shape
      · exact ih member

theorem isBlank_of_isSpace {c : Char} (space : isSpace c) : Text.isBlank c := by
  apply Text.isBlank_of_isAsciiBlank
  revert space
  simp only [isSpace, isNewline, Text.isAsciiBlank, Bool.or_eq_true]
  tauto

namespace Lexeme

variable {lexeme : Lexeme}

theorem Shape.isSpace (shape : lexeme.Shape) (token : lexeme.token = .blank) :
    ∀ c ∈ lexeme.text, Syntax.isSpace c := by
  cases shape with
  | blank text spaces => exact spaces
  | mark c token mark =>
      cases token
      cases mark
  | other _ _ other =>
      cases token
      cases other
  | _ => cases token

theorem Shape.text_of_atKeyword (shape : lexeme.Shape) {name : List Char}
    (token : lexeme.token = .atKeyword name) : ∃ text, lexeme.text = '@' :: text := by
  cases shape with
  | keyword name text => exact ⟨text, rfl⟩
  | mark c token mark =>
      cases token
      cases mark
  | other _ _ other =>
      cases token
      cases other
  | _ => cases token

theorem Shape.text_of_mark (shape : lexeme.Shape) {c : Char}
    (mark : lexeme.token.mark? = some c) : lexeme.text = [c] := by
  cases shape with
  | mark d token own => rw [Option.some.inj (own.symm.trans mark)]
  | other token _ other => cases token <;> simp_all [Token.isOther]
  | _ => cases mark

end Lexeme

/-- The text of lexemes without the comments. -/
def bareText (lexemes : List Lexeme) : List Char :=
  (lexemes.filter fun lexeme => !(lexeme.token == .comment)).flatMap Lexeme.text

theorem bareText_append (first second : List Lexeme) :
    bareText (first ++ second) = bareText first ++ bareText second := by
  rw [bareText, List.filter_append, List.flatMap_append, bareText, bareText]

theorem bareText_cons (lexeme : Lexeme) (rest : List Lexeme) :
    bareText (lexeme :: rest) = bareText [lexeme] ++ bareText rest :=
  bareText_append [lexeme] rest

theorem bareText_singleton {lexeme : Lexeme} (plain : lexeme.token ≠ .comment) :
    bareText [lexeme] = lexeme.text := by
  simp [bareText, plain]

theorem bareText_comment {lexeme : Lexeme} (comment : lexeme.token = .comment) :
    bareText [lexeme] = [] := by
  simp [bareText, comment]

theorem bareText_mark {lexeme : Lexeme} (shape : lexeme.Shape) {c : Char}
    (mark : lexeme.token.mark? = some c) : bareText [lexeme] = [c] := by
  rw [bareText_singleton, shape.text_of_mark mark]
  intro comment
  rw [comment] at mark
  cases mark

/-- No comment starts in the text, or with its last character, but for a lone slash. -/
def Lexeme.StartsNoComment (lexeme : Lexeme) : Prop :=
  lexeme.text = ['/'] ∨ ¬['/', '*'] <:+: lexeme.text ++ ['*']

instance (lexeme : Lexeme) : Decidable lexeme.StartsNoComment :=
  inferInstanceAs (Decidable (_ ∨ _))

theorem stripComments_cons {c : Char} {rest : List Char}
    (plain : c = '/' → rest.head? ≠ some '*') :
    Text.stripComments (c :: rest) = c :: Text.stripComments rest := by
  rw [Text.stripComments]
  rintro others rfl rfl
  exact plain rfl rfl

theorem stripComments_of_free {s : List Char} (free : ¬['/', '*'] <:+: s) :
    Text.stripComments s = s := by
  induction s with
  | nil => rw [Text.stripComments]
  | cons c rest ih =>
      have later : ¬['/', '*'] <:+: rest := fun inside =>
        free (inside.trans (List.suffix_cons c rest).isInfix)
      rw [stripComments_cons, ih later]
      rintro rfl star
      obtain ⟨others, rfl⟩ := List.head?_eq_some_iff.1 star
      exact free ⟨[], others, rfl⟩

theorem stripComments_append {u : List Char} (plain : ¬['/', '*'] <:+: u ++ ['*'])
    (v : List Char) : Text.stripComments (u ++ v) = u ++ Text.stripComments v := by
  induction u with
  | nil => rfl
  | cons c rest ih =>
      have later : ¬['/', '*'] <:+: rest ++ ['*'] := fun inside =>
        plain (inside.trans (List.suffix_cons c _).isInfix)
      rw [List.cons_append, stripComments_cons, ih later, List.cons_append]
      rintro rfl star
      apply plain
      cases rest with
      | nil => exact List.infix_rfl
      | cons d others =>
          obtain rfl : d = '*' := by simpa using star
          exact ⟨[], others ++ ['*'], rfl⟩

theorem scan_comment (rest : List Char) :
    Token.scan '/' ('*' :: rest) = (.comment, commentLength rest + 1) := by
  simp [Token.scan, isSpace, isNewline]

section Kinds

variable {c : Char} {s rest : List Char} {token : Token}

theorem readNumeric_ne (other : token.isNumeric = false) : (readNumeric s).1 ≠ token := by
  rintro rfl
  rw [isNumeric_readNumeric] at other
  cases other

theorem readNameLike_ne (other : token.isNameLike = false) : (readNameLike s).1 ≠ token := by
  rintro rfl
  rw [isNameLike_readNameLike] at other
  cases other

theorem scan_eq_comment (h : (Token.scan c rest).1 = .comment) :
    ∃ others, c = '/' ∧ rest = '*' :: others := by
  have scan := scanned c rest
  generalize Token.scan c rest = read at scan h
  cases scan with
  | quoted value n proper quote => cases proper <;> cases h
  | comment others slash star => exact ⟨others, slash, star⟩
  | numeric => exact absurd h (readNumeric_ne rfl)
  | nameLike => exact absurd h (readNameLike_ne rfl)
  | single token mark =>
      cases h
      cases mark
  | _ => cases h

theorem scan_eq_commentMark (h : (Token.scan c rest).1 = .commentMark) :
    commentMarkLength (c :: rest) ≠ 0 := by
  have scan := scanned c rest
  generalize Token.scan c rest = read at scan h
  cases scan with
  | quoted value n proper quote => cases proper <;> cases h
  | commentMark marker => exact marker
  | numeric => exact absurd h (readNumeric_ne rfl)
  | nameLike => exact absurd h (readNameLike_ne rfl)
  | single token mark =>
      cases h
      cases mark
  | _ => cases h

theorem scan_eq_name {name : List Char} (h : (Token.scan c rest).1 = .name name) :
    startsName (c :: rest) ∧ (readNameLike (c :: rest)).1 = .name name ∧
      (Token.scan c rest).2 = (readNameLike (c :: rest)).2 - 1 := by
  have scan := scanned c rest
  generalize Token.scan c rest = read at scan h ⊢
  cases scan with
  | quoted value n proper quote => cases proper <;> cases h
  | numeric => exact absurd h (readNumeric_ne rfl)
  | nameLike starts => exact ⟨starts, h, rfl⟩
  | single token mark =>
      cases h
      cases mark
  | _ => cases h

end Kinds

/-- Where comments start in no other lexeme, what is left out are the comment lexemes. -/
theorem stripComments_eq (s : List Char)
    (plain : ∀ lexeme ∈ lexemes s, lexeme.token = .comment ∨ lexeme.StartsNoComment) :
    Text.stripComments s = bareText (lexemes s) := by
  fun_induction lexemes s with
  | case1 => rw [Text.stripComments]; rfl
  | case2 c rest token n scan ih =>
      have later := ih fun lexeme member => plain lexeme (List.mem_cons_of_mem _ member)
      by_cases comment : token = .comment
      · subst comment
        obtain ⟨others, rfl, rfl⟩ := scan_eq_comment (congrArg Prod.fst scan)
        rw [scan_comment] at scan
        cases scan
        rw [Text.stripComments]
        exact later
      · have kept : bareText (⟨token, c :: rest.take n⟩ :: lexemes (rest.drop n)) =
            (c :: rest.take n) ++ bareText (lexemes (rest.drop n)) := by
          simp [bareText, comment]
        rw [kept, ← later]
        have whole : c :: rest = (c :: rest.take n) ++ rest.drop n := by simp
        rcases (plain _ List.mem_cons_self).resolve_left comment with slash | open_
        · obtain ⟨rfl, nothing⟩ : c = '/' ∧ rest.take n = [] := by simpa using slash
          have all : rest = rest.drop n := by simpa [nothing] using whole
          have apart : rest.head? ≠ some '*' := by
            intro star
            obtain ⟨others, rfl⟩ : ∃ others, rest = '*' :: others := by
              cases rest with
              | nil => cases star
              | cons d others => exact ⟨others, by simpa using star⟩
            rw [scan_comment] at scan
            cases scan
            exact comment rfl
          rw [stripComments_cons fun _ => apart, nothing, ← all]
          rfl
        · rw [whole, stripComments_append open_]

end ComputedStyle.Syntax
