import Mathlib
import ComputedStyle.Proofs.Syntax.Lookahead

/-!
Where the lexemes of a text end.

A token that does not take the blank or mark after it depends on nothing that stands behind it. So a
text whose lexemes end before such a character keeps them in front of any other text that starts
alike (`lexemes_append`).
-/

namespace ComputedStyle.Syntax

open Number

variable {c d e : Char} {s t w : List Char}

section Tokens

/-- The token of a name, given what follows the name. -/
def afterName (name : List Char × Nat) (rest : List Char) : Token × Nat :=
  match rest with
  | '(' :: inside =>
      if String.ofList (name.1.map Char.toLower) = "url" then
        match readUrl? inside with
        | some (token, k) => (token, name.2 + 1 + k)
        | none => (.function name.1, name.2 + 1)
      else (.function name.1, name.2 + 1)
  | _ => (.name name.1, name.2)

theorem readNameLike_eq (s : List Char) :
    readNameLike s = afterName (readName s) (s.drop (readName s).2) :=
  rfl

theorem afterName_of_ne {name : List Char × Nat} (other : s.head? ≠ some '(') :
    afterName name s = (.name name.1, name.2) := by
  unfold afterName
  split
  · exact absurd rfl other
  · rfl

theorem afterName_paren (name : List Char × Nat) (inside : List Char) :
    afterName name ('(' :: inside) =
      if String.ofList (name.1.map Char.toLower) = "url" then
        match readUrl? inside with
        | some (token, k) => (token, name.2 + 1 + k)
        | none => (.function name.1, name.2 + 1)
      else (.function name.1, name.2 + 1) :=
  rfl

theorem le_afterName (name : List Char × Nat) (rest : List Char) :
    name.2 ≤ (afterName name rest).2 := by
  unfold afterName
  split
  · split
    · split
      · dsimp only
        omega
      · exact Nat.le_succ _
    · exact Nat.le_succ _
  · exact Nat.le_refl _

/-- The token of a number, given the text of the number and what follows it. -/
def afterNumber (numeral : Numeral × Nat) (rest : List Char) : Token × Nat :=
  if rest.head? == some '%' then
    (.percentage ((numeral.1.value / .ofNat 100).convert .single), numeral.2 + 1)
  else if startsName rest then
    (.dimension (numeral.1.value.convert .single) (readName rest).1, numeral.2 + (readName rest).2)
  else (.number (numeral.1.value.convert .single), numeral.2)

theorem readNumeric_eq (s : List Char) :
    readNumeric s = afterNumber (Numeral.read s) (s.drop (Numeral.read s).2) :=
  rfl

theorem commentLength_cons (c : Char) (rest : List Char) : commentLength (c :: rest) =
    if c = '*' ∧ rest.head? = some '/' then 2 else commentLength rest + 1 := by
  split
  · next closed =>
      obtain ⟨rfl, first⟩ := closed
      obtain ⟨others, rfl⟩ := List.head?_eq_some_iff.1 first
      rfl
  · next open_ =>
      by_cases last : c = '*' ∧ rest = []
      · obtain ⟨rfl, rfl⟩ := last
        rfl
      · rw [commentLength]
        · rintro rfl rfl
          exact last ⟨rfl, rfl⟩
        · rintro others rfl rfl
          exact open_ ⟨rfl, rfl⟩

theorem commentLength_append (s : List Char) (within : commentLength (s ++ [e]) ≤ s.length) :
    commentLength (s ++ w) = commentLength (s ++ [e]) := by
  have positive (c : Char) (rest : List Char) : 0 < commentLength (c :: rest) := by
    rw [commentLength_cons]
    split <;> exact Nat.succ_pos _
  induction s with
  | nil => exact absurd within (Nat.not_le_of_lt (positive e []))
  | cons c rest ih =>
      rw [List.cons_append, commentLength_cons, List.length_cons] at within
      rw [List.cons_append, List.cons_append, commentLength_cons, commentLength_cons]
      cases rest with
      | nil =>
          have later := positive e []
          split at within
          · cases Nat.le_of_succ_le_succ within
          · rw [List.nil_append, List.length_nil] at within
            omega
      | cons d others =>
          by_cases closed : c = '*' ∧ d = '/'
          · rw [if_pos (by simpa using closed), if_pos (by simpa using closed)]
          · rw [if_neg (by simpa using closed)] at within
            rw [if_neg (by simpa using closed), if_neg (by simpa using closed),
              ih (Nat.le_of_succ_le_succ within)]

theorem drop_commentLength_append (star : s.head? = some '*')
    (within : commentLength ((s ++ [e]).drop 1) + 1 ≤ s.length) :
    commentLength ((s ++ w).drop 1) = commentLength ((s ++ [e]).drop 1) := by
  obtain ⟨others, rfl⟩ := List.head?_eq_some_iff.1 star
  exact commentLength_append others (Nat.le_of_succ_le_succ within)

/-- The token that a number, a marker, a keyword or a name starts, or a character alone. -/
def scanWord (c : Char) (rest : List Char) : Token × Nat :=
  let s := c :: rest
  if startsNumber s then
    let (token, n) := readNumeric s
    (token, n - 1)
  else if commentMarkLength s != 0 then (.commentMark, commentMarkLength s - 1)
  else if c == '@' && startsName rest then
    let (value, n) := readName rest
    (.atKeyword value, n)
  else if startsName s then
    let (token, n) := readNameLike s
    (token, n - 1)
  else ((singleToken? c).getD (.symbol c), 0)

theorem scan_eq (c : Char) (rest : List Char) : Token.scan c rest =
    if isSpace c then (.blank, (rest.takeWhile isSpace).length)
    else if c == '"' || c == '\'' then
      let (value, n, proper) := readQuoted c rest
      (if proper then .quoted value else .badQuoted, n)
    else if c == '#' then
      if startsName rest || startsDigit rest || rest.head? == some '-' then
        let (value, n) := readName rest
        (.hash value, n)
      else (.symbol c, 0)
    else if c == '/' && rest.head? == some '*' then
      (.comment, commentLength (rest.drop 1) + 1)
    else scanWord c rest :=
  rfl

variable (follows : Follows e w)

include follows

theorem readNameLike_append (s : List Char) (within : (readNameLike (s ++ [e])).2 ≤ s.length) :
    readNameLike (s ++ w) = readNameLike (s ++ [e]) := by
  rw [readNameLike_eq] at within
  have short : (readName (s ++ [e])).2 ≤ s.length := (le_afterName _ _).trans within
  rw [List.drop_append_of_le_length short] at within
  rw [readNameLike_eq, readNameLike_eq, readName_append follows s short,
    List.drop_append_of_le_length short, List.drop_append_of_le_length short]
  generalize readName (s ++ [e]) = name at within short
  have length : (s.drop name.2).length = s.length - name.2 := List.length_drop
  generalize s.drop name.2 = t at within length
  cases t with
  | nil =>
      rw [List.nil_append, List.nil_append, afterName_of_ne (follows.closes.not_head (by decide)),
        afterName_of_ne (follows.closes_singleton.not_head (by decide))]
  | cons c rest =>
      by_cases opens : c = '('
      · subst opens
        have url : (∀ token n, readUrl? (rest ++ [e]) = some (token, n) → n ≤ rest.length) →
            readUrl? (rest ++ w) = readUrl? (rest ++ [e]) := readUrl?_append follows rest
        rw [List.length_cons] at length
        rw [List.cons_append, afterName_paren] at within
        rw [List.cons_append, List.cons_append, afterName_paren, afterName_paren]
        split
        · next address =>
            rw [if_pos address] at within
            rw [url]
            intro token n found
            rw [found] at within
            dsimp only at within
            omega
        · rfl
      · rw [afterName_of_ne (by simpa using opens), afterName_of_ne (by simpa using opens)]

theorem head?_append (other : d ∉ closers) (s : List Char) :
    ((s ++ w).head? == some d) = ((s ++ [e]).head? == some d) := by
  rw [Bool.eq_iff_iff, beq_iff_eq, beq_iff_eq,
    head?_append_eq_some (follows.closes.not_head other),
    head?_append_eq_some (follows.closes_singleton.not_head other)]

theorem readNumeric_append (s : List Char) (within : (readNumeric (s ++ [e])).2 ≤ s.length) :
    readNumeric (s ++ w) = readNumeric (s ++ [e]) := by
  have short := length_numeral_le s
  rw [readNumeric_eq, numeral_append follows.closes_singleton.unnumbered,
    List.drop_append_of_le_length short] at within
  rw [readNumeric_eq, readNumeric_eq, numeral_append follows.closes.unnumbered,
    numeral_append follows.closes_singleton.unnumbered, List.drop_append_of_le_length short,
    List.drop_append_of_le_length short]
  have length : (s.drop (Numeral.read s).2).length = s.length - (Numeral.read s).2 := List.length_drop
  generalize s.drop (Numeral.read s).2 = t at within length
  unfold afterNumber at within ⊢
  rw [head?_append follows (d := '%') (by decide), startsName_append follows]
  split
  · rfl
  next plain =>
  rw [if_neg plain] at within
  split
  · next named =>
      rw [if_pos named] at within
      dsimp only at within
      rw [readName_append follows t (by omega)]
  · rfl

theorem scanWord_append (c : Char) (s : List Char) (within : (scanWord c (s ++ [e])).2 ≤ s.length) :
    scanWord c (s ++ w) = scanWord c (s ++ [e]) := by
  have number {v : List Char} (closes : Closes v) : startsNumber (c :: (s ++ v)) =
      startsNumber (c :: s) := startsNumber_append closes.unnumbered (c :: s)
  have mark {v : List Char} (closes : Closes v) : commentMarkLength (c :: (s ++ v)) =
      commentMarkLength (c :: s) := commentMarkLength_append closes (c :: s)
  have named : startsName (c :: (s ++ w)) = startsName (c :: (s ++ [e])) :=
    startsName_append follows (c :: s)
  have numeric : (readNumeric (c :: (s ++ [e]))).2 - 1 ≤ s.length →
      readNumeric (c :: (s ++ w)) = readNumeric (c :: (s ++ [e])) :=
    fun short => readNumeric_append follows (c :: s) (Nat.le_add_of_sub_le short)
  have word : (readNameLike (c :: (s ++ [e]))).2 - 1 ≤ s.length →
      readNameLike (c :: (s ++ w)) = readNameLike (c :: (s ++ [e])) :=
    fun short => readNameLike_append follows (c :: s) (Nat.le_add_of_sub_le short)
  unfold scanWord at within ⊢
  dsimp only at within ⊢
  rw [number follows.closes_singleton, mark follows.closes_singleton] at within
  rw [number follows.closes, number follows.closes_singleton, mark follows.closes,
    mark follows.closes_singleton, named, startsName_append follows s]
  split
  · next starts =>
      rw [if_pos starts] at within
      rw [numeric within]
  next other =>
  rw [if_neg other] at within
  split
  · rfl
  next unmarked =>
  rw [if_neg unmarked] at within
  split
  · next keyword =>
      rw [if_pos keyword] at within
      rw [readName_append follows s within]
  next plain =>
  rw [if_neg plain] at within
  split
  · next starts =>
      rw [if_pos starts] at within
      rw [word within]
  · rfl

theorem scan_append (c : Char) (s : List Char) (within : (Token.scan c (s ++ [e])).2 ≤ s.length) :
    Token.scan c (s ++ w) = Token.scan c (s ++ [e]) := by
  rw [scan_eq] at within
  rw [scan_eq, scan_eq, startsName_append follows s,
    startsDigit_append follows.closes.unnumbered,
    startsDigit_append follows.closes_singleton.unnumbered,
    head?_append follows (d := '-') (by decide), head?_append follows (d := '*') (by decide)]
  rw [startsDigit_append follows.closes_singleton.unnumbered] at within
  split
  · next space =>
      rw [if_pos space] at within
      rw [takeWhile_append_of_within follows.isSpace_head within]
  next visible =>
  rw [if_neg visible] at within
  split
  · next quote =>
      rw [if_pos quote] at within
      have other : c ∉ closers := by
        simp only [Bool.or_eq_true, beq_iff_eq] at quote
        rcases quote with rfl | rfl <;> decide
      rw [readQuoted_append follows other s within]
  next unquoted =>
  rw [if_neg unquoted] at within
  split
  · next hash =>
      rw [if_pos hash] at within
      split
      · next named =>
          rw [if_pos named] at within
          rw [readName_append follows s within]
      · rfl
  next unhashed =>
  rw [if_neg unhashed] at within
  split
  · next comment =>
      rw [if_pos comment] at within
      obtain ⟨-, star⟩ := Bool.and_eq_true_iff.1 comment
      rw [beq_iff_eq, head?_append_eq_some (follows.closes_singleton.not_head (by decide))] at star
      rw [drop_commentLength_append star within]
  · next bare =>
      rw [if_neg bare] at within
      exact scanWord_append follows c s within

end Tokens

/-- The lexemes of a text end before a character that may follow it. -/
def Ends (u : List Char) (e : Char) : Prop :=
  lexemes (u ++ [e]) = lexemes u ++ lexemes [e]

instance (u : List Char) (e : Char) : Decidable (Ends u e) :=
  inferInstanceAs (Decidable (_ = _))

theorem lexemes_cons (c : Char) (rest : List Char) : lexemes (c :: rest) =
    ⟨(Token.scan c rest).1, c :: rest.take (Token.scan c rest).2⟩ ::
      lexemes (rest.drop (Token.scan c rest).2) := by
  rw [lexemes]

theorem lexemes_nil : lexemes [] = [] := by
  rw [lexemes]

theorem lexemes_append (u : List Char) (ends : Ends u e) (follows : Follows e w) :
    lexemes (u ++ w) = lexemes u ++ lexemes w := by
  match u with
  | [] => rw [lexemes_nil, List.nil_append, List.nil_append]
  | c :: s =>
      rw [Ends, List.cons_append, lexemes_cons, lexemes_cons c s, List.cons_append,
        List.cons.injEq, Lexeme.mk.injEq, List.cons.injEq] at ends
      obtain ⟨⟨token, -, text⟩, later⟩ := ends
      have lengths := congrArg List.length text
      rw [List.length_take, List.length_take, List.length_append, List.length_singleton] at lengths
      have within : (Token.scan c (s ++ [e])).2 ≤ s.length := by omega
      have after : s.drop (Token.scan c s).2 = s.drop (Token.scan c (s ++ [e])).2 := by
        rcases Nat.lt_or_ge s.length (Token.scan c s).2 with long | short
        · rw [List.drop_of_length_le (by omega), List.drop_of_length_le (by omega)]
        · congr 1
          omega
      rw [List.drop_append_of_le_length within, after] at later
      rw [List.cons_append, lexemes_cons, lexemes_cons c s, scan_append follows c s within,
        List.drop_append_of_le_length within, List.take_append_of_le_length within, after,
        lexemes_append _ later follows, token, ← text, List.take_append_of_le_length within]
      rfl
termination_by u.length
decreasing_by
  rw [List.length_drop, List.length_cons]
  omega

end ComputedStyle.Syntax
