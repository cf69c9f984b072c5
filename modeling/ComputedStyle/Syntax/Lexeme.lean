import ComputedStyle.Syntax.Numeral

/-!
The lexical units of CSS text.

`Token.scan` reads one token and says how many further characters it takes, so a lexeme always holds
the very characters it was read from: the lexemes of a text concatenate to that text
(`text_lexemes`).
-/

namespace ComputedStyle.Syntax

open Number

inductive Bracket where
  | round
  | square
  | curly
deriving DecidableEq, Repr

inductive Token where
  | blank
  | comment
  | name (value : List Char)
  | function (value : List Char)
  | atKeyword (value : List Char)
  | hash (value : List Char)
  | quoted (value : List Char)
  /-- A string cut off by the end of its line. -/
  | badQuoted
  | url
  | badUrl
  | number (value : Single)
  | percentage (fraction : Single)
  | dimension (value : Single) (unit : List Char)
  | opening (bracket : Bracket)
  | closing (bracket : Bracket)
  | colon
  | semicolon
  | comma
  /-- One of the two markers that hide a style sheet in an HTML comment. -/
  | commentMark
  | symbol (c : Char)
deriving DecidableEq

def Token.name? : Token → Option (List Char)
  | .name value => some value
  | _ => none

def isNewline (c : Char) : Bool :=
  c == '\n' || c == '\r' || c == '\x0c'

def isSpace (c : Char) : Bool :=
  c == ' ' || c == '\t' || isNewline c

def replacement : Char := Char.ofNat 0xFFFD

def isNameStart (c : Char) : Bool :=
  c.isAlpha || c == '_' || c == '\x00' || c.toNat ≥ 0x80

def isNameChar (c : Char) : Bool :=
  c.isAlphanum || c == '_' || c == '-' || c.toNat ≥ 0x80

def startsNewline : List Char → Bool
  | [] => false
  | c :: _ => isNewline c

/-- The length of the line end that a text starts with; a carriage return and line feed are one. -/
def newlineLength : List Char → Nat
  | '\r' :: '\n' :: _ => 2
  | c :: _ => if isNewline c then 1 else 0
  | [] => 0

/-- Whether a text starts with a name. -/
def startsName : List Char → Bool
  | [] => false
  | ['-'] => false
  | '-' :: c :: _ => isNameStart c || c == '-' || c == '\\'
  | '\\' :: rest => !startsNewline rest
  | c :: _ => isNameStart c

def isHexDigit (c : Char) : Bool :=
  c.isDigit || ('a' ≤ c && c ≤ 'f') || ('A' ≤ c && c ≤ 'F')

def hexValue (c : Char) : Nat :=
  if c.isDigit then c.toNat - '0'.toNat
  else if 'a' ≤ c then c.toNat - 'a'.toNat + 10
  else c.toNat - 'A'.toNat + 10

def ofHexDigits (digits : List Char) : Nat :=
  digits.foldl (fun n c => 16 * n + hexValue c) 0

/-- The character with a number; zero and what is no character become the replacement character. -/
def charOfCode (n : Nat) : Char :=
  if n = 0 then replacement
  else if h : n.isValidChar then Char.ofNatAux n h
  else replacement

/-- Reads what follows a backslash: up to six hexadecimal digits and one blank, or any character.
Gives the character meant and how many characters were read. -/
def readEscape (s : List Char) : Char × Nat :=
  match s with
  | [] => (replacement, 0)
  | c :: _ =>
      if isHexDigit c then
        let digits := (s.take 6).takeWhile isHexDigit
        let tail := s.drop digits.length
        let blank :=
          match tail with
          | d :: _ => if d == ' ' || d == '\t' then 1 else newlineLength tail
          | [] => 0
        (charOfCode (ofHexDigits digits), digits.length + blank)
      else if c == '\x00' then (replacement, 1)
      else (c, 1)

/-- Reads the characters of a name, with escapes resolved, and counts the characters read. -/
def readName : List Char → List Char × Nat
  | [] => ([], 0)
  | c :: rest =>
      if isNameChar c then
        let (value, n) := readName rest
        (c :: value, n + 1)
      else if c == '\x00' then
        let (value, n) := readName rest
        (replacement :: value, n + 1)
      else if c == '\\' && !startsNewline rest then
        let (d, k) := readEscape rest
        let (value, n) := readName (rest.drop k)
        (d :: value, n + k + 1)
      else ([], 0)
termination_by s => s.length
decreasing_by all_goals (simp only [List.length_cons, List.length_drop]; omega)

/-- Reads a string after its opening quote. The flag tells whether it ended properly: at the same
quote or at the end of the text. -/
def readQuoted (quote : Char) : List Char → List Char × Nat × Bool
  | [] => ([], 0, true)
  | c :: rest =>
      if c == quote then ([], 1, true)
      else if isNewline c then ([], 0, false)
      else if c == '\\' then
        if rest.isEmpty then ([], 1, true)
        else if startsNewline rest then
          let k := newlineLength rest
          let (value, n, proper) := readQuoted quote (rest.drop k)
          (value, n + k + 1, proper)
        else
          let (d, k) := readEscape rest
          let (value, n, proper) := readQuoted quote (rest.drop k)
          (d :: value, n + k + 1, proper)
      else
        let (value, n, proper) := readQuoted quote rest
        ((if c == '\x00' then replacement else c) :: value, n + 1, proper)
termination_by s => s.length
decreasing_by all_goals (simp only [List.length_cons, List.length_drop]; omega)

/-- The length of a comment after its two opening characters; an unclosed one takes all. -/
def commentLength : List Char → Nat
  | [] => 0
  | ['*'] => 1
  | '*' :: '/' :: _ => 2
  | _ :: rest => commentLength rest + 1

/-- The length of what is left of a malformed address, through its closing bracket. -/
def badUrlLength : List Char → Nat
  | [] => 0
  | ')' :: _ => 1
  | '\\' :: ')' :: rest => badUrlLength rest + 2
  | '\\' :: '\\' :: rest => badUrlLength rest + 2
  | _ :: rest => badUrlLength rest + 1

/-- Reads the blanks that may stand between an address and its closing bracket. -/
def readUrlEnd : List Char → Token × Nat
  | [] => (.url, 0)
  | c :: rest =>
      if c == ')' then (.url, 1)
      else if isSpace c then
        let (token, n) := readUrlEnd rest
        (token, n + 1)
      else (.badUrl, badUrlLength rest + 1)

/-- Characters that may not stand in an address without quotes. -/
def isBadInUrl (c : Char) : Bool :=
  c == '"' || c == '\'' || c == '(' || c == '\x7f' || (c.toNat < 0x20 && c != '\x00')

/-- Reads an address without quotes from its first character on. -/
def readUrlBody : List Char → Token × Nat
  | [] => (.url, 0)
  | c :: rest =>
      if isSpace c then
        let (token, n) := readUrlEnd rest
        (token, n + 1)
      else if c == ')' then (.url, 1)
      else if isBadInUrl c then (.badUrl, badUrlLength rest + 1)
      else if c == '\\' then
        if startsNewline rest then (.badUrl, badUrlLength rest + 1)
        else
          let (_, k) := readEscape rest
          let (token, n) := readUrlBody (rest.drop k)
          (token, n + k + 1)
      else
        let (token, n) := readUrlBody rest
        (token, n + 1)
termination_by s => s.length
decreasing_by all_goals (simp only [List.length_cons, List.length_drop]; omega)

/-- Reads an address after its opening bracket; none when it is written with quotes. -/
def readUrl? (s : List Char) : Option (Token × Nat) :=
  let blanks := (s.takeWhile isSpace).length
  match s.drop blanks with
  | [] => some (.url, blanks)
  | c :: rest =>
      if c == '"' || c == '\'' then none
      else
        let (token, n) := readUrlBody (c :: rest)
        some (token, blanks + n)

/-- Reads a name and what it introduces: a function, an address, or nothing. -/
def readNameLike (s : List Char) : Token × Nat :=
  let (value, n) := readName s
  match s.drop n with
  | '(' :: rest =>
      if String.ofList (value.map Char.toLower) = "url" then
        match readUrl? rest with
        | some (token, k) => (token, n + 1 + k)
        | none => (.function value, n + 1)
      else (.function value, n + 1)
  | _ => (.name value, n)

def startsDigit : List Char → Bool
  | c :: _ => c.isDigit
  | [] => false

def startsUnsigned : List Char → Bool
  | '.' :: rest => startsDigit rest
  | s => startsDigit s

/-- Whether a text starts with a number. -/
def startsNumber : List Char → Bool
  | '+' :: rest => startsUnsigned rest
  | '-' :: rest => startsUnsigned rest
  | s => startsUnsigned s

/-- Reads a number and its unit. -/
def readNumeric (s : List Char) : Token × Nat :=
  let (numeral, n) := Numeral.read s
  let tail := s.drop n
  if tail.head? == some '%' then
    (.percentage ((numeral.value / .ofNat 100).convert .single), n + 1)
  else
    let value := numeral.value.convert .single
    if startsName tail then
      let (unit, k) := readName tail
      (.dimension value unit, n + k)
    else (.number value, n)

/-- Whether a text starts with one of the two markers of an HTML comment, and its length. -/
def commentMarkLength : List Char → Nat
  | '<' :: '!' :: '-' :: '-' :: _ => 4
  | '-' :: '-' :: '>' :: _ => 3
  | _ => 0

/-- Tokens of one character. -/
def singleToken? : Char → Option Token
  | '(' => some (.opening .round)
  | '[' => some (.opening .square)
  | '\x7b' => some (.opening .curly)
  | ')' => some (.closing .round)
  | ']' => some (.closing .square)
  | '\x7d' => some (.closing .curly)
  | ':' => some .colon
  | ';' => some .semicolon
  | ',' => some .comma
  | _ => none

/-- Reads the token that starts with `c`; the number counts the characters it takes from `rest`. -/
def Token.scan (c : Char) (rest : List Char) : Token × Nat :=
  let s := c :: rest
  if isSpace c then (.blank, (rest.takeWhile isSpace).length)
  else if c == '"' || c == '\'' then
    let (value, n, proper) := readQuoted c rest
    (if proper then .quoted value else .badQuoted, n)
  else if c == '#' then
    if startsName rest || startsDigit rest || rest.head? == some '-' then
      let (value, n) := readName rest
      (.hash value, n)
    else (.symbol c, 0)
  else if c == '/' && rest.head? == some '*' then
    (.comment, commentLength (rest.drop 1) + 1)
  else if startsNumber s then
    let (token, n) := readNumeric s
    (token, n - 1)
  else if commentMarkLength s != 0 then (.commentMark, commentMarkLength s - 1)
  else if c == '@' && startsName rest then
    let (value, n) := readName rest
    (.atKeyword value, n)
  else if startsName s then
    let (token, n) := readNameLike s
    (token, n - 1)
  else ((singleToken? c).getD (.symbol c), 0)

structure Lexeme where
  token : Token
  text : List Char
deriving DecidableEq

/-- The lexemes of a text. -/
def lexemes : List Char → List Lexeme
  | [] => []
  | c :: rest =>
      let (token, n) := Token.scan c rest
      ⟨token, c :: rest.take n⟩ :: lexemes (rest.drop n)
termination_by s => s.length
decreasing_by simp only [List.length_cons, List.length_drop]; omega

/-- Nothing of the text is lost. -/
theorem text_lexemes (s : List Char) : (lexemes s).flatMap Lexeme.text = s := by
  fun_induction lexemes s with
  | case1 => rfl
  | case2 c rest token n _ ih => simp [ih]

end ComputedStyle.Syntax
