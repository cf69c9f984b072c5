import ComputedStyle.Syntax.Lexeme

namespace ComputedStyle.Text.JsonString

def hexDigit (n : Nat) : Char :=
  if n < 10 then Char.ofNat ('0'.toNat + n) else Char.ofNat ('a'.toNat + (n - 10))

/-- A character by its number in four hexadecimal digits. -/
def unicodeEscape (n : Nat) : List Char :=
  ['\\', 'u', hexDigit (n / 0x1000 % 0x10), hexDigit (n / 0x100 % 0x10), hexDigit (n / 0x10 % 0x10),
    hexDigit (n % 0x10)]

def encodeChar (c : Char) : List Char :=
  if c == '\\' then ['\\', '\\']
  else if c == '"' then ['\\', '"']
  else if c == '\n' then ['\\', 'n']
  else if c == '\r' then ['\\', 'r']
  else if c == '\t' then ['\\', 't']
  else if c.toNat < 0x20 then unicodeEscape c.toNat
  else [c]

def encode (s : List Char) : List Char :=
  s.flatMap encodeChar

/-- The character that a letter after a backslash stands for. -/
def shortEscape? : Char → Option Char
  | '"' => some '"'
  | '\\' => some '\\'
  | '/' => some '/'
  | 'b' => some '\x08'
  | 'f' => some '\x0c'
  | 'n' => some '\n'
  | 'r' => some '\r'
  | 't' => some '\t'
  | _ => none

/-- The numbers that the characters and escapes inside a JSON string stand for; none for a bare quote,
a control character or an escape that JSON does not have. -/
def codes : List Char → Option (List Nat)
  | [] => some []
  | '\\' :: 'u' :: a :: b :: c :: d :: rest =>
      if [a, b, c, d].all Syntax.isHexDigit then
        (codes rest).map (Syntax.ofHexDigits [a, b, c, d] :: ·)
      else none
  | '\\' :: c :: rest =>
      match shortEscape? c with
      | some meant => (codes rest).map (meant.toNat :: ·)
      | none => none
  | c :: rest =>
      if c == '\\' || c == '"' || c.toNat < 0x20 then none
      else (codes rest).map (c.toNat :: ·)

def isHighSurrogate (n : Nat) : Bool :=
  0xD800 ≤ n && n < 0xDC00

def isLowSurrogate (n : Nat) : Bool :=
  0xDC00 ≤ n && n < 0xE000

/-- The characters with some numbers. A high surrogate and a low one make one character, and a
surrogate alone makes none. -/
def ofCodes : List Nat → Option (List Char)
  | [] => some []
  | [code] => if code.isValidChar then some [Char.ofNat code] else none
  | code :: next :: rest =>
      if isHighSurrogate code && isLowSurrogate next then
        let joined := 0x10000 + (code - 0xD800) * 0x400 + (next - 0xDC00)
        (ofCodes rest).map (Char.ofNat joined :: ·)
      else if code.isValidChar then (ofCodes (next :: rest)).map (Char.ofNat code :: ·)
      else none

/-- Reads the inside of a JSON string. -/
def decode (s : List Char) : Option (List Char) :=
  (codes s).bind ofCodes

def quote (s : String) : String :=
  "\"" ++ String.ofList (encode s.toList) ++ "\""

end ComputedStyle.Text.JsonString
