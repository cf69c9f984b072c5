import ComputedStyle.Html.Entity

namespace ComputedStyle.Html

/-- The character that stands for what is none. -/
def replacement : Char := Char.ofNat 0xFFFD

/-- What the numbers 0x80 to 0x9F stand for in references; zero where they stand for themselves. -/
def windowsCharacters : List Nat := [
  0x20AC, 0, 0x201A, 0x0192, 0x201E, 0x2026, 0x2020, 0x2021, 0x02C6, 0x2030, 0x0160, 0x2039,
  0x0152, 0, 0x017D, 0, 0, 0x2018, 0x2019, 0x201C, 0x201D, 0x2022, 0x2013, 0x2014, 0x02DC, 0x2122,
  0x0161, 0x203A, 0x0153, 0, 0x017E, 0x0178]

/-- The character of a number in a reference. -/
def characterOf (n : Nat) : Char :=
  let n := if 0x80 ≤ n && n ≤ 0x9F then
    match windowsCharacters[n - 0x80]? with
    | some 0 => n
    | some m => m
    | none => n
  else n
  if n = 0 then replacement
  else if n.isValidChar then Char.ofNat n
  else replacement

def isHexDigit (c : Char) : Bool :=
  c.isDigit || ('a' ≤ c && c ≤ 'f') || ('A' ≤ c && c ≤ 'F')

/-- Characters that a reference stands for, and the text after it. -/
structure Reference where
  text : List Char
  rest : List Char
deriving DecidableEq, Repr

namespace Reference

def afterSemicolon : List Char → List Char
  | ';' :: rest => rest
  | s => s

/-- Reads the digits of a reference by number. -/
def ofDigits? (isDigit : Char → Bool) (value : List Char → Nat) (s : List Char) :
    Option Reference :=
  let digits := s.takeWhile isDigit
  if digits.isEmpty then none
  else some ⟨[characterOf (value digits)], afterSemicolon (s.dropWhile isDigit)⟩

def decimalValue (digits : List Char) : Nat :=
  digits.foldl (fun n c => 10 * n + (c.toNat - '0'.toNat)) 0

/-- Reads what follows an ampersand and a number sign. -/
def ofNumber? (s : List Char) : Option Reference :=
  match s with
  | 'x' :: rest => ofDigits? isHexDigit Entity.ofHex rest
  | 'X' :: rest => ofDigits? isHexDigit Entity.ofHex rest
  | _ => ofDigits? Char.isDigit decimalValue s

/-- In an attribute, a name without semicolon is no reference if it seems to go on, as in the
parameters of an address. -/
def goesOn : List Char → Bool
  | c :: _ => c == '=' || c.isAlphanum
  | [] => false

def ofEntity? (inAttribute : Bool) (s : List Char) (entity : Entity) : Option Reference :=
  match s.drop entity.name.length with
  | ';' :: rest => some ⟨entity.text, rest⟩
  | rest => if inAttribute && goesOn rest then none else some ⟨entity.text, rest⟩

def ofName? (inAttribute : Bool) (s : List Char) : Option Reference :=
  (Entity.longest? s).bind (ofEntity? inAttribute s)

/-- Reads what follows an ampersand. -/
def read? (inAttribute : Bool) : List Char → Option Reference
  | '#' :: rest => ofNumber? rest
  | s => ofName? inAttribute s

theorem length_afterSemicolon (s : List Char) : (afterSemicolon s).length ≤ s.length := by
  unfold afterSemicolon
  split <;> simp

theorem ofDigits?_length {isDigit : Char → Bool} {value : List Char → Nat} {s : List Char}
    {reference : Reference} (h : ofDigits? isDigit value s = some reference) :
    reference.rest.length ≤ s.length := by
  simp only [ofDigits?] at h
  split at h
  · simp at h
  · injection h with h
    subst h
    exact Nat.le_trans (length_afterSemicolon _) (Text.length_dropWhile_le _ _)

theorem ofNumber?_length {s : List Char} {reference : Reference}
    (h : ofNumber? s = some reference) : reference.rest.length ≤ s.length := by
  unfold ofNumber? at h
  split at h
  · exact Nat.le_succ_of_le (ofDigits?_length h)
  · exact Nat.le_succ_of_le (ofDigits?_length h)
  · exact ofDigits?_length h

theorem ofEntity?_length {inAttribute : Bool} {s : List Char} {entity : Entity}
    {reference : Reference} (h : ofEntity? inAttribute s entity = some reference) :
    reference.rest.length ≤ s.length := by
  have bound : (s.drop entity.name.length).length ≤ s.length := by simp
  unfold ofEntity? at h
  split at h
  · next rest shape =>
      injection h with h
      subst h
      rw [shape] at bound
      exact Nat.le_of_succ_le bound
  · split at h
    · simp at h
    · injection h with h
      subst h
      exact bound

theorem ofName?_length {inAttribute : Bool} {s : List Char} {reference : Reference}
    (h : ofName? inAttribute s = some reference) : reference.rest.length ≤ s.length := by
  obtain ⟨entity, _, found⟩ := Option.bind_eq_some_iff.1 h
  exact ofEntity?_length found

theorem read?_length {inAttribute : Bool} {s : List Char} {reference : Reference}
    (h : read? inAttribute s = some reference) : reference.rest.length ≤ s.length := by
  unfold read? at h
  split at h
  · exact Nat.le_succ_of_le (ofNumber?_length h)
  · exact ofName?_length h

end Reference

/-- A text with its references replaced. -/
def decodeReferences (inAttribute : Bool) : List Char → List Char
  | [] => []
  | '&' :: s =>
      match _reading : Reference.read? inAttribute s with
      | some reference => reference.text ++ decodeReferences inAttribute reference.rest
      | none => '&' :: decodeReferences inAttribute s
  | c :: s => c :: decodeReferences inAttribute s
termination_by s => s.length
decreasing_by
  · have := Reference.read?_length _reading
    simp only [List.length_cons]
    omega
  · simp
  · simp

end ComputedStyle.Html
