import ComputedStyle.Html.Reference
import ComputedStyle.Html.Token

namespace ComputedStyle.Html

open Text

/-- A name in lower case. -/
def lowerName (s : List Char) : String :=
  String.ofList (s.map fun c => if c = Char.ofNat 0 then replacement else c.toLower)

/-- The value of an attribute as it is written. -/
def valueText (s : List Char) : String :=
  String.ofList ((decodeReferences true s).map fun c =>
    if c = Char.ofNat 0 then replacement else c)

def endsTagName (c : Char) : Bool :=
  isAsciiBlank c || c == '/' || c == '>'

def endsAttributeName (c : Char) : Bool :=
  endsTagName c || c == '='

/-- The text after a closing quote. -/
def afterQuote (quote : Char) (s : List Char) : List Char :=
  (s.dropWhile (· != quote)).drop 1

def readValue : List Char → String × List Char
  | '"' :: s => (valueText (s.takeWhile (· != '"')), afterQuote '"' s)
  | '\'' :: s => (valueText (s.takeWhile (· != '\'')), afterQuote '\'' s)
  | s =>
      let ends (c : Char) : Bool := isAsciiBlank c || c == '>'
      (valueText (s.takeWhile (!ends ·)), s.dropWhile (!ends ·))

/-- Reads the value after an attribute's name; it is empty without an equals sign. -/
def readAttributeValue (s : List Char) : String × List Char :=
  match s.dropWhile isAsciiBlank with
  | '=' :: rest => readValue (rest.dropWhile isAsciiBlank)
  | _ => ("", s)

theorem length_afterQuote_le (quote : Char) (s : List Char) :
    (afterQuote quote s).length ≤ s.length := by
  have := length_dropWhile_le (· != quote) s
  simp only [afterQuote, List.length_drop]
  omega

theorem length_readValue_le (s : List Char) : (readValue s).2.length ≤ s.length := by
  unfold readValue
  split
  · exact Nat.le_succ_of_le (length_afterQuote_le _ _)
  · exact Nat.le_succ_of_le (length_afterQuote_le _ _)
  · exact length_dropWhile_le _ _

theorem length_readAttributeValue_le (s : List Char) :
    (readAttributeValue s).2.length ≤ s.length := by
  unfold readAttributeValue
  split
  · next rest shape =>
      have first := length_dropWhile_le isAsciiBlank s
      have second := length_dropWhile_le isAsciiBlank rest
      have third := length_readValue_le (rest.dropWhile isAsciiBlank)
      rw [shape, List.length_cons] at first
      omega
  · exact Nat.le_refl _

/-- What follows the name of a tag. -/
structure TagEnd where
  attributes : List (String × String)
  selfClosing : Bool
  rest : List Char

def readAttributes : List Char → Option TagEnd
  | [] => none
  | '>' :: s => some ⟨[], false, s⟩
  | '/' :: '>' :: s => some ⟨[], true, s⟩
  | '/' :: s => readAttributes s
  | c :: s =>
      if isAsciiBlank c then readAttributes s
      else
        let name := lowerName (c :: s.takeWhile (!endsAttributeName ·))
        let value := readAttributeValue (s.dropWhile (!endsAttributeName ·))
        (readAttributes value.2).map fun tail =>
          { tail with attributes := (name, value.1) :: tail.attributes }
termination_by s => s.length
decreasing_by
  · simp
  · simp
  · have first := length_readAttributeValue_le (s.dropWhile (!endsAttributeName ·))
    have second := length_dropWhile_le (!endsAttributeName ·) s
    simp only [List.length_cons]
    omega

/-- Keeps the first entry of each name. -/
def firstOfEach : List (String × String) → List (String × String)
  | [] => []
  | entry :: rest => entry :: (firstOfEach rest).filter (·.1 != entry.1)

/-- A tag and the text after it. -/
structure TagReading where
  tag : Tag
  rest : List Char

/-- Reads a tag from the first letter of its name. -/
def readTag? (s : List Char) : Option TagReading :=
  (readAttributes (s.dropWhile (!endsTagName ·))).map fun tail =>
    { tag := {
        name := lowerName (s.takeWhile (!endsTagName ·))
        attributes := firstOfEach tail.attributes
        selfClosing := tail.selfClosing }
      rest := tail.rest }

theorem readAttributes_length {s : List Char} {tail : TagEnd}
    (h : readAttributes s = some tail) : tail.rest.length < s.length := by
  fun_induction readAttributes s generalizing tail with
  | case1 => simp at h
  | case2 s =>
      injection h with h
      subst h
      simp
  | case3 s =>
      injection h with h
      subst h
      simp only [List.length_cons]
      omega
  | case4 _ _ ih => exact Nat.lt_succ_of_lt (ih h)
  | case5 =>
      rename_i ih
      exact Nat.lt_succ_of_lt (ih h)
  | case6 =>
      rename_i s _ _ _ _ _ value ih
      obtain ⟨inner, found, rfl⟩ := Option.map_eq_some_iff.1 h
      have := ih found
      have first : value.2.length ≤ (s.dropWhile (!endsAttributeName ·)).length :=
        length_readAttributeValue_le _
      have second := length_dropWhile_le (!endsAttributeName ·) s
      simp only [List.length_cons]
      omega

theorem readTag?_length {s : List Char} {reading : TagReading} (h : readTag? s = some reading) :
    reading.rest.length < s.length := by
  obtain ⟨tail, found, rfl⟩ := Option.map_eq_some_iff.1 h
  exact Nat.lt_of_lt_of_le (readAttributes_length found) (length_dropWhile_le _ _)

end ComputedStyle.Html
