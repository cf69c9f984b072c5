import ComputedStyle.Number.Decimal
import ComputedStyle.Selector
import ComputedStyle.Text.Nesting

/-!
Reading selectors from text.

A group is split at its commas, a member at its combinators, a compound into simple selectors. A
member that cannot be read is left out of its group and counted; `SelectorError.brokenCharacter`
alone stops the reading of the whole group.
-/

namespace ComputedStyle

open Text

inductive SelectorError where
  /-- The text is no selector, or none that is supported. -/
  | unreadable
  /-- An attribute operator follows a character that is not ASCII, where no operator can be told
  from a part of that character. -/
  | brokenCharacter
deriving DecidableEq, Repr

/-- The value of an option, or that the text is unreadable. -/
def readable (value : Option α) : Except SelectorError α :=
  match value with
  | some a => .ok a
  | none => .error .unreadable

namespace Selector

def isIdentChar (c : Char) : Bool :=
  c.isAlphanum || c == '-' || c == '_' || c.toNat ≥ 0x80

/-- Reads an identifier, in which a backslash takes the next character as it is; gives what follows
it too. -/
def readIdent : List Char → List Char × List Char
  | '\\' :: c :: rest =>
      let (ident, after) := readIdent rest
      (c :: ident, after)
  | c :: rest =>
      if isIdentChar c then
        let (ident, after) := readIdent rest
        (c :: ident, after)
      else ([], c :: rest)
  | [] => ([], [])

theorem length_readIdent_le (s : List Char) : (readIdent s).2.length ≤ s.length := by
  fun_induction readIdent s with
  | case1 c rest ident after same ih =>
      simp only [same, List.length_cons] at ih ⊢
      omega
  | case2 c rest _ _ ident after same ih =>
      simp only [same, List.length_cons] at ih ⊢
      omega
  | case3 => simp
  | case4 => simp

/-- Reads up to the bracket that closes the one before the text; brackets in quotes do not count.
Gives what stands inside and what follows. -/
def readBalanced (opener closer : Char) (state : Nesting) :
    List Char → Option (List Char × List Char)
  | [] => none
  | c :: rest =>
      if state.quote.isNone && c == closer && state.depth == 1 then some ([], rest)
      else
        (readBalanced opener closer (state.step ⟨[opener], [closer]⟩ c) rest).map
          fun (inner, after) => (c :: inner, after)

theorem length_readBalanced {opener closer : Char} {state : Nesting} {s inner after : List Char}
    (h : readBalanced opener closer state s = some (inner, after)) :
    inner.length + after.length + 1 = s.length := by
  induction s generalizing state inner with
  | nil => simp [readBalanced] at h
  | cons c rest ih =>
      unfold readBalanced at h
      split at h
      · simp only [Option.some.injEq, Prod.mk.injEq] at h
        obtain ⟨rfl, rfl⟩ := h
        simp
      · simp only [Option.map_eq_some_iff, Prod.exists, Prod.mk.injEq] at h
        obtain ⟨x, y, hx, rfl, rfl⟩ := h
        have := ih hx
        simp only [List.length_cons]
        omega

/-- The inside of a bracket that has just been opened, and what follows it. -/
def readBracket (opener closer : Char) (s : List Char) : Option (List Char × List Char) :=
  readBalanced opener closer ⟨none, 1⟩ s

/-- The operator whose first character is given; the plain one has no first character. -/
def operatorOf? : Char → Option AttributeOperator
  | '~' => some .includes
  | '|' => some .dashMatch
  | '^' => some .starts
  | '$' => some .ends
  | '*' => some .holds
  | _ => none

/-- Splits the text before an equals sign into the name and the operator. -/
def splitOperator (before : List Char) : Except SelectorError (List Char × AttributeOperator) :=
  match before.getLast? with
  | none => .ok (before, .equals)
  | some c =>
      if c.toNat ≥ 0x80 then .error .brokenCharacter
      else
        match operatorOf? c with
        | some operator => .ok (before.dropLast, operator)
        | none => .ok (before, .equals)

/-- Reads a value, in quotes or up to a blank, and gives the text after it. -/
def readValue : List Char → Option (List Char × List Char)
  | [] => none
  | c :: rest =>
      if c == '"' || c == '\'' then splitOnce c rest
      else
        let value := (c :: rest).takeWhile (!isBlank ·)
        if value.isEmpty then none else some (value, (c :: rest).drop value.length)

/-- Whether letter case counts, by the flag after a value. -/
def readCaseFlag (flag : List Char) : Option Bool :=
  match String.ofList flag with
  | "" => some false
  | "s" => some false
  | "S" => some false
  | "i" => some true
  | "I" => some true
  | _ => none

/-- An attribute name in lower case. -/
def readAttributeName (raw : List Char) : Option String :=
  let name := lower raw
  if !name.isEmpty && name.all isIdentChar then some (String.ofList name) else none

/-- Reads what stands between square brackets. -/
def readAttribute (raw : List Char) : Except SelectorError AttributeTest :=
  let raw := trim raw
  match splitOnce '=' raw with
  | none => do
      let name ← readable (readAttributeName raw)
      return ⟨name, none⟩
  | some (before, after) => do
      let (name, operator) ← splitOperator before
      let name ← readable (readAttributeName (trim name))
      let (value, flag) ← readable (readValue (trim after))
      let ignoresCase ← readable (readCaseFlag (trim flag))
      return ⟨name, some ⟨operator, String.ofList value, ignoresCase⟩⟩

/-- A 32-bit signed integer. -/
def readInt32? (s : List Char) : Option Int :=
  (Number.readInt? s).filter fun n => -(2 ^ 31) ≤ n && n < 2 ^ 31

/-- The coefficient before the `n` of a formula. -/
def readStep? (s : List Char) : Option Int :=
  match s with
  | [] => some 1
  | ['+'] => some 1
  | ['-'] => some (-1)
  | _ => readInt32? s

/-- The constant after the `n` of a formula. -/
def readOffset? (s : List Char) : Option Int :=
  match s with
  | [] => some 0
  | '+' :: rest => readInt32? rest
  | _ => readInt32? s

/-- Reads `even`, `odd`, a number, or a formula `an+b`; blanks and letter case do not count. -/
def readProgression? (raw : List Char) : Option Progression :=
  let s := lower (raw.filter (!isBlank ·))
  match String.ofList s with
  | "" => none
  | "even" => some ⟨2, 0⟩
  | "odd" => some ⟨2, 1⟩
  | _ =>
      match splitOnce 'n' s with
      | none => (readInt32? s).map fun offset => ⟨0, offset⟩
      | some (before, after) => do
          let step ← readStep? before
          let offset ← readOffset? after
          return ⟨step, offset⟩

/-- Pseudo-classes that depend on interaction. -/
def dynamicNames : List String :=
  ["hover", "focus", "focus-within", "focus-visible", "active", "visited", "link", "any-link",
    "enabled", "disabled", "checked", "target"]

/-- Pseudo-elements that may be written with one colon. -/
def elementNames : List String :=
  ["before", "after", "first-line", "first-letter"]

/-- The pseudo-class of a name without arguments. -/
def plainPseudoClass (name : String) : PseudoClass :=
  match name with
  | "root" => .root
  | "first-child" => .firstChild
  | "last-child" => .lastChild
  | "only-child" => .onlyChild
  | "first-of-type" => .firstOfType
  | "last-of-type" => .lastOfType
  | _ => if name ∈ dynamicNames then .dynamic name else .unsupported name

def functionalPseudoClass (name : String) (arguments : List Char) :
    Except SelectorError PseudoClass :=
  let positions := readable (readProgression? arguments)
  match name with
  | "nth-child" => positions.map .nthChild
  | "nth-last-child" => positions.map .nthLastChild
  | "nth-of-type" => positions.map .nthOfType
  | _ => .ok (if name ∈ dynamicNames then .dynamic name else .unsupported name)

/-- The tag a compound starts with, and what follows it. -/
def readTag : List Char → Option String × List Char
  | [] => (none, [])
  | c :: rest =>
      if c == '*' then (some "*", rest)
      else if isIdentChar c || c == '\\' then
        let (tag, after) := readIdent (c :: rest)
        (some (String.ofList (lower tag)), after)
      else (none, c :: rest)

theorem length_readTag_le (s : List Char) : (readTag s).2.length ≤ s.length := by
  cases s with
  | nil => simp [readTag]
  | cons c rest =>
      simp only [readTag]
      split
      · simp
      · split
        · exact length_readIdent_le _
        · simp

theorem length_trim_le (s : List Char) : (trim s).length ≤ s.length := by
  have left := (List.dropWhile_sublist isBlank (l := s)).length_le
  have right := (List.dropWhile_sublist isBlank (l := (trimLeft s).reverse)).length_le
  simp only [trim, trimRight, trimLeft, List.length_reverse] at *
  omega

/-- An identifier that may not be empty. -/
def requireIdent (ident : List Char) : Except SelectorError String :=
  if ident.isEmpty then .error .unreadable else .ok (String.ofList ident)

/-- What follows the colons of a pseudo-class or pseudo-element: its name in lower case, its
arguments if it has brackets, and the text after it. -/
structure PseudoText where
  doubled : Bool
  name : List Char
  arguments : Option (List Char)
  after : List Char

/-- Reads the name and the arguments of a pseudo-class or pseudo-element. -/
def readPseudoName (doubled : Bool) (s : List Char) : Except SelectorError PseudoText :=
  if (readIdent s).1.isEmpty then .error .unreadable
  else
    match (readIdent s).2 with
    | '(' :: inside =>
        match readBracket '(' ')' inside with
        | some (arguments, after) => .ok ⟨doubled, lower (readIdent s).1, some arguments, after⟩
        | none => .error .unreadable
    | after => .ok ⟨doubled, lower (readIdent s).1, none, after⟩

/-- Reads a pseudo-class or pseudo-element after its first colon. -/
def readPseudo : List Char → Except SelectorError PseudoText
  | ':' :: rest => readPseudoName true rest
  | s => readPseudoName false s

/-- The parts of a pseudo-class are no longer than its text. -/
def PseudoText.Within (p : PseudoText) (n : Nat) : Prop :=
  p.after.length ≤ n ∧ ∀ a, p.arguments = some a → a.length ≤ n

theorem within_of_readPseudoName {doubled : Bool} {s : List Char} {p : PseudoText}
    (h : readPseudoName doubled s = .ok p) : p.Within s.length := by
  have bound := length_readIdent_le s
  unfold readPseudoName at h
  split at h
  · simp at h
  · split at h
    · next inside same =>
        rw [same, List.length_cons] at bound
        split at h
        · next arguments after found =>
            have total := length_readBalanced found
            simp only [Except.ok.injEq] at h
            subst h
            refine ⟨by simp only; omega, fun a ha => ?_⟩
            simp only [Option.some.injEq] at ha
            subst ha
            omega
        · simp at h
    · simp only [Except.ok.injEq] at h
      subst h
      exact ⟨bound, by simp⟩

theorem within_of_readPseudo {s : List Char} {p : PseudoText} (h : readPseudo s = .ok p) :
    p.Within s.length := by
  unfold readPseudo at h
  split at h
  · have inner := within_of_readPseudoName h
    exact ⟨Nat.le_succ_of_le inner.1, fun a ha => Nat.le_succ_of_le (inner.2 a ha)⟩
  · exact within_of_readPseudoName h

mutual

def readCompound (s : List Char) : Except SelectorError Compound := do
  let start := trim s
  let compound ←
    readSimples { Compound.empty with tag := (readTag start).1 } (readTag start).2
  if compound.isEmpty then .error .unreadable else return compound
termination_by (s.length, 1)
decreasing_by
  have := length_trim_le s
  have := length_readTag_le (trim s)
  rcases Nat.lt_or_ge (readTag (trim s)).2.length s.length with less | same
  · exact Prod.Lex.left _ _ less
  · have equal : (readTag (trim s)).2.length = s.length := by omega
    rw [equal]
    exact Prod.Lex.right _ Nat.zero_lt_one

/-- Reads the simple selectors after the tag and adds them to a compound. -/
def readSimples (compound : Compound) (s : List Char) : Except SelectorError Compound :=
  match s with
  | [] => .ok compound
  | '#' :: rest => do
      let id ← requireIdent (readIdent rest).1
      readSimples { compound with ids := compound.ids ++ [id] } (readIdent rest).2
  | '.' :: rest => do
      let name ← requireIdent (readIdent rest).1
      readSimples { compound with classes := compound.classes ++ [name] } (readIdent rest).2
  | '[' :: rest =>
      match _found : readBracket '[' ']' rest with
      | none => .error .unreadable
      | some (inner, after) => do
          let test ← readAttribute inner
          readSimples { compound with attributes := compound.attributes ++ [test] } after
  | ':' :: rest =>
      if compound.pseudoElement.isSome then .error .unreadable
      else
        match _found : readPseudo rest with
        | .error e => .error e
        | .ok p =>
            let name := String.ofList p.name
            if p.doubled || name ∈ elementNames then
              readSimples { compound with pseudoElement := some name } p.after
            else
              let reading : Except SelectorError PseudoClass :=
                match _arguments : p.arguments with
                | none => .ok (plainPseudoClass name)
                | some arguments =>
                    if name = "not" then (readCompound arguments).map .not
                    else functionalPseudoClass name arguments
              reading.bind fun pseudo =>
                readSimples
                  { compound with pseudoClasses := compound.pseudoClasses ++ [pseudo] } p.after
  | _ => .error .unreadable
termination_by (s.length, 0)
decreasing_by
  · have := length_readIdent_le rest
    exact Prod.Lex.left _ _ (by simp only [List.length_cons]; omega)
  · have := length_readIdent_le rest
    exact Prod.Lex.left _ _ (by simp only [List.length_cons]; omega)
  · have := length_readBalanced _found
    exact Prod.Lex.left _ _ (by simp only [List.length_cons]; omega)
  · have := (within_of_readPseudo _found).1
    exact Prod.Lex.left _ _ (by simp only [List.length_cons]; omega)
  · have := (within_of_readPseudo _found).2 _ _arguments
    exact Prod.Lex.left _ _ (by simp only [List.length_cons]; omega)
  · have := (within_of_readPseudo _found).1
    exact Prod.Lex.left _ _ (by simp only [List.length_cons]; omega)

end

/-- What a left-to-right reader of a complex selector holds. -/
structure Scan where
  /-- What has been read, once there is a first compound. -/
  read : Option ComplexSelector := none
  /-- The combinator since the last compound; blanks alone make it the descendant combinator. -/
  pending : Option Combinator := none
  /-- The text of the current compound, in reverse. -/
  buffer : List Char := []
  nesting : Nesting := .top

namespace Scan

/-- Joins a compound on the right. -/
def join (scan : Scan) (compound : Compound) : Except SelectorError Scan :=
  match scan.read, scan.pending with
  | none, none => .ok { scan with read := some ⟨compound, []⟩, buffer := [] }
  | none, some _ => .error .unreadable
  | some left, pending =>
      let combinator := pending.getD .descendant
      let selector := ⟨compound, (combinator, left.subject) :: left.context⟩
      .ok { scan with read := some selector, pending := none, buffer := [] }

/-- Ends the current compound, if there is any text of it. -/
def flush (scan : Scan) : Except SelectorError Scan :=
  let text := trim scan.buffer.reverse
  if text.isEmpty then .ok { scan with buffer := [] }
  else do
    let compound ← readCompound text
    scan.join compound

def combinatorOf? : Char → Option Combinator
  | '>' => some .child
  | '+' => some .adjacentSibling
  | '~' => some .generalSibling
  | _ => none

/-- Whether a combinator other than blanks waits for its right side. -/
def isWaiting (scan : Scan) : Bool :=
  match scan.pending with
  | none => false
  | some combinator => combinator != .descendant

/-- Reads one character. Inside brackets and quotes all characters belong to the compound. -/
def step (scan : Scan) (c : Char) : Except SelectorError Scan :=
  if !scan.nesting.isTop then
    .ok { scan with
      nesting := scan.nesting.step .roundAndSquare c
      buffer := c :: scan.buffer }
  else
    match combinatorOf? c with
    | some combinator => do
        let scan ← scan.flush
        if scan.isWaiting then .error .unreadable
        else return { scan with pending := some combinator }
    | none =>
        if isBlank c then
          if (trim scan.buffer.reverse).isEmpty then .ok scan
          else do
            let scan ← scan.flush
            return { scan with pending := some .descendant }
        else
          .ok { scan with
            nesting := scan.nesting.step .roundAndSquare c
            buffer := c :: scan.buffer }

/-- Ends the selector. -/
def finish (scan : Scan) : Except SelectorError ComplexSelector :=
  if !scan.nesting.isTop then .error .unreadable
  else do
    let scan ← scan.flush
    if scan.isWaiting then .error .unreadable else readable scan.read

end Scan

/-- Reads compounds and the combinators between them. -/
def readComplex (s : List Char) : Except SelectorError ComplexSelector := do
  let scan ← (trim s).foldlM Scan.step {}
  scan.finish

end Selector

namespace SelectorGroup

def addMember (group : SelectorGroup) (member : List Char) : Except SelectorError SelectorGroup :=
  match Selector.readComplex member with
  | .ok selector => .ok { group with members := group.members ++ [selector] }
  | .error .unreadable => .ok { group with unparsed := group.unparsed + 1 }
  | .error .brokenCharacter => .error .brokenCharacter

/-- Reads a group; it is unreadable when no member can be read. -/
def read (text : String) : Except SelectorError SelectorGroup := do
  let group ← (splitTopLevel ',' text.toList).foldlM addMember ⟨[], 0⟩
  if group.members.isEmpty then .error .unreadable else return group

end SelectorGroup

/-- The specificity of a selector group; zero for one that cannot be read. -/
def specificityOf (text : String) : Except SelectorError Specificity :=
  match SelectorGroup.read text with
  | .ok group => .ok group.specificity
  | .error .unreadable => .ok .zero
  | .error .brokenCharacter => .error .brokenCharacter

end ComputedStyle
