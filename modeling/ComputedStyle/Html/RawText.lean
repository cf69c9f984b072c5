import ComputedStyle.Html.Tag

/-!
Text that holds no markup.

Inside some elements everything up to their own end tag is text. A script may hold such an end tag
inside what looks like a comment.
-/

namespace ComputedStyle.Html

open Text

/-- How the text of an element is read. -/
inductive ContentModel where
  | markup
  /-- Text up to the end tag of the element. -/
  | raw (element : String)
  /-- As `raw`, with references replaced. -/
  | escapable (element : String)
  | script
  /-- Text to the end. -/
  | plain
deriving DecidableEq, Repr

/-- A text cut in two. -/
structure Split where
  text : List Char
  rest : List Char
deriving DecidableEq, Repr

namespace Split

def push (c : Char) (split : Split) : Split :=
  { split with text := c :: split.text }

end Split

/-- Whether a slash and a name with an end follow. -/
def closes (element : String) : List Char → Bool
  | '/' :: s =>
      let count := element.toList.length
      lower (s.take count) == element.toList && (s.drop count).head?.any endsTagName
  | _ => false

/-- Cuts a text before the end tag of an element. -/
def rawText (element : String) : List Char → Split
  | [] => ⟨[], []⟩
  | c :: s =>
      if c == '<' && closes element s then ⟨[], c :: s⟩ else (rawText element s).push c

/-- Where the text of a script stands. The dashes are those just before. -/
inductive ScriptState where
  | plain
  /-- In a comment. -/
  | escaped (dashes : Nat)
  /-- In a script inside a comment; its end tag does not end the text. -/
  | nested (dashes : Nat)
deriving DecidableEq, Repr

/-- Whether the name of a script with an end follows. -/
def opensScript (s : List Char) : Bool :=
  closes "script" ('/' :: s)

/-- The state after a character that does not end the text. -/
def ScriptState.next (c : Char) (s : List Char) : ScriptState → ScriptState
  | plain => if c == '<' && ['!', '-', '-'].isPrefixOf s then escaped 0 else plain
  | escaped dashes =>
      if c == '-' then escaped (dashes + 1)
      else if c == '>' && 2 ≤ dashes then plain
      else if c == '<' && opensScript s then nested 0
      else escaped 0
  | nested dashes =>
      if c == '-' then nested (dashes + 1)
      else if c == '>' && 2 ≤ dashes then plain
      else if c == '<' && closes "script" s then escaped 0
      else nested 0

/-- Whether an end tag ends the text here. -/
def ScriptState.canEnd : ScriptState → Bool
  | plain => true
  | escaped _ => true
  | nested _ => false

/-- Cuts the text of a script before its end tag. -/
def scriptText : ScriptState → List Char → Split
  | _, [] => ⟨[], []⟩
  | state, c :: s =>
      if state.canEnd && c == '<' && closes "script" s then ⟨[], c :: s⟩
      else (scriptText (state.next c s) s).push c

theorem length_rawText_le (element : String) (s : List Char) :
    (rawText element s).rest.length ≤ s.length := by
  induction s with
  | nil => exact Nat.le_refl _
  | cons c s ih =>
      unfold rawText
      split
      · exact Nat.le_refl _
      · exact Nat.le_succ_of_le ih

theorem length_scriptText_le (state : ScriptState) (s : List Char) :
    (scriptText state s).rest.length ≤ s.length := by
  induction s generalizing state with
  | nil => exact Nat.le_refl _
  | cons c s ih =>
      unfold scriptText
      split
      · exact Nat.le_refl _
      · exact Nat.le_succ_of_le (ih _)

/-- A text without characters that stand for nothing. -/
def withoutNull (s : List Char) : List Char :=
  s.map fun c => if c = Char.ofNat 0 then replacement else c

/-- Cuts off the text that a model lets stand. -/
def ContentModel.split : ContentModel → List Char → Split
  | markup, s => ⟨[], s⟩
  | raw element, s =>
      let split := rawText element s
      ⟨withoutNull split.text, split.rest⟩
  | escapable element, s =>
      let split := rawText element s
      ⟨decodeReferences false (withoutNull split.text), split.rest⟩
  | script, s =>
      let split := scriptText .plain s
      ⟨withoutNull split.text, split.rest⟩
  | plain, s => ⟨withoutNull s, []⟩

theorem ContentModel.length_split_le (model : ContentModel) (s : List Char) :
    (model.split s).rest.length ≤ s.length := by
  cases model with
  | markup => exact Nat.le_refl _
  | raw element => exact length_rawText_le element s
  | escapable element => exact length_rawText_le element s
  | script => exact length_scriptText_le .plain s
  | plain => exact Nat.zero_le _

end ComputedStyle.Html
