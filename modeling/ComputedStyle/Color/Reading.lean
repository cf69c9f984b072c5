import ComputedStyle.Color.Function
import ComputedStyle.Color.Named
import ComputedStyle.Dictionary
import ComputedStyle.Syntax.Component
import ComputedStyle.Text.Blank

namespace ComputedStyle.Color

open Syntax

/-- Three, four, six or eight hexadecimal digits. -/
def ofHex? (digits : List Char) : Option Paint :=
  if digits.all isHexDigit then
    match digits.map hexValue with
    | [r, g, b] => some (.bytes ⟨17 * r, 17 * g, 17 * b, 255⟩)
    | [r, g, b, a] => some (.bytes ⟨17 * r, 17 * g, 17 * b, 17 * a⟩)
    | [r, r', g, g', b, b'] => some (.bytes ⟨16 * r + r', 16 * g + g', 16 * b + b', 255⟩)
    | [r, r', g, g', b, b', a, a'] =>
        some (.bytes ⟨16 * r + r', 16 * g + g', 16 * b + b', 16 * a + a'⟩)
    | _ => none
  else none

/-- The names of the colors of the system and of the text around. -/
def contextualNames : List String :=
  ["currentcolor", "accentcolor", "accentcolortext", "activetext", "buttonborder", "buttonface",
    "buttontext", "canvas", "canvastext", "field", "fieldtext", "graytext", "highlight",
    "highlighttext", "linktext", "mark", "marktext", "selecteditem", "selecteditemtext",
    "visitedtext", "activeborder", "activecaption", "appworkspace", "background",
    "buttonhighlight", "buttonshadow", "captiontext", "inactiveborder", "inactivecaption",
    "inactivecaptiontext", "infobackground", "infotext", "menu", "menutext", "scrollbar",
    "threeddarkshadow", "threedface", "threedhighlight", "threedlightshadow", "threedshadow",
    "window", "windowframe", "windowtext"]

/-- The color a name stands for. -/
def ofName? (name : List Char) : Option Paint :=
  let word := lowerWord name
  if word = "transparent" then some (.bytes ⟨0, 0, 0, 0⟩)
  else
    match named? word with
    | some n => some (.bytes ⟨n / 0x10000, n / 0x100 % 0x100, n % 0x100, 255⟩)
    | none => if contextualNames.contains word then some .contextual else none

def ofToken? : Token → Option Paint
  | .hash digits => ofHex? digits
  | .name name => ofName? name
  | _ => none

mutual

/-- A component with what it stands for. -/
def Argument.ofComponent : Component → Argument
  | .single lexeme =>
      { token := lexeme.token
        amount := fun _ _ => none
        color := readable ((ofToken? lexeme.token).map .plain) }
  | .block opener contents _ =>
      let arguments := Argument.listOf contents
      let color : Except ColorError Written :=
        match opener.token with
        | .function name => ofFunction name arguments
        | _ => .error .unreadable
      { Operand.ofBlock opener.token (arguments.map Argument.toOperand) with color }

/-- The components of a list that are not comments, with what they stand for. -/
def Argument.listOf : List Component → Arguments
  | [] => []
  | c :: rest =>
      let arguments := Argument.listOf rest
      if c.token = .comment then arguments else Argument.ofComponent c :: arguments

end

/-- The color that a text is written as. -/
def Written.read (raw : String) : Except ColorError Written :=
  match (Component.read (Text.trim raw.toList)).filter fun c => !c.isBlankOrComment with
  | [c] => (Argument.ofComponent c).color
  | _ => .error .unreadable

/-- The color a text stands for, laid over white where it is see-through; none for a text that is no
color or one whose color depends on what is around it. -/
def read? (raw : String) : Except ColorError (Option Color) :=
  match Written.read raw with
  | .ok written => .ok written.shown?
  | .error .unreadable => .ok none
  | .error .openPercentage => .error .openPercentage

/-- The color of a property; another one where it is missing or no color. -/
def ofProperty (style : StyleMap) (name : String) (other : Color) : Except ColorError Color :=
  match style.get? name with
  | none => .ok other
  | some raw => do return (← read? raw).getD other

/-- The color of the text of an element, which its borders take where they have none. -/
def ofText (style : StyleMap) : Except ColorError Color :=
  ofProperty style "color" black

end ComputedStyle.Color
