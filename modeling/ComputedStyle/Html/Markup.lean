namespace ComputedStyle.Html

inductive Markup where
  | element (name : String) (attributes : List (String × String)) (children : List Markup)
  | text (value : String)
  /-- A comment, or another node that is neither an element nor a text; what it says is not kept. -/
  | comment

namespace Markup

def isElement : Markup → Bool
  | element _ _ _ => true
  | _ => false

end Markup

end ComputedStyle.Html
