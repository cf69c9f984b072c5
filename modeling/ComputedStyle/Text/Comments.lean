import ComputedStyle.Syntax.Lexeme

namespace ComputedStyle.Text

open Syntax

/-- Leaves out every comment; an unclosed one reaches to the end. -/
def stripComments : List Char → List Char
  | [] => []
  | '/' :: '*' :: rest => stripComments (rest.drop (commentLength rest))
  | c :: rest => c :: stripComments rest
termination_by s => s.length
decreasing_by all_goals (simp only [List.length_cons, List.length_drop]; omega)

end ComputedStyle.Text
