import ComputedStyle.Text.Nesting

namespace ComputedStyle.Media

open Text

/-- The media type that a query names once `not` and `only` are taken off. -/
def typeOf (query : List Char) : List Char :=
  match query with
  | '(' :: _ => "all".toList
  | _ => (words isBlank query).head?.getD "all".toList

/-- Whether one query admits a printed snapshot; features are not evaluated. -/
def admits (query : List Char) : Bool :=
  let query := lower (trim query)
  let (negated, rest) :=
    match after? "not ".toList query with
    | some rest => (true, trimLeft rest)
    | none => (false, query)
  let rest := trimLeft ((after? "only ".toList rest).getD rest)
  let kind := String.ofList (typeOf rest)
  (kind == "all" || kind == "print") != negated

/-- Whether a list of queries admits a printed snapshot; an empty list does. -/
def applies (list : List Char) : Bool :=
  let list := trim list
  list.isEmpty || (splitTopLevel ',' list).any admits

end ComputedStyle.Media
