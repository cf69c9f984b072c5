import ComputedStyle.Document
import ComputedStyle.Html.Parse

namespace ComputedStyle

namespace Html

/-- Elements whose content is not shown. -/
def hiddenNames : List String := ["style", "script", "template", "noscript"]

namespace Markup

mutual
/-- The text of a node and of all that is below it. -/
def textContent : Markup → String
  | element _ _ children => textOfAll children
  | text value => value
  | comment => ""

def textOfAll : List Markup → String
  | [] => ""
  | node :: rest => textContent node ++ textOfAll rest
end

mutual
/-- How many nodes there are in a node and below it. -/
def size : Markup → Nat
  | element _ _ children => sizeOfAll children + 1
  | text _ => 1
  | comment => 1

def sizeOfAll : List Markup → Nat
  | [] => 0
  | node :: rest => size node + sizeOfAll rest
end

theorem sizeOfAll_append (nodes rest : List Markup) :
    sizeOfAll (nodes ++ rest) = sizeOfAll nodes + sizeOfAll rest := by
  induction nodes with
  | nil => rw [List.nil_append, sizeOfAll, Nat.zero_add]
  | cons node nodes ih => rw [List.cons_append, sizeOfAll, sizeOfAll, ih, Nat.add_assoc]

end Markup

end Html

open Html

/-- Sets attributes of a node one after another. -/
def Document.setAttributes (doc : Document) (id : NodeId) (attributes : List (String × String)) :
    Except DocumentError Document :=
  attributes.foldlM (fun doc (name, value) => doc.setAttribute id name value) doc

namespace Html

structure Page where
  document : Document
  sheets : List String

namespace Page

def empty : Page := ⟨.empty, []⟩

/-- The children of a node, to be copied under its copy. -/
def under (id : NodeId) (children : List Markup) : List (Markup × Option NodeId) :=
  children.map (·, some id)

theorem map_fst_under (id : NodeId) (children : List Markup) :
    (under id children).map Prod.fst = children := by
  simp [under, Function.comp_def]

/-- Copies the nodes of a stack, each with the parent of its copy: takes one off and puts its children
on in its place. A node without a parent is copied only if there is no root yet, and a text only under
a parent. -/
def copy (page : Page) : List (Markup × Option NodeId) → Except DocumentError Page
  | [] => .ok page
  | (.element name attributes children, parent) :: stack =>
      if parent.isNone && page.document.root?.isSome then page.copy stack
      else do
        let tag := name.toLower
        let id := page.document.size
        let document ← page.document.addElement parent tag
        let document ← document.setAttributes id attributes
        if hiddenNames.contains tag then
          let sheets := if tag = "style" then [Markup.textOfAll children] else []
          copy ⟨document, page.sheets ++ sheets⟩ stack
        else copy ⟨document, page.sheets⟩ (under id children ++ stack)
  | (.text value, parent) :: stack =>
      match parent with
      | some p =>
          if value.toList.all Text.isBlank then page.copy stack
          else do copy ⟨← page.document.addText p value, page.sheets⟩ stack
      | none => page.copy stack
  | (.comment, _) :: stack => page.copy stack
termination_by stack => Markup.sizeOfAll (stack.map Prod.fst)
decreasing_by
  all_goals
    simp only [List.map_cons, List.map_append, map_fst_under, Markup.sizeOfAll,
      Markup.sizeOfAll_append, Markup.size]
    omega

/-- The page of the first element among some nodes. -/
def ofNodes (nodes : List Markup) : Except DocumentError Page :=
  match nodes.find? Markup.isElement with
  | some root => empty.copy [(root, none)]
  | none => .ok empty

def read (text : String) : Except DocumentError Page :=
  ofNodes (parse text)

end Page

end Html

end ComputedStyle
