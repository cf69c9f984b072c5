import Mathlib
import ComputedStyle.Html.Page

/-!
Pages by recursion.

`Markup.shown` takes out what is not copied, and `Document.copy` adds the rest below a parent. The
stack comes to the same tree and the same style sheets (`Page.copy_eq`): its top is copied with all
that is below it before anything else on it.
-/

namespace ComputedStyle

namespace Html.Markup

mutual
/-- What is shown of a node. -/
def shown : Markup → List Markup
  | element name attributes children =>
      [element name attributes
        (if hiddenNames.contains name.toLower then [] else shownAll children)]
  | text value => if value.toList.all Text.isBlank then [] else [text value]
  | comment => []

def shownAll : List Markup → List Markup
  | [] => []
  | node :: rest => shown node ++ shownAll rest
end

theorem shown_element (name : String) (attributes : List (String × String))
    (children : List Markup) :
    (element name attributes children).shown =
      [element name attributes
        (shownAll (if hiddenNames.contains name.toLower then [] else children))] := by
  rw [shown]
  split
  · rfl
  · rfl

mutual
def sheets : Markup → List String
  | element name _ children =>
      if name.toLower = "style" then [textOfAll children]
      else if hiddenNames.contains name.toLower then []
      else sheetsOfAll children
  | text _ => []
  | comment => []

def sheetsOfAll : List Markup → List String
  | [] => []
  | node :: rest => sheets node ++ sheetsOfAll rest
end

end Html.Markup

open Html

/-! The stack does what the recursion does. -/

namespace Document

mutual
/-- Adds a copy of a node under a parent; a text without one is left out. -/
def copy (parent : Option NodeId) : Document → Markup → Except DocumentError Document
  | doc, .element name attributes children => do
      let next ← doc.addElement parent name.toLower
      copyAll doc.size (← next.setAttributes doc.size attributes) children
  | doc, .text value =>
      match parent with
      | some p => doc.addText p value
      | none => .ok doc
  | doc, .comment => .ok doc

def copyAll (parent : NodeId) : Document → List Markup → Except DocumentError Document
  | doc, [] => .ok doc
  | doc, node :: rest => do copyAll parent (← copy (some parent) doc node) rest
end

theorem copyAll_eq_foldlM (parent : NodeId) (doc : Document) (nodes : List Markup) :
    copyAll parent doc nodes = nodes.foldlM (copy (some parent)) doc := by
  induction nodes generalizing doc with
  | nil => rfl
  | cons node rest ih =>
      rw [copyAll, List.foldlM_cons]
      congr 1
      funext next
      exact ih next

def copyShown (doc : Document) (entry : Markup × Option NodeId) : Except DocumentError Document :=
  entry.1.shown.foldlM (copy entry.2) doc

theorem copyAll_shownAll (parent : NodeId) (doc : Document) (nodes : List Markup) :
    copyAll parent doc (Markup.shownAll nodes) =
      (nodes.map (·, some parent)).foldlM copyShown doc := by
  rw [copyAll_eq_foldlM]
  induction nodes generalizing doc with
  | nil => rfl
  | cons node rest ih =>
      rw [Markup.shownAll, List.foldlM_append, List.map_cons, List.foldlM_cons, copyShown]
      congr 1
      funext next
      exact ih next

/-- The document of what is shown of a node. -/
def ofMarkup (root : Markup) : Except DocumentError Document :=
  copyShown empty (root, none)

end Document

theorem Document.copyShown_element (doc : Document) (name : String)
    (attributes : List (String × String)) (children : List Markup) (parent : Option NodeId) :
    doc.copyShown (.element name attributes children, parent) = (do
      let added ← doc.addElement parent name.toLower
      let ready ← added.setAttributes doc.size attributes
      (Page.under doc.size
        (if hiddenNames.contains name.toLower then [] else children)).foldlM copyShown ready) := by
  rw [copyShown, Markup.shown_element, List.foldlM_cons, copy]
  simp only [List.foldlM_nil, bind_pure]
  exact bind_congr fun added => bind_congr fun ready => copyAll_shownAll _ _ _

namespace Html.Page

/-- One element: what is on the stack after it, and the style sheet that it is. -/
theorem copy_element (page : Page) (name : String) (attributes : List (String × String))
    (children : List Markup) (parent : Option NodeId) (stack : List (Markup × Option NodeId))
    (free : ¬(parent.isNone && page.document.root?.isSome)) :
    page.copy ((.element name attributes children, parent) :: stack) = (do
      let added ← page.document.addElement parent name.toLower
      let ready ← added.setAttributes page.document.size attributes
      copy ⟨ready, page.sheets ++ if name.toLower = "style" then [Markup.textOfAll children] else []⟩
        (under page.document.size
          (if hiddenNames.contains name.toLower then [] else children) ++ stack)) := by
  rw [copy, if_neg free]
  refine bind_congr fun added => bind_congr fun ready => ?_
  split
  · rfl
  · next shown =>
      have other : name.toLower ≠ "style" := by
        intro same
        rw [same] at shown
        exact shown rfl
      rw [if_neg other, List.append_nil]

theorem isSome_of_mem_under {id : NodeId} {children : List Markup}
    {entry : Markup × Option NodeId} (member : entry ∈ under id children) : entry.2.isSome := by
  obtain ⟨_, _, rfl⟩ := List.mem_map.1 member
  rfl

theorem flatMap_sheets_under (id : NodeId) (children : List Markup) :
    (under id children).flatMap (·.1.sheets) = Markup.sheetsOfAll children := by
  rw [under, List.flatMap_map]
  induction children with
  | nil => rfl
  | cons child rest ih => rw [List.flatMap_cons, Markup.sheetsOfAll, ih]

theorem sheets_element (name : String) (attributes : List (String × String))
    (children : List Markup) (id : NodeId) :
    (Markup.element name attributes children).sheets =
      (if name.toLower = "style" then [Markup.textOfAll children] else []) ++
        (under id (if hiddenNames.contains name.toLower then [] else children)).flatMap
          (·.1.sheets) := by
  rw [flatMap_sheets_under, Markup.sheets]
  split
  · next same =>
      rw [same]
      rfl
  · split <;> rfl

theorem copy_eq (page : Page) (stack : List (Markup × Option NodeId))
    (below : ∀ entry ∈ stack, entry.2.isSome) :
    page.copy stack = do
      let document ← stack.foldlM Document.copyShown page.document
      return ⟨document, page.sheets ++ stack.flatMap (·.1.sheets)⟩ := by
  induction page, stack using copy.induct with
  | case1 page =>
      rw [copy, List.foldlM_nil, pure_bind, List.flatMap_nil, List.append_nil]
      rfl
  | case2 page name attributes children parent stack taken ih =>
      have inside := below _ List.mem_cons_self
      cases parent with
      | none => cases inside
      | some p => cases taken
  | case3 page name attributes children parent stack free tag id hidden shown =>
      have later := (List.forall_mem_cons.1 below).2
      rw [copy_element page name attributes children parent stack free, List.foldlM_cons,
        Document.copyShown_element, List.flatMap_cons, sheets_element name attributes children id]
      simp only [bind_assoc]
      refine bind_congr fun added => bind_congr fun ready => ?_
      rw [← bind_assoc, ← List.foldlM_append, List.append_assoc, ← List.flatMap_append,
        ← List.append_assoc page.sheets]
      by_cases content : hiddenNames.contains tag
      · rw [if_pos content]
        exact hidden ready later
      · have other : tag ≠ "style" := by
          intro same
          rw [same] at content
          exact content rfl
        rw [if_neg content, if_neg other, List.append_nil]
        refine shown ready fun entry member => ?_
        rcases List.mem_append.1 member with child | waiting
        · exact isSome_of_mem_under child
        · exact later entry waiting
  | case4 page value stack p blank ih =>
      rw [copy, if_pos blank, ih (List.forall_mem_cons.1 below).2, List.foldlM_cons,
        Document.copyShown, Markup.shown, if_pos blank]
      rfl
  | case5 page value stack p free ih =>
      rw [copy, if_neg free, List.foldlM_cons, Document.copyShown, Markup.shown, if_neg free,
        List.foldlM_cons, bind_assoc, bind_assoc]
      refine bind_congr fun added => ?_
      rw [List.foldlM_nil, pure_bind]
      exact ih added (List.forall_mem_cons.1 below).2
  | case6 page value stack ih => cases below _ List.mem_cons_self
  | case7 page parent stack ih =>
      rw [copy, ih (List.forall_mem_cons.1 below).2]
      rfl

/-- The root is added first, and there is no other node without a parent on the stack. -/
theorem copy_root {root : Markup} (element : root.isElement) :
    empty.copy [(root, none)] = do return ⟨← Document.ofMarkup root, root.sheets⟩ := by
  cases root with
  | element name attributes children =>
      rw [copy_element empty name attributes children none [] nofun, Document.ofMarkup,
        Document.copyShown_element, sheets_element name attributes children Document.empty.size]
      simp only [bind_assoc, List.append_nil]
      refine bind_congr fun added => bind_congr fun ready => ?_
      rw [copy_eq _ _ fun entry => isSome_of_mem_under]
      rfl
  | text value => cases element
  | comment => cases element

theorem ofNodes_of_find? {nodes : List Markup} {root : Markup}
    (found : nodes.find? Markup.isElement = some root) :
    ofNodes nodes = do return ⟨← Document.ofMarkup root, root.sheets⟩ := by
  rw [ofNodes, found]
  exact copy_root (List.find?_some found)

theorem ofNodes_of_not_isElement {nodes : List Markup}
    (missing : nodes.find? Markup.isElement = none) : ofNodes nodes = .ok empty := by
  rw [ofNodes, missing]

end Html.Page

end ComputedStyle
