import ComputedStyle.Html.Forest
import ComputedStyle.Proofs.Html.Scan

namespace ComputedStyle.Html

def Item.IsPlain : Item → Prop
  | element name _ => IsPlainName name.name
  | _ => True

namespace Forest

variable {forest : Forest}

def IsPlain (forest : Forest) : Prop :=
  ∀ (id : Nat) (place : Place), forest.places[id]? = some place → place.item.IsPlain

theorem isPlain_start : start.IsPlain := by
  intro id place own
  cases id with
  | zero =>
      cases own
      trivial
  | succ id => cases own

namespace IsPlain

variable (h : forest.IsPlain)

include h

theorem create {item : Item} (plain : item.IsPlain) : (forest.create item).IsPlain := by
  intro id place own
  rw [Forest.create, Array.getElem?_push] at own
  split at own
  · cases own
    exact plain
  · exact h id place own

theorem change (id : Nat) {f : Place → Place}
    (keeps : ∀ place, place.item.IsPlain → (f place).item.IsPlain) :
    (forest.change id f).IsPlain := by
  intro other place own
  rw [Forest.change, Array.getElem?_modify] at own
  split at own
  · obtain ⟨before, found, rfl⟩ := Option.map_eq_some_iff.1 own
    exact keeps before (h other before found)
  · exact h other place own

/-- A move gives one node other children, and another node another parent. -/
theorem move (p id : Nat) (children : Place → List Nat) (parent : Option Nat) :
    ((forest.change p fun place => { place with children := children place }).change id
      fun place => { place with parent }).IsPlain := by
  apply IsPlain.change
  · exact h.change p fun _ plain => plain
  · exact fun _ plain => plain

theorem detach (id : Nat) : (forest.detach id).IsPlain := by
  unfold Forest.detach
  split
  · exact h
  · exact h.move _ id _ none

theorem append (parent id : Nat) : (forest.append parent id).IsPlain :=
  (h.detach id).move parent id _ (some parent)

theorem insertBefore (sibling id : Nat) : (forest.insertBefore sibling id).IsPlain := by
  simp only [Forest.insertBefore]
  split
  · exact h.detach id
  · exact (h.detach id).move _ id _ _

theorem extendText (id : Nat) (c : Char) : (forest.extendText id c).IsPlain := by
  apply h.change
  intro place plain
  split
  · trivial
  · exact plain

theorem appendCharacter (parent : Nat) (c : Char) : (forest.appendCharacter parent c).IsPlain := by
  unfold Forest.appendCharacter
  split
  · exact h.extendText _ c
  · exact (h.create (by trivial)).append parent _

theorem insertCharacter (sibling : Nat) (c : Char) :
    (forest.insertCharacter sibling c).IsPlain := by
  unfold Forest.insertCharacter
  split
  · exact h.extendText _ c
  · exact (h.create (by trivial)).insertBefore sibling _

theorem moveChildren (source target : Nat) : (forest.moveChildren source target).IsPlain := by
  unfold Forest.moveChildren
  generalize forest.children source = moved
  induction moved generalizing forest with
  | nil => exact h
  | cons child rest ih => exact ih (h.append target child)

theorem addMissing (id : Nat) (tag : Tag) : (forest.addMissing id tag).IsPlain := by
  apply h.change
  intro place plain
  split
  · next element =>
      rw [element] at plain
      exact plain
  · exact plain

end IsPlain

end Forest

inductive Markup.IsPlain : Markup → Prop
  | element {name : String} {attributes : List (String × String)} {children : List Markup}
      (own : IsPlainName name) (below : ∀ child ∈ children, child.IsPlain) :
      (Markup.element name attributes children).IsPlain
  | text (value : String) : (Markup.text value).IsPlain
  | comment : Markup.comment.IsPlain

namespace Forest.IsPlain

variable {forest : Forest} (h : forest.IsPlain)

include h

theorem markup (depth id : Nat) : (forest.markup depth id).IsPlain := by
  induction depth generalizing id with
  | zero => exact .comment
  | succ depth ih =>
      rw [Forest.markup]
      split
      · next item =>
          obtain ⟨place, own, same⟩ := Option.map_eq_some_iff.1 item
          have plain := h id place own
          rw [same] at plain
          refine .element plain fun child member => ?_
          obtain ⟨below, _, rfl⟩ := List.mem_map.1 member
          exact ih below
      · exact .text _
      · exact .comment

theorem document : ∀ node ∈ forest.document, node.IsPlain := by
  intro node member
  obtain ⟨id, _, rfl⟩ := List.mem_map.1 member
  exact h.markup forest.size id

end Forest.IsPlain

end ComputedStyle.Html
