import ComputedStyle.Document

namespace ComputedStyle.Document

/-- The ancestors of a node, nearest first. -/
def ancestors (doc : Document) (id : NodeId) : List NodeId :=
  match _parent : doc.parent? id with
  | some p => p :: doc.ancestors p
  | none => []
termination_by id
decreasing_by exact parent?_lt _parent

/-- The elements before a node among its siblings, nearest first. -/
def precedingElements (doc : Document) (id : NodeId) : List NodeId :=
  match _previous : doc.previousElement? id with
  | some p => p :: doc.precedingElements p
  | none => []
termination_by id
decreasing_by exact previousElement?_lt _previous

/-- A node and everything below it, parents before children. -/
def subtree (doc : Document) (id : NodeId) : List NodeId :=
  id :: (doc.children id).attach.flatMap fun ⟨child, _⟩ => doc.subtree child
termination_by doc.size - id
decreasing_by
  rename_i mem
  have := children_range mem
  simp only [NodeId] at *
  omega

theorem subtree_eq (doc : Document) (id : NodeId) :
    doc.subtree id = id :: (doc.children id).flatMap doc.subtree := by
  rw [subtree]
  congr 1
  conv => rhs; rw [← List.attach_map_subtype_val (doc.children id)]
  rw [List.flatMap_map]

/-- Lists the nodes below a stack of nodes: takes one off and puts its children on in its place. -/
def walk (doc : Document) : List NodeId → List NodeId
  | [] => []
  | id :: stack => id :: walk doc (doc.children id ++ stack)
termination_by stack => (stack.flatMap doc.subtree).length
decreasing_by
  rw [List.flatMap_append, List.flatMap_cons, subtree_eq doc id]
  simp only [List.length_append, List.length_cons]
  omega

def preorder (doc : Document) : List NodeId :=
  doc.walk doc.root?.toList

theorem walk_eq_flatMap_subtree (doc : Document) (stack : List NodeId) :
    doc.walk stack = stack.flatMap doc.subtree := by
  fun_induction walk doc stack with
  | case1 => rfl
  | case2 id stack ih =>
      rw [ih, List.flatMap_append, List.flatMap_cons, subtree_eq doc id]
      rfl

theorem preorder_eq_subtree (doc : Document) :
    doc.preorder = doc.root?.toList.flatMap doc.subtree :=
  walk_eq_flatMap_subtree doc _

def elements (doc : Document) : List NodeId :=
  doc.preorder.filter doc.isElement

def withTag (doc : Document) (tag : String) : List NodeId :=
  doc.preorder.filter fun id => doc.tag? id = some tag

end ComputedStyle.Document
