import ComputedStyle.Document.Order

namespace ComputedStyle.Document

def textSegment : String := "#text"

/-- The last part of a path: a tag with the place among the elements, or the mark of a text with
the place among all children. The root has no place. -/
def segment (doc : Document) (id : NodeId) : String :=
  let name := (doc.tag? id).getD textSegment
  if doc.isRoot id then name
  else
    let place :=
      if doc.isElement id then (doc.position id).elementIndex else (doc.position id).childIndex
    name ++ "[" ++ toString place ++ "]"

def path (doc : Document) (id : NodeId) : String :=
  String.join ((id :: doc.ancestors id).reverse.map fun node => "/" ++ doc.segment node)

/-- One step of `paths`: the path of a node from that of its parent. -/
def addPath (doc : Document) (paths : Array String) (id : NodeId) : Array String :=
  let parent := ((doc.parent? id).bind (paths[·]?)).getD ""
  paths.modify id fun _ => parent ++ "/" ++ doc.segment id

/-- The path of every node, by number. -/
def paths (doc : Document) : Array String :=
  doc.preorder.foldl doc.addPath (Array.replicate doc.size "")

/-- The first node in document order with a path. -/
def find? (doc : Document) (path : String) : Option NodeId :=
  let paths := doc.paths
  doc.preorder.find? fun id => paths[id]? = some path

end ComputedStyle.Document
