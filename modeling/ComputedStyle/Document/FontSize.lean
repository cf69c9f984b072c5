import ComputedStyle.Document.Order
import ComputedStyle.Length.Units

namespace ComputedStyle.Document

/-- A reader of texts of sizes, which may be relative to lengths of the context. -/
abbrev SizeReader := LengthContext → String → Option Length

/-- The size of a node from its declared text, the parent's size and the root's, which is missing for
the root itself. -/
def fontSizeStep (read : SizeReader) (declared : Option String) (parent : Length)
    (root : Option Length) : Length :=
  match declared.map fun raw => (Text.trimmed raw).toLower with
  | none => parent
  | some "inherit" => parent
  | some "unset" => parent
  | some "initial" => defaultFontSize
  | some raw => (read { parentFontSize := some parent, rootFontSize := root } raw).getD parent

/-- Sizes by node, and the root's once it is known. -/
structure FontSizes where
  sizes : Array Length
  root : Option Length

/-- Sets the size of one node from that of its parent. -/
def addFontSize (doc : Document) (read : SizeReader) (known : FontSizes) (id : NodeId) :
    FontSizes :=
  let parent := ((doc.parent? id).bind (known.sizes[·]?)).getD defaultFontSize
  let size := fontSizeStep read ((doc.declared id).get? "font-size") parent known.root
  { sizes := known.sizes.modify id fun _ => size
    root := if doc.isRoot id then some size else known.root }

/-- The font size of every node, by number, with a reader of sizes. -/
def fontSizesBy (doc : Document) (read : SizeReader) : Array Length :=
  (doc.preorder.foldl (doc.addFontSize read)
    { sizes := Array.replicate doc.size defaultFontSize, root := none }).sizes

/-- The font size of every node, by number. -/
def fontSizes (doc : Document) : Array Length :=
  doc.fontSizesBy Length.readFontSize?

end ComputedStyle.Document
