import ComputedStyle.Document.Path
import ComputedStyle.RuleSet.Index

/-!
The cascade: which rules match a node, and what they declare for it.

Matching reads the tree and its attributes but no style, so all nodes can be matched first and the
declarations merged afterwards.
-/

namespace ComputedStyle

/-- The rules that match a node, weakest first, and what they declare together. -/
structure NodeCascade where
  matched : List RuleId
  declarations : StyleMap
deriving DecidableEq

/-- What a run of the cascade counted. -/
structure CascadeStats where
  nodes : Nat := 0
  elements : Nat := 0
  candidates : Nat := 0
  matched : Nat := 0
deriving DecidableEq, Repr

namespace CascadeStats

def add (a b : CascadeStats) : CascadeStats :=
  ⟨a.nodes + b.nodes, a.elements + b.elements, a.candidates + b.candidates,
    a.matched + b.matched⟩

def sum (all : List CascadeStats) : CascadeStats :=
  all.foldl add {}

end CascadeStats

namespace Cascade

/-- The candidates that match, still in their order in the set. -/
def matching (set : RuleSet) (index : RuleIndex) (doc : Document) (node : NodeId) : List Rule :=
  ((index.candidates doc node).filterMap set.get?).filter (·.holdsFor doc node)

/-- Sorts by origin and specificity; rules that are equal in both stay in their order. -/
def inOrder (rules : List Rule) : List Rule :=
  rules.mergeSort fun a b => !b.weaker a

/-- What rules declare together; a later rule replaces an earlier one. -/
def declarationsOf (rules : List Rule) : StyleMap :=
  rules.foldl (fun style rule => style.extend rule.declarations) Dictionary.empty

def ofNode (set : RuleSet) (index : RuleIndex) (doc : Document) (node : NodeId) : NodeCascade :=
  if doc.isElement node then
    let rules := inOrder (matching set index doc node)
    ⟨rules.map Rule.id, declarationsOf rules⟩
  else ⟨[], .empty⟩

/-- What the cascade of one node counts. -/
def statsOf (set : RuleSet) (index : RuleIndex) (doc : Document) (node : NodeId) :
    CascadeStats :=
  if doc.isElement node then
    ⟨1, 1, (index.candidates doc node).length, (matching set index doc node).length⟩
  else ⟨1, 0, 0, 0⟩

/-- The cascades of some nodes of a tree, with what they count. -/
structure Batch where
  results : List (NodeId × NodeCascade)
  stats : CascadeStats
deriving DecidableEq

def matchNodes (set : RuleSet) (index : RuleIndex) (doc : Document) (nodes : List NodeId) :
    Batch :=
  ⟨nodes.map fun node => (node, ofNode set index doc node),
    .sum (nodes.map (statsOf set index doc))⟩

/-- Declared values stay; matched ones fill in what is missing. -/
def mergeDeclared (declared matched : StyleMap) : StyleMap :=
  declared.insertMissing matched.entries

def mergeNode (doc : Document) (result : NodeId × NodeCascade) : Document :=
  doc.updateDeclared result.1 fun declared => mergeDeclared declared result.2.declarations

def merge (doc : Document) (results : List (NodeId × NodeCascade)) : Document :=
  results.foldl mergeNode doc

/-- The cascade over a whole tree. -/
def apply (set : RuleSet) (index : RuleIndex) (doc : Document) : Document × CascadeStats :=
  let batch := matchNodes set index doc doc.preorder
  (merge doc batch.results, batch.stats)

end Cascade

end ComputedStyle
