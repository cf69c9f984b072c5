import ComputedStyle.Proofs.Cascade.Apply
import ComputedStyle.Proofs.Selector.Markup

/-!
Matching and merging node by node.

A merge writes declarations only and matching reads none, so a tree in which some nodes are merged
already matches as the tree before (`ofNode_markup`). Taking the nodes one at a time, in any order,
then comes to what matching all of them first does.
-/

namespace ComputedStyle

theorem Document.eq_of_node? {doc next : Document} (same : ∀ id, doc.node? id = next.node? id) :
    doc = next := by
  cases doc
  cases next
  congr
  exact Array.ext_getElem? same

theorem CascadeStats.sum_perm {some more : List CascadeStats} (perm : some.Perm more) :
    sum some = sum more := by
  refine perm.foldl_eq' (fun a _ b _ total => ?_) _
  simp only [add, Nat.add_right_comm]

namespace Cascade

/-- Matches one node in the tree as it is and merges what it finds at once. -/
def applyAt (set : RuleSet) (index : RuleIndex) (state : Document × CascadeStats) (node : NodeId) :
    Document × CascadeStats :=
  let (doc, stats) := state
  (mergeNode doc (node, ofNode set index doc node), stats.add (statsOf set index doc node))

/-- The cascade over some nodes of a tree, one after another. -/
def applyInTurn (set : RuleSet) (index : RuleIndex) (doc : Document) (order : List NodeId) :
    Document × CascadeStats :=
  order.foldl (applyAt set index) (doc, {})

section Markup

variable {doc next : Document}

theorem matching_markup (same : doc.SameMarkup next) (set : RuleSet) (index : RuleIndex)
    (node : NodeId) : matching set index next node = matching set index doc node := by
  simp only [matching, index.candidates_markup same, Rule.holdsFor_markup same]

theorem ofNode_markup (same : doc.SameMarkup next) (set : RuleSet) (index : RuleIndex)
    (node : NodeId) : ofNode set index next node = ofNode set index doc node := by
  simp only [ofNode, same.isElement, matching_markup same]

theorem statsOf_markup (same : doc.SameMarkup next) (set : RuleSet) (index : RuleIndex)
    (node : NodeId) : statsOf set index next node = statsOf set index doc node := by
  simp only [statsOf, same.isElement, index.candidates_markup same, matching_markup same]

theorem sameMarkup_mergeNode (same : doc.SameMarkup next) (result : NodeId × NodeCascade) :
    doc.SameMarkup (mergeNode next result) :=
  same.updateDeclared result.1 _

end Markup

section Turns

variable {set : RuleSet} {index : RuleIndex} {doc next : Document}

theorem foldl_applyAt (same : doc.SameMarkup next) (stats : CascadeStats) (order : List NodeId) :
    order.foldl (applyAt set index) (next, stats) =
      (merge next (matchNodes set index doc order).results,
        stats.add (matchNodes set index doc order).stats) := by
  induction order generalizing next stats with
  | nil => rfl
  | cons node rest ih =>
      have first : applyAt set index (next, stats) node =
          (mergeNode next (node, ofNode set index doc node),
            stats.add (statsOf set index doc node)) := by
        rw [applyAt, ofNode_markup same, statsOf_markup same]
      rw [List.foldl_cons, first, ih (sameMarkup_mergeNode same _), CascadeStats.add_assoc]
      simp only [matchNodes, List.map_cons, CascadeStats.sum_cons]
      rfl

theorem applyInTurn_eq (order : List NodeId) :
    applyInTurn set index doc order =
      (merge doc (matchNodes set index doc order).results,
        (matchNodes set index doc order).stats) := by
  rw [applyInTurn, foldl_applyAt (.refl doc), CascadeStats.zero_add]

theorem merge_perm {nodes more : List NodeId} (perm : nodes.Perm more) (distinct : nodes.Nodup) :
    merge doc (matchNodes set index doc nodes).results =
      merge doc (matchNodes set index doc more).results := by
  refine Document.eq_of_node? fun id => ?_
  rw [matchNodes, matchNodes, node?_merge _ distinct, node?_merge _ (perm.nodup distinct)]
  simp only [perm.mem_iff]

theorem stats_perm {nodes more : List NodeId} (perm : nodes.Perm more) :
    (matchNodes set index doc nodes).stats = (matchNodes set index doc more).stats :=
  CascadeStats.sum_perm (perm.map _)

/-- Trees that differ in styles alone have the same cascade at every node; so nodes that are matched
and merged one at a time, in any order, leave the tree and the counts that matching all of them
first leaves. -/
theorem applyInTurn_eq_apply (edits : List Edit) (set : RuleSet) (index : RuleIndex) :
    let doc := Document.ofEdits edits
    (∀ order : List NodeId, order.Perm doc.ids →
      applyInTurn set index doc order = apply set index doc) ∧
      ∀ a b : Document, a.SameMarkup b → ∀ node,
        ofNode set index b node = ofNode set index a node ∧
          statsOf set index b node = statsOf set index a node := by
  intro doc
  have tree := Document.consistent_ofEdits edits
  refine ⟨fun order perm => ?_, fun a b same node => ?_⟩
  · have perm : order.Perm doc.preorder := perm.trans tree.preorder_perm_ids.symm
    have distinct : order.Nodup := perm.symm.nodup tree.nodup_preorder
    rw [applyInTurn_eq, merge_perm perm distinct, stats_perm perm]
    rfl
  · exact ⟨ofNode_markup same set index node, statsOf_markup same set index node⟩

/-- Children before their parent; and what an element declares is no attribute of it. -/
theorem applyInTurn_eq_apply_backwards :
    let doc := Document.ofEdits [.addElement none "p", .addElement (some 0) "b",
      .setAttribute 1 "style" "color: red"]
    let set := RuleSet.ofAdditions [.rule "p > b[style]" (.ofList [("width", "1px")]) .author]
    let index := RuleIndex.build set
    let bare := doc.updateDeclared 1 fun _ => .empty
    ([1, 0].Perm doc.ids ∧ doc.SameMarkup bare) ∧
      applyInTurn set index doc [1, 0] = apply set index doc ∧
      ofNode set index bare 1 = ofNode set index doc 1 := by
  intro doc set index bare
  have order : [1, 0].Perm doc.ids := by decide +kernel
  have same : doc.SameMarkup bare := (Document.SameMarkup.refl doc).updateDeclared 1 _
  obtain ⟨turns, alike⟩ := applyInTurn_eq_apply [.addElement none "p", .addElement (some 0) "b",
    .setAttribute 1 "style" "color: red"] set index
  exact ⟨⟨order, same⟩, turns [1, 0] order, (alike doc bare same 1).1⟩

end Turns

end Cascade

end ComputedStyle
