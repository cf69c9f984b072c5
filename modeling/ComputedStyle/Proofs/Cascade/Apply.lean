import ComputedStyle.Proofs.Cascade.Matching
import ComputedStyle.Proofs.Document.Order

namespace ComputedStyle

namespace CascadeStats

theorem zero_add (a : CascadeStats) : add {} a = a := by
  simp [add]

theorem add_assoc (a b c : CascadeStats) : (a.add b).add c = a.add (b.add c) := by
  simp [add, Nat.add_assoc]

theorem foldl_add (all : List CascadeStats) (start : CascadeStats) :
    all.foldl add start = start.add (sum all) := by
  unfold sum
  induction all generalizing start with
  | nil => rfl
  | cons stats rest ih =>
      rw [List.foldl_cons, List.foldl_cons, ih, ih (add {} stats), zero_add, add_assoc]

theorem sum_cons (stats : CascadeStats) (rest : List CascadeStats) :
    sum (stats :: rest) = stats.add (sum rest) := by
  rw [sum, List.foldl_cons, foldl_add, zero_add]

theorem sum_append (some more : List CascadeStats) :
    sum (some ++ more) = (sum some).add (sum more) := by
  rw [sum, List.foldl_append, foldl_add]
  rfl

end CascadeStats

namespace Cascade

variable {set : RuleSet} {index : RuleIndex} {doc : Document}

theorem matchNodes_append (nodes more : List NodeId) :
    matchNodes set index doc (nodes ++ more) =
      ⟨(matchNodes set index doc nodes).results ++ (matchNodes set index doc more).results,
        (matchNodes set index doc nodes).stats.add (matchNodes set index doc more).stats⟩ := by
  simp [matchNodes, CascadeStats.sum_append]

theorem nodes_sum (nodes : List NodeId) :
    (CascadeStats.sum (nodes.map (statsOf set index doc))).nodes = nodes.length := by
  induction nodes with
  | nil => rfl
  | cons node rest ih =>
      rw [List.map_cons, CascadeStats.sum_cons, CascadeStats.add, ih, statsOf, List.length_cons]
      split <;> exact Nat.add_comm _ _

theorem elements_sum (nodes : List NodeId) :
    (CascadeStats.sum (nodes.map (statsOf set index doc))).elements =
      nodes.countP doc.isElement := by
  induction nodes with
  | nil => rfl
  | cons node rest ih =>
      rw [List.map_cons, CascadeStats.sum_cons, CascadeStats.add, ih, statsOf, List.countP_cons]
      split <;> exact Nat.add_comm _ _

/-- A node with declarations filled in. -/
def mergedNode (node : Node) (cascade : NodeCascade) : Node :=
  { node with declared := mergeDeclared node.declared cascade.declarations }

theorem links_mergedNode (cascade : NodeCascade) (node : Node) :
    (mergedNode node cascade).links = node.links := rfl

theorem content_mergedNode (cascade : NodeCascade) (node : Node) :
    (mergedNode node cascade).content = node.content := rfl

theorem mergeNode_eq_update (doc : Document) (result : NodeId × NodeCascade) :
    mergeNode doc result =
      doc.update result.1 (mergedNode · result.2) (links_mergedNode result.2) := rfl

theorem node?_mergeNode (result : NodeId × NodeCascade) (id : NodeId) :
    (mergeNode doc result).node? id =
      if id = result.1 then (doc.node? id).map (mergedNode · result.2) else doc.node? id := by
  rw [mergeNode_eq_update, Document.node?_update]

/-- Of distinct nodes each is merged once. -/
theorem node?_merge (cascade : NodeId → NodeCascade) {nodes : List NodeId} (distinct : nodes.Nodup)
    (doc : Document) (id : NodeId) :
    (merge doc (nodes.map fun node => (node, cascade node))).node? id =
      if id ∈ nodes then (doc.node? id).map (mergedNode · (cascade id)) else doc.node? id := by
  induction nodes generalizing doc with
  | nil => rfl
  | cons node rest ih =>
      obtain ⟨fresh, distinct⟩ := List.nodup_cons.1 distinct
      rw [List.map_cons, merge, List.foldl_cons, ← merge, ih distinct, node?_mergeNode]
      by_cases same : id = node
      · subst same
        simp [fresh]
      · simp [same]

theorem node?_apply (tree : doc.Consistent) (id : NodeId) :
    (apply set index doc).1.node? id =
      (doc.node? id).map (mergedNode · (ofNode set index doc id)) := by
  have merged := node?_merge (ofNode set index doc) tree.nodup_preorder doc id
  rw [apply, matchNodes]
  refine merged.trans ?_
  split
  · rfl
  · next outside =>
      rw [tree.mem_preorder, not_lt] at outside
      rw [Document.node?_eq_none outside, Option.map_none]

theorem declared_apply (tree : doc.Consistent) (id : NodeId) :
    (apply set index doc).1.declared id =
      mergeDeclared (doc.declared id) (ofNode set index doc id).declarations := by
  rw [Document.declared, Document.declared, node?_apply tree]
  cases found : doc.node? id with
  | none =>
      have text : doc.isElement id = false := by simp [Document.isElement, Document.tag?, found]
      rw [ofNode_of_text index text]
      rfl
  | some node => rfl

theorem get?_declared_apply (tree : doc.Consistent) (id : NodeId) (name : String) :
    ((apply set index doc).1.declared id).get? name =
      ((doc.declared id).get? name).or
        ((ofNode set index doc id).declarations.get? name) := by
  rw [declared_apply tree, mergeDeclared, Dictionary.get?_insertMissing]
  rfl

theorem size_merge (doc : Document) (results : List (NodeId × NodeCascade)) :
    (merge doc results).size = doc.size := by
  induction results generalizing doc with
  | nil => rfl
  | cons result rest ih =>
      rw [merge, List.foldl_cons, ← merge, ih, mergeNode_eq_update, Document.size_update]

theorem isElement_merge (doc : Document) (results : List (NodeId × NodeCascade)) (id : NodeId) :
    (merge doc results).isElement id = doc.isElement id := by
  induction results generalizing doc with
  | nil => rfl
  | cons result rest ih =>
      rw [merge, List.foldl_cons, ← merge, ih, mergeNode_eq_update, Document.isElement_eq_content,
        Document.content_update (content_mergedNode result.2), Document.isElement_eq_content]

theorem consistent_merge (tree : doc.Consistent) (results : List (NodeId × NodeCascade)) :
    (merge doc results).Consistent := by
  induction results generalizing doc with
  | nil => exact tree
  | cons result rest ih =>
      rw [merge, List.foldl_cons, ← merge, mergeNode_eq_update]
      exact ih (tree.update result.1 _ (links_mergedNode result.2) (content_mergedNode result.2))

/-- What a rule set makes of a tree: declared values stay, the others come from the rules that
decide them, and nothing else changes. -/
structure Applied (set : RuleSet) (doc next : Document) : Prop where
  kept : ∀ id name value, (doc.declared id).get? name = some value →
    (next.declared id).get? name = some value
  decided : ∀ id name, (doc.declared id).get? name = none →
    (∃ rule ∈ set.rules, rule.holdsFor doc id ∧ rule.declarations.contains name) →
    ∃ rule : Rule, rule.Decides set doc id name ∧
      (next.declared id).get? name = rule.declarations.get? name
  absent : ∀ id name, (doc.declared id).get? name = none →
    (∀ rule ∈ set.rules, rule.holdsFor doc id → rule.declarations.contains name = false) →
    (next.declared id).get? name = none
  rest : ∀ id, next.node? id =
    (doc.node? id).map fun node => { node with declared := next.declared id }
  texts : ∀ id, doc.isElement id = false → next.node? id = doc.node? id
  size : next.size = doc.size

theorem applied_apply (consistent : set.Consistent) (tree : doc.Consistent) :
    Applied set doc (apply set (.build set) doc).1 where
  kept id name value declared := by
    rw [get?_declared_apply tree, declared, Option.some_or]
  decided id name missing declaring := by
    rw [get?_declared_apply tree, missing, Option.none_or]
    obtain ⟨rule, member, holds, declares⟩ := declaring
    cases found : (ofNode set (.build set) doc id).declarations.get? name with
    | none =>
        have silent := silent_of_get? consistent tree found rule member holds
        rw [declares] at silent
        cases silent
    | some value =>
        obtain ⟨decider, decides, declared⟩ := decides_of_get? consistent tree found
        exact ⟨decider, decides, declared.symm⟩
  absent id name missing silent := by
    rw [get?_declared_apply tree, missing, Option.none_or]
    cases found : (ofNode set (.build set) doc id).declarations.get? name with
    | none => rfl
    | some value =>
        obtain ⟨rule, decides, _⟩ := decides_of_get? consistent tree found
        have never := silent rule decides.member decides.holds
        rw [decides.declares] at never
        cases never
  rest id := by
    rw [declared_apply tree, node?_apply tree]
    cases found : doc.node? id with
    | none => rfl
    | some node => simp [mergedNode, Document.declared, found]
  texts id text := by
    rw [node?_apply tree, ofNode_of_text _ text]
    cases doc.node? id with
    | none => rfl
    | some node => rfl
  size := size_merge doc _

theorem elements_apply (tree : doc.Consistent) :
    (apply set index doc).2.elements = doc.ids.countP doc.isElement :=
  (elements_sum doc.preorder).trans (tree.preorder_perm_ids.countP_eq _)

theorem nodes_apply (tree : doc.Consistent) : (apply set index doc).2.nodes = doc.size := by
  refine (nodes_sum doc.preorder).trans ?_
  rw [tree.preorder_perm_ids.length_eq, Document.ids, List.length_range]

/-- The cascade finds exactly the rules that match an element, in the order of their keys; what is
declared afterwards is what was declared before and what the strongest of them declare; and every
node and every element is counted once. -/
theorem apply_correct (edits : List Edit) (additions : List Addition) :
    let doc := Document.ofEdits edits
    let set := RuleSet.ofAdditions additions
    let index := RuleIndex.build set
    let (next, stats) := apply set index doc
    (∀ node, doc.isElement node →
      ∃ rules : List Rule, (ofNode set index doc node).matched = rules.map Rule.id ∧
        (∀ rule, rule ∈ rules ↔ rule ∈ set.rules ∧ rule.holdsFor doc node) ∧
        (rules.map Rule.id).Nodup ∧
        rules.Pairwise fun a b => a.cascadeKey < b.cascadeKey) ∧
      Applied set doc next ∧
      stats.nodes = doc.size ∧ stats.elements = doc.ids.countP doc.isElement := by
  intro doc set index
  have consistent := RuleSet.consistent_ofAdditions additions
  have tree := Document.consistent_ofEdits edits
  refine ⟨fun node element => ?_, applied_apply consistent tree, nodes_apply tree,
    elements_apply tree⟩
  exact ⟨rulesOf set doc node, matched_ofNode element, fun rule => mem_rulesOf consistent tree,
    nodup_rulesOf consistent, pairwise_rulesOf consistent⟩

end Cascade

end ComputedStyle
