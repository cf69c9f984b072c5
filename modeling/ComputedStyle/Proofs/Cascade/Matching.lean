import ComputedStyle.Proofs.Cascade.Order
import ComputedStyle.Proofs.Dictionary

namespace ComputedStyle

/-- A rule decides a property of a node: it matches and declares it, and any other rule that does so
is weaker. -/
structure Rule.Decides (rule : Rule) (set : RuleSet) (doc : Document) (node : NodeId)
    (name : String) : Prop where
  member : rule ∈ set.rules
  holds : rule.holdsFor doc node
  declares : rule.declarations.contains name
  strongest : ∀ other ∈ set.rules, other.holdsFor doc node → other.declarations.contains name →
    other = rule ∨ other.cascadeKey < rule.cascadeKey

namespace Cascade

variable {set : RuleSet} {doc : Document} {node : NodeId}

theorem mem_matching (consistent : set.Consistent) (tree : doc.Consistent) {rule : Rule} :
    rule ∈ matching set (.build set) doc node ↔ rule ∈ set.rules ∧ rule.holdsFor doc node := by
  rw [matching, List.mem_filter, List.mem_filterMap, ← Array.mem_toList_iff]
  constructor
  · rintro ⟨⟨id, _, stored⟩, holds⟩
    rw [← consistent.numbered id rule stored] at stored
    exact ⟨consistent.mem_rules.2 stored, holds⟩
  · rintro ⟨member, holds⟩
    have stored := consistent.mem_rules.1 member
    have candidate := RuleIndex.mem_candidates_of_holdsFor consistent tree stored holds
    exact ⟨⟨rule.id, candidate, stored⟩, holds⟩

theorem pairwise_matching (consistent : set.Consistent) (index : RuleIndex) :
    (matching set index doc node).Pairwise fun a b => a.id < b.id := by
  refine List.Pairwise.filter _ (List.pairwise_filterMap.2 ?_)
  refine (RuleIndex.pairwise_candidates index doc node).imp fun less a storedA b storedB => ?_
  rw [consistent.numbered _ a storedA, consistent.numbered _ b storedB]
  exact less

theorem get?_declarationsOf (rules : List Rule) (name : String) :
    (declarationsOf rules).get? name = rules.reverse.findSome? (·.declarations.get? name) := by
  unfold declarationsOf
  induction rules using List.reverseRecOn with
  | nil => rfl
  | append_singleton rules rule ih =>
      rw [List.foldl_append, List.foldl_cons, List.foldl_nil, Dictionary.get?_extend, ih,
        List.reverse_append, List.reverse_cons, List.reverse_nil, List.nil_append,
        List.singleton_append, List.findSome?_cons]
      cases rule.declarations.get? name with
      | none => rfl
      | some value => rfl

/-- The last rule that declares a property in a list in the order of the keys is stronger than all
others that declare it. -/
theorem strongest_of_findSome? {rules : List Rule} {name value : String}
    (ordered : rules.Pairwise fun a b => a.cascadeKey < b.cascadeKey)
    (found : rules.reverse.findSome? (·.declarations.get? name) = some value) :
    ∃ rule ∈ rules, rule.declarations.get? name = some value ∧
      ∀ other ∈ rules, other.declarations.contains name →
        other = rule ∨ other.cascadeKey < rule.cascadeKey := by
  obtain ⟨later, rule, earlier, split, declared, silent⟩ := List.findSome?_eq_some_iff.1 found
  have backwards := List.pairwise_reverse.2 ordered
  rw [split] at backwards
  have below := (List.pairwise_cons.1 (List.pairwise_append.1 backwards).2.1).1
  have places : ∀ other, other ∈ rules ↔ other ∈ later ++ rule :: earlier := fun other => by
    rw [← split, List.mem_reverse]
  refine ⟨rule, (places rule).2 (by simp), declared, fun other member declares => ?_⟩
  rcases List.mem_append.1 ((places other).1 member) with after | rest
  · obtain ⟨value', has⟩ := Dictionary.contains_iff.1 declares
    rw [silent other after] at has
    cases has
  · rcases List.mem_cons.1 rest with rfl | before
    · exact .inl rfl
    · exact .inr (below other before)

/-- The rules that match an element, in their order. -/
def rulesOf (set : RuleSet) (doc : Document) (node : NodeId) : List Rule :=
  inOrder (matching set (.build set) doc node)

theorem mem_rulesOf (consistent : set.Consistent) (tree : doc.Consistent) {rule : Rule} :
    rule ∈ rulesOf set doc node ↔ rule ∈ set.rules ∧ rule.holdsFor doc node :=
  (perm_inOrder _).mem_iff.trans (mem_matching consistent tree)

theorem pairwise_rulesOf (consistent : set.Consistent) :
    (rulesOf set doc node).Pairwise fun a b => a.cascadeKey < b.cascadeKey :=
  pairwise_inOrder (pairwise_matching consistent _)

theorem nodup_rulesOf (consistent : set.Consistent) :
    ((rulesOf set doc node).map Rule.id).Nodup := by
  refine ((perm_inOrder _).map Rule.id).nodup_iff.2 ?_
  exact List.pairwise_map.2 ((pairwise_matching consistent _).imp Nat.ne_of_lt)

theorem matched_ofNode (element : doc.isElement node) :
    (ofNode set (.build set) doc node).matched = (rulesOf set doc node).map Rule.id := by
  rw [ofNode, if_pos element]
  rfl

theorem ofNode_of_text (index : RuleIndex) (text : doc.isElement node = false) :
    ofNode set index doc node = ⟨[], .empty⟩ := by
  rw [ofNode, if_neg (by simp [text])]

theorem mem_matched_iff (consistent : set.Consistent) (tree : doc.Consistent) {rule : Rule}
    (stored : rule ∈ set.rules) :
    rule.id ∈ (ofNode set (.build set) doc node).matched ↔ rule.holdsFor doc node := by
  cases element : doc.isElement node with
  | false =>
      rw [ofNode_of_text _ element]
      constructor
      · exact nofun
      · intro holds
        rw [(Bool.and_eq_true_iff.1 holds).1] at element
        cases element
  | true =>
      rw [matched_ofNode element, List.mem_map]
      constructor
      · rintro ⟨other, listed, same⟩
        obtain ⟨stored', holds⟩ := (mem_rulesOf consistent tree).1 listed
        have found := consistent.mem_rules.1 (Array.mem_toList_iff.2 stored')
        rw [same, consistent.mem_rules.1 (Array.mem_toList_iff.2 stored)] at found
        cases found
        exact holds
      · intro holds
        exact ⟨rule, (mem_rulesOf consistent tree).2 ⟨stored, holds⟩, rfl⟩

theorem decides_of_get? (consistent : set.Consistent) (tree : doc.Consistent) {name value : String}
    (found : (ofNode set (.build set) doc node).declarations.get? name = some value) :
    ∃ rule : Rule, rule.Decides set doc node name ∧ rule.declarations.get? name = some value := by
  cases element : doc.isElement node with
  | false =>
      rw [ofNode_of_text _ element] at found
      cases found
  | true =>
      rw [ofNode, if_pos element] at found
      obtain ⟨rule, member, declared, strongest⟩ := strongest_of_findSome?
        (pairwise_rulesOf consistent) ((get?_declarationsOf _ name).symm.trans found)
      obtain ⟨stored, holds⟩ := (mem_rulesOf consistent tree).1 member
      refine ⟨rule, ⟨stored, holds, Dictionary.contains_iff.2 ⟨value, declared⟩, ?_⟩, declared⟩
      intro other stored' holds' declares
      exact strongest other ((mem_rulesOf consistent tree).2 ⟨stored', holds'⟩) declares

theorem silent_of_get? (consistent : set.Consistent) (tree : doc.Consistent) {name : String}
    (missing : (ofNode set (.build set) doc node).declarations.get? name = none) (rule : Rule)
    (member : rule ∈ set.rules) (holds : rule.holdsFor doc node) :
    rule.declarations.contains name = false := by
  have element : doc.isElement node := (Bool.and_eq_true_iff.1 holds).1
  rw [ofNode, if_pos element] at missing
  have silent := List.findSome?_eq_none_iff.1 ((get?_declarationsOf _ name).symm.trans missing)
  have listed := List.mem_reverse.2 ((mem_rulesOf consistent tree).2 ⟨member, holds⟩)
  rw [Dictionary.contains, silent rule listed, Option.isSome_none]

end Cascade

end ComputedStyle
