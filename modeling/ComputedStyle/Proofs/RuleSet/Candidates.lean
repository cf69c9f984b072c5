import ComputedStyle.Proofs.RuleSet.Growth
import ComputedStyle.Proofs.Selector.Placement
import ComputedStyle.RuleSet.Index

namespace ComputedStyle

/-- Whether a key stands for something that an element has. -/
def FilingKey.IsFeature (doc : Document) (node : NodeId) : FilingKey → Prop
  | .id value => doc.elementId? node = some value
  | .className value => value ∈ (doc.classes node).names
  | .tag value => doc.tag? node = some value
  | .anything => True
  | .anywhere => True

namespace RuleIndex

def under (index : RuleIndex) : FilingKey → List RuleId
  | .id value => bucket index.byId value
  | .className value => bucket index.byClass value
  | .tag value => bucket index.byTag value
  | .anything => index.anything
  | .anywhere => index.anywhere

theorem mem_fileLast {bucket : List RuleId} {rule id : RuleId} :
    id ∈ fileLast bucket rule ↔ id ∈ bucket ∨ id = rule := by
  unfold fileLast
  split
  · next last =>
      have member := List.mem_of_getLast? last
      constructor
      · exact .inl
      · rintro (filed | rfl)
        · exact filed
        · exact member
  · simp

theorem bucket_fileUnder (buckets : Dictionary (List RuleId)) (key : String) (rule : RuleId)
    (other : String) :
    bucket (fileUnder buckets key rule) other =
      if other = key then fileLast (bucket buckets other) rule else bucket buckets other := by
  unfold bucket fileUnder
  rw [Dictionary.get?_insert]
  split
  · next same => rw [same, Option.getD_some]
  · rfl

theorem under_file (index : RuleIndex) (rule : RuleId) (key other : FilingKey) :
    (index.file rule key).under other =
      if other = key then fileLast (index.under other) rule else index.under other := by
  cases key <;> cases other <;> simp [file, under, bucket_fileUnder]

theorem mem_under_file {index : RuleIndex} {rule id : RuleId} {key other : FilingKey} :
    id ∈ (index.file rule key).under other ↔ id ∈ index.under other ∨ id = rule ∧ key = other := by
  rw [under_file]
  split
  · next same => simp [mem_fileLast, same]
  · next different => simp [Ne.symm different]

theorem mem_under_fileRule {index : RuleIndex} {rule : Rule} {id : RuleId} {key : FilingKey} :
    id ∈ (index.fileRule rule).under key ↔
      id ∈ index.under key ∨
        id = rule.id ∧ ∃ member ∈ rule.selectors.members, member.filingKey = key := by
  unfold fileRule
  induction rule.selectors.members generalizing index with
  | nil => simp
  | cons member rest ih =>
      rw [List.foldl_cons, ih, mem_under_file, or_assoc, ← and_or_left]
      simp only [List.mem_cons, exists_eq_or_imp]

theorem mem_under_build {set : RuleSet} {id : RuleId} {key : FilingKey} :
    id ∈ (build set).under key ↔
      ∃ rule ∈ set.rules.toList, id = rule.id ∧
        ∃ member ∈ rule.selectors.members, member.filingKey = key := by
  have run : ∀ (rules : List Rule) (index : RuleIndex),
      id ∈ (rules.foldl fileRule index).under key ↔
        id ∈ index.under key ∨ ∃ rule ∈ rules, id = rule.id ∧
          ∃ member ∈ rule.selectors.members, member.filingKey = key := by
    intro rules
    induction rules with
    | nil => simp
    | cons rule rest ih =>
        intro index
        rw [List.foldl_cons, ih, mem_under_fileRule, or_assoc]
        simp only [List.mem_cons, exists_eq_or_imp]
  have start : id ∉ ({ ruleCount := set.size } : RuleIndex).under key := by
    cases key <;> simp [under, bucket]
  rw [build, run, or_iff_right start]

theorem mem_filed {index : RuleIndex} {doc : Document} {node : NodeId} {tag : String}
    (element : doc.tag? node = some tag) {id : RuleId} :
    id ∈ index.filed doc tag node ↔
      ∃ key, FilingKey.IsFeature doc node key ∧ id ∈ index.under key := by
  constructor
  · intro member
    simp only [filed, List.mem_append, List.mem_flatMap] at member
    rcases member with (((filed | filed) | filed) | filed) | ⟨name, member, filed⟩
    · exact ⟨.anything, trivial, filed⟩
    · exact ⟨.anywhere, trivial, filed⟩
    · exact ⟨.tag tag, element, filed⟩
    · cases value : doc.elementId? node with
      | none => simp [value] at filed
      | some value' =>
          rw [value] at filed
          exact ⟨.id value', value, filed⟩
    · exact ⟨.className name, member, filed⟩
  · rintro ⟨key, feature, member⟩
    simp only [filed, List.mem_append, List.mem_flatMap]
    cases key with
    | id value =>
        have same : doc.elementId? node = some value := feature
        rw [same]
        exact .inl (.inr member)
    | className value => exact .inr ⟨value, feature, member⟩
    | tag value =>
        obtain rfl : value = tag := Option.some.inj (feature.symm.trans element)
        exact .inl (.inl (.inr member))
    | anything => exact .inl (.inl (.inl (.inl member)))
    | anywhere => exact .inl (.inl (.inl (.inr member)))

theorem eraseReps_cons_cons (a b : RuleId) (rest : List RuleId) :
    (a :: b :: rest).eraseReps =
      if a = b then (b :: rest).eraseReps else a :: (b :: rest).eraseReps := by
  have accumulated : ∀ (tail : List RuleId) (first : RuleId) (done : List RuleId),
      List.eraseRepsBy.loop (· == ·) first tail done =
        done.reverse ++ List.eraseRepsBy.loop (· == ·) first tail [] := by
    intro tail
    induction tail with
    | nil => simp [List.eraseRepsBy.loop]
    | cons next tail ih =>
        intro first done
        unfold List.eraseRepsBy.loop
        split
        · exact ih first done
        · rw [ih next (first :: done), ih next [first]]
          simp
  simp only [List.eraseReps, List.eraseRepsBy]
  rw [List.eraseRepsBy.loop]
  split
  · next same =>
      obtain rfl : a = b := by simpa using same
      simp
  · next different =>
      rw [if_neg (by simpa using different), accumulated]
      rfl

theorem mem_eraseReps {ids : List RuleId} {id : RuleId} : id ∈ ids.eraseReps ↔ id ∈ ids := by
  induction ids with
  | nil => rfl
  | cons a rest ih =>
      cases rest with
      | nil => rfl
      | cons b rest =>
          rw [eraseReps_cons_cons]
          split
          · next same => rw [ih, same]; simp
          · rw [List.mem_cons, ih, ← List.mem_cons]

theorem pairwise_eraseReps {ids : List RuleId} (sorted : ids.Pairwise (· ≤ ·)) :
    ids.eraseReps.Pairwise (· < ·) := by
  induction ids with
  | nil => exact .nil
  | cons a rest ih =>
      cases rest with
      | nil => exact List.pairwise_singleton _ _
      | cons b rest =>
          obtain ⟨least, sorted'⟩ := List.pairwise_cons.1 sorted
          rw [eraseReps_cons_cons]
          split
          · exact ih sorted'
          · next different =>
              refine List.pairwise_cons.2 ⟨fun id member => ?_, ih sorted'⟩
              have less : a < b := Nat.lt_of_le_of_ne (least b (by simp)) different
              rcases List.mem_cons.1 (mem_eraseReps.1 member) with rfl | later
              · exact less
              · exact Nat.lt_of_lt_of_le less ((List.pairwise_cons.1 sorted').1 id later)

theorem mem_ascending {ids : List RuleId} {id : RuleId} : id ∈ ascending ids ↔ id ∈ ids := by
  rw [ascending, mem_eraseReps, List.mem_mergeSort]

theorem pairwise_ascending (ids : List RuleId) : (ascending ids).Pairwise (· < ·) := by
  refine pairwise_eraseReps ?_
  have sorted : (ids.mergeSort (· ≤ ·)).Pairwise fun a b => decide (a ≤ b) = true :=
    List.pairwise_mergeSort (fun a b c => by simpa using Nat.le_trans)
      (fun a b => by simpa using Nat.le_total a b) ids
  exact sorted.imp of_decide_eq_true

theorem pairwise_candidates (index : RuleIndex) (doc : Document) (node : NodeId) :
    (index.candidates doc node).Pairwise (· < ·) := by
  unfold candidates
  split
  · exact pairwise_ascending _
  · exact .nil

theorem candidates_of_text {index : RuleIndex} {doc : Document} {node : NodeId}
    (text : doc.isElement node = false) : index.candidates doc node = [] := by
  have untagged : doc.tag? node = none := by simpa [Document.isElement] using text
  rw [candidates, untagged]

theorem mem_candidates {set : RuleSet} (h : set.Consistent) {doc : Document} {node : NodeId}
    (element : doc.isElement node) {id : RuleId} :
    id ∈ (build set).candidates doc node ↔
      ∃ rule, set.get? id = some rule ∧
        ∃ member ∈ rule.selectors.members, member.filingKey.IsFeature doc node := by
  obtain ⟨tag, found⟩ := Option.isSome_iff_exists.1 element
  rw [candidates, found]
  simp only [mem_ascending, mem_filed found, mem_under_build]
  constructor
  · rintro ⟨key, feature, rule, stored, rfl, member, belongs, rfl⟩
    exact ⟨rule, h.mem_rules.1 stored, member, belongs, feature⟩
  · rintro ⟨rule, stored, member, belongs, feature⟩
    obtain rfl := h.numbered id rule stored
    exact ⟨_, feature, rule, h.mem_rules.2 stored, rfl, member, belongs, rfl⟩

end RuleIndex

/-! A member that matches is filed under a feature. -/

theorem ComplexSelector.subject_holdsFor {selector : ComplexSelector} {doc : Document}
    {node : NodeId} (holds : selector.holdsFor doc node) : selector.subject.holdsFor doc node := by
  cases subject : selector.subject.holdsFor doc node with
  | true => rfl
  | false => simp [holdsFor, place.eq_def, subject] at holds

theorem tagAdmits_of_lower {expected tag : String} (admits : tagAdmits (some expected) tag)
    (typed : expected ≠ "*") (lowerExpected : expected.toLower = expected)
    (lower : tag.toLower = tag) : tag = expected := by
  rw [tagAdmits, lowerExpected, lower] at admits
  rcases Bool.or_eq_true_iff.1 admits with universal | same
  · exact absurd (beq_iff_eq.1 universal) typed
  · exact (beq_iff_eq.1 same).symm

theorem ComplexSelector.isFeature_of_holdsFor {selector : ComplexSelector} {doc : Document}
    {node : NodeId} (lower : selector.subject.IsLower) (content : (doc.content node).IsLower)
    (holds : selector.holdsFor doc node) : selector.filingKey.IsFeature doc node := by
  obtain ⟨name, found, _, admits, hasIds, hasClasses, _⟩ :=
    Compound.holdsFor_iff.1 (subject_holdsFor holds)
  cases key : selector.filingKey with
  | id value => exact hasIds value (List.mem_of_head? (filingKey_eq_iff.1 key))
  | className value => exact hasClasses value (List.mem_of_head? (filingKey_eq_iff.1 key).2)
  | tag value =>
      obtain ⟨_, _, type⟩ := filingKey_eq_iff.1 key
      obtain ⟨same, typed⟩ := Option.filter_eq_some_iff.1 type
      rw [same] at admits
      have lowerName : name.toLower = name := content name (doc.tag?_eq_content node ▸ found)
      have equal := tagAdmits_of_lower admits (by simpa using typed) (lower value same) lowerName
      exact equal ▸ found
  | anything => trivial
  | anywhere => trivial

namespace RuleIndex

theorem mem_candidates_of_holdsFor {set : RuleSet} (h : set.Consistent) {doc : Document}
    (tree : doc.Consistent) {node : NodeId} {id : RuleId} {rule : Rule}
    (stored : set.get? id = some rule) (holds : rule.holdsFor doc node) :
    id ∈ (build set).candidates doc node := by
  obtain ⟨element, matched⟩ := Bool.and_eq_true_iff.1 holds
  obtain ⟨member, belongs, holds⟩ := List.any_eq_true.1 matched
  obtain ⟨text, source⟩ := h.read id rule stored
  have lower := SelectorGroup.isLower_read source.read member belongs
  have feature := member.isFeature_of_holdsFor lower.subject (tree.lowered node) holds
  exact (mem_candidates h element).2 ⟨rule, stored, member, belongs, feature⟩

/-- The candidates of a node are in strictly ascending order; those of an element are the rules with
a member filed under one of its features, and all that match it are among them. -/
theorem candidates_exact (edits : List Edit) (additions : List Addition) (node : NodeId) :
    let doc := Document.ofEdits edits
    let set := RuleSet.ofAdditions additions
    let candidates := (build set).candidates doc node
    candidates.Pairwise (· < ·) ∧
      (∀ id rule, set.get? id = some rule → rule.holdsFor doc node → id ∈ candidates) ∧
      (doc.isElement node → ∀ id, id ∈ candidates ↔
        ∃ rule, set.get? id = some rule ∧
          ∃ member ∈ rule.selectors.members, member.filingKey.IsFeature doc node) ∧
      (doc.isElement node = false → candidates = []) := by
  intro doc set candidates
  have consistent := RuleSet.consistent_ofAdditions additions
  refine ⟨pairwise_candidates _ doc node, ?_, fun element id => mem_candidates consistent element,
    candidates_of_text⟩
  intro id rule stored holds
  exact mem_candidates_of_holdsFor consistent (Document.consistent_ofEdits edits) stored holds

end RuleIndex

end ComputedStyle
