import ComputedStyle.Proofs.Selector.Reading
import ComputedStyle.RuleSet

namespace ComputedStyle

/-- What is added to a rule set by one call. -/
inductive Addition where
  | rule (selector : String) (declarations : StyleMap) (origin : Origin)
  | sheet (css : String) (origin : Origin)

/-- What a rule keeps of the text it was read from. -/
structure Rule.FromText (rule : Rule) (text : String) : Prop where
  read : SelectorGroup.read text = .ok rule.selectors
  trimmed : rule.selectorText = Text.trimmed text
  specificity : rule.specificity = rule.selectors.specificity
  declares : rule.declarations.isEmpty = false

namespace RuleSet

def addition (set : RuleSet) : Addition → Except StyleError RuleSet
  | .rule selector declarations origin =>
      ((set.addRule selector declarations origin).map Prod.fst).mapError .selector
  | .sheet css origin => set.addSheet css origin

def attempt (set : RuleSet) (change : Addition) : RuleSet :=
  (set.addition change).toOption.getD set

def ofAdditions (additions : List Addition) : RuleSet :=
  additions.foldl attempt empty

/-- What one rule text can make of a set. -/
inductive Step (set : RuleSet) : RuleSet → Prop where
  | same {next : RuleSet} (rules : next.rules = set.rules) : Step set next
  | push {next : RuleSet} (rule : Rule) (text : String) (read : rule.FromText text)
      (number : rule.id = set.size) (rules : next.rules = set.rules.push rule) : Step set next

theorem step_addRule {set next : RuleSet} {selector : String} {declarations : StyleMap}
    {origin : Origin} {id : Option RuleId}
    (h : set.addRule selector declarations origin = .ok (next, id)) : Step set next := by
  unfold addRule at h
  split at h
  · cases h
  · cases h
    exact .same rfl
  · next selectors read =>
      dsimp only at h
      split at h
      · cases h
        exact .same rfl
      · next declares =>
          cases h
          exact .push _ selector ⟨read, rfl, rfl, by simpa using declares⟩ rfl rfl

/-- The sets that steps lead to. -/
def Reaches : RuleSet → RuleSet → Prop :=
  Relation.ReflTransGen Step

theorem reaches_addSources {set next : RuleSet} {origin : Origin} {sources : List SourceRule}
    (h : set.addSources origin sources = .ok next) : set.Reaches next := by
  induction sources generalizing set with
  | nil =>
      cases h
      exact .refl
  | cons source rest ih =>
      rw [addSources, bind_eq_ok] at h
      obtain ⟨⟨middle, id⟩, added, h⟩ := h
      exact .head (step_addRule added) (ih h)

theorem reaches_addSheet {set next : RuleSet} {css : String} {origin : Origin}
    (h : set.addSheet css origin = .ok next) : set.Reaches next := by
  rw [addSheet, bind_eq_ok] at h
  obtain ⟨sheet, _, h⟩ := h
  have noted : Step set (set.noteSheet sheet) := .same rfl
  exact .head noted (reaches_addSources (mapError_eq_ok.1 h))

theorem reaches_addSheets {set next : RuleSet} {origin : Origin} {sheets : List String}
    (h : set.addSheets origin sheets = .ok next) : set.Reaches next := by
  induction sheets generalizing set with
  | nil =>
      cases h
      exact .refl
  | cons css rest ih =>
      rw [addSheets, bind_eq_ok] at h
      obtain ⟨middle, added, h⟩ := h
      exact (reaches_addSheet added).trans (ih h)

theorem reaches_addition {set next : RuleSet} {change : Addition}
    (h : set.addition change = .ok next) : set.Reaches next := by
  cases change with
  | rule selector declarations origin =>
      have mapped := mapError_eq_ok.1 h
      cases added : set.addRule selector declarations origin with
      | error e =>
          rw [added] at mapped
          cases mapped
      | ok result =>
          rw [added] at mapped
          cases mapped
          exact .single (step_addRule added)
  | sheet css origin => exact reaches_addSheet h

theorem reaches_attempt (set : RuleSet) (change : Addition) : set.Reaches (set.attempt change) := by
  unfold attempt
  cases result : set.addition change with
  | error e => exact .refl
  | ok next => exact reaches_addition result

theorem reaches_ofAdditions (additions : List Addition) :
    empty.Reaches (ofAdditions additions) := by
  suffices run : ∀ set : RuleSet, set.Reaches (additions.foldl attempt set) from run empty
  induction additions with
  | nil => exact fun set => .refl
  | cons change rest ih => exact fun set => (reaches_attempt set change).trans (ih _)

/-! The invariant: each rule has its place as its number and comes from a text. -/

structure Consistent (set : RuleSet) : Prop where
  numbered : ∀ id rule, set.get? id = some rule → rule.id = id
  read : ∀ id rule, set.get? id = some rule → ∃ text, rule.FromText text

theorem consistent_empty : empty.Consistent where
  numbered id rule found := by simp [get?, empty] at found
  read id rule found := by simp [get?, empty] at found

theorem get?_of_same {set next : RuleSet} (rules : next.rules = set.rules) (id : RuleId) :
    next.get? id = set.get? id := by
  rw [get?, get?, rules]

theorem get?_of_push {set next : RuleSet} {rule : Rule} (rules : next.rules = set.rules.push rule)
    (id : RuleId) : next.get? id = if id = set.size then some rule else set.get? id := by
  rw [get?, rules, Array.getElem?_push]
  rfl

theorem Consistent.step {set next : RuleSet} (h : set.Consistent) (step : Step set next) :
    next.Consistent := by
  cases step with
  | same rules =>
      have found := get?_of_same rules
      exact ⟨fun id rule stored => h.numbered id rule (found id ▸ stored),
        fun id rule stored => h.read id rule (found id ▸ stored)⟩
  | push added text read number rules =>
      have found := get?_of_push rules
      constructor
      · intro id rule stored
        rw [found] at stored
        split at stored
        · next same =>
            cases stored
            rw [number, same]
        · exact h.numbered id rule stored
      · intro id rule stored
        rw [found] at stored
        split at stored
        · cases stored
          exact ⟨text, read⟩
        · exact h.read id rule stored

theorem Consistent.reaches {set next : RuleSet} (h : set.Consistent) (steps : set.Reaches next) :
    next.Consistent := by
  induction steps with
  | refl => exact h
  | tail _ step ih => exact ih.step step

theorem consistent_ofAdditions (additions : List Addition) : (ofAdditions additions).Consistent :=
  consistent_empty.reaches (reaches_ofAdditions additions)

theorem Consistent.mem_rules {set : RuleSet} (h : set.Consistent) {rule : Rule} :
    rule ∈ set.rules.toList ↔ set.get? rule.id = some rule := by
  constructor
  · intro member
    obtain ⟨id, found⟩ := List.mem_iff_getElem?.1 member
    have stored : set.get? id = some rule := by simpa [get?] using found
    rwa [h.numbered id rule stored]
  · intro found
    have stored : set.rules.toList[rule.id]? = some rule := by simpa [get?] using found
    exact List.mem_of_getElem? stored

end RuleSet

end ComputedStyle
