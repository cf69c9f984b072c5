import ComputedStyle.RuleSet

/-!
An index over a rule set: which rules can match an element at all.

Each member of a rule's selector group is filed under one feature that its subject asks for. An
element's candidates are the rules filed under a feature it has, with those filed under none.
-/

namespace ComputedStyle

/-- What a member is filed under. -/
inductive FilingKey where
  | id (value : String)
  | className (value : String)
  | tag (value : String)
  /-- No feature, and no combinator. -/
  | anything
  /-- No feature, but a combinator. -/
  | anywhere
deriving DecidableEq, Repr

/-- The first id of the subject, else its first class, else its tag. -/
def ComplexSelector.filingKey (selector : ComplexSelector) : FilingKey :=
  match selector.subject.ids, selector.subject.classes, selector.subject.type? with
  | id :: _, _, _ => .id id
  | [], name :: _, _ => .className name
  | [], [], some tag => .tag tag
  | [], [], none => if selector.hasCombinator then .anywhere else .anything

/-- What is true of a member that is filed under a key. -/
def FilingKey.Files (selector : ComplexSelector) : FilingKey → Prop
  | .id value => selector.subject.ids.head? = some value
  | .className value => selector.subject.ids = [] ∧ selector.subject.classes.head? = some value
  | .tag value =>
      selector.subject.ids = [] ∧ selector.subject.classes = [] ∧
        selector.subject.type? = some value
  | .anything =>
      selector.subject.ids = [] ∧ selector.subject.classes = [] ∧ selector.subject.type? = none ∧
        selector.context = []
  | .anywhere =>
      selector.subject.ids = [] ∧ selector.subject.classes = [] ∧ selector.subject.type? = none ∧
        selector.context ≠ []

theorem ComplexSelector.filingKey_eq_iff {selector : ComplexSelector} {key : FilingKey} :
    selector.filingKey = key ↔ key.Files selector := by
  unfold filingKey
  split
  · next ids => cases key <;> simp [FilingKey.Files, ids]
  · next ids classes => cases key <;> simp [FilingKey.Files, ids, classes]
  · next ids classes type => cases key <;> simp [FilingKey.Files, ids, classes, type]
  · next ids classes type =>
      cases related : selector.context <;>
        cases key <;> simp [FilingKey.Files, ids, classes, type, hasCombinator, related]

/-- Adds a rule at the end of a bucket, unless it is the last one there. -/
def fileLast (bucket : List RuleId) (rule : RuleId) : List RuleId :=
  if bucket.getLast? = some rule then bucket else bucket ++ [rule]

structure RuleIndex where
  byId : Dictionary (List RuleId) := .empty
  byClass : Dictionary (List RuleId) := .empty
  byTag : Dictionary (List RuleId) := .empty
  anything : List RuleId := []
  anywhere : List RuleId := []
  ruleCount : Nat := 0
deriving DecidableEq

namespace RuleIndex

def fileUnder (buckets : Dictionary (List RuleId)) (key : String) (rule : RuleId) :
    Dictionary (List RuleId) :=
  buckets.insert key (fileLast ((buckets.get? key).getD []) rule)

def file (index : RuleIndex) (rule : RuleId) : FilingKey → RuleIndex
  | .id value => { index with byId := fileUnder index.byId value rule }
  | .className value => { index with byClass := fileUnder index.byClass value rule }
  | .tag value => { index with byTag := fileUnder index.byTag value rule }
  | .anything => { index with anything := fileLast index.anything rule }
  | .anywhere => { index with anywhere := fileLast index.anywhere rule }

def fileRule (index : RuleIndex) (rule : Rule) : RuleIndex :=
  rule.selectors.members.foldl (fun index member => index.file rule.id member.filingKey) index

def build (set : RuleSet) : RuleIndex :=
  set.rules.toList.foldl fileRule { ruleCount := set.size }

def bucket (buckets : Dictionary (List RuleId)) (key : String) : List RuleId :=
  (buckets.get? key).getD []

/-- The rules filed under a feature of an element, possibly repeated. -/
def filed (index : RuleIndex) (doc : Document) (tag : String) (node : NodeId) : List RuleId :=
  index.anything ++ index.anywhere ++ bucket index.byTag tag ++
    ((doc.elementId? node).map (bucket index.byId)).getD [] ++
    (doc.classes node).names.flatMap (bucket index.byClass)

/-- Numbers in ascending order without repetition. -/
def ascending (ids : List RuleId) : List RuleId :=
  (ids.mergeSort (· ≤ ·)).eraseReps

/-- The rules that may match a node, in their order; none for a text. -/
def candidates (index : RuleIndex) (doc : Document) (node : NodeId) : List RuleId :=
  match doc.tag? node with
  | some tag => ascending (index.filed doc tag node)
  | none => []

/-- How many rules stand in the buckets of one kind. -/
def total (buckets : Dictionary (List RuleId)) : Nat :=
  buckets.entries.foldl (fun count entry => count + entry.2.length) 0

end RuleIndex

end ComputedStyle
