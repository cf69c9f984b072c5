import ComputedStyle.Proofs.Cascade.Matching
import ComputedStyle.Proofs.Document.Attributes
import ComputedStyle.Proofs.RuleSet.Additions
import ComputedStyle.Proofs.Selector.Respelling

/-!
Classes and ids asked for by their attributes.

The class list of an element is made of its last `class`, so a class is in it if and only if it is a
word of that attribute; and an id is the value of `id`. What asks for the one therefore stands for what
asks for the other, wherever a selector has a place for it.
-/

namespace ComputedStyle

open Text

namespace ClassList

variable {name : String}

theorem mem_insert (nonempty : name ≠ "") (classes : ClassList) (added : String) :
    name ∈ (classes.insert added).names ↔ name ∈ classes.names ∨ name = added := by
  rw [insert]
  split
  · next kept =>
      refine ⟨.inl, ?_⟩
      rintro (listed | rfl)
      · exact listed
      · rw [Bool.or_eq_true, String.isEmpty_iff] at kept
        exact List.contains_iff_mem.1 (kept.resolve_left nonempty)
  · rw [List.mem_append, List.mem_singleton]

theorem mem_foldl_insert (nonempty : name ≠ "") (classes : ClassList) (added : List String) :
    name ∈ (added.foldl insert classes).names ↔ name ∈ classes.names ∨ name ∈ added := by
  induction added generalizing classes with
  | nil => simp
  | cons first rest ih =>
      rw [List.foldl_cons, ih, mem_insert nonempty, List.mem_cons, or_assoc]

theorem contains_ofText (nonempty : name ≠ "") (raw : String) :
    (ofText raw).contains name = (words isAsciiBlank raw.toList).contains name.toList := by
  have listed : name ∈ (words isAsciiBlank raw.toList).map String.ofList ↔
      name.toList ∈ words isAsciiBlank raw.toList := by
    rw [List.mem_map]
    constructor
    · rintro ⟨word, member, rfl⟩
      rwa [String.toList_ofList]
    · intro member
      exact ⟨name.toList, member, String.ofList_toList⟩
  rw [Bool.eq_iff_iff, contains, List.contains_iff_mem, List.contains_iff_mem, ofText,
    mem_foldl_insert nonempty, listed]
  simp

end ClassList

theorem Document.classes_ofEdits (edits : List Edit) (id : NodeId) :
    (Document.ofEdits edits).classes id =
      (((Document.ofEdits edits).attribute? id "class").map ClassList.ofText).getD {} := by
  have start : Recorded False [] (Document.empty.node? id) := rfl
  have recorded : Recorded False ([] ++ Document.attributeCalls id .empty edits)
      ((Document.ofEdits edits).node? id) := start.run nofun
  rw [Document.classes, Document.attribute?]
  cases found : (Document.ofEdits edits).node? id with
  | none => rfl
  | some node =>
      rw [found] at recorded
      have keeps := recorded.1
      rw [Option.map_some, Option.getD_some, Option.bind_some, keeps.classes, keeps.values]

inductive NameKind where
  | id
  | className
deriving DecidableEq

namespace NameKind

def sign : NameKind → Char
  | id => '#'
  | className => '.'

/-- Asks for the name by its sign. -/
def simple (name : String) : NameKind → Simple
  | id => .id name
  | className => .className name

def attributeName : NameKind → String
  | id => "id"
  | className => "class"

def operator : NameKind → AttributeOperator
  | id => .equals
  | className => .includes

/-- Asks for the name by the attribute that gives it. -/
def test (name : String) (kind : NameKind) : AttributeTest :=
  ⟨kind.attributeName, some ⟨kind.operator, name, false⟩⟩

def text (name : String) (kind : NameKind) : List Char :=
  kind.sign :: name.toList

end NameKind

section Meaning

variable {name : String}

theorem NameKind.alike (nonempty : name ≠ "") (kind : NameKind) :
    (kind.simple name).Alike (.hasAttribute (kind.test name)) where
  holds edits id := by
    cases kind with
    | id =>
        simp only [simple, test, attributeName, operator, Simple.holdsFor, AttributeTest.holdsFor,
          Document.elementId?]
        cases (Document.ofEdits edits).attribute? id "id" with
        | none => rfl
        | some value =>
            change (value.toList == name.toList) = (some value == some name)
            rw [Bool.eq_iff_iff]
            simp [String.toList_inj]
    | className =>
        simp only [simple, test, attributeName, operator, Simple.holdsFor, AttributeTest.holdsFor,
          Document.classes_ofEdits]
        cases (Document.ofEdits edits).attribute? id "class" with
        | none => rfl
        | some value =>
            have filled : name.toList.isEmpty = false := by simpa using nonempty
            change (!name.toList.isEmpty && (words isAsciiBlank value.toList).contains name.toList) =
              (ClassList.ofText value).contains name
            rw [filled, ClassList.contains_ofText nonempty]
            rfl
  pseudoElement compound := by
    cases kind <;> rfl

end Meaning

section Forms

variable {name : String}

namespace Selector

theorem IsSimpleChar.endsCompound {c : Char} (simple : IsSimpleChar c) :
    endsCompound c = false := by
  have other : c ≠ ',' := by
    rintro rfl
    rcases simple with ⟨ident, -⟩ | mark
    · cases ident
    · revert mark
      decide
  simp [Selector.endsCompound, other, simple.combinatorOf?, simple.isBlank]

theorem isSimpleChar_text (ident : IsIdent name) (kind : NameKind) :
    ∀ c ∈ kind.text name, IsSimpleChar c := by
  refine List.forall_mem_cons.2 ⟨.inr ?_, fun c member => .inl (ident.2 c member)⟩
  cases kind <;> decide

theorem nested_name (ident : IsIdent name) (kind : NameKind) :
    Nested IsSimpleChar (kind.text name) :=
  nested_mark (by cases kind <;> decide) (nested_ident ident)

theorem spells_text (ident : IsIdent name) (kind : NameKind) :
    Spells (kind.text name) (kind.simple name) where
  passed := by
    have simple := isSimpleChar_text ident kind
    refine isPassed_of_isBare (fun c member => (simple c member).isBare)
      (fun c member => (simple c member).endsCompound) fun comma => ?_
    exact absurd (simple ',' comma).endsCompound (by decide)
  trimmed := (nested_name ident kind).isTrimmed fun _ simple => simple.isBlank
  colonless := by cases kind <;> exact nofun
  reads rest ends := by
    cases kind with
    | id => exact (readsSimple_id ident ends).read
    | className => exact (readsSimple_class ident ends).read

theorem isNormal_test (ident : IsIdent name) (kind : NameKind) : (kind.test name).IsNormal where
  name := by
    cases kind with
    | id => exact (by decide : IsLowerIdent "id")
    | className => exact (by decide : IsLowerIdent "class")
  ascii c member := by
    have all : kind.attributeName.toList.all (·.toNat < 0x80) := by cases kind <;> decide
    simpa using List.all_eq_true.1 all c member
  value := by
    rintro comparison ⟨⟩ held
    exact absurd (ident.2 _ held).1 (by decide)

theorem spells_test (ident : IsIdent name) (kind : NameKind) :
    Spells (kind.test name).text (.hasAttribute (kind.test name)) where
  passed := by
    have simple (c : Char) (member : c ∈ name.toList) : IsSimpleChar c := .inl (ident.2 c member)
    let front := kind.attributeName.toList ++ kind.operator.mark?.toList ++ ['=']
    have text : (kind.test name).text = '[' :: (front ++ '"' :: (name.toList ++ ['"', ']'])) := by
      simp [AttributeTest.text, AttributeTest.inner, NameKind.test, AttributeComparison.text,
        AttributeComparison.flag, front]
    have plain : front.all fun c => IsBare c ∧ c ≠ ',' := by cases kind <;> decide
    have bare (c : Char) (member : c ∈ front) : IsBare c ∧ c ≠ ',' := by
      simpa using List.all_eq_true.1 plain c member
    rw [text]
    refine isPassed_square (fun c member => (bare c member).1)
      (fun c member => (simple c member).isBare) (fun c member => (simple c member).endsCompound)
      ⟨rfl, rfl, rfl⟩ fun comma => ?_
    rcases List.mem_append.1 comma with first | second
    · exact (bare ',' first).2 rfl
    · exact absurd (simple ',' second).endsCompound (by decide)
  trimmed := (nested_attribute (isNormal_test ident kind)).isTrimmed fun _ simple => simple.isBlank
  colonless := by simp [AttributeTest.text]
  reads rest _ := (readsSimple_attribute (isNormal_test ident kind) rest).read

end Selector

end Forms

section Respelled

open Selector

variable {before after s s' : List Char} {simple simple' : Simple}

theorem selectorHoldsFor_respelled (place : IsPlace before after) (spells : Spells s simple)
    (spells' : Spells s' simple') (alike : simple.Alike simple') (edits : List Edit) (id : NodeId) :
    selectorHoldsFor (.ofList (before ++ s' ++ after)) (.ofEdits edits) id =
      selectorHoldsFor (.ofList (before ++ s ++ after)) (.ofEdits edits) id := by
  have reads := SelectorGroup.read_agree place spells spells' alike
  rw [selectorHoldsFor, selectorHoldsFor]
  generalize SelectorGroup.read (.ofList (before ++ s ++ after)) = read,
    SelectorGroup.read (.ofList (before ++ s' ++ after)) = read' at reads ⊢
  cases reads with
  | ok groups => exact congrArg Except.ok (groups.holdsFor edits id)
  | error e => rfl

/-- A rule is taken with either spelling, or with none, and gets the same number. -/
theorem RuleSet.addRule_respelled (place : IsPlace before after) (spells : Spells s simple)
    (spells' : Spells s' simple') (alike : simple.Alike simple') (set : RuleSet)
    (declarations : StyleMap) (origin : Origin) :
    (set.addRule (.ofList (before ++ s' ++ after)) declarations origin).map Prod.snd =
      (set.addRule (.ofList (before ++ s ++ after)) declarations origin).map Prod.snd := by
  have reads := SelectorGroup.read_agree place spells spells' alike
  rw [addRule, addRule]
  generalize SelectorGroup.read (.ofList (before ++ s ++ after)) = read,
    SelectorGroup.read (.ofList (before ++ s' ++ after)) = read' at reads ⊢
  cases reads with
  | ok groups =>
      cases declarations.isEmpty with
      | true => rfl
      | false => rfl
  | error e => cases e <;> rfl

theorem Rule.holdsFor_respelled (place : IsPlace before after) (spells : Spells s simple)
    (spells' : Spells s' simple') (alike : simple.Alike simple') {rule rule' : Rule}
    (sound : rule.IsSound) (sound' : rule'.IsSound)
    (text : rule.selectorText = trimmed (.ofList (before ++ s ++ after)))
    (text' : rule'.selectorText = trimmed (.ofList (before ++ s' ++ after)))
    (edits : List Edit) (id : NodeId) :
    rule'.holdsFor (.ofEdits edits) id = rule.holdsFor (.ofEdits edits) id := by
  have reads := SelectorGroup.read_agree place spells spells' alike
  rw [← SelectorGroup.read_trimmed, ← text, sound.reread, ← SelectorGroup.read_trimmed, ← text',
    sound'.reread] at reads
  cases reads with
  | ok groups => exact groups.holdsFor edits id

end Respelled

section Agreement

open Selector

theorem Compound.holdsFor_empty (doc : Document) (id : NodeId) :
    Compound.empty.holdsFor doc id = doc.isElement id := by
  rw [empty, holdsFor, Document.isElement]
  cases doc.tag? id <;> rfl

theorem selectorHoldsFor_spelled {s : List Char} {simple : Simple} (spells : Spells s simple)
    (nested : Nested IsSimpleChar s) (doc : Document) (id : NodeId) :
    selectorHoldsFor (.ofList s) doc id = .ok (doc.isElement id && simple.holdsFor doc id) := by
  have start : readHead [] = .ok Compound.empty := readSimples_nil _
  have read : readCompound s = .ok (Compound.empty.adding simple) := by
    have own := readCompound_insert start spells.trimmed spells.ne_nil spells.startsSimple []
    rw [List.nil_append, List.append_nil] at own
    have last : trimRight [] = [] := rfl
    rw [own, last, spells.readSimples_eq _ endsIdent_nil, readSimples_nil]
    exact if_neg (by rw [Compound.isEmpty_adding]; decide)
  rw [selectorHoldsFor_compound (SelectorGroup.read_nested nested read), Compound.holdsFor_adding,
    Compound.holdsFor_empty]

/-- A name asked for by its sign and by its attribute selects the same elements, also wherever a
selector has a place for either: whatever else the rules of two sets are, a rule with the one form is
listed for the same nodes as a rule that has the other form in its place. -/
theorem NameKind.forms_agree (kind : NameKind) (name : String) (ident : IsIdent name) :
    let short := kind.text name
    let long := (kind.test name).text
    (∀ edits id, ∀ form ∈ [short, long],
      selectorHoldsFor (.ofList form) (.ofEdits edits) id =
        .ok ((Document.ofEdits edits).isElement id &&
          (kind.simple name).holdsFor (.ofEdits edits) id)) ∧
    ∀ before after, Selector.IsPlace before after →
      let text := String.ofList (before ++ short ++ after)
      let other := String.ofList (before ++ long ++ after)
      (∀ edits id, selectorHoldsFor other (.ofEdits edits) id =
        selectorHoldsFor text (.ofEdits edits) id) ∧
      (∀ (set : RuleSet) declarations origin,
        (set.addRule other declarations origin).map Prod.snd =
          (set.addRule text declarations origin).map Prod.snd) ∧
      ∀ additions additions',
        let set := RuleSet.ofAdditions additions
        let set' := RuleSet.ofAdditions additions'
        ∀ rule ∈ set.rules, ∀ rule' ∈ set'.rules,
          rule.selectorText = trimmed text → rule'.selectorText = trimmed other →
          ∀ edits node,
            rule.id ∈ (Cascade.ofNode set (.build set) (.ofEdits edits) node).matched ↔
              rule'.id ∈ (Cascade.ofNode set' (.build set') (.ofEdits edits) node).matched := by
  intro short long
  have nonempty : name ≠ "" := fun empty => ident.1 (String.toList_eq_nil_iff.2 empty)
  have spells := Selector.spells_text ident kind
  have spells' := Selector.spells_test ident kind
  have alike := kind.alike nonempty
  refine ⟨fun edits id => ?_, fun before after place => ⟨?_, ?_, ?_⟩⟩
  · have first := selectorHoldsFor_spelled spells (nested_name ident kind) (.ofEdits edits) id
    have second := selectorHoldsFor_spelled spells' (nested_attribute (isNormal_test ident kind))
      (.ofEdits edits) id
    rw [alike.holds] at second
    exact List.forall_mem_cons.2 ⟨first, List.forall_mem_singleton.2 second⟩
  · exact selectorHoldsFor_respelled place spells spells' alike
  · exact RuleSet.addRule_respelled place spells spells' alike
  · intro additions additions' set set' rule stored rule' stored' same same' edits node
    have consistent := RuleSet.consistent_ofAdditions additions
    have consistent' := RuleSet.consistent_ofAdditions additions'
    have tree := Document.consistent_ofEdits edits
    rw [Cascade.mem_matched_iff consistent tree stored,
      Cascade.mem_matched_iff consistent' tree stored',
      Rule.holdsFor_respelled place spells spells' alike (consistent.wellFormed.sound rule stored)
        (consistent'.wellFormed.sound rule' stored') same same']

/-- A place in `:not` after a combinator, in the second member of a group of three. -/
theorem isPlace_negated : IsPlace "p, a > b:not(".toList ") + i, [x".toList := by
  have splits : SplitsAt "p, a > b:not(".toList ") + i, [x".toList
      " a > b:not(".toList ") + i".toList ["p".toList] [" [x".toList] :=
    ⟨by decide, by decide⟩
  refine ⟨_, _, _, _, splits, fun scan reads => ?_⟩
  have own : (trimLeft " a > b:not(".toList).foldlM Scan.step {} =
      .ok ⟨some ⟨{ Compound.empty with tag := some "a" }, []⟩, some .child,
        "b:not(".toList.reverse, ⟨none, 1⟩⟩ := by
    cbv
  cases own.symm.trans reads
  have lead : readHead "b".toList = .ok { Compound.empty with tag := some "b" } := by cbv
  have start : readHead [] = .ok Compound.empty := readSimples_nil _
  have named : readIdent "not".toList = ("not".toList, []) := by decide
  have inner : SimplePlace [] [] := .here start endsIdent_nil
  have place : SimplePlace ("b".toList ++ (colons false ++ ("not".toList ++ '(' :: [])))
      ([] ++ ')' :: []) :=
    .inside false lead named (by decide) (by decide) fun _ _ => inner
  have rest : Scan.restOfCompound ⟨none, 1⟩ (trimRight ") + i".toList) = [] ++ ')' :: [] := by
    decide
  rw [rest]
  exact place

theorem exists_rule_ofAdditions {text : String} (parsed : (SelectorGroup.read text).isOk)
    {declarations : StyleMap} (declares : declarations.isEmpty = false) (origin : Origin) :
    ∃ rule ∈ (RuleSet.ofAdditions [.rule text declarations origin]).rules,
      rule.selectorText = trimmed text := by
  obtain ⟨group, read⟩ := exists_of_isOk parsed
  refine ⟨⟨0, trimmed text, group, declarations, group.specificity, origin⟩, ?_, rfl⟩
  rw [RuleSet.ofAdditions, List.foldl_cons, List.foldl_nil, RuleSet.attempt, RuleSet.addition,
    RuleSet.addRule, read]
  dsimp only
  rw [declares, if_neg Bool.false_ne_true]
  exact Array.mem_push_self

theorem NameKind.forms_agree_negated :
    let before := "p, a > b:not(".toList
    let after := ") + i, [x".toList
    let rules (form : List Char) := RuleSet.ofAdditions
      [.rule (.ofList (before ++ form ++ after)) (.ofList [("width", "1px")]) .author]
    let set := rules ".t".toList
    let set' := rules "[class~=\"t\"]".toList
    (IsIdent "t" ∧ IsPlace before after) ∧
      ∃ rule ∈ set.rules, ∃ rule' ∈ set'.rules, ∀ edits node,
        rule.id ∈ (Cascade.ofNode set (.build set) (.ofEdits edits) node).matched ↔
          rule'.id ∈ (Cascade.ofNode set' (.build set') (.ofEdits edits) node).matched := by
  intro before after rules set set'
  have ident : IsIdent "t" := by decide
  have declares : (Dictionary.ofList [("width", "1px")]).isEmpty = false := by decide
  have whole : before ++ ".t".toList ++ after = "p, a > b:not(.t) + i, [x".toList := by decide
  have first : (SelectorGroup.read (.ofList (before ++ ".t".toList ++ after))).isOk := by
    rw [whole, String.ofList_toList]
    cbv
  have second := SelectorGroup.read_agree isPlace_negated (spells_text ident .className)
    (spells_test ident .className) (NameKind.className.alike (by decide))
  obtain ⟨rule, stored, text⟩ := exists_rule_ofAdditions first declares .author
  obtain ⟨rule', stored', text'⟩ :=
    exists_rule_ofAdditions (second.isOk_eq.trans first) declares .author
  have agree := ((NameKind.className.forms_agree "t" ident).2 before after isPlace_negated).2.2
  exact ⟨⟨ident, isPlace_negated⟩, rule, stored, rule', stored',
    agree _ _ rule stored rule' stored' text text'⟩

end Agreement

end ComputedStyle
