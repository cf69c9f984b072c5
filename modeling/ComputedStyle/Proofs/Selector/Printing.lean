import Mathlib
import ComputedStyle.Proofs.Selector.Fragments

namespace ComputedStyle

open Text

namespace Selector

section Compounds

variable {compound : Compound} {pseudo : PseudoClass} {name : String} {s t : List Char}

/-- A character of a compound outside its brackets and quotes. -/
def IsSimpleChar (c : Char) : Prop :=
  (isIdentChar c ∧ isBlank c = false) ∨ c ∈ ['#', '.', ':', '*']

theorem IsSimpleChar.isBare {c : Char} (simple : IsSimpleChar c) : IsBare c := by
  rcases simple with ⟨ident, -⟩ | sign
  · exact isBare_of_isIdentChar ident
  · simp only [List.mem_cons, List.not_mem_nil, or_false] at sign
    rcases sign with rfl | rfl | rfl | rfl <;> decide

theorem IsSimpleChar.isBlank {c : Char} (simple : IsSimpleChar c) : isBlank c = false := by
  rcases simple with ⟨-, visible⟩ | sign
  · exact visible
  · simp only [List.mem_cons, List.not_mem_nil, or_false] at sign
    rcases sign with rfl | rfl | rfl | rfl <;> rfl

theorem IsSimpleChar.combinatorOf? {c : Char} (simple : IsSimpleChar c) :
    Scan.combinatorOf? c = none := by
  rw [Option.eq_none_iff_forall_ne_some]
  intro combinator sign
  have listed := StaticSelector.combinatorOf?_eq_some sign
  rcases simple with ⟨ident, -⟩ | mark
  · rcases listed with rfl | rfl | rfl <;> cases ident
  · rcases listed with rfl | rfl | rfl <;> revert mark <;> decide

theorem nested_ident (ident : IsIdent name) : Nested IsSimpleChar name.toList :=
  .of_plain (fun c member => .inl (ident.2 c member))
    fun c member => isBare_of_isIdentChar (ident.2 c member).1

theorem nested_mark {c : Char} (mark : c ∈ ['#', '.', ':', '*']) (nested : Nested IsSimpleChar s) :
    Nested IsSimpleChar (c :: s) :=
  .plain c s (.inr mark) (IsSimpleChar.isBare (.inr mark)) nested

theorem nested_flatMap {α : Type} {f : α → List Char} {items : List α}
    (each : ∀ a ∈ items, Nested IsSimpleChar (f a)) : Nested IsSimpleChar (items.flatMap f) := by
  induction items with
  | nil => exact .nil _
  | cons a others ih =>
      obtain ⟨own, later⟩ := List.forall_mem_cons.1 each
      exact own.append (ih later)

theorem nested_attribute {test : AttributeTest} (normal : test.IsNormal) :
    Nested IsSimpleChar test.text :=
  .square test.inner [] (nested_inner normal) (.nil _)

theorem nested_pseudo {argument : Option (List Char)} (ident : IsIdent name)
    (nested : ∀ inner, argument = some inner → Nested (fun _ => True) inner) :
    Nested IsSimpleChar (':' :: (name.toList ++ bracketed argument)) := by
  refine nested_mark (by decide) ((nested_ident ident).append ?_)
  cases argument with
  | none => exact .nil _
  | some inner => exact .round inner [] (nested inner rfl) (.nil _)

theorem nested_textAll {pseudos : List PseudoClass} (each : ∀ pseudo ∈ pseudos, ReadsBack pseudo) :
    Nested IsSimpleChar (PseudoClass.textAll pseudos) := by
  induction pseudos with
  | nil => exact .nil _
  | cons pseudo others ih =>
      obtain ⟨own, later⟩ := List.forall_mem_cons.1 each
      rw [PseudoClass.textAll]
      exact (nested_pseudo own.ident.1 own.nested).append (ih later)

theorem readTag_text {tag : Option String}
    (normal : ∀ name, tag = some name → name = "*" ∨ IsLowerIdent name) (starts : StartsSimple s) :
    readTag ((tag.map String.toList).getD [] ++ s) = (tag, s) := by
  cases tag with
  | none =>
      cases s with
      | nil => rfl
      | cons c rest =>
          have listed := starts c rfl
          simp only [List.mem_cons, List.not_mem_nil, or_false] at listed
          rcases listed with rfl | rfl | rfl | rfl <;> rfl
  | some name =>
      rcases normal name rfl with rfl | ident
      · rfl
      · have read := readIdent_name ident.1 starts.endsIdent
        rw [Option.map_some, Option.getD_some]
        cases own : name.toList with
        | nil => exact absurd own ident.1.1
        | cons c others =>
            rw [own] at read
            have first := (ident.1.2 c (by simp [own])).1
            have star : (c == '*') = false :=
              beq_eq_false_iff_ne.2 (isIdentChar_apart first rfl)
            rw [List.cons_append, readTag, star, first, if_neg Bool.false_ne_true, Bool.true_or,
              if_pos rfl, ← List.cons_append, read, ← own]
            simp only [ident.2, String.ofList_toList]

/-- What a compound whose text gives it back has: the text is nested, and is read as the compound. -/
structure CompoundReadsBack (compound : Compound) : Prop where
  nested : Nested IsSimpleChar compound.text
  read : readCompound compound.text = .ok compound

section Parts

variable (tag : ∀ name, compound.tag = some name → name = "*" ∨ IsLowerIdent name)
  (ids : ∀ id ∈ compound.ids, IsIdent id) (classes : ∀ name ∈ compound.classes, IsIdent name)
  (attributes : ∀ test ∈ compound.attributes, test.IsNormal)
  (pseudoClasses : ∀ pseudo ∈ compound.pseudoClasses, ReadsBack pseudo)
  (pseudoElement : ∀ name, compound.pseudoElement = some name → IsLowerIdent name)

include tag ids classes attributes pseudoClasses pseudoElement

theorem nested_text : Nested IsSimpleChar compound.text := by
  obtain ⟨ownTag, ownIds, ownClasses, ownAttributes, ownPseudos, ownElement⟩ := compound
  have nestedTag : Nested IsSimpleChar ((ownTag.map String.toList).getD []) := by
    cases ownTag with
    | none => exact .nil _
    | some name =>
        rcases tag name rfl with rfl | ident
        · exact nested_mark (by decide) (.nil _)
        · exact nested_ident ident.1
  have nestedElement : Nested IsSimpleChar
      ((ownElement.map fun name => ':' :: ':' :: name.toList).getD []) := by
    cases ownElement with
    | none => exact .nil _
    | some name =>
        have ident := nested_ident (pseudoElement name rfl).1
        exact nested_mark (by decide) (nested_mark (by decide) ident)
  rw [Compound.text]
  refine .append (.append (.append (.append (.append nestedTag ?_) ?_) ?_) ?_) nestedElement
  · exact nested_flatMap fun id member => nested_mark (by decide) (nested_ident (ids id member))
  · exact nested_flatMap fun name member =>
      nested_mark (by decide) (nested_ident (classes name member))
  · exact nested_flatMap fun test member => nested_attribute (attributes test member)
  · exact nested_textAll pseudoClasses

theorem readCompound_text (nonempty : compound.isEmpty = false) :
    readCompound compound.text = .ok compound := by
  have nested := nested_text tag ids classes attributes pseudoClasses pseudoElement
  have trimmed := trim_of_isTrimmed (nested.isTrimmed fun _ => IsSimpleChar.isBlank)
  obtain ⟨ownTag, ownIds, ownClasses, ownAttributes, ownPseudos, ownElement⟩ := compound
  dsimp only at tag ids classes attributes pseudoClasses pseudoElement
  have startsElement : StartsSimple
      ((ownElement.map fun name => ':' :: ':' :: name.toList).getD []) := by
    cases ownElement with
    | none => exact startsSimple_nil
    | some name =>
        rintro _ ⟨⟩
        decide
  have startsPseudos := startsSimple_append (startsSimple_textAll ownPseudos) startsElement
  have startsAttributes := startsSimple_append
    (startsSimple_flatMap (f := AttributeTest.text) (fun _ => by rintro _ ⟨⟩; decide) ownAttributes)
    startsPseudos
  have startsClasses := startsSimple_append
    (startsSimple_flatMap (f := fun name : String => '.' :: name.toList)
      (fun _ => by rintro _ ⟨⟩; decide) ownClasses) startsAttributes
  have startsIds := startsSimple_append
    (startsSimple_flatMap (f := fun id : String => '#' :: id.toList)
      (fun _ => by rintro _ ⟨⟩; decide) ownIds) startsClasses
  have element : readSimples ⟨ownTag, ownIds, ownClasses, ownAttributes, ownPseudos, none⟩
      ((ownElement.map fun name => ':' :: ':' :: name.toList).getD []) =
        .ok ⟨ownTag, ownIds, ownClasses, ownAttributes, ownPseudos, ownElement⟩ := by
    cases ownElement with
    | none => rw [Option.map_none, Option.getD_none, readSimples]
    | some name => exact readSimples_pseudoElement rfl (pseudoElement name rfl)
  rw [readCompound, trimmed, Compound.text]
  simp only [List.append_assoc]
  rw [readTag_text tag startsIds]
  dsimp only
  rw [readSimples_ids ids startsClasses, readSimples_classes classes startsAttributes,
    readSimples_attributes attributes, readSimples_pseudos pseudoClasses rfl startsElement]
  simp only [Compound.empty, List.nil_append]
  rw [element]
  simp only [nonempty, bind, Except.bind, if_neg Bool.false_ne_true]
  rfl

end Parts

theorem readsBack_plain (ident : IsLowerIdent pseudo.name) (plain : pseudo.name ∉ elementNames)
    (bare : pseudo.argument? = none) (meaning : plainPseudoClass pseudo.name = pseudo) :
    ReadsBack pseudo where
  ident := ident
  plain := plain
  nested := by
    rw [bare]
    exact nofun
  meaning rest := by
    rw [PseudoText.meaning, bare, String.ofList_toList, meaning]

/-- The names with a meaning of their own are identifiers, and none is that of a pseudo-element. -/
theorem isLowerIdent_meant : ∀ name ∈ plainNames ++ dynamicNames ++
    ["nth-child", "nth-last-child", "nth-of-type", "not"],
    IsLowerIdent name ∧ name ∉ elementNames := by
  decide

theorem nested_progression (positions : Progression) :
    Nested (fun _ => True) positions.text :=
  .of_plain (fun _ _ => trivial) fun _ member => (isFormulaChar_of_mem_text member).isBare

/-- The names of pseudo-classes with a formula for an argument. -/
def formulaNames : List String :=
  ["nth-child", "nth-last-child", "nth-of-type"]

theorem isLowerIdent_formula (listed : name ∈ formulaNames) :
    IsLowerIdent name ∧ name ∉ elementNames := by
  refine isLowerIdent_meant name ?_
  simp only [formulaNames, List.mem_cons, List.not_mem_nil, or_false] at listed
  simp only [List.mem_append, List.mem_cons]
  tauto

theorem meaning_formula (listed : name ∈ formulaNames) (argument rest : List Char) :
    PseudoText.meaning ⟨false, name.toList, some argument, rest⟩ =
      functionalPseudoClass name argument := by
  have other : name ≠ "not" := by
    rintro rfl
    revert listed
    decide
  rw [PseudoText.meaning, String.ofList_toList]
  dsimp only
  rw [if_neg other]

theorem readsBack_formula {positions : Progression} (listed : pseudo.name ∈ formulaNames)
    (argument : pseudo.argument? = some positions.text)
    (read : functionalPseudoClass pseudo.name positions.text = .ok pseudo) : ReadsBack pseudo where
  ident := (isLowerIdent_formula listed).1
  plain := (isLowerIdent_formula listed).2
  nested := by
    rw [argument]
    rintro _ ⟨⟩
    exact nested_progression positions
  meaning rest := by
    rw [argument, meaning_formula listed, read]

theorem plainPseudoClass_of_not_mem (other : name ∉ plainNames) :
    plainPseudoClass name = if name ∈ dynamicNames then .dynamic name else .unsupported name := by
  simp only [plainNames, List.mem_cons, List.not_mem_nil, or_false, not_or] at other
  simp [plainPseudoClass, other]

theorem dynamicNames_not_plain : ∀ name ∈ dynamicNames, name ∉ plainNames := by
  decide

theorem readsBack_meant (listed : pseudo.name ∈ plainNames) (bare : pseudo.argument? = none)
    (meaning : plainPseudoClass pseudo.name = pseudo) : ReadsBack pseudo := by
  obtain ⟨ident, plain⟩ := isLowerIdent_meant pseudo.name (by simp [listed])
  exact readsBack_plain ident plain bare meaning

mutual

theorem CompoundReadsBack.of_isNormal {compound : Compound} (normal : compound.IsNormal) :
    CompoundReadsBack compound :=
  match normal with
  | .intro _ nonempty tag ids classes attributes pseudoClasses pseudoElement => by
      have each : ∀ pseudo ∈ compound.pseudoClasses, ReadsBack pseudo := fun pseudo member =>
        ReadsBack.of_isNormal (pseudoClasses pseudo member)
      exact ⟨nested_text tag ids classes attributes each pseudoElement,
        readCompound_text tag ids classes attributes each pseudoElement nonempty⟩

theorem ReadsBack.of_isNormal {pseudo : PseudoClass} (normal : PseudoClass.IsNormal pseudo) :
    ReadsBack pseudo :=
  match normal with
  | .root => readsBack_meant (by simp [PseudoClass.name, plainNames]) rfl rfl
  | .firstChild => readsBack_meant (by simp [PseudoClass.name, plainNames]) rfl rfl
  | .lastChild => readsBack_meant (by simp [PseudoClass.name, plainNames]) rfl rfl
  | .onlyChild => readsBack_meant (by simp [PseudoClass.name, plainNames]) rfl rfl
  | .firstOfType => readsBack_meant (by simp [PseudoClass.name, plainNames]) rfl rfl
  | .lastOfType => readsBack_meant (by simp [PseudoClass.name, plainNames]) rfl rfl
  | .nthChild positions formula =>
      readsBack_formula (by simp [PseudoClass.name, formulaNames]) rfl
        (by simp [functionalPseudoClass, PseudoClass.name, readProgression?_text formula]; rfl)
  | .nthLastChild positions formula =>
      readsBack_formula (by simp [PseudoClass.name, formulaNames]) rfl
        (by simp [functionalPseudoClass, PseudoClass.name, readProgression?_text formula]; rfl)
  | .nthOfType positions formula =>
      readsBack_formula (by simp [PseudoClass.name, formulaNames]) rfl
        (by simp [functionalPseudoClass, PseudoClass.name, readProgression?_text formula]; rfl)
  | .not inner negated => by
      have back := CompoundReadsBack.of_isNormal negated
      obtain ⟨ident, plain⟩ := isLowerIdent_meant "not" (by simp)
      refine ⟨ident, plain, ?_, fun rest => ?_⟩
      · rintro _ ⟨⟩
        exact back.nested.mono fun _ _ => trivial
      · rw [PseudoText.meaning, String.ofList_toList, PseudoClass.argument?]
        dsimp only
        rw [PseudoClass.name, if_pos rfl, back.read]
        rfl
  | .dynamic name listed => by
      obtain ⟨ident, plain⟩ := isLowerIdent_meant name (by simp [listed])
      refine readsBack_plain ident plain rfl ?_
      rw [PseudoClass.name, plainPseudoClass_of_not_mem (dynamicNames_not_plain name listed),
        if_pos listed]
  | .unsupported name ident other => by
      simp only [List.mem_append, not_or] at other
      refine readsBack_plain ident other.2 rfl ?_
      rw [PseudoClass.name, plainPseudoClass_of_not_mem other.1.1, if_neg other.1.2]

end

end Compounds

section Scanning

variable {read : Option ComplexSelector} {pending : Option Combinator} {buffer : List Char} {n : Nat}
  {left selector : ComplexSelector} {compound : Compound} {combinator : Combinator} {c : Char}
  {s text joint : List Char}

namespace Scan

theorem step_inside {nesting : Nesting} (inside : nesting.isTop = false) (c : Char) :
    step ⟨read, pending, buffer, nesting⟩ c =
      .ok ⟨read, pending, c :: buffer, nesting.step .roundAndSquare c⟩ := by
  rw [step, inside]
  rfl

theorem step_visible (plain : combinatorOf? c = none) (visible : isBlank c = false)
    (nesting : Nesting) : step ⟨read, pending, buffer, nesting⟩ c =
      .ok ⟨read, pending, c :: buffer, nesting.step .roundAndSquare c⟩ := by
  rw [step, plain, visible]
  split <;> rfl

theorem foldlM_step_quoted {value : List Char} (free : '"' ∉ value) :
    (value ++ ['"']).foldlM step ⟨read, pending, buffer, ⟨some '"', n⟩⟩ =
      .ok ⟨read, pending, (value ++ ['"']).reverse ++ buffer, ⟨none, n⟩⟩ := by
  induction value generalizing buffer with
  | nil =>
      rw [List.nil_append, foldlM_cons_of_ok (step_inside rfl _)]
      rfl
  | cons c others ih =>
      obtain ⟨other, later⟩ := not_or.1 (List.mem_cons.not.1 free)
      rw [List.cons_append, foldlM_cons_of_ok (step_inside rfl c),
        Nesting.step_inside (Ne.symm other), ih later]
      simp

/-- The text of a compound goes to the buffer, and so does what its brackets hold. -/
theorem foldlM_step_nested {kind : Char → Prop} (nested : Nested kind s)
    (simple : n = 0 → ∀ c, kind c → IsSimpleChar c) :
    s.foldlM step ⟨read, pending, buffer, ⟨none, n⟩⟩ =
      .ok ⟨read, pending, s.reverse ++ buffer, ⟨none, n⟩⟩ := by
  induction nested generalizing n buffer with
  | nil => rfl
  | plain c s own bare _ ih =>
      have pushed : step ⟨read, pending, buffer, ⟨none, n⟩⟩ c =
          .ok ⟨read, pending, c :: buffer, ⟨none, n⟩⟩ := by
        have kept := Nesting.step_of_isBare (n := n) bare
        cases n with
        | zero =>
            have plain := simple rfl c own
            rw [step_visible plain.combinatorOf? plain.isBlank, kept]
        | succ n => rw [step_inside rfl, kept]
      rw [foldlM_cons_of_ok pushed, ih simple]
      simp
  | quoted value s inside _ ih =>
      have parts : value ++ '"' :: s = (value ++ ['"']) ++ s := by simp
      rw [foldlM_cons_of_ok (step_visible rfl rfl _), Nesting.step_quote, parts,
        foldlM_append_of_ok (foldlM_step_quoted inside), ih simple]
      simp
  | round inner s _ _ ihInner ih =>
      rw [foldlM_cons_of_ok (step_visible rfl rfl _), Nesting.step_opener (by decide),
        foldlM_append_of_ok (ihInner (n := n + 1) nofun), foldlM_cons_of_ok (step_inside rfl _),
        Nesting.step_closer (by decide), ih simple]
      simp
  | square inner s _ _ ihInner ih =>
      rw [foldlM_cons_of_ok (step_visible rfl rfl _), Nesting.step_opener (by decide),
        foldlM_append_of_ok (ihInner (n := n + 1) nofun), foldlM_cons_of_ok (step_inside rfl _),
        Nesting.step_closer (by decide), ih simple]
      simp

theorem combinatorOf?_of_isBlank (blank : isBlank c) : combinatorOf? c = none := by
  rw [Option.eq_none_iff_forall_ne_some]
  intro combinator sign
  rcases StaticSelector.combinatorOf?_eq_some sign with rfl | rfl | rfl <;> cases blank

theorem foldlM_step_blanks {blanks : List Char} (blank : IsBlankText blanks) :
    blanks.foldlM step ⟨read, pending, [], .top⟩ = .ok ⟨read, pending, [], .top⟩ := by
  induction blanks with
  | nil => rfl
  | cons c rest ih =>
      obtain ⟨own, later⟩ := List.forall_mem_cons.1 blank
      have kept : step ⟨read, pending, [], .top⟩ c = .ok ⟨read, pending, [], .top⟩ := by
        rw [step, combinatorOf?_of_isBlank own, own]
        rfl
      rw [foldlM_cons_of_ok kept, ih later]

/-- A selector has been read, up to its last compound, which is still in the buffer. -/
structure Holds (scan : Scan) (selector : ComplexSelector) : Prop where
  top : scan.nesting = .top
  nonempty : (trim scan.buffer.reverse).isEmpty = false
  flush : scan.flush = .ok ⟨some selector, none, [], .top⟩

theorem Holds.step_blank {scan : Scan} (holds : scan.Holds left) (blank : isBlank c) :
    scan.step c = .ok ⟨some left, some .descendant, [], .top⟩ := by
  rw [step, holds.top, combinatorOf?_of_isBlank blank, blank, holds.nonempty, holds.flush]
  rfl

theorem Holds.step_sign {scan : Scan} (holds : scan.Holds left)
    (sign : combinatorOf? c = some combinator) :
    scan.step c = .ok ⟨some left, some combinator, [], .top⟩ := by
  rw [step, holds.top, sign, holds.flush]
  rfl

theorem step_sign_after_blanks (sign : combinatorOf? c = some combinator) :
    step ⟨read, some .descendant, [], .top⟩ c = .ok ⟨read, some combinator, [], .top⟩ := by
  rw [step, sign]
  rfl

theorem Holds.foldlM_step_joint {scan : Scan} (holds : scan.Holds left)
    (joined : combinator.Written joint) :
    joint.foldlM step scan = .ok ⟨some left, some combinator, [], .top⟩ := by
  cases joined with
  | blanks _ nonempty blank =>
      cases joint with
      | nil => exact absurd rfl nonempty
      | cons c rest =>
          obtain ⟨own, later⟩ := List.forall_mem_cons.1 blank
          rw [foldlM_cons_of_ok (holds.step_blank own), foldlM_step_blanks later]
  | sign _ c before after sign blankBefore blankAfter =>
      cases before with
      | nil =>
          rw [List.nil_append, foldlM_cons_of_ok (holds.step_sign sign),
            foldlM_step_blanks blankAfter]
      | cons b rest =>
          obtain ⟨own, later⟩ := List.forall_mem_cons.1 blankBefore
          rw [List.cons_append, foldlM_cons_of_ok (holds.step_blank own),
            foldlM_append_of_ok (foldlM_step_blanks later),
            foldlM_cons_of_ok (step_sign_after_blanks sign), foldlM_step_blanks blankAfter]

end Scan

theorem readCompound_nil : readCompound [] = .error .unreadable := by
  have empty : trim [] = [] := rfl
  rw [readCompound, empty]
  dsimp only [readTag]
  rw [readSimples]
  rfl

theorem CompoundReadsBack.text_ne_nil (back : CompoundReadsBack compound) : compound.text ≠ [] := by
  intro empty
  have read := back.read
  rw [empty, readCompound_nil] at read
  cases read

theorem CompoundReadsBack.isTrimmed (back : CompoundReadsBack compound) :
    IsTrimmed compound.text :=
  back.nested.isTrimmed fun _ => IsSimpleChar.isBlank

theorem subject_readsBack (normal : selector.IsNormal) : CompoundReadsBack selector.subject :=
  .of_isNormal (normal selector.subject (by simp [ComplexSelector.compounds]))

theorem isNormal_left
    (normal : ComplexSelector.IsNormal ⟨compound, (combinator, left.subject) :: left.context⟩) :
    left.IsNormal := by
  intro other member
  refine normal other (List.mem_append_left _ ?_)
  rwa [List.map_cons, List.reverse_cons]

namespace Scan

theorem holds_compound (back : CompoundReadsBack compound)
    (joined : join ⟨read, pending, compound.text.reverse, .top⟩ compound =
      .ok ⟨some selector, none, [], .top⟩) :
    Holds ⟨read, pending, compound.text.reverse, .top⟩ selector where
  top := rfl
  nonempty := by
    rw [List.reverse_reverse, trim_of_isTrimmed back.isTrimmed]
    exact List.isEmpty_eq_false_iff.2 back.text_ne_nil
  flush := by
    have nonempty := List.isEmpty_eq_false_iff.2 back.text_ne_nil
    rw [flush, List.reverse_reverse, trim_of_isTrimmed back.isTrimmed]
    dsimp only
    rw [nonempty, if_neg Bool.false_ne_true, back.read]
    exact joined

theorem holds_written (written : selector.Written text) (normal : selector.IsNormal) :
    ∃ scan, text.foldlM step {} = .ok scan ∧ scan.Holds selector := by
  induction written with
  | compound compound =>
      have back := subject_readsBack normal
      refine ⟨⟨none, none, compound.text.reverse, .top⟩, ?_, holds_compound back rfl⟩
      refine (foldlM_step_nested back.nested fun _ _ simple => simple).trans ?_
      rw [List.append_nil]
      rfl
  | join left text joint combinator compound written joined ih =>
      have back := subject_readsBack normal
      obtain ⟨scan, run, holds⟩ := ih (isNormal_left normal)
      refine ⟨⟨some left, some combinator, compound.text.reverse, .top⟩, ?_, holds_compound back rfl⟩
      rw [List.append_assoc, foldlM_append_of_ok run,
        foldlM_append_of_ok (holds.foldlM_step_joint joined)]
      refine (foldlM_step_nested back.nested fun _ _ simple => simple).trans ?_
      rw [List.append_nil]
      rfl

theorem Holds.finish {scan : Scan} (holds : scan.Holds selector) : scan.finish = .ok selector := by
  rw [Scan.finish, holds.top, holds.flush]
  rfl

end Scan

theorem isTrimmed_written (written : selector.Written text) (normal : selector.IsNormal) :
    IsTrimmed text ∧ text ≠ [] := by
  induction written with
  | compound compound =>
      have back := subject_readsBack normal
      exact ⟨back.isTrimmed, back.text_ne_nil⟩
  | join left text joint combinator compound written joined ih =>
      have back := subject_readsBack normal
      obtain ⟨trimmed, nonempty⟩ := ih (isNormal_left normal)
      refine ⟨isTrimmed_append trimmed back.isTrimmed nonempty back.text_ne_nil joint, ?_⟩
      simp [nonempty]

theorem readComplex_written (written : selector.WrittenMember text) (normal : selector.IsNormal) :
    readComplex text = .ok selector := by
  obtain ⟨before, own, after, written, blankBefore, blankAfter, rfl⟩ := written
  have trimmed : trim (before ++ own ++ after) = own := by
    rw [trim_append_right blankAfter, trim_append_left blankBefore,
      trim_of_isTrimmed (isTrimmed_written written normal).1]
  obtain ⟨scan, run, holds⟩ := Scan.holds_written written normal
  rw [readComplex, trimmed, run]
  exact holds.finish

theorem readComplex_of_run (trimmed : IsTrimmed s)
    (run : s.foldlM Scan.step {} = .ok ⟨none, none, s.reverse, .top⟩)
    (read : readCompound s = .ok compound) : readComplex s = .ok ⟨compound, []⟩ := by
  have nonempty : s.isEmpty = false := by
    rw [List.isEmpty_eq_false_iff]
    rintro rfl
    rw [readCompound_nil] at read
    cases read
  have flush : Scan.flush ⟨none, none, s.reverse, .top⟩ =
      .ok ⟨some ⟨compound, []⟩, none, [], .top⟩ := by
    rw [Scan.flush, List.reverse_reverse, trim_of_isTrimmed trimmed]
    dsimp only
    rw [nonempty, if_neg Bool.false_ne_true, read]
    rfl
  have finish : Scan.finish ⟨none, none, s.reverse, .top⟩ = .ok ⟨compound, []⟩ := by
    rw [Scan.finish, flush]
    rfl
  rw [readComplex, trim_of_isTrimmed trimmed, run]
  exact finish

theorem readComplex_nested (nested : Nested IsSimpleChar s)
    (read : readCompound s = .ok compound) : readComplex s = .ok ⟨compound, []⟩ := by
  refine readComplex_of_run (nested.isTrimmed fun _ => IsSimpleChar.isBlank) ?_ read
  refine (Scan.foldlM_step_nested nested fun _ _ simple => simple).trans ?_
  rw [List.append_nil]
  rfl

end Scanning

section Groups

variable {selector : ComplexSelector} {s text piece : List Char}

/-- A character of a group outside brackets and quotes, other than a comma. -/
def IsMemberChar (c : Char) : Prop :=
  IsSimpleChar c ∨ isBlank c ∨ (Scan.combinatorOf? c).isSome

theorem not_isMemberChar_comma : ¬IsMemberChar ',' := by
  rintro ((⟨ident, -⟩ | mark) | blank | sign)
  · revert ident
    decide
  · revert mark
    decide
  · cases blank
  · cases sign

theorem nested_blanks (blank : IsBlankText s) : Nested IsMemberChar s := by
  refine .of_plain (fun c member => .inr (.inl (blank c member))) fun c member held => ?_
  have own := blank c member
  simp only [List.mem_cons, List.not_mem_nil, or_false] at held
  rcases held with rfl | rfl | rfl | rfl | rfl | rfl <;> cases own

theorem nested_joint {combinator : Combinator} (joined : combinator.Written text) :
    Nested IsMemberChar text := by
  cases joined with
  | blanks _ _ blank => exact nested_blanks blank
  | sign _ c before after sign blankBefore blankAfter =>
      have bare : IsBare c := by
        rcases StaticSelector.combinatorOf?_eq_some sign with rfl | rfl | rfl <;> decide
      refine (nested_blanks blankBefore).append (.plain c _ (.inr (.inr ?_)) bare ?_)
      · rw [sign]
        rfl
      · exact nested_blanks blankAfter

theorem CompoundReadsBack.nested_member {compound : Compound} (back : CompoundReadsBack compound) :
    Nested IsMemberChar compound.text :=
  back.nested.mono fun _ => .inl

theorem nested_written (written : selector.Written text) (normal : selector.IsNormal) :
    Nested IsMemberChar text := by
  induction written with
  | compound compound => exact (subject_readsBack normal).nested_member
  | join left text joint combinator compound written joined ih =>
      exact ((ih (isNormal_left normal)).append (nested_joint joined)).append
        (subject_readsBack normal).nested_member

theorem isPiece_member (written : selector.WrittenMember piece) (normal : selector.IsNormal) :
    IsPiece ',' .top piece := by
  obtain ⟨before, own, after, written, blankBefore, blankAfter, rfl⟩ := written
  have nested : Nested IsMemberChar (before ++ own ++ after) :=
    ((nested_blanks blankBefore).append (nested_written written normal)).append
      (nested_blanks blankAfter)
  have whole := nested.isPiece_append (d := ',') (n := 0) (t := [])
    (fun _ => not_isMemberChar_comma) (by decide) rfl
  rwa [List.append_nil] at whole

theorem isPiece_nested (nested : Nested IsSimpleChar text) : IsPiece ',' .top text := by
  have piece := (nested.mono fun _ => .inl).isPiece_append (d := ',') (n := 0) (t := [])
    (fun _ => not_isMemberChar_comma) (by decide) rfl
  rwa [List.append_nil] at piece

end Groups

end Selector

namespace SelectorGroup

open Selector

variable {members : List ComplexSelector} {text : List Char}

theorem foldlM_addMember_written (written : Written members text)
    (normal : ∀ member ∈ members, member.IsNormal) (group : SelectorGroup) :
    (splitTopLevel ',' text).foldlM addMember group =
      .ok { group with members := group.members ++ members } := by
  have add {group : SelectorGroup} {member : ComplexSelector} {piece : List Char}
      (own : member.WrittenMember piece) (normal : member.IsNormal) :
      addMember group piece = .ok { group with members := group.members ++ [member] } := by
    rw [addMember, readComplex_written own normal]
  induction written generalizing group with
  | one member piece own =>
      have ownNormal := normal member List.mem_cons_self
      rw [splitTopLevel, splitFrom_of_isPiece (isPiece_member own ownNormal), List.reverse_nil,
        List.nil_append, foldlM_cons_of_ok (add own ownNormal)]
      rfl
  | more member piece members text own _ ih =>
      obtain ⟨ownNormal, later⟩ := List.forall_mem_cons.1 normal
      rw [splitTopLevel, splitFrom_append_of_isPiece (isPiece_member own ownNormal),
        List.reverse_nil, List.nil_append, foldlM_cons_of_ok (add own ownNormal)]
      refine (ih later _).trans ?_
      simp

theorem read_of_isPiece {selector : ComplexSelector} (piece : IsPiece ',' .top text)
    (member : readComplex text = .ok selector) :
    read (String.ofList text) = .ok ⟨[selector], 0⟩ := by
  rw [read, String.toList_ofList, splitTopLevel, splitFrom_of_isPiece piece, List.reverse_nil,
    List.nil_append, List.foldlM_cons, addMember, member]
  rfl

theorem read_nested {compound : Compound} (nested : Nested IsSimpleChar text)
    (own : readCompound text = .ok compound) :
    read (String.ofList text) = .ok ⟨[⟨compound, []⟩], 0⟩ :=
  read_of_isPiece (isPiece_nested nested) (readComplex_nested nested own)

/-- Reading a text of a group of normal form gives its members, each of them and in their order. -/
theorem read_written (written : Written members text)
    (normal : ∀ member ∈ members, member.IsNormal) :
    read (String.ofList text) = .ok ⟨members, 0⟩ := by
  have nonempty : members ≠ [] := by
    cases written <;> exact List.cons_ne_nil _ _
  rw [read, String.toList_ofList, foldlM_addMember_written written normal, List.nil_append]
  cases members with
  | nil => exact absurd rfl nonempty
  | cons => rfl

/-- Commas, brackets and combinators in values and in arguments, and blanks around signs. -/
theorem read_written_nested :
    read "p\n> [d^=\"a > b, c]\" i] ,*:not(.e[f=\"),\"]):nth-child(-2n+1)::after" =
      .ok ⟨[⟨⟨none, [], [], [⟨"d", some ⟨.starts, "a > b, c]", true⟩⟩], [], none⟩,
          [(.child, ⟨some "p", [], [], [], [], none⟩)]⟩,
        ⟨⟨some "*", [], [], [], [.not ⟨none, [], ["e"], [⟨"f", some ⟨.equals, "),", false⟩⟩], [],
          none⟩, .nthChild ⟨-2, 1⟩], some "after"⟩, []⟩], 0⟩ := by
  have test : AttributeTest.IsNormal ⟨"d", some ⟨.starts, "a > b, c]", true⟩⟩ :=
    ⟨by decide, List.forall_mem_singleton.2 (by decide), by rintro _ ⟨⟩; decide⟩
  have inner : AttributeTest.IsNormal ⟨"f", some ⟨.equals, "),", false⟩⟩ :=
    ⟨by decide, List.forall_mem_singleton.2 (by decide), by rintro _ ⟨⟩; decide⟩
  have tagged : Compound.IsNormal ⟨some "p", [], [], [], [], none⟩ :=
    .intro _ rfl (by rintro _ ⟨⟩; exact .inr (by decide)) nofun nofun nofun nofun nofun
  have tested : Compound.IsNormal
      ⟨none, [], [], [⟨"d", some ⟨.starts, "a > b, c]", true⟩⟩], [], none⟩ :=
    .intro _ rfl nofun nofun nofun (List.forall_mem_singleton.2 test) nofun nofun
  have negated : Compound.IsNormal
      ⟨none, [], ["e"], [⟨"f", some ⟨.equals, "),", false⟩⟩], [], none⟩ :=
    .intro _ rfl nofun nofun (List.forall_mem_singleton.2 (by decide))
      (List.forall_mem_singleton.2 inner) nofun nofun
  have last : Compound.IsNormal ⟨some "*", [], [], [], [.not ⟨none, [], ["e"],
      [⟨"f", some ⟨.equals, "),", false⟩⟩], [], none⟩, .nthChild ⟨-2, 1⟩], some "after"⟩ :=
    .intro _ rfl (by rintro _ ⟨⟩; exact .inl rfl) nofun nofun nofun
      (List.forall_mem_cons.2 ⟨.not _ negated, List.forall_mem_singleton.2
        (.nthChild _ ⟨by decide, by decide⟩)⟩) (by rintro _ ⟨⟩; decide)
  have first : ComplexSelector.Written _ _ := .join _ _ "\n> ".toList .child
    ⟨none, [], [], [⟨"d", some ⟨.starts, "a > b, c]", true⟩⟩], [], none⟩
    (.compound ⟨some "p", [], [], [], [], none⟩)
    (.sign .child '>' ['\n'] [' '] rfl (List.forall_mem_singleton.2 rfl)
      (List.forall_mem_singleton.2 rfl))
  have group := Written.more _ _ _ _
    ⟨[], _, [' '], first, nofun, List.forall_mem_singleton.2 rfl, rfl⟩
    (.one ⟨⟨some "*", [], [], [], [.not ⟨none, [], ["e"], [⟨"f", some ⟨.equals, "),", false⟩⟩], [],
      none⟩, .nthChild ⟨-2, 1⟩], some "after"⟩, []⟩ _ ⟨[], _, [], .compound _, nofun, nofun, rfl⟩)
  exact read_written group (List.forall_mem_cons.2
    ⟨List.forall_mem_cons.2 ⟨tagged, List.forall_mem_singleton.2 tested⟩,
      List.forall_mem_singleton.2 (List.forall_mem_singleton.2 last)⟩)

end SelectorGroup

end ComputedStyle
