import Mathlib
import ComputedStyle.Length
import ComputedStyle.Proofs.Document.Bookkeeping
import ComputedStyle.Proofs.Selector.Placement
import ComputedStyle.Proofs.Selector.Printing

namespace ComputedStyle

open Text Number

theorem word64_of_natAbs_le {m n : Int} (small : m.natAbs ≤ n.natAbs) (inside : word64 n)
    (above : n ≠ -(2 ^ 63)) : word64 m := by
  unfold word64 at *
  omega

namespace Progression

variable {positions : Progression} {position : Nat}

def Reaches (positions : Progression) (position : Nat) : Prop :=
  ∃ k : Nat, positions.step * k + positions.offset = position

theorem contains_iff : positions.contains position ↔ positions.Reaches position := by
  obtain ⟨step, offset⟩ := positions
  unfold contains Reaches
  dsimp only
  by_cases still : step = 0
  · subst still
    simp only [if_pos, beq_iff_eq, zero_mul, zero_add, exists_const]
    omega
  · rw [if_neg still]
    simp only [Bool.and_eq_true, beq_iff_eq, decide_eq_true_eq]
    constructor
    · rintro ⟨divides, ahead⟩
      refine ⟨(((position : Int) - offset).tdiv step).toNat, ?_⟩
      rw [Int.toNat_of_nonneg ahead, Int.mul_tdiv_cancel_of_dvd (Int.dvd_of_tmod_eq_zero divides)]
      omega
    · rintro ⟨k, reached⟩
      have difference : (position : Int) - offset = step * k := by omega
      rw [difference, Int.mul_tmod_right, Int.mul_tdiv_cancel_left _ still]
      exact ⟨rfl, Int.natCast_nonneg k⟩

theorem word64_division (normal : positions.IsNormal)
    (difference : word64 (position - positions.offset)) :
    word64 (((position : Int) - positions.offset).tmod positions.step) ∧
      word64 (((position : Int) - positions.offset).tdiv positions.step) := by
  have offset := normal.offset
  simp only [isInt32, Bool.and_eq_true, decide_eq_true_eq] at offset
  -- Only the least integer divided by minus one would leave the range; no difference is so small.
  have above : (position : Int) - positions.offset ≠ -(2 ^ 63) := by omega
  refine ⟨word64_of_natAbs_le ?_ difference above,
    word64_of_natAbs_le (Int.natAbs_tdiv_le_natAbs _ _) difference above⟩
  rw [Int.natAbs_tmod]
  exact Nat.mod_le _ _

theorem word64_difference (normal : positions.IsNormal) (bound : position ≤ 2 ^ 62) :
    word64 position ∧ word64 (position - positions.offset) := by
  have offset := normal.offset
  simp only [isInt32, Bool.and_eq_true, decide_eq_true_eq] at offset
  unfold word64
  omega

end Progression

section Ordinals

variable {ids before after : List NodeId} {id : NodeId}

/-- The place of a member of a list, counted from one. -/
def ordinal (ids : List NodeId) (id : NodeId) : Nat :=
  ids.idxOf id + 1

theorem ordinal_append_cons (first : id ∉ before) (after : List NodeId) :
    ordinal (before ++ id :: after) id = before.length + 1 := by
  rw [ordinal, List.idxOf_append_of_notMem first, List.idxOf_cons_self, Nat.add_zero]

theorem ordinal_reverse (last : id ∉ after) (before : List NodeId) :
    ordinal (before ++ id :: after).reverse id = after.length + 1 := by
  have turned : (before ++ id :: after).reverse = after.reverse ++ id :: before.reverse := by
    simp
  rw [turned, ordinal_append_cons (mt List.mem_reverse.1 last), List.length_reverse]

theorem ordinal_add_reverse (distinct : ids.Nodup) (member : id ∈ ids) :
    ordinal ids id + ordinal ids.reverse id = ids.length + 1 := by
  obtain ⟨before, after, rfl⟩ := List.append_of_mem member
  rw [List.nodup_middle, List.nodup_cons, List.mem_append, not_or] at distinct
  rw [ordinal_append_cons distinct.1.1, ordinal_reverse distinct.1.2, List.length_append,
    List.length_cons]
  omega

end Ordinals

namespace Document

variable {doc : Document} {id : NodeId} {tag : String}

/-- The children of the parent of a node; a root is its own only sibling. -/
def siblings (doc : Document) (id : NodeId) : List NodeId :=
  match doc.parent? id with
  | some p => doc.children p
  | none => [id]

/-- What a tree keeps of the place of an element are its positions in the lists of siblings. -/
structure Numbered (doc : Document) (id : NodeId) (tag : String) : Prop where
  fromStart : ordinal (doc.elementsAmong (doc.siblings id)) id = (doc.position id).elementIndex + 1
  fromEnd : ordinal (doc.elementsAmong (doc.siblings id)).reverse id =
    doc.elementSiblingCount id - (doc.position id).elementIndex
  ofType : ordinal (doc.withTagAmong tag (doc.siblings id)) id = doc.typePosition id
  ofTypeFromEnd : ordinal (doc.withTagAmong tag (doc.siblings id)).reverse id =
    doc.typeCount id + 1 - doc.typePosition id
  within : (doc.position id).elementIndex < doc.elementSiblingCount id
  withinType : doc.typePosition id ≤ doc.typeCount id
  count : doc.elementSiblingCount id = (doc.elementsAmong (doc.siblings id)).length
  typeCount : doc.typeCount id = (doc.withTagAmong tag (doc.siblings id)).length

theorem elementsAmong_split (element : doc.isElement id) (before after : List NodeId) :
    doc.elementsAmong (before ++ id :: after) =
      doc.elementsAmong before ++ id :: doc.elementsAmong after := by
  rw [elementsAmong, List.filter_append, List.filter_cons_of_pos element]
  rfl

theorem withTagAmong_split (own : doc.tag? id = some tag) (before after : List NodeId) :
    doc.withTagAmong tag (before ++ id :: after) =
      doc.withTagAmong tag before ++ id :: doc.withTagAmong tag after := by
  rw [withTagAmong, List.filter_append, List.filter_cons_of_pos (by simpa using own)]
  rfl

theorem ordinal_elementsAmong {before : List NodeId} (element : doc.isElement id)
    (first : id ∉ before) (after : List NodeId) :
    ordinal (doc.elementsAmong (before ++ id :: after)) id =
      (doc.elementsAmong before).length + 1 := by
  have earlier : id ∉ doc.elementsAmong before := mt List.mem_of_mem_filter first
  rw [elementsAmong_split element, ordinal_append_cons earlier]

theorem ordinal_withTagAmong {before : List NodeId} (own : doc.tag? id = some tag)
    (first : id ∉ before) (after : List NodeId) :
    ordinal (doc.withTagAmong tag (before ++ id :: after)) id =
      (doc.withTagAmong tag before).length + 1 := by
  have earlier : id ∉ doc.withTagAmong tag before := mt List.mem_of_mem_filter first
  rw [withTagAmong_split own, ordinal_append_cons earlier]

namespace Consistent

variable (h : doc.Consistent)

include h

theorem nodup_siblings : (doc.siblings id).Nodup := by
  unfold siblings
  split
  · exact h.distinct _
  · exact List.nodup_singleton id

theorem recounted_root (root : doc.parent? id = none) (own : doc.tag? id = some tag) :
    doc.Recounted id tag [] [] := by
  have element : doc.isElement id := by rw [isElement, own]; rfl
  have unplaced := h.unplaced_of_root root
  refine ⟨by rw [h.unplaced id root]; rfl, unplaced.elementIndex, unplaced.previous,
    unplaced.preceding, ?_, unplaced.typePosition, ?_⟩
  · rw [elementSiblingCount, root, elementsAmong_split element]
    rfl
  · rw [unplaced.typeCount, withTagAmong_split own]
    rfl

theorem recounted_siblings (own : doc.tag? id = some tag) :
    ∃ before after, doc.siblings id = before ++ id :: after ∧
      doc.Recounted id tag before after := by
  unfold siblings
  cases parent : doc.parent? id with
  | none => exact ⟨[], [], rfl, h.recounted_root parent own⟩
  | some p =>
      obtain ⟨before, after, split⟩ := h.exists_split parent
      exact ⟨before, after, split, h.recounted_of_split split own⟩

theorem numbered (own : doc.tag? id = some tag) : doc.Numbered id tag := by
  have element : doc.isElement id := by rw [isElement, own]; rfl
  have within := h.elementIndex_lt element
  have withinType : doc.typePosition id ≤ doc.typeCount id := h.typePosition_le
  have distinct : (doc.siblings id).Nodup := h.nodup_siblings
  obtain ⟨before, after, split, counts⟩ := h.recounted_siblings own
  have member : id ∈ doc.siblings id := by simp [split]
  have first : id ∉ before := by
    rw [split, List.nodup_middle, List.nodup_cons, List.mem_append, not_or] at distinct
    exact distinct.1.1
  have fromStart : ordinal (doc.elementsAmong (doc.siblings id)) id =
      (doc.position id).elementIndex + 1 := by
    rw [split, ordinal_elementsAmong element first, counts.elementIndex]
  have ofType : ordinal (doc.withTagAmong tag (doc.siblings id)) id = doc.typePosition id := by
    rw [split, ordinal_withTagAmong own first, counts.typePosition]
  have both := ordinal_add_reverse (distinct.filter doc.isElement)
    (List.mem_filter.2 ⟨member, element⟩)
  have bothOfType := ordinal_add_reverse (distinct.filter fun id => doc.tag? id = some tag)
    (List.mem_filter.2 ⟨member, decide_eq_true own⟩)
  rw [← elementsAmong, fromStart] at both
  rw [← withTagAmong, ofType] at bothOfType
  have count := counts.siblings
  have typeCount := counts.typeCount
  rw [← split] at count typeCount
  exact ⟨fromStart, by omega, ofType, by omega, within, withinType, count, typeCount⟩

theorem length_siblings_le (element : doc.isElement id) :
    (doc.siblings id).length ≤ doc.size := by
  have nodes : doc.siblings id ⊆ doc.ids := by
    intro other member
    rw [ids, List.mem_range]
    unfold siblings at member
    split at member
    · exact (children_range member).2
    · exact List.mem_singleton.1 member ▸ size_of_isElement element
  have within := (List.subperm_of_subset h.nodup_siblings nodes).length_le
  rwa [ids, List.length_range] at within

theorem elementSiblingCount_le (own : doc.tag? id = some tag) :
    doc.elementSiblingCount id ≤ doc.size ∧ doc.typePosition id ≤ doc.size := by
  have element : doc.isElement id := by rw [isElement, own]; rfl
  have numbered := h.numbered own
  have siblings := h.length_siblings_le element
  have elements : doc.elementSiblingCount id ≤ (doc.siblings id).length :=
    numbered.count ▸ List.length_filter_le _ _
  have alike : doc.typeCount id ≤ (doc.siblings id).length :=
    numbered.typeCount ▸ List.length_filter_le _ _
  exact ⟨elements.trans siblings, (numbered.withinType.trans alike).trans siblings⟩

end Consistent

end Document

namespace Document.Numbered

variable {doc : Document} {id : NodeId} {tag : String} (numbered : doc.Numbered id tag)

include numbered

theorem firstChild_iff : PseudoClass.firstChild.holdsFor doc id ↔
    ordinal (doc.elementsAmong (doc.siblings id)) id = 1 := by
  change ((doc.position id).elementIndex == 0) = true ↔ _
  rw [beq_iff_eq, numbered.fromStart]
  omega

theorem lastChild_iff : PseudoClass.lastChild.holdsFor doc id ↔
    ordinal (doc.elementsAmong (doc.siblings id)).reverse id = 1 := by
  have within := numbered.within
  change ((doc.position id).elementIndex + 1 == doc.elementSiblingCount id) = true ↔ _
  rw [beq_iff_eq, numbered.fromEnd]
  omega

theorem onlyChild_iff : PseudoClass.onlyChild.holdsFor doc id ↔
    ordinal (doc.elementsAmong (doc.siblings id)) id = 1 ∧
      ordinal (doc.elementsAmong (doc.siblings id)).reverse id = 1 := by
  have within := numbered.within
  change (doc.elementSiblingCount id == 1) = true ↔ _
  rw [beq_iff_eq, numbered.fromStart, numbered.fromEnd]
  omega

theorem firstOfType_iff : PseudoClass.firstOfType.holdsFor doc id ↔
    ordinal (doc.withTagAmong tag (doc.siblings id)) id = 1 := by
  change (doc.typePosition id == 1) = true ↔ _
  rw [beq_iff_eq, numbered.ofType]

theorem lastOfType_iff : PseudoClass.lastOfType.holdsFor doc id ↔
    ordinal (doc.withTagAmong tag (doc.siblings id)).reverse id = 1 := by
  have within := numbered.withinType
  change (doc.typePosition id == doc.typeCount id) = true ↔ _
  rw [beq_iff_eq, numbered.ofTypeFromEnd]
  omega

variable (positions : Progression)

theorem nthChild_iff : (PseudoClass.nthChild positions).holdsFor doc id ↔
    positions.Reaches (ordinal (doc.elementsAmong (doc.siblings id)) id) := by
  change positions.contains ((doc.position id).elementIndex + 1) = true ↔ _
  rw [Progression.contains_iff, numbered.fromStart]

theorem nthLastChild_iff : (PseudoClass.nthLastChild positions).holdsFor doc id ↔
    positions.Reaches (ordinal (doc.elementsAmong (doc.siblings id)).reverse id) := by
  change positions.contains
    (doc.elementSiblingCount id - (doc.position id).elementIndex) = true ↔ _
  rw [Progression.contains_iff, numbered.fromEnd]

theorem nthOfType_iff : (PseudoClass.nthOfType positions).holdsFor doc id ↔
    positions.Reaches (ordinal (doc.withTagAmong tag (doc.siblings id)) id) := by
  change positions.contains (doc.typePosition id) = true ↔ _
  rw [Progression.contains_iff, numbered.ofType]

end Document.Numbered

def pseudoClassText (name : String) (argument : Option (List Char)) : String :=
  String.ofList (':' :: (name.toList ++ bracketed argument))

/-- Matching a selector against a node decides a question. -/
structure Decides (text : String) (doc : Document) (id : NodeId) (question : Prop) : Prop where
  holds : question → selectorHoldsFor text doc id = .ok true
  fails : ¬question → selectorHoldsFor text doc id = .ok false

section Selectors

open Selector

variable {name : String} {argument : Option (List Char)} {pseudo : PseudoClass} {doc : Document}
  {id : NodeId} {question : Prop} {positions : Progression} {raw : List Char}

theorem SelectorGroup.read_pseudoClassText
    (ident : IsLowerIdent name) (plain : name ∉ elementNames)
    (nested : ∀ inner, argument = some inner → Nested (fun _ => True) inner)
    (meaning : PseudoText.meaning ⟨false, name.toList, argument, []⟩ = .ok pseudo) :
    SelectorGroup.read (pseudoClassText name argument) =
      .ok ⟨[⟨{ Compound.empty with pseudoClasses := [pseudo] }, []⟩], 0⟩ := by
  have whole := nested_pseudo ident.1 nested
  refine read_nested whole ?_
  have simples := @readSimples_pseudo Compound.empty _ _ _ _ rfl ident plain nested
    startsSimple_nil meaning
  have tag : readTag (':' :: (name.toList ++ bracketed argument)) =
      (none, ':' :: (name.toList ++ bracketed argument)) := rfl
  rw [List.append_nil, readSimples] at simples
  rw [readCompound, trim_of_isTrimmed (whole.isTrimmed fun _ => IsSimpleChar.isBlank), tag]
  change (readSimples Compound.empty (':' :: (name.toList ++ bracketed argument)) >>= _) = _
  rw [simples]
  rfl

theorem holdsFor_pseudoClass (element : doc.isElement id) (pseudo : PseudoClass) :
    Compound.holdsFor doc id { Compound.empty with pseudoClasses := [pseudo] } =
      pseudo.holdsFor doc id := by
  obtain ⟨tag, own⟩ := Option.isSome_iff_exists.1 element
  simp [Compound.holdsFor, Compound.empty, own, tagAdmits, PseudoClass.allHold]

theorem decides_of_read (element : doc.isElement id) (asked : pseudo.holdsFor doc id ↔ question)
    (ident : IsLowerIdent name) (plain : name ∉ elementNames)
    (nested : ∀ inner, argument = some inner → Nested (fun _ => True) inner)
    (meaning : PseudoText.meaning ⟨false, name.toList, argument, []⟩ = .ok pseudo) :
    Decides (pseudoClassText name argument) doc id question := by
  have matched := selectorHoldsFor_compound
    (SelectorGroup.read_pseudoClassText ident plain nested meaning) doc id
  rw [holdsFor_pseudoClass element] at matched
  constructor
  · intro yes
    rw [matched, asked.2 yes]
  · intro no
    rw [matched, Bool.eq_false_iff.2 (mt asked.1 no)]

theorem decides_plain (element : doc.isElement id) (listed : name ∈ plainNames)
    (read : plainPseudoClass name = pseudo) (asked : pseudo.holdsFor doc id ↔ question) :
    Decides (pseudoClassText name none) doc id question := by
  obtain ⟨ident, plain⟩ := isLowerIdent_meant name (by simp [listed])
  refine decides_of_read element asked ident plain nofun ?_
  rw [PseudoText.meaning, String.ofList_toList, read]

theorem decides_formula (element : doc.isElement id) (bare : ∀ c ∈ raw, IsBare c)
    (listed : name ∈ formulaNames) (read : functionalPseudoClass name raw = .ok pseudo)
    (asked : pseudo.holdsFor doc id ↔ question) :
    Decides (pseudoClassText name (some raw)) doc id question := by
  obtain ⟨ident, plain⟩ := isLowerIdent_formula listed
  refine decides_of_read element asked ident plain ?_ (by rw [meaning_formula listed, read])
  rintro _ ⟨⟩
  exact .of_plain (fun _ _ => trivial) bare

end Selectors

/-- Structural pseudo-classes with an argument `raw` mean what their positions among the siblings of an
element say, and testing a position stays within the range of the numbers it is done with. -/
structure Structural (doc : Document) (id : NodeId) (tag : String) (positions : Progression)
    (raw : List Char) : Prop where
  formula : Selector.readProgression? raw = some positions
  nthChild : Decides (pseudoClassText "nth-child" (some raw)) doc id
    (positions.Reaches (ordinal (doc.elementsAmong (doc.siblings id)) id))
  nthLastChild : Decides (pseudoClassText "nth-last-child" (some raw)) doc id
    (positions.Reaches (ordinal (doc.elementsAmong (doc.siblings id)).reverse id))
  nthOfType : Decides (pseudoClassText "nth-of-type" (some raw)) doc id
    (positions.Reaches (ordinal (doc.withTagAmong tag (doc.siblings id)) id))
  firstChild : Decides (pseudoClassText "first-child" none) doc id
    (ordinal (doc.elementsAmong (doc.siblings id)) id = 1)
  lastChild : Decides (pseudoClassText "last-child" none) doc id
    (ordinal (doc.elementsAmong (doc.siblings id)).reverse id = 1)
  onlyChild : Decides (pseudoClassText "only-child" none) doc id
    (ordinal (doc.elementsAmong (doc.siblings id)) id = 1 ∧
      ordinal (doc.elementsAmong (doc.siblings id)).reverse id = 1)
  firstOfType : Decides (pseudoClassText "first-of-type" none) doc id
    (ordinal (doc.withTagAmong tag (doc.siblings id)) id = 1)
  lastOfType : Decides (pseudoClassText "last-of-type" none) doc id
    (ordinal (doc.withTagAmong tag (doc.siblings id)).reverse id = 1)
  root : doc.parent? id = none → doc.elementsAmong (doc.siblings id) = [id] ∧
    doc.withTagAmong tag (doc.siblings id) = [id]
  within : (doc.position id).elementIndex < doc.elementSiblingCount id
  difference : doc.size ≤ 2 ^ 62 → ∀ position ∈ [(doc.position id).elementIndex + 1,
      doc.elementSiblingCount id - (doc.position id).elementIndex, doc.typePosition id],
    word64 position ∧ word64 (position - positions.offset)
  division : ∀ position : Nat, word64 (position - positions.offset) →
    word64 (((position : Int) - positions.offset).tmod positions.step) ∧
      word64 (((position : Int) - positions.offset).tdiv positions.step)

theorem structural_ofEdits (edits : List Edit) (id : NodeId) (tag : String)
    (positions : Progression) (s raw : List Char)
    (own : (Document.ofEdits edits).tag? id = some tag) (normal : positions.IsNormal)
    (spelled : positions.Spelled s) (strewn : Strewn s raw) :
    Structural (Document.ofEdits edits) id tag positions raw := by
  have h := Document.consistent_ofEdits edits
  generalize Document.ofEdits edits = doc at own h
  have numbered := h.numbered own
  have element : doc.isElement id := by rw [Document.isElement, own]; rfl
  have bare : ∀ c ∈ raw, IsBare c := strewn.isBare fun c member => (spelled.visible c member).2
  have formula := Selector.readProgression?_strewn normal spelled strewn
  have asked {name : String} {pseudo : Progression → PseudoClass}
      (named : Selector.functionalPseudoClass name raw =
        (readable (Selector.readProgression? raw)).map pseudo) :
      Selector.functionalPseudoClass name raw = .ok (pseudo positions) := by
    rw [named, formula]
    rfl
  exact {
    formula
    nthChild := decides_formula element bare (by decide) (asked rfl) (numbered.nthChild_iff _)
    nthLastChild :=
      decides_formula element bare (by decide) (asked rfl) (numbered.nthLastChild_iff _)
    nthOfType := decides_formula element bare (by decide) (asked rfl) (numbered.nthOfType_iff _)
    firstChild := decides_plain element (by decide) rfl numbered.firstChild_iff
    lastChild := decides_plain element (by decide) rfl numbered.lastChild_iff
    onlyChild := decides_plain element (by decide) rfl numbered.onlyChild_iff
    firstOfType := decides_plain element (by decide) rfl numbered.firstOfType_iff
    lastOfType := decides_plain element (by decide) rfl numbered.lastOfType_iff
    root := fun top => by
      rw [Document.siblings, top]
      exact ⟨Document.elementsAmong_split element [] [], Document.withTagAmong_split own [] []⟩
    within := numbered.within
    difference := fun few position listed => Progression.word64_difference normal (by
      have within := numbered.within
      obtain ⟨elements, alike⟩ := h.elementSiblingCount_le own
      simp only [List.mem_cons, List.not_mem_nil, or_false] at listed
      omega)
    division := fun position => Progression.word64_division normal }

/-- A step backwards from the fifth position, with capitals and blanks: of three elements the last one
is counted, and of two with its tag the second is not. -/
theorem structural_ofEdits_backwards :
    let doc := Document.ofEdits [.addElement none "p", .addElement (some 0) "a", .addText 0 "t",
      .addElement (some 0) "b", .addElement (some 0) "a"]
    let raw := [' ', '-', '2', 'N', ' ', '+', '\t', '5', ' ']
    (doc.tag? 4 = some "a" ∧ Progression.IsNormal ⟨-2, 5⟩ ∧
        Progression.Spelled ⟨-2, 5⟩ ['-', '2', 'n', '+', '5'] ∧
        Strewn ['-', '2', 'n', '+', '5'] raw) ∧
      selectorHoldsFor (pseudoClassText "nth-child" (some raw)) doc 4 = .ok true ∧
      selectorHoldsFor (pseudoClassText "nth-of-type" (some raw)) doc 4 = .ok false ∧
      selectorHoldsFor (pseudoClassText "last-child" none) doc 4 = .ok true := by
  intro doc raw
  have own : doc.tag? 4 = some "a" := by decide +kernel
  have normal : Progression.IsNormal ⟨-2, 5⟩ := ⟨by decide, by decide⟩
  have two : IsNumeral ['2'] := ⟨List.cons_ne_nil _ _, List.forall_mem_singleton.2 rfl⟩
  have five : IsNumeral ['5'] := ⟨List.cons_ne_nil _ _, List.forall_mem_singleton.2 rfl⟩
  have spelled : Progression.Spelled ⟨-2, 5⟩ ['-', '2', 'n', '+', '5'] :=
    .sum (-2) 5 ['-', '2'] ['+', '5'] (.integer _ _ (.signed _ _ (.minus _ two))) (.plus _ five)
  have strewn : Strewn ['-', '2', 'n', '+', '5'] raw :=
    .blank _ _ _ rfl <| .char '-' _ _ <| .char '2' _ _ <| .char 'N' _ _ <| .blank _ _ _ rfl <|
      .char '+' _ _ <| .blank _ _ _ rfl <| .char '5' _ _ <| .blank _ _ _ rfl .nil
  have meant := structural_ofEdits _ 4 "a" ⟨-2, 5⟩ _ raw own normal spelled strewn
  have third : ordinal (doc.elementsAmong (doc.siblings 4)) 4 = 3 := by decide +kernel
  have second : ordinal (doc.withTagAmong "a" (doc.siblings 4)) 4 = 2 := by decide +kernel
  have last : ordinal (doc.elementsAmong (doc.siblings 4)).reverse 4 = 1 := by decide +kernel
  refine ⟨⟨own, normal, spelled, strewn⟩, meant.nthChild.holds ?_, meant.nthOfType.fails ?_,
    meant.lastChild.holds last⟩
  · rw [third]
    exact ⟨1, rfl⟩
  · rw [second]
    rintro ⟨k, reached⟩
    dsimp only at reached
    omega

end ComputedStyle
