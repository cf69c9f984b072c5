import ComputedStyle.Proofs.Document.Consistency
import ComputedStyle.Proofs.Selector.Dynamic
import ComputedStyle.Proofs.Selector.Group

/-!
What is left of a selector group for a static document.

The members that are kept are read as they were in the group, so nothing is selected that the group
does not select. Nothing is lost as long as every member that is left out demands state; one whose
colon is escaped or stands in an argument may be lost.
-/

namespace ComputedStyle.StaticSelector

open Text SelectorGroup

variable {text : String} {doc : Document} {id : NodeId} {holds : Bool}

theorem mem_members_iff {group member : List Char} :
    member ∈ members group ↔ (∃ piece ∈ splitTopLevel ',' group, trim piece = member) ∧
      member ≠ [] ∧ needsState member = false := by
  simp [members]

theorem isPiece_of_mem_members (balanced : Balanced text.toList) {member : List Char}
    (kept : member ∈ members text.toList) : IsPiece ',' .top member := by
  obtain ⟨⟨piece, found, rfl⟩, _⟩ := mem_members_iff.1 kept
  exact (isPiece_trim_iff rfl).2 (isPiece_of_mem_splitTopLevel rfl balanced found)

theorem trim_of_mem_members {group member : List Char} (kept : member ∈ members group) :
    trim member = member := by
  obtain ⟨⟨piece, _, rfl⟩, _⟩ := mem_members_iff.1 kept
  exact trim_trim piece

theorem map_trim_pieces_filter? (balanced : Balanced text.toList) {left : String}
    (found : filter? text.toList = some left) :
    (pieces left).map trim = members text.toList := by
  unfold filter? at found
  split at found
  · cases found
  · next kept nonempty =>
      cases found
      have whole : ∀ member ∈ members text.toList, IsPiece ',' .top member :=
        fun _ => isPiece_of_mem_members balanced
      have joined : (", ".intercalate ((members text.toList).map String.ofList)).toList =
          [',', ' '].intercalate (members text.toList) := by
        rw [String.toList_intercalate, List.map_map]
        simp [Function.comp_def]
      rw [pieces, joined, map_trim_splitTopLevel_intercalate rfl nonempty whole]
      exact (List.map_congr_left fun member => trim_of_mem_members).trans (List.map_id _)

theorem exists_filter?_iff (balanced : Balanced text.toList)
    (whole : ∀ piece ∈ pieces text, ¬Breaks piece) :
    (∃ left, filter? text.toList = some left ∧ selectorHoldsFor left doc id = .ok true) ↔
      doc.isElement id ∧ ∃ member ∈ members text.toList, pieceHoldsFor doc id member := by
  have any : ∀ left, filter? text.toList = some left → (selectorHoldsFor left doc id = .ok true ↔
      doc.isElement id ∧ ∃ member ∈ members text.toList, pieceHoldsFor doc id member) := by
    intro left found
    have same := map_trim_pieces_filter? balanced found
    have intact : ∀ piece ∈ pieces left, ¬Breaks piece := by
      intro piece member
      have listed : trim piece ∈ members text.toList := same ▸ List.mem_map_of_mem member
      obtain ⟨⟨origin, from_, trims⟩, _⟩ := mem_members_iff.1 listed
      rw [← breaks_trim_iff, ← trims, breaks_trim_iff]
      exact whole origin from_
    rw [selectorHoldsFor_eq_ok_iff, and_iff_right intact, ← same]
    simp [pieceHoldsFor_trim]
  constructor
  · rintro ⟨left, found, selects⟩
    exact (any left found).1 selects
  · intro selects
    have kept : ∃ left, filter? text.toList = some left := by
      unfold filter?
      split
      · next dropped =>
          obtain ⟨_, member, stays, _⟩ := selects
          rw [dropped] at stays
          cases stays
      · exact ⟨_, rfl⟩
    obtain ⟨left, found⟩ := kept
    exact ⟨left, found, (any left found).2 selects⟩

theorem not_pieceHoldsFor_of_demandsState (tree : doc.Consistent) {piece : List Char}
    (demands : demandsState (trim piece)) : pieceHoldsFor doc id piece = false := by
  rw [pieceHoldsFor, readMember?]
  cases read : Selector.readComplex piece with
  | error e => rfl
  | ok selector => exact (isDead_of_readComplex read demands).not_holdsFor tree id

theorem not_pieceHoldsFor_of_trim_eq_nil {piece : List Char} (empty : trim piece = []) :
    pieceHoldsFor doc id piece = false := by
  rw [pieceHoldsFor, readMember?, Selector.readComplex, empty]
  rfl

/-- What is left of a balanced group selects no node that the group does not select, and every node
that it selects if only such members are left out as demand state. -/
theorem filter?_correct (edits : List Edit) (id : NodeId) (text : String)
    (balanced : Balanced text.toList) (holds : Bool)
    (read : selectorHoldsFor text (.ofEdits edits) id = .ok holds) :
    let selects := ∃ left, filter? text.toList = some left ∧
      selectorHoldsFor left (.ofEdits edits) id = .ok true
    (selects → holds = true) ∧
      ((∀ piece ∈ pieces text, needsState (trim piece) → demandsState (trim piece)) →
        (holds = true ↔ selects)) := by
  intro selects
  have tree := Document.consistent_ofEdits edits
  obtain ⟨whole, rfl⟩ := selectorHoldsFor_eq_ok_iff.1 read
  have sound : selects → (Document.isElement (.ofEdits edits) id &&
      (pieces text).any (pieceHoldsFor (.ofEdits edits) id)) = true := by
    intro selected
    obtain ⟨element, member, kept, selected⟩ := (exists_filter?_iff balanced whole).1 selected
    obtain ⟨⟨piece, found, rfl⟩, _⟩ := mem_members_iff.1 kept
    rw [pieceHoldsFor_trim] at selected
    rw [element, Bool.true_and]
    exact List.any_eq_true.2 ⟨piece, found, selected⟩
  refine ⟨sound, fun demanding => ⟨fun selected => ?_, sound⟩⟩
  rw [Bool.and_eq_true, List.any_eq_true] at selected
  obtain ⟨element, piece, found, selected⟩ := selected
  refine (exists_filter?_iff balanced whole).2 ⟨element, trim piece, ?_, ?_⟩
  · refine mem_members_iff.2 ⟨⟨piece, found, rfl⟩, fun empty => ?_, ?_⟩
    · rw [not_pieceHoldsFor_of_trim_eq_nil empty] at selected
      cases selected
    · rw [Bool.eq_false_iff]
      intro needs
      rw [not_pieceHoldsFor_of_demandsState tree (demanding piece found needs)] at selected
      cases selected
  · rwa [pieceHoldsFor_trim]

theorem filter?_correct_hover :
    ∃ left, filter? "p:hover, p".toList = some left ∧
      selectorHoldsFor left (.ofEdits [.addElement none "p"]) 0 = .ok true := by
  have correct := filter?_correct [.addElement none "p"] 0 "p:hover, p" (by decide) true (by cbv)
  refine (correct.2 fun piece member needs => ?_).1 rfl
  have both : pieces "p:hover, p" = ["p:hover".toList, " p".toList] := by decide +kernel
  rw [both, List.mem_pair] at member
  rcases member with rfl | rfl
  · cbv
  · exact absurd needs (by decide +kernel)

/-- A member that selects a node is left out where a colon stands in its argument. -/
theorem filter?_negation :
    ¬∀ (edits : List Edit) (id : NodeId) (text : String), Balanced text.toList →
      (selectorHoldsFor text (.ofEdits edits) id = .ok true ↔
        ∃ left, filter? text.toList = some left ∧
          selectorHoldsFor left (.ofEdits edits) id = .ok true) := by
  intro exact_
  have selects : selectorHoldsFor "p:not(:hover)" (.ofEdits [.addElement none "p"]) 0 = .ok true := by
    cbv
  obtain ⟨left, found, _⟩ :=
    (exact_ [.addElement none "p"] 0 "p:not(:hover)" (by decide)).1 selects
  have nothing : filter? "p:not(:hover)".toList = none := by decide +kernel
  rw [nothing] at found
  cases found

end ComputedStyle.StaticSelector
