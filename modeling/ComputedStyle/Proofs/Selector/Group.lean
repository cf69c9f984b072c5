import ComputedStyle.Proofs.Except
import ComputedStyle.Proofs.Text.Nesting
import ComputedStyle.Selector.Matching

namespace ComputedStyle

open Text

theorem Selector.readComplex_trim (s : List Char) : readComplex (trim s) = readComplex s := by
  rw [readComplex, readComplex, trim_trim]

namespace SelectorGroup

def pieces (text : String) : List (List Char) :=
  splitTopLevel ',' text.toList

theorem foldlM_addMember_map_trim (pieces : List (List Char)) (group : SelectorGroup) :
    (pieces.map trim).foldlM addMember group = pieces.foldlM addMember group := by
  rw [List.foldlM_map]
  congr 1
  funext group piece
  rw [addMember, addMember, Selector.readComplex_trim]

theorem read_congr {text other : String}
    (same : (pieces text).map trim = (pieces other).map trim) : read text = read other := by
  rw [read, read, ← foldlM_addMember_map_trim, ← foldlM_addMember_map_trim (splitTopLevel _ _)]
  rw [pieces, pieces] at same
  rw [same]

theorem read_trimmed (text : String) : read (trimmed text) = read text := by
  apply read_congr
  rw [pieces, trimmed, String.toList_ofList, map_trim_splitTopLevel_trim rfl, pieces]

def readMember? (piece : List Char) : Option ComplexSelector :=
  (Selector.readComplex piece).toOption

/-- A member stops the reading of its group. -/
def Breaks (piece : List Char) : Prop :=
  Selector.readComplex piece = .error .brokenCharacter

theorem foldlM_addMember_of_breaks {pieces : List (List Char)} (group : SelectorGroup)
    (breaks : ∃ piece ∈ pieces, Breaks piece) :
    pieces.foldlM addMember group = .error .brokenCharacter := by
  induction pieces generalizing group with
  | nil => simp at breaks
  | cons piece rest ih =>
      rw [List.foldlM_cons, addMember]
      cases read : Selector.readComplex piece with
      | ok selector =>
          refine ih _ ?_
          simpa [Breaks, read] using breaks
      | error e =>
          cases e with
          | unreadable =>
              refine ih _ ?_
              simpa [Breaks, read] using breaks
          | brokenCharacter => rfl

theorem foldlM_addMember_eq_ok {pieces : List (List Char)} (group : SelectorGroup)
    (whole : ∀ piece ∈ pieces, ¬Breaks piece) :
    ∃ unparsed, pieces.foldlM addMember group =
      .ok ⟨group.members ++ pieces.filterMap readMember?, unparsed⟩ := by
  induction pieces generalizing group with
  | nil => exact ⟨group.unparsed, by simp; rfl⟩
  | cons piece rest ih =>
      have later := fun group => ih group fun other member =>
        whole other (List.mem_cons_of_mem _ member)
      rw [List.foldlM_cons, addMember, List.filterMap_cons, readMember?]
      cases read : Selector.readComplex piece with
      | ok selector =>
          obtain ⟨unparsed, run⟩ := later { group with members := group.members ++ [selector] }
          refine ⟨unparsed, run.trans ?_⟩
          simp [Except.toOption]
      | error e =>
          cases e with
          | unreadable => exact later { group with unparsed := group.unparsed + 1 }
          | brokenCharacter => exact absurd read (whole piece List.mem_cons_self)

/-- Whether a member can be read and selects a node. -/
def pieceHoldsFor (doc : Document) (id : NodeId) (piece : List Char) : Bool :=
  (readMember? piece).any (·.holdsFor doc id)

theorem pieceHoldsFor_trim {doc : Document} {id : NodeId} (piece : List Char) :
    pieceHoldsFor doc id (trim piece) = pieceHoldsFor doc id piece := by
  rw [pieceHoldsFor, pieceHoldsFor, readMember?, readMember?, Selector.readComplex_trim]

theorem breaks_trim_iff {piece : List Char} : Breaks (trim piece) ↔ Breaks piece := by
  rw [Breaks, Breaks, Selector.readComplex_trim]

end SelectorGroup

open SelectorGroup

theorem selectorHoldsFor_eq_ok_iff {text : String} {doc : Document} {id : NodeId} {holds : Bool} :
    selectorHoldsFor text doc id = .ok holds ↔
      (∀ piece ∈ pieces text, ¬Breaks piece) ∧
        (doc.isElement id && (pieces text).any (pieceHoldsFor doc id)) = holds := by
  unfold selectorHoldsFor
  by_cases breaks : ∃ piece ∈ pieces text, Breaks piece
  · have failed : SelectorGroup.read text = .error .brokenCharacter := by
      rw [SelectorGroup.read, ← pieces, foldlM_addMember_of_breaks _ breaks]
      rfl
    rw [failed]
    constructor
    · intro h
      cases h
    · rintro ⟨whole, _⟩
      obtain ⟨piece, member, broken⟩ := breaks
      exact absurd broken (whole piece member)
  · have whole : ∀ piece ∈ pieces text, ¬Breaks piece := by
      simpa using breaks
    obtain ⟨unparsed, run⟩ := foldlM_addMember_eq_ok ⟨[], 0⟩ whole
    have any : ((pieces text).filterMap readMember?).any (·.holdsFor doc id) =
        (pieces text).any (pieceHoldsFor doc id) := by
      rw [List.any_filterMap]
      rfl
    rw [and_iff_right whole, ← any, SelectorGroup.read, ← pieces, run]
    cases members : (pieces text).filterMap readMember? with
    | nil => simp [bind, Except.bind]
    | cons first others => simp [bind, Except.bind, pure, Except.pure, SelectorGroup.holdsFor]

end ComputedStyle
