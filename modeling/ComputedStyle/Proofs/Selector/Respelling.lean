import ComputedStyle.Proofs.Selector.Group
import ComputedStyle.Proofs.Selector.Places

namespace ComputedStyle

open Text

/-- The same combinators between compounds that are alike. -/
structure ComplexSelector.Alike (selector other : ComplexSelector) : Prop where
  subject : selector.subject.Alike other.subject
  context : List.Forall₂ (fun link link' => link'.1 = link.1 ∧ Compound.Alike link.2 link'.2)
    selector.context other.context

theorem ComplexSelector.Alike.refl (selector : ComplexSelector) : selector.Alike selector where
  subject := .refl _
  context := List.forall₂_same.2 fun link _ => ⟨rfl, .refl link.2⟩

/-- Members that are alike, and as many that cannot be read. -/
structure SelectorGroup.Alike (group other : SelectorGroup) : Prop where
  members : List.Forall₂ ComplexSelector.Alike group.members other.members
  unparsed : other.unparsed = group.unparsed

section Matching

variable (edits : List Edit)

theorem ComplexSelector.place_alike {context context' : List (Combinator × Compound)}
    (links : List.Forall₂ (fun link link' => link'.1 = link.1 ∧ Compound.Alike link.2 link'.2)
      context context') {compound compound' : Compound} (alike : compound.Alike compound')
    (id : NodeId) :
    place (.ofEdits edits) compound' context' id = place (.ofEdits edits) compound context id := by
  induction links generalizing compound compound' id with
  | nil => simp only [place, alike.holds]
  | cons link _ ih =>
      obtain ⟨same, left⟩ := link
      have rest := funext (ih left)
      simp only [place, alike.holds, same, rest]

theorem ComplexSelector.any_alike {members members' : List ComplexSelector}
    (alike : List.Forall₂ ComplexSelector.Alike members members') (id : NodeId) :
    members'.any (·.holdsFor (.ofEdits edits) id) = members.any (·.holdsFor (.ofEdits edits) id) := by
  induction alike with
  | nil => rfl
  | cons member _ ih =>
      rw [List.any_cons, List.any_cons, ih, holdsFor, holdsFor,
        place_alike edits member.context member.subject]

theorem SelectorGroup.Alike.holdsFor {group other : SelectorGroup} (alike : group.Alike other)
    (id : NodeId) : other.holdsFor (.ofEdits edits) id = group.holdsFor (.ofEdits edits) id := by
  rw [SelectorGroup.holdsFor, SelectorGroup.holdsFor,
    ComplexSelector.any_alike edits alike.members]

end Matching

namespace Selector.Scan

/-- What two readings hold, but for the text of the compound that has begun. -/
structure Abreast (scan other : Scan) : Prop where
  read : Option.Rel ComplexSelector.Alike scan.read other.read
  pending : other.pending = scan.pending
  nesting : other.nesting = scan.nesting

structure Alike (scan other : Scan) : Prop extends Abreast scan other where
  buffer : other.buffer = scan.buffer

/-- The texts that have begun make compounds that are alike, or both make none. -/
structure EndAlike (scan other : Scan) : Prop extends Abreast scan other where
  visible : (trim other.buffer.reverse).isEmpty = (trim scan.buffer.reverse).isEmpty
  compounds : Agree Compound.Alike (readCompound scan.buffer.reverse)
    (readCompound other.buffer.reverse)

section Steps

variable {scan other : Scan} {compound compound' : Compound}

theorem Alike.endAlike (alike : scan.Alike other) : scan.EndAlike other where
  toAbreast := alike.toAbreast
  visible := by rw [alike.buffer]
  compounds := by
    rw [alike.buffer]
    exact .refl Compound.Alike.refl _

theorem join_agree (abreast : scan.Abreast other) (alike : compound.Alike compound') :
    Agree Alike (scan.join compound) (other.join compound') := by
  obtain ⟨read, pending, _, nesting⟩ := scan
  obtain ⟨read', pending', _, nesting'⟩ := other
  obtain ⟨selectors, rfl, rfl⟩ := abreast
  cases selectors with
  | none =>
      cases pending' with
      | none => exact .ok ⟨⟨.some ⟨alike, .nil⟩, rfl, rfl⟩, rfl⟩
      | some combinator => exact .error _
  | some left =>
      exact .ok ⟨⟨.some ⟨alike, .cons ⟨rfl, left.subject⟩ left.context⟩, rfl, rfl⟩, rfl⟩

theorem EndAlike.flush (ends : scan.EndAlike other) : Agree Alike scan.flush other.flush := by
  rw [Scan.flush, Scan.flush, ends.visible, readCompound_trim, readCompound_trim]
  split
  · exact .ok ⟨⟨ends.read, ends.pending, ends.nesting⟩, rfl⟩
  · exact ends.compounds.bind fun _ _ alike => join_agree ends.toAbreast alike

theorem Alike.isWaiting (alike : scan.Alike other) : other.isWaiting = scan.isWaiting := by
  rw [Scan.isWaiting, Scan.isWaiting, alike.pending]

theorem EndAlike.finish (ends : scan.EndAlike other) :
    Agree ComplexSelector.Alike scan.finish other.finish := by
  rw [Scan.finish, Scan.finish, ends.nesting]
  split
  · exact .error _
  · refine ends.flush.bind fun flushed flushed' alike => ?_
    rw [alike.isWaiting]
    split
    · exact .error _
    · have selectors := alike.read
      generalize flushed.read = read, flushed'.read = read' at selectors
      cases selectors with
      | none => exact .error _
      | some left => exact .ok left

/-- Outside of brackets and quotes this character is no part of a compound. -/
def endsHere (c : Char) : Bool :=
  (combinatorOf? c).isSome || isBlank c

/-- A character is read alike if what has begun is the same, or if it ends there. -/
theorem EndAlike.step (ends : scan.EndAlike other) (c : Char)
    (same : other.buffer = scan.buffer ∨
      scan.nesting.isTop ∧ endsHere c ∧ (trim scan.buffer.reverse).isEmpty = false) :
    Agree Alike (scan.step c) (other.step c) := by
  have push (kept : other.buffer = scan.buffer) : Alike
      { scan with nesting := scan.nesting.step .roundAndSquare c, buffer := c :: scan.buffer }
      { other with nesting := scan.nesting.step .roundAndSquare c, buffer := c :: other.buffer } :=
    ⟨⟨ends.read, ends.pending, rfl⟩, congrArg (c :: ·) kept⟩
  rw [Scan.step, Scan.step, ends.nesting]
  split
  · next inside =>
      obtain kept | ⟨top, -⟩ := same
      · exact .ok (push kept)
      · simp [top] at inside
  · split
    · refine ends.flush.bind fun flushed flushed' alike => ?_
      rw [alike.isWaiting]
      split
      · exact .error _
      · exact .ok ⟨⟨alike.read, rfl, alike.nesting⟩, alike.buffer⟩
    · next plain =>
        split
        · rw [ends.visible]
          split
          · next empty =>
              obtain kept | ⟨-, -, begun⟩ := same
              · exact .ok ⟨ends.toAbreast, kept⟩
              · simp [begun] at empty
          · exact ends.flush.bind fun _ _ alike =>
              .ok ⟨⟨alike.read, rfl, alike.nesting⟩, alike.buffer⟩
        · next visible =>
            obtain kept | ⟨-, ended, -⟩ := same
            · exact .ok (push kept)
            · simp [endsHere, plain, visible] at ended

theorem Alike.run (alike : scan.Alike other) (s : List Char) :
    Agree ComplexSelector.Alike (s.foldlM step scan >>= finish) (s.foldlM step other >>= finish) :=
  (Agree.foldlM (fun _ _ c alike => alike.endAlike.step c (.inl alike.buffer)) alike).bind
    fun _ _ alike => alike.endAlike.finish

/-- What still belongs to the compound that has begun. -/
def restOfCompound (state : Nesting) : List Char → List Char
  | [] => []
  | c :: rest =>
      if state.isTop && endsHere c then []
      else c :: restOfCompound (state.step .roundAndSquare c) rest

theorem step_push {c : Char} (goes : ¬(scan.nesting.isTop && endsHere c)) :
    scan.step c = .ok { scan with
      nesting := scan.nesting.step .roundAndSquare c
      buffer := c :: scan.buffer } := by
  cases top : scan.nesting.isTop with
  | false => exact step_inside top c
  | true =>
      rw [top, Bool.true_and, endsHere, Bool.or_eq_true, not_or] at goes
      exact step_visible (Option.not_isSome_iff_eq_none.1 goes.1) (Bool.eq_false_iff.2 goes.2) _

theorem run_agree (abreast : scan.Abreast other) (s : List Char)
    (begun : (trim scan.buffer.reverse).isEmpty = false)
    (begun' : (trim other.buffer.reverse).isEmpty = false)
    (compounds : Agree Compound.Alike
      (readCompound (scan.buffer.reverse ++ restOfCompound scan.nesting s))
      (readCompound (other.buffer.reverse ++ restOfCompound scan.nesting s))) :
    Agree ComplexSelector.Alike (s.foldlM step scan >>= finish) (s.foldlM step other >>= finish) := by
  induction s generalizing scan other with
  | nil =>
      rw [restOfCompound, List.append_nil, List.append_nil] at compounds
      exact EndAlike.finish ⟨abreast, begun'.trans begun.symm, compounds⟩
  | cons c rest ih =>
      rw [restOfCompound] at compounds
      split at compounds
      · next ended =>
          rw [List.append_nil, List.append_nil] at compounds
          rw [Bool.and_eq_true] at ended
          have ends : scan.EndAlike other := ⟨abreast, begun'.trans begun.symm, compounds⟩
          rw [List.foldlM_cons, List.foldlM_cons, bind_assoc, bind_assoc]
          exact (ends.step c (.inr ⟨ended.1, ended.2, begun⟩)).bind fun _ _ alike => alike.run rest
      · next goes =>
          have goes' : ¬(other.nesting.isTop && endsHere c) := by
            rwa [abreast.nesting]
          rw [foldlM_cons_of_ok (step_push goes), foldlM_cons_of_ok (step_push goes')]
          refine ih ⟨abreast.read, abreast.pending, by rw [abreast.nesting]⟩ ?_ ?_ ?_
          · rw [List.reverse_cons]
            exact isEmpty_trim_append begun [c]
          · rw [List.reverse_cons]
            exact isEmpty_trim_append begun' [c]
          · simpa using compounds

end Steps

theorem foldlM_step_passed {read : Option ComplexSelector} {pending : Option Combinator}
    {buffer s : List Char} {state last : Nesting}
    (passes : Passes .roundAndSquare (endsCompound · = false) state s last) :
    s.foldlM step ⟨read, pending, buffer, state⟩ =
      .ok ⟨read, pending, s.reverse ++ buffer, last⟩ := by
  induction passes generalizing buffer with
  | nil => rfl
  | @cons state last c s own _ ih =>
      have keeps : endsCompound c → state.isTop = false := by
        intro ends
        rw [Bool.eq_false_iff]
        intro top
        rw [own top] at ends
        cases ends
      rw [foldlM_cons_of_ok (step_of_not_endsCompound keeps), ih]
      simp

theorem nesting_flush {scan next : Scan} (h : scan.flush = .ok next) :
    next.nesting = scan.nesting := by
  obtain ⟨-, rfl⟩ | ⟨compound, -, joined⟩ := flush_cases h
  · rfl
  · unfold join at joined
    split at joined
    · cases joined
      rfl
    · cases joined
    · cases joined
      rfl

theorem isProper_step {scan next : Scan} {c : Char} (proper : scan.nesting.IsProper)
    (h : scan.step c = .ok next) : next.nesting.IsProper := by
  obtain rfl | ⟨_, flushed, -, flush, rfl⟩ | ⟨-, -, rfl⟩ | ⟨-, flushed, flush, rfl⟩ := step_cases h
  · exact proper.step _ c
  · rwa [← nesting_flush flush] at proper
  · exact proper
  · rwa [← nesting_flush flush] at proper

end Selector.Scan

namespace Selector

/-- Between two parts of the text of a group there is a place for a simple selector. The piece that the
group is split into there is read up to the place, and has it in the compound that has begun by then. -/
structure PlaceIn (before after front back : List Char) (first last : List (List Char)) : Prop where
  splits : SplitsAt before after front back first last
  place : ∀ scan, (trimLeft front).foldlM Scan.step {} = .ok scan →
    SimplePlace scan.buffer.reverse (Scan.restOfCompound scan.nesting (trimRight back))

def IsPlace (before after : List Char) : Prop :=
  ∃ front back first last, PlaceIn before after front back first last

section Readers

variable {before after front back s s' : List Char} {first last : List (List Char)}
  {simple simple' : Simple}

theorem Spells.isEmpty_trim (spells : Spells s simple) (lead : List Char) :
    (trim (lead ++ s)).isEmpty = false := by
  rw [List.isEmpty_eq_false_iff, ne_eq, trim_eq_nil_iff]
  intro blank
  obtain ⟨c, later, rfl⟩ := List.exists_cons_of_ne_nil spells.ne_nil
  have own := blank c (by simp)
  rw [spells.trimmed.1 c rfl] at own
  cases own

theorem PlaceIn.readComplex_agree (place : PlaceIn before after front back first last)
    (spells : Spells s simple) (spells' : Spells s' simple') (alike : simple.Alike simple') :
    Agree ComplexSelector.Alike (readComplex (front ++ s ++ back))
      (readComplex (front ++ s' ++ back)) := by
  rw [readComplex, readComplex, trim_insert spells.trimmed spells.ne_nil,
    trim_insert spells'.trimmed spells'.ne_nil, List.append_assoc, List.append_assoc,
    List.foldlM_append, List.foldlM_append, bind_assoc, bind_assoc]
  cases reads : (trimLeft front).foldlM Scan.step {} with
  | error e => exact .error e
  | ok scan =>
      have proper : scan.nesting.IsProper :=
        foldlM_ok_induction (motive := fun scan => scan.nesting.IsProper)
          (fun _ _ _ proper stepped => Scan.isProper_step proper stepped) _
          (Nesting.isProper_none 0) reads
      have abreast : Scan.Abreast { scan with buffer := s.reverse ++ scan.buffer }
          { scan with buffer := s'.reverse ++ scan.buffer } := by
        refine ⟨?_, rfl, rfl⟩
        cases scan.read with
        | none => exact .none
        | some selector => exact .some (.refl selector)
      have text (t : List Char) : (t.reverse ++ scan.buffer).reverse = scan.buffer.reverse ++ t := by
        simp
      change Agree _ ((s ++ trimRight back).foldlM Scan.step scan >>= Scan.finish)
        ((s' ++ trimRight back).foldlM Scan.step scan >>= Scan.finish)
      rw [foldlM_append_of_ok (Scan.foldlM_step_passed (spells.passed.passes scan.nesting proper)),
        foldlM_append_of_ok (Scan.foldlM_step_passed (spells'.passed.passes scan.nesting proper))]
      apply Scan.run_agree abreast
      · rw [text]
        exact spells.isEmpty_trim _
      · rw [text]
        exact spells'.isEmpty_trim _
      · rw [text, text]
        exact (place.place scan reads).readCompound_agree spells spells' alike

end Readers

end Selector

namespace SelectorGroup

open Selector

variable {group other : SelectorGroup}

theorem Alike.addMember (alike : group.Alike other) {piece piece' : List Char}
    (member : Agree ComplexSelector.Alike (readComplex piece) (readComplex piece')) :
    Agree Alike (group.addMember piece) (other.addMember piece') := by
  rw [SelectorGroup.addMember, SelectorGroup.addMember]
  generalize readComplex piece = read, readComplex piece' = read' at member
  cases member with
  | ok selector =>
      exact .ok ⟨List.rel_append alike.members (.cons selector .nil), alike.unparsed⟩
  | error e =>
      cases e with
      | unreadable => exact .ok ⟨alike.members, congrArg (· + 1) alike.unparsed⟩
      | brokenCharacter => exact .error _

theorem Alike.addMembers (alike : group.Alike other) (pieces : List (List Char)) :
    Agree Alike (pieces.foldlM SelectorGroup.addMember group)
      (pieces.foldlM SelectorGroup.addMember other) := by
  have member (piece : List Char) := Agree.refl ComplexSelector.Alike.refl (readComplex piece)
  exact .foldlM (fun _ _ piece alike => alike.addMember (member piece)) alike

theorem Alike.refl (group : SelectorGroup) : group.Alike group :=
  ⟨List.forall₂_same.2 fun member _ => .refl member, rfl⟩

theorem read_agree {before after s s' : List Char} {simple simple' : Simple}
    (place : IsPlace before after) (spells : Spells s simple) (spells' : Spells s' simple')
    (alike : simple.Alike simple') :
    Agree Alike (read (String.ofList (before ++ s ++ after)))
      (read (String.ofList (before ++ s' ++ after))) := by
  obtain ⟨front, back, first, last, place⟩ := place
  have member := place.readComplex_agree spells spells' alike
  have other : ¬(endsCompound ',' = false) := by decide
  rw [read, read, String.toList_ofList, String.toList_ofList,
    place.splits.insert other spells.passed, place.splits.insert other spells'.passed,
    List.foldlM_append, List.foldlM_append, bind_assoc, bind_assoc]
  refine .bind_same fun group => ?_
  rw [List.foldlM_cons, List.foldlM_cons]
  refine (((Alike.refl group).addMember member).bind fun _ _ alike => alike.addMembers last).bind ?_
  intro group other alike
  have empty : other.members.isEmpty = group.members.isEmpty := by
    have members := alike.members
    generalize group.members = left, other.members = right at members ⊢
    cases members <;> rfl
  rw [empty]
  split
  · exact .error _
  · exact .ok alike

end SelectorGroup

end ComputedStyle
