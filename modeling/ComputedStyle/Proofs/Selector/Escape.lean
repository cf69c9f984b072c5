import ComputedStyle.Proofs.Selector.Group
import ComputedStyle.Proofs.Selector.Printing

/-!
Class selectors with escapes.

A backslash counts for the reader of identifiers only. The readers of groups and of combinators go over
the text before it, so a name comes through escaped if nothing in it ends a compound outside brackets
and quotes and if it closes those it opens.
-/

namespace ComputedStyle

open Text

namespace Selector

/-- A name with a backslash before each character that stands in no identifier. -/
def escaped (name : List Char) : List Char :=
  name.flatMap fun c => if isIdentChar c then [c] else ['\\', c]

theorem escaped_cons (c : Char) (rest : List Char) :
    escaped (c :: rest) = (if isIdentChar c then [c] else ['\\', c]) ++ escaped rest :=
  List.flatMap_cons

theorem readIdent_escaped (name : List Char) : readIdent (escaped name) = (name, []) := by
  induction name with
  | nil => rfl
  | cons c rest ih =>
      rw [escaped_cons]
      cases ident : isIdentChar c with
      | false =>
          rw [if_neg Bool.false_ne_true, List.cons_append, List.cons_append, List.nil_append,
            readIdent, ih]
      | true =>
          have other : c ≠ '\\' := by
            rintro rfl
            cases ident
          rw [if_pos rfl, List.singleton_append, readIdent.eq_2 c, ident, if_pos rfl, ih]
          exact fun _ _ same => absurd same other

theorem escaped_ne_nil {name : List Char} (filled : name ≠ []) : escaped name ≠ [] := by
  intro empty
  have read := readIdent_escaped name
  rw [empty] at read
  exact filled (congrArg Prod.fst read).symm

/-- A character that, outside brackets and quotes, is no part of a compound. -/
def endsCompound (c : Char) : Bool :=
  c == ',' || (Scan.combinatorOf? c).isSome || isBlank c

/-- From a state, the name closes all brackets and quotes and ends no compound outside them. -/
def IsSheltered (state : Nesting) : List Char → Prop
  | [] => state.isTop
  | c :: rest =>
      (endsCompound c → state.isTop = false) ∧ IsSheltered (state.step .roundAndSquare c) rest

instance decidableIsSheltered : ∀ state name, Decidable (IsSheltered state name)
  | state, [] => inferInstanceAs (Decidable (state.isTop = true))
  | state, c :: rest =>
      have := decidableIsSheltered (state.step .roundAndSquare c) rest
      inferInstanceAs (Decidable (_ ∧ _))

section Sheltered

variable {state : Nesting} {name : List Char}

theorem isBare_backslash : IsBare '\\' := by
  decide

theorem IsSheltered.isPiece_escaped (sheltered : IsSheltered state name)
    (unquoted : state.quote ≠ some '\\') : IsPiece ',' state (escaped name) := by
  induction name generalizing state with
  | nil => exact sheltered
  | cons c rest ih =>
      have later := ih sheltered.2 (Nesting.quote_step_ne isBare_backslash unquoted _ c)
      have own : IsPiece ',' state (c :: escaped rest) := by
        refine ⟨?_, later⟩
        rintro rfl
        exact sheltered.1 rfl
      rw [escaped_cons]
      split
      · exact own
      · refine ⟨nofun, ?_⟩
        rw [Nesting.step_of_ne_quote isBare_backslash unquoted]
        exact own

/-- A blank is no end of the name: outside brackets and quotes it would end the compound. -/
theorem IsSheltered.isBlank_getLast? (sheltered : IsSheltered state name)
    (visible : state.IsVisible) : ∀ c ∈ (escaped name).getLast?, isBlank c = false := by
  induction name generalizing state with
  | nil => exact nofun
  | cons c rest ih =>
      intro last ends
      rw [escaped_cons] at ends
      cases rest with
      | cons d more =>
          rw [List.getLast?_append_of_ne_nil _ (escaped_ne_nil (List.cons_ne_nil d more))] at ends
          exact ih sheltered.2 (visible.step _ c) last ends
      | nil =>
          have own : last = c := by
            split at ends <;> simpa [escaped] using ends.symm
          rw [own, Bool.eq_false_iff]
          intro blank
          have top : (state.step .roundAndSquare c).isTop := sheltered.2
          rw [Nesting.step_of_isBlank visible blank, sheltered.1 (by simp [endsCompound, blank])]
            at top
          cases top

namespace Scan

variable {read : Option ComplexSelector} {pending : Option Combinator} {buffer : List Char}

theorem step_of_not_endsCompound {c : Char} (keeps : endsCompound c → state.isTop = false) :
    step ⟨read, pending, buffer, state⟩ c =
      .ok ⟨read, pending, c :: buffer, state.step .roundAndSquare c⟩ := by
  cases inside : state.isTop with
  | false => exact step_inside inside c
  | true =>
      have own : endsCompound c = false := by
        rw [Bool.eq_false_iff]
        intro ends
        rw [keeps ends] at inside
        cases inside
      rw [endsCompound, Bool.or_eq_false_iff, Bool.or_eq_false_iff] at own
      exact step_visible (Option.not_isSome_iff_eq_none.1 (by simp [own.1.2])) own.2 state

theorem foldlM_step_escaped (sheltered : IsSheltered state name)
    (unquoted : state.quote ≠ some '\\') :
    (escaped name).foldlM step ⟨read, pending, buffer, state⟩ =
      .ok ⟨read, pending, (escaped name).reverse ++ buffer, .top⟩ := by
  induction name generalizing state buffer with
  | nil =>
      have top : state.isTop := sheltered
      rw [Nesting.eq_top_of_isTop top]
      rfl
  | cons c rest ih =>
      have unquoted' := Nesting.quote_step_ne isBare_backslash unquoted .roundAndSquare c
      rw [escaped_cons]
      split
      · rw [List.singleton_append, foldlM_cons_of_ok (step_of_not_endsCompound sheltered.1),
          ih sheltered.2 unquoted']
        simp
      · have mark : step ⟨read, pending, buffer, state⟩ '\\' =
            .ok ⟨read, pending, '\\' :: buffer, state⟩ := by
          rw [step_of_not_endsCompound (fun ends => absurd ends (by decide)),
            Nesting.step_of_ne_quote isBare_backslash unquoted]
        rw [List.cons_append, List.singleton_append, foldlM_cons_of_ok mark,
          foldlM_cons_of_ok (step_of_not_endsCompound sheltered.1), ih sheltered.2 unquoted']
        simp

end Scan

end Sheltered

def classText (name : String) : List Char :=
  '.' :: escaped name.toList

def classCompound (name : String) : Compound :=
  { Compound.empty with classes := [name] }

section Class

variable {name : String}

theorem isTrimmed_classText (filled : name ≠ "") (sheltered : IsSheltered .top name.toList) :
    IsTrimmed (classText name) := by
  have nonempty := escaped_ne_nil fun empty => filled (String.toList_eq_nil_iff.1 empty)
  refine ⟨fun c first => by cases first; rfl, ?_⟩
  rw [classText, ← List.singleton_append, List.getLast?_append_of_ne_nil _ nonempty]
  exact sheltered.isBlank_getLast? Nesting.isVisible_top

theorem readCompound_classText (filled : name ≠ "") (sheltered : IsSheltered .top name.toList) :
    readCompound (classText name) = .ok (classCompound name) := by
  have nonempty : name.toList.isEmpty = false := by
    rw [List.isEmpty_eq_false_iff]
    exact fun empty => filled (String.toList_eq_nil_iff.1 empty)
  have tag : readTag (classText name) = (none, classText name) := rfl
  have simples : readSimples Compound.empty (classText name) = .ok (classCompound name) := by
    have own : requireIdent name.toList = .ok name := by
      rw [requireIdent, nonempty, if_neg Bool.false_ne_true, String.ofList_toList]
    rw [classText, readSimples, readIdent_escaped, own]
    change readSimples (classCompound name) [] = .ok (classCompound name)
    rw [readSimples]
  rw [readCompound, trim_of_isTrimmed (isTrimmed_classText filled sheltered), tag]
  change (readSimples Compound.empty (classText name) >>= _) = _
  rw [simples]
  rfl

theorem readComplex_classText (filled : name ≠ "") (sheltered : IsSheltered .top name.toList) :
    readComplex (classText name) = .ok ⟨classCompound name, []⟩ := by
  refine readComplex_of_run (isTrimmed_classText filled sheltered) ?_
    (readCompound_classText filled sheltered)
  rw [classText, foldlM_cons_of_ok (Scan.step_of_not_endsCompound (by decide))]
  refine (Scan.foldlM_step_escaped sheltered nofun).trans ?_
  simp

end Class

end Selector

open Selector

theorem SelectorGroup.read_classText {name : String} (filled : name ≠ "")
    (sheltered : IsSheltered .top name.toList) :
    SelectorGroup.read (String.ofList (classText name)) =
      .ok ⟨[⟨classCompound name, []⟩], 0⟩ := by
  have piece : IsPiece ',' .top (classText name) := ⟨nofun, sheltered.isPiece_escaped nofun⟩
  exact read_of_isPiece piece (readComplex_classText filled sheltered)

theorem holdsFor_classCompound (doc : Document) (id : NodeId) (name : String) :
    (classCompound name).holdsFor doc id = (doc.isElement id && (doc.classes id).contains name) := by
  rw [classCompound, Compound.empty, Compound.holdsFor, Document.isElement]
  cases doc.tag? id with
  | none => rfl
  | some tag => simp [tagAdmits, PseudoClass.allHold]

/-- The escaped name of a class selects the elements of that class. -/
theorem selectorHoldsFor_classText (doc : Document) (id : NodeId) (name : String)
    (filled : name ≠ "") (sheltered : IsSheltered .top name.toList) :
    selectorHoldsFor (String.ofList (classText name)) doc id =
      .ok (doc.isElement id && (doc.classes id).contains name) := by
  rw [selectorHoldsFor_compound (SelectorGroup.read_classText filled sheltered),
    holdsFor_classCompound]

theorem selectorHoldsFor_width :
    let doc := Document.ofEdits [.addElement none "p", .setAttribute 0 "class" "w-[1px,2px]"]
    IsSheltered .top "w-[1px,2px]".toList ∧
      selectorHoldsFor ".w-\\[1px\\,2px\\]" doc 0 = .ok true := by
  intro doc
  have sheltered : IsSheltered .top "w-[1px,2px]".toList := by decide
  have holds := selectorHoldsFor_classText doc 0 "w-[1px,2px]" (by decide) sheltered
  refine ⟨sheltered, ?_⟩
  have text : String.ofList (classText "w-[1px,2px]") = ".w-\\[1px\\,2px\\]" := by decide
  rw [← text, holds]
  decide +kernel

/-- A comma ends the member in spite of the backslash, and what follows it is the name of a tag. -/
theorem selectorHoldsFor_comma :
    let doc := Document.ofEdits
      [.addElement none "p", .setAttribute 0 "class" "a,b", .addElement (some 0) "b"]
    String.ofList (classText "a,b") = ".a\\,b" ∧
      (doc.classes 0).contains "a,b" = true ∧ selectorHoldsFor ".a\\,b" doc 0 = .ok false ∧
      (doc.classes 1).contains "a,b" = false ∧ selectorHoldsFor ".a\\,b" doc 1 = .ok true := by
  intro doc
  have members : SelectorGroup.read ".a\\,b" =
      .ok ⟨[⟨{ Compound.empty with tag := some "b" }, []⟩], 1⟩ := by
    cbv
  rw [selectorHoldsFor, selectorHoldsFor, members]
  refine ⟨by decide, ?_, ?_, ?_, ?_⟩ <;> decide +kernel

end ComputedStyle
