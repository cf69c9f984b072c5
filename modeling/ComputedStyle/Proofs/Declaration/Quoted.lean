import Mathlib
import ComputedStyle.Proofs.Declaration.Longhands
import ComputedStyle.Proofs.Declaration.Recovery
import ComputedStyle.Proofs.Syntax.Quoted

namespace ComputedStyle

open Syntax

variable {name s value : List Char}

theorem Text.length_stripComments_le (s : List Char) :
    (Text.stripComments s).length ≤ s.length := by
  fun_induction Text.stripComments s with
  | case1 => exact Nat.le_refl _
  | case2 rest ih =>
      rw [List.length_drop] at ih
      simp only [List.length_cons]
      omega
  | case3 c rest _ ih => exact Nat.succ_le_succ ih

theorem Text.length_stripComments_lt (inside : ['/', '*'] <:+: s) :
    (Text.stripComments s).length < s.length := by
  fun_induction Text.stripComments s with
  | case1 => cases List.eq_nil_of_infix_nil inside
  | case2 rest ih =>
      have shorter := Text.length_stripComments_le (rest.drop (commentLength rest))
      rw [List.length_drop] at shorter
      simp only [List.length_cons]
      omega
  | case3 c rest plain ih =>
      rcases List.infix_cons_iff.1 inside with first | later
      · obtain ⟨others, same⟩ := first
        cases same
        exact (plain others rfl rfl).elim
      · exact Nat.succ_lt_succ (ih later)

namespace Declaration

section Importance

/-- Either nothing but blanks is taken off, or an importance at the end. -/
theorem withoutImportant_cases (value : List Char) :
    withoutImportant value = Text.trimRight value ∨
      ∃ front last, IsImportance last ∧ Text.trimRight value = front ++ last ∧
        withoutImportant value = Text.trimRight front := by
  unfold withoutImportant
  dsimp only
  generalize Text.trimRight value = trimmed
  have parts := List.takeWhile_append_dropWhile (p := (· != '!')) (l := trimmed.reverse)
  have first := List.head?_dropWhile_not (· != '!') trimmed.reverse
  generalize trimmed.reverse.takeWhile (· != '!') = word at parts
  generalize trimmed.reverse.dropWhile (· != '!') = front at parts first
  have whole : trimmed = front.reverse ++ word.reverse := by
    rw [← List.reverse_append, parts, List.reverse_reverse]
  have before : trimmed.take (trimmed.length - word.reverse.length) = front.reverse := by
    rw [whole, List.length_append, Nat.add_sub_cancel, List.take_left]
  rw [before]
  split
  · exact .inl rfl
  next nonempty =>
  split
  · next spelled =>
      cases front with
      | nil => exact absurd rfl nonempty
      | cons mark others =>
          obtain rfl : mark = '!' := by simpa using first
          refine .inr ⟨others.reverse, '!' :: word.reverse, ⟨_, rfl, ?_⟩, ?_, ?_⟩
          · rw [← String.toList_inj, String.toList_ofList] at spelled
            exact spelled
          · rw [whole]
            simp
          · rw [List.reverse_cons, List.dropLast_concat]
  · exact .inl rfl

theorem IsImportance.not_mem {c : Char} {last : List Char} (importance : IsImportance last)
    (mark : isMark c) (other : c ≠ '!') : c ∉ last := by
  obtain ⟨w, rfl, spelled⟩ := importance
  exact List.not_mem_cons_of_ne_of_not_mem other (not_mem_importance spelled mark)

theorem isPrefix_withoutImportant (value : List Char) : withoutImportant value <+: value := by
  rcases withoutImportant_cases value with same | ⟨front, last, -, parts, same⟩
  · rw [same]
    exact Text.isPrefix_trimRight value
  · have first : front <+: Text.trimRight value := ⟨last, parts.symm⟩
    rw [same]
    exact (Text.isPrefix_trimRight front).trans (first.trans (Text.isPrefix_trimRight value))

theorem mem_withoutImportant {c : Char} (mark : isMark c) (other : c ≠ '!') (member : c ∈ value) :
    c ∈ withoutImportant value := by
  have visible := isBlank_of_isMark mark
  have held := Text.mem_trimRight visible member
  rcases withoutImportant_cases value with same | ⟨front, last, importance, parts, same⟩
  · rwa [same]
  · rw [parts, List.mem_append] at held
    rw [same]
    exact Text.mem_trimRight visible (held.resolve_right (importance.not_mem mark other))

theorem withoutImportant_concat {c : Char} (mark : isMark c) (other : c ≠ '!') (s : List Char) :
    withoutImportant (s ++ [c]) = s ++ [c] := by
  have visible := isBlank_of_isMark mark
  have trimmed : Text.trimRight (s ++ [c]) = s ++ [c] := Text.trimRight_append_cons visible s []
  rcases withoutImportant_cases (s ++ [c]) with same | ⟨front, last, importance, parts, -⟩
  · rw [same, trimmed]
  · have nonempty : last ≠ [] := by
      obtain ⟨w, rfl, -⟩ := importance
      exact List.cons_ne_nil _ _
    rw [trimmed] at parts
    have ends := congrArg List.getLast? parts
    rw [List.getLast?_append_of_ne_nil _ nonempty, List.getLast?_concat] at ends
    exact absurd (List.mem_of_getLast? ends.symm) (importance.not_mem mark other)

end Importance

section Values

theorem isMark_quote : isMark '"' := by
  decide

theorem trim_quoted (s : List Char) : Text.trim (' ' :: quoted s) = quoted s := by
  rw [Text.trim_cons_of_isBlank rfl]
  refine Text.trim_of_isTrimmed ⟨fun _ first => by cases first; rfl, fun c last => ?_⟩
  rw [quoted, ← List.cons_append, List.getLast?_concat] at last
  cases last
  rfl

/-- The value of a declaration with a string. -/
def stringKept (s : List Char) : List Char :=
  Text.trim (withoutImportant (Text.stripComments (' ' :: quoted s)))

theorem stripComments_quoted (s : List Char) : Text.stripComments (' ' :: quoted s) =
    ' ' :: '"' :: Text.stripComments (s ++ ['"']) := by
  rw [stripComments_cons (by rintro ⟨⟩), quoted, stripComments_cons (by rintro ⟨⟩)]

theorem stringKept_ne_nil (s : List Char) : stringKept s ≠ [] := by
  intro empty
  have member : '"' ∈ withoutImportant (Text.stripComments (' ' :: quoted s)) := by
    refine mem_withoutImportant isMark_quote (by decide) ?_
    rw [stripComments_quoted]
    simp
  cases Text.trim_eq_nil_iff.1 empty _ member

/-- The string is the value unless it holds the start of a comment. -/
theorem stringKept_eq_iff : stringKept s = quoted s ↔ ¬['/', '*'] <:+: s := by
  refine ⟨fun same inside => ?_, fun free => ?_⟩
  · have within : stringKept s <:+: Text.stripComments (' ' :: quoted s) :=
      (Text.trim_infix _).trans (isPrefix_withoutImportant _).isInfix
    rw [same, stripComments_quoted] at within
    have shorter : (Text.stripComments (s ++ ['"'])).length < (s ++ ['"']).length :=
      Text.length_stripComments_lt (inside.trans (List.infix_append [] s ['"']))
    rcases List.infix_cons_iff.1 within with first | later
    · cases (List.cons_prefix_cons.1 first).1
    · have length := later.length_le
      simp only [quoted, List.length_cons] at length
      omega
  · have bare : Text.stripComments (' ' :: quoted s) = (' ' :: '"' :: s) ++ ['"'] := by
      rw [stripComments_cons (by rintro ⟨⟩), stripComments_of_free (quoted_free free)]
      rfl
    rw [stringKept, bare, withoutImportant_concat isMark_quote (by decide)]
    exact trim_quoted s

theorem normalize?_quoted (visible : Text.trim name ≠ []) (s : List Char) :
    normalize? name (' ' :: quoted s) =
      some ⟨String.ofList (propertyName name), String.ofList (stringKept s)⟩ := by
  have kept := stringKept_ne_nil s
  rw [stringKept] at kept
  unfold normalize?
  dsimp only
  rw [if_neg (by simp [visible, kept])]
  rfl

variable (named : IsName name) (verbatim : IsVerbatim s)

include named verbatim

theorem read_quoted : Component.read (name ++ ':' :: ' ' :: quoted s) =
    .single ⟨.name name, name⟩ :: ([] ++ .single ⟨.colon, [':']⟩ ::
      [.single ⟨.blank, [' ']⟩, .single (quotedLexeme s)]) := by
  have string := lexemes_quoted verbatim []
  have blank : lexemes (' ' :: quoted s) = ⟨.blank, [' ']⟩ :: lexemes (quoted s) :=
    lexemes_blanks (List.forall_mem_singleton.2 rfl) (by rintro _ ⟨⟩; rfl)
  rw [List.append_nil, lexemes_nil] at string
  rw [Component.read, lexemes_name named (.cons (by decide) _), lexemes_mark rfl (by decide), blank,
    string]
  rfl

theorem ofInline_string (visible : Text.trim name ≠ []) :
    ofInline (name ++ ':' :: ' ' :: quoted s) =
      [⟨String.ofList (propertyName name), String.ofList (stringKept s)⟩] := by
  have text : Component.textOf [.single ⟨.blank, [' ']⟩, .single (quotedLexeme s)] =
      ' ' :: quoted s := by
    simp [Component.textOf, Component.text, quotedLexeme]
  have found := @ofComponents_declaration []
    [.single ⟨.blank, [' ']⟩, .single (quotedLexeme s)] [] name name ⟨.colon, [':']⟩
    (List.forall_mem_nil _) rfl (List.forall_mem_cons.2 ⟨rfl, List.forall_mem_singleton.2 rfl⟩)
    (by rintro _ ⟨⟩)
  rw [List.append_nil, ← read_quoted named verbatim, text, normalize?_quoted visible, ofComponents,
    List.append_nil] at found
  rw [ofInline, found]
  rfl

end Values

end Declaration

open Declaration

/-- The string is kept as it is written exactly if it holds no start of a comment. -/
theorem StyleMap.ofInline_quoted (named : IsName name) (visible : Text.trim name ≠ [])
    (longhand : Shorthand.ofName? (String.ofList (propertyName name)) = none)
    (verbatim : IsVerbatim s) :
    StyleMap.ofInline (String.ofList (name ++ ':' :: ' ' :: quoted s)) =
        .ok (Dictionary.empty.insert (String.ofList (propertyName name))
          (String.ofList (quoted s))) ↔
      ¬['/', '*'] <:+: s := by
  have read : StyleMap.ofInline (String.ofList (name ++ ':' :: ' ' :: quoted s)) =
      .ok (Dictionary.empty.insert (String.ofList (propertyName name))
        (String.ofList (stringKept s))) := by
    rw [ofInline, String.toList_ofList, ofInline_string named verbatim visible, ofDeclarations,
      List.foldlM_cons, declare, Declaration.expand_of_plain longhand]
    rfl
  rw [read, ← stringKept_eq_iff]
  refine ⟨fun same => ?_, fun same => by rw [same]⟩
  have value := congrArg (fun style => style.get? (String.ofList (propertyName name)))
    (Except.ok.inj same)
  rw [Dictionary.get?_insert, Dictionary.get?_insert, if_pos rfl, if_pos rfl, Option.some.injEq,
    ← String.toList_inj, String.toList_ofList, String.toList_ofList] at value
  exact value

end ComputedStyle
