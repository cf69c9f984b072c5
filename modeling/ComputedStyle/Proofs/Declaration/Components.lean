import Mathlib
import ComputedStyle.Declaration.Block

namespace ComputedStyle.Declaration

open Syntax Component

variable {cs tail value blanks : List Component} {name text : List Char} {colon : Lexeme}

theorem ofComponents_between (between : ∀ component ∈ cs, component.isBlankOrComment)
    (tail : List Component) : ofComponents (cs ++ tail) = ofComponents tail := by
  induction cs with
  | nil => rfl
  | cons component others ih =>
      obtain ⟨own, later⟩ := List.forall_mem_cons.1 between
      simp only [isBlankOrComment, Bool.or_eq_true, beq_iff_eq] at own
      rw [List.cons_append, ofComponents, ← ih later]
      rcases own with blank | comment
      · rw [blank]
      · rw [comment]

theorem ofComponents_semicolon {component : Component} (semicolon : isSemicolon component)
    (tail : List Component) : ofComponents (component :: tail) = ofComponents tail := by
  rw [ofComponents, beq_iff_eq.1 semicolon]

theorem ofBody?_colon (between : ∀ component ∈ blanks, component.isBlankOrComment)
    (token : colon.token = .colon) (name : List Char) (value : List Component) :
    ofBody? name (blanks ++ .single colon :: value) = normalize? name (textOf value) := by
  have stop : ¬(isBlankOrComment (.single colon)) = true := by
    simp [isBlankOrComment, Component.token, token]
  rw [ofBody?, List.dropWhile_append_of_pos between, List.dropWhile_cons_of_neg stop]
  exact if_pos token

/-! What is left up to the next semicolon, or up to the end of an at-rule. -/

section Rest

variable {ends : Component → Bool}

theorem takeWhile_append_of_ends (inside : ∀ component ∈ cs, ends component = false)
    (last : ∀ component ∈ tail.head?, ends component) :
    (cs ++ tail).takeWhile (!ends ·) = cs := by
  rw [List.takeWhile_append_of_pos (by simpa using inside)]
  cases tail with
  | nil => exact List.append_nil _
  | cons component others =>
      rw [List.takeWhile_cons_of_neg (by simp [last component rfl]), List.append_nil]

theorem ofComponents_dropWhile (inside : ∀ component ∈ cs, ends component = false)
    (semicolon : ∀ component, isSemicolon component → ends component)
    (last : ∀ component ∈ tail.head?, isSemicolon component) :
    ofComponents (((cs ++ tail).dropWhile (!ends ·)).drop 1) = ofComponents tail := by
  rw [List.dropWhile_append_of_pos (by simpa using inside)]
  cases tail with
  | nil => rfl
  | cons component others =>
      have own := last component rfl
      rw [List.dropWhile_cons_of_neg (by simp [semicolon component own]), ofComponents_semicolon own]
      rfl

theorem ofComponents_afterSemicolon (inside : ∀ component ∈ cs, isSemicolon component = false)
    (last : ∀ component ∈ tail.head?, isSemicolon component) :
    ofComponents (afterSemicolon (cs ++ tail)) = ofComponents tail :=
  ofComponents_dropWhile inside (fun _ => id) last

theorem ofComponents_afterAtRule (inside : ∀ component ∈ cs, endsAtRule component = false)
    (last : ∀ component ∈ tail.head?, isSemicolon component) :
    ofComponents (afterAtRule (cs ++ tail)) = ofComponents tail :=
  ofComponents_dropWhile inside (fun _ own => by rw [endsAtRule, own, Bool.true_or]) last

end Rest

theorem ofComponents_declaration (between : ∀ component ∈ blanks, component.isBlankOrComment)
    (token : colon.token = .colon) (inside : ∀ component ∈ value, isSemicolon component = false)
    (last : ∀ component ∈ tail.head?, isSemicolon component) :
    ofComponents (.single ⟨.name name, text⟩ :: (blanks ++ .single colon :: value) ++ tail) =
      (normalize? name (textOf value)).toList ++ ofComponents tail := by
  have go : ∀ component ∈ blanks ++ .single colon :: value, isSemicolon component = false := by
    refine List.forall_mem_append.2 ⟨fun component member => ?_, List.forall_mem_cons.2 ⟨?_, inside⟩⟩
    · have blank := between component member
      simp only [isBlankOrComment, Bool.or_eq_true, beq_iff_eq] at blank
      rcases blank with same | same <;> simp [isSemicolon, same]
    · simp [isSemicolon, Component.token, token]
  rw [List.cons_append, ofComponents]
  dsimp only [Component.token]
  rw [takeWhile_append_of_ends go last, ofComponents_afterSemicolon go last,
    ofBody?_colon between token]

end ComputedStyle.Declaration
