import Mathlib.Data.Nat.Digits.Defs
import ComputedStyle.Json
import ComputedStyle.Number.Decimal
import ComputedStyle.Proofs.Text.JsonString

namespace ComputedStyle

open Number

namespace Text

/-- No control characters, so in particular no end of a line. -/
def IsOneLine (s : String) : Prop :=
  ∀ c ∈ s.toList, 0x20 ≤ c.toNat

theorem IsOneLine.newline_not_mem {s : String} (line : IsOneLine s) : '\n' ∉ s.toList := fun member =>
  absurd (line _ member) (by decide)

theorem isOneLine_append {s t : String} : IsOneLine (s ++ t) ↔ IsOneLine s ∧ IsOneLine t := by
  simp only [IsOneLine, String.toList_append, List.mem_append, or_imp, forall_and]

theorem isOneLine_intercalate {separator : String} (plain : IsOneLine separator)
    {parts : List String} (lines : ∀ part ∈ parts, IsOneLine part) :
    IsOneLine (separator.intercalate parts) := by
  induction parts with
  | nil => simp [IsOneLine]
  | cons part rest ih =>
      obtain ⟨head, tail⟩ := List.forall_mem_cons.1 lines
      cases rest with
      | nil => simpa using head
      | cons next others =>
          rw [String.intercalate_cons_cons]
          exact isOneLine_append.2 ⟨isOneLine_append.2 ⟨head, plain⟩, ih tail⟩

namespace JsonString

theorem isOneLine_quote (s : String) : IsOneLine (quote s) := by
  have inside : IsOneLine (String.ofList (encode s.toList)) := fun d member => by
    rw [String.toList_ofList] at member
    exact (isEscaped_encode s.toList).printable d member
  rw [quote, isOneLine_append, isOneLine_append]
  exact ⟨⟨by simp [IsOneLine], inside⟩, by simp [IsOneLine]⟩

end JsonString

end Text

open Text

namespace Number

theorem isOneLine_digits {digits : List Char} (plain : ∀ c ∈ digits, c.isDigit) :
    IsOneLine (String.ofList digits) := fun c member => by
  rw [String.toList_ofList] at member
  have digit := plain c member
  rw [Char.isDigit, Bool.and_eq_true, decide_eq_true_eq] at digit
  exact le_trans (by decide) (UInt32.le_iff_toNat_le.1 digit.1)

theorem isDigit_of_mem_digitsOf {n : Nat} : ∀ c ∈ digitsOf n, c.isDigit := fun _ =>
  Nat.isDigit_of_mem_toDigits (by decide) (by decide)

theorem isOneLine_paddedDigits (width n : Nat) : IsOneLine (paddedDigits width n) := by
  refine isOneLine_digits fun c member => ?_
  rcases List.mem_append.1 member with zero | digit
  · rw [List.eq_of_mem_replicate zero]
    rfl
  · exact isDigit_of_mem_digitsOf c digit

theorem isOneLine_fixedPoint (places : Nat) (negative : Bool) (count : Nat) :
    IsOneLine (fixedPoint places negative count) := by
  rw [fixedPoint, isOneLine_append, isOneLine_append, isOneLine_append]
  refine ⟨⟨⟨?_, isOneLine_digits isDigit_of_mem_digitsOf⟩, by simp [IsOneLine]⟩,
    isOneLine_paddedDigits _ _⟩
  cases negative <;> simp [IsOneLine]

theorem isOneLine_fixed {format : Format} (places : Nat) (number : Binary format) :
    IsOneLine (number.fixed places) := by
  cases number with
  | nan => simp [Binary.fixed, IsOneLine]
  | infinite negative => cases negative <;> simp [Binary.fixed, IsOneLine]
  | finite negative count => exact isOneLine_fixedPoint _ _ _

end Number

namespace JsonValue

@[simp] theorem isOneLine_nat (n : Nat) : IsOneLine (nat n).render := by
  rw [nat, render, Nat.toString_eq_repr, Nat.repr_eq_ofList_toDigits]
  exact isOneLine_digits isDigit_of_mem_digitsOf

@[simp] theorem isOneLine_text (value : String) : IsOneLine (text value).render :=
  JsonString.isOneLine_quote value

theorem isOneLine_member {name value : String} (line : IsOneLine value) :
    IsOneLine (member name value) := by
  rw [member, isOneLine_append, isOneLine_append]
  exact ⟨⟨JsonString.isOneLine_quote name, by simp [IsOneLine]⟩, line⟩

theorem isOneLine_braced {parts : List String} (lines : ∀ part ∈ parts, IsOneLine part) :
    IsOneLine (braced (commaSeparated parts)) := by
  rw [braced, isOneLine_append, isOneLine_append]
  exact ⟨⟨by simp [IsOneLine], isOneLine_intercalate (by simp [IsOneLine]) lines⟩,
    by simp [IsOneLine]⟩

theorem isOneLine_renderObject {members : List (String × JsonValue)}
    (lines : ∀ member ∈ members, IsOneLine member.2.render) :
    IsOneLine (renderObject members) := by
  refine isOneLine_braced fun part inside => ?_
  obtain ⟨held, among, rfl⟩ := List.mem_map.1 inside
  exact isOneLine_member (lines held among)

@[simp] theorem isOneLine_flag (value : Bool) : IsOneLine (flag value).render := by
  cases value with
  | true => simp [render, IsOneLine]
  | false => simp [render, IsOneLine]

@[simp] theorem isOneLine_numbers (values : List Nat) : IsOneLine (numbers values).render := by
  rw [render, isOneLine_append, isOneLine_append]
  refine ⟨⟨by simp [IsOneLine], isOneLine_intercalate (by simp [IsOneLine]) fun part inside => ?_⟩,
    by simp [IsOneLine]⟩
  obtain ⟨n, -, rfl⟩ := List.mem_map.1 inside
  exact isOneLine_nat n

@[simp] theorem isOneLine_counts (entries : List (String × Nat)) :
    IsOneLine (counts entries).render := by
  refine isOneLine_braced fun part inside => ?_
  obtain ⟨entry, -, rfl⟩ := List.mem_map.1 inside
  exact isOneLine_member (isOneLine_nat entry.2)

end JsonValue

end ComputedStyle
