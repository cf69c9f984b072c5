import Mathlib
import ComputedStyle.Proofs.Text.Case
import ComputedStyle.Proofs.Text.Nested
import ComputedStyle.Selector.Printing
import ComputedStyle.Selector.Spelling

namespace ComputedStyle

open Text Number

section Formulas

theorem code_of_isDigit {c : Char} (digit : c.isDigit) : 48 ≤ c.toNat ∧ c.toNat ≤ 57 := by
  simp only [Char.isDigit, ge_iff_le, Bool.and_eq_true, decide_eq_true_eq,
    UInt32.le_iff_toNat_le] at digit
  exact digit

def IsFormulaChar (c : Char) : Prop :=
  c.isDigit ∨ c = '-' ∨ c = '+' ∨ c = 'n'

theorem IsFormulaChar.isBlank {c : Char} (formula : IsFormulaChar c) : isBlank c = false := by
  rcases formula with digit | rfl | rfl | rfl
  · have code := code_of_isDigit digit
    rw [Bool.eq_false_iff]
    intro blank
    simp only [Text.isBlank, Bool.or_eq_true, Bool.and_eq_true, decide_eq_true_eq,
      beq_iff_eq] at blank
    omega
  · rfl
  · rfl
  · rfl

theorem IsFormulaChar.isBare {c : Char} (formula : IsFormulaChar c) : IsBare c := by
  rcases formula with digit | rfl | rfl | rfl
  · have code := code_of_isDigit digit
    intro held
    simp only [List.mem_cons, List.not_mem_nil, or_false] at held
    rcases held with rfl | rfl | rfl | rfl | rfl | rfl <;> revert code <;> decide
  · decide
  · decide
  · decide

theorem IsFormulaChar.toLower {c : Char} (formula : IsFormulaChar c) : c.toLower = c := by
  rcases formula with digit | rfl | rfl | rfl
  · have code := code_of_isDigit digit
    refine Char.toLower_eq_of_not_isUpper ?_
    simp only [Char.isUpper, ge_iff_le, decide_eq_true_eq, UInt32.le_iff_toNat_le, not_and]
    intro upper
    have : c.toNat = c.val.toNat := rfl
    have : 'A'.val.toNat = 65 := rfl
    omega
  · rfl
  · rfl
  · rfl

theorem IsFormulaChar.ne_of_isDigit {c d : Char} (digit : c.isDigit) (other : d.isDigit = false) :
    c ≠ d := by
  rintro rfl
  rw [other] at digit
  cases digit

variable {n : Int} {s t digits : List Char} {positions : Progression}

theorem SpelledSigned.isFormulaChar (spelled : SpelledSigned n s) :
    ∀ c ∈ s, IsFormulaChar c ∧ c ≠ 'n' := by
  intro c member
  cases spelled with
  | plus digits numeral =>
      rcases List.mem_cons.1 member with rfl | digit
      · exact ⟨.inr (.inr (.inl rfl)), by decide⟩
      · exact ⟨.inl (numeral.digits c digit),
          IsFormulaChar.ne_of_isDigit (numeral.digits c digit) rfl⟩
  | minus digits numeral =>
      rcases List.mem_cons.1 member with rfl | digit
      · exact ⟨.inr (.inl rfl), by decide⟩
      · exact ⟨.inl (numeral.digits c digit),
          IsFormulaChar.ne_of_isDigit (numeral.digits c digit) rfl⟩

theorem SpelledInteger.isFormulaChar (spelled : SpelledInteger n s) :
    ∀ c ∈ s, IsFormulaChar c ∧ c ≠ 'n' := by
  cases spelled with
  | unsigned digits numeral =>
      exact fun c member => ⟨.inl (numeral.digits c member),
        IsFormulaChar.ne_of_isDigit (numeral.digits c member) rfl⟩
  | signed _ _ spelled => exact spelled.isFormulaChar

theorem SpelledCoefficient.isFormulaChar (spelled : SpelledCoefficient n s) :
    ∀ c ∈ s, IsFormulaChar c ∧ c ≠ 'n' := by
  cases spelled with
  | one => exact nofun
  | plusOne => exact List.forall_mem_singleton.2 ⟨.inr (.inr (.inl rfl)), by decide⟩
  | minusOne => exact List.forall_mem_singleton.2 ⟨.inr (.inl rfl), by decide⟩
  | integer _ _ spelled => exact spelled.isFormulaChar

theorem SpelledCoefficient.isFormulaChar_append (spelled : SpelledCoefficient n s)
    (later : ∀ c ∈ t, IsFormulaChar c) : ∀ c ∈ s ++ 'n' :: t, IsFormulaChar c := by
  refine List.forall_mem_append.2 ⟨fun c member => (spelled.isFormulaChar c member).1, ?_⟩
  exact List.forall_mem_cons.2 ⟨.inr (.inr (.inr rfl)), later⟩

theorem IsNumeral.readNat? (numeral : IsNumeral digits) :
    readNat? digits = some (ofDigits digits) := by
  rw [Number.readNat?, List.isEmpty_eq_false_iff.2 numeral.nonempty, List.all_eq_true.2 numeral.digits]
  rfl

theorem IsNumeral.takeSign (numeral : IsNumeral digits) : takeSign digits = (false, digits) := by
  unfold Number.takeSign
  split
  · cases numeral.digits '-' List.mem_cons_self
  · cases numeral.digits '+' List.mem_cons_self
  · rfl

theorem SpelledInteger.readInt? (spelled : SpelledInteger n s) : readInt? s = some n := by
  cases spelled with
  | unsigned digits numeral => simp [Number.readInt?, numeral.takeSign, numeral.readNat?]
  | signed _ _ spelled =>
      cases spelled with
      | plus digits numeral => simp [Number.readInt?, Number.takeSign, numeral.readNat?]
      | minus digits numeral => simp [Number.readInt?, Number.takeSign, numeral.readNat?]

namespace Selector

theorem readInt32?_spelled (spelled : SpelledInteger n s) (bound : isInt32 n) :
    readInt32? s = some n := by
  rw [readInt32?, spelled.readInt?]
  exact Option.filter_eq_some_iff.2 ⟨rfl, bound⟩

theorem readStep?_of_integer (spelled : SpelledInteger n s) : readStep? s = readInt32? s := by
  have read := spelled.readInt?
  unfold readStep?
  split
  · cases read
  · cases read
  · cases read
  · rfl

theorem readStep?_spelled (spelled : SpelledCoefficient n s) (bound : isInt32 n) :
    readStep? s = some n := by
  cases spelled with
  | one => rfl
  | plusOne => rfl
  | minusOne => rfl
  | integer _ _ spelled => rw [readStep?_of_integer spelled, readInt32?_spelled spelled bound]

theorem readOffset?_spelled (spelled : SpelledSigned n t) (bound : isInt32 n) :
    readOffset? t = some n := by
  cases spelled with
  | plus digits numeral => exact readInt32?_spelled (.unsigned digits numeral) bound
  | minus digits numeral =>
      rw [readOffset?]
      · exact readInt32?_spelled (.signed _ _ (.minus digits numeral)) bound
      · exact nofun
      · rintro rest ⟨⟩

end Selector

namespace Selector

theorem readProgression?_of_formula {raw : List Char} (nonempty : s ≠ [])
    (formula : ∀ c ∈ s, IsFormulaChar c) (bare : lower (raw.filter (!isBlank ·)) = s) :
    readProgression? raw =
      match splitOnce 'n' s with
      | none => (readInt32? s).map fun offset => ⟨0, offset⟩
      | some (before, after) => do
          let step ← readStep? before
          let offset ← readOffset? after
          return ⟨step, offset⟩ := by
  have apart : ∀ word : String, (word = "" ∨ ∃ c ∈ word.toList, ¬IsFormulaChar c) →
      String.ofList s ≠ word := by
    rintro word other rfl
    rw [String.toList_ofList] at other
    rcases other with empty | ⟨c, member, other⟩
    · exact nonempty (by simpa using congrArg String.toList empty)
    · exact other (formula c member)
  have letter : ∀ c ∈ ['e', 'o'], ¬IsFormulaChar c := by
    simp [IsFormulaChar]
  unfold readProgression?
  dsimp only
  rw [bare]
  split
  · next same => exact absurd same (apart "" (.inl rfl))
  · next same => exact absurd same (apart "even" (.inr ⟨'e', by decide, letter 'e' (by decide)⟩))
  · next same => exact absurd same (apart "odd" (.inr ⟨'o', by decide, letter 'o' (by decide)⟩))
  · rfl

theorem readProgression?_spelled {raw : List Char} (normal : positions.IsNormal)
    (spelled : positions.Spelled s) (bare : lower (raw.filter (!isBlank ·)) = s) :
    readProgression? raw = some positions := by
  cases spelled with
  | even => simp [readProgression?, bare]
  | odd => simp [readProgression?, bare]
  | constant b s spelled =>
      have chars := spelled.isFormulaChar
      have nonempty : s ≠ [] := by
        rintro rfl
        have read := spelled.readInt?
        cases read
      have free : splitOnce 'n' s = none :=
        splitOnce_eq_none fun member => (chars 'n' member).2 rfl
      rw [readProgression?_of_formula nonempty (fun c member => (chars c member).1) bare, free,
        readInt32?_spelled spelled normal.offset]
      rfl
  | multiple a s spelled =>
      rw [readProgression?_of_formula (by simp) (spelled.isFormulaChar_append (List.forall_mem_nil _)) bare,
        splitOnce_append fun member => (spelled.isFormulaChar 'n' member).2 rfl]
      simp [readStep?_spelled spelled normal.step, readOffset?]
  | sum a b s t coefficient constant =>
      have later := fun c member => (constant.isFormulaChar c member).1
      rw [readProgression?_of_formula (by simp) (coefficient.isFormulaChar_append later) bare,
        splitOnce_append fun member => (coefficient.isFormulaChar 'n' member).2 rfl]
      simp [readStep?_spelled coefficient normal.step, readOffset?_spelled constant normal.offset]

end Selector

theorem isBare_of_toLower {c : Char} (bare : IsBare c.toLower) : IsBare c := by
  intro held
  simp only [List.mem_cons, List.not_mem_nil, or_false] at held
  rcases held with rfl | rfl | rfl | rfl | rfl | rfl <;> exact bare (by decide)

theorem isBare_of_isBlank {c : Char} (blank : isBlank c) : IsBare c := by
  intro held
  simp only [List.mem_cons, List.not_mem_nil, or_false] at held
  rcases held with rfl | rfl | rfl | rfl | rfl | rfl <;> cases blank

theorem Progression.Spelled.visible (spelled : positions.Spelled s) :
    ∀ c ∈ s, isBlank c = false ∧ IsBare c := by
  have formula {s : List Char} (each : ∀ c ∈ s, IsFormulaChar c) :
      ∀ c ∈ s, isBlank c = false ∧ IsBare c :=
    fun c member => ⟨(each c member).isBlank, (each c member).isBare⟩
  cases spelled with
  | even => simp [isBlank, IsBare]
  | odd => simp [isBlank, IsBare]
  | constant b s spelled => exact formula fun c member => (spelled.isFormulaChar c member).1
  | multiple a s spelled => exact formula (spelled.isFormulaChar_append (List.forall_mem_nil _))
  | sum a b s t coefficient constant =>
      exact formula (coefficient.isFormulaChar_append fun c member =>
        (constant.isFormulaChar c member).1)

variable {raw : List Char}

theorem Strewn.lower_filter (strewn : Strewn s raw) (visible : ∀ c ∈ s, isBlank c = false) :
    lower (raw.filter (!isBlank ·)) = s := by
  induction strewn with
  | nil => rfl
  | blank c s raw blank _ ih =>
      rw [List.filter_cons_of_neg (by simp [blank])]
      exact ih visible
  | char c s raw _ ih =>
      obtain ⟨first, later⟩ := List.forall_mem_cons.1 visible
      have own : isBlank c = false := by
        rw [Bool.eq_false_iff]
        intro blank
        rw [toLower_of_isBlank blank, blank] at first
        cases first
      rw [List.filter_cons_of_pos (by simp [own]), lower, List.map_cons, ← lower, ih later]

theorem Strewn.isBare (strewn : Strewn s raw) (bare : ∀ c ∈ s, IsBare c) : ∀ c ∈ raw, IsBare c := by
  induction strewn with
  | nil => exact nofun
  | blank c s raw blank _ ih => exact List.forall_mem_cons.2 ⟨isBare_of_isBlank blank, ih bare⟩
  | char c s raw _ ih =>
      obtain ⟨first, later⟩ := List.forall_mem_cons.1 bare
      exact List.forall_mem_cons.2 ⟨isBare_of_toLower first, ih later⟩

namespace Selector

theorem readProgression?_strewn (normal : positions.IsNormal) (spelled : positions.Spelled s)
    (strewn : Strewn s raw) : readProgression? raw = some positions :=
  readProgression?_spelled normal spelled
    (strewn.lower_filter fun c member => (spelled.visible c member).1)

end Selector

theorem isNumeral_digitsOf (n : Nat) : IsNumeral (digitsOf n) where
  nonempty := Nat.toDigits_ne_nil
  digits _ := Nat.isDigit_of_mem_toDigits (by decide) (by decide)

theorem ofDigits_digitsOf (n : Nat) : ofDigits (digitsOf n) = n :=
  Nat.ofDigitChars_toDigits (by decide) (by decide)

theorem spelledSigned_digitsOf (n : Int) :
    SpelledSigned n ((if n < 0 then '-' else '+') :: digitsOf n.natAbs) := by
  have numeral := isNumeral_digitsOf n.natAbs
  have value := ofDigits_digitsOf n.natAbs
  split
  · next negative =>
      have spelled := SpelledSigned.minus _ numeral
      rwa [value, Int.ofNat_natAbs_of_nonpos negative.le, neg_neg] at spelled
  · next notNegative =>
      have spelled := SpelledSigned.plus _ numeral
      rwa [value, Int.natAbs_of_nonneg (not_lt.1 notNegative)] at spelled

theorem spelledInteger_integerText (n : Int) : SpelledInteger n (integerText n) := by
  unfold integerText
  split
  · next negative =>
      have spelled := spelledSigned_digitsOf n
      rw [if_pos negative] at spelled
      exact .signed _ _ spelled
  · next notNegative =>
      have spelled := SpelledInteger.unsigned _ (isNumeral_digitsOf n.natAbs)
      rwa [ofDigits_digitsOf, Int.natAbs_of_nonneg (not_lt.1 notNegative)] at spelled

theorem spelled_text (positions : Progression) : positions.Spelled positions.text :=
  .sum _ _ _ _ (.integer _ _ (spelledInteger_integerText positions.step))
    (spelledSigned_digitsOf positions.offset)

namespace Selector

theorem isFormulaChar_of_mem_text {c : Char} (member : c ∈ positions.text) : IsFormulaChar c :=
  (SpelledCoefficient.integer _ _ (spelledInteger_integerText _)).isFormulaChar_append
    (fun d later => ((spelledSigned_digitsOf _).isFormulaChar d later).1) c member

theorem strewn_self (lowered : ∀ c ∈ s, c.toLower = c) : Strewn s s := by
  induction s with
  | nil => exact .nil
  | cons c rest ih =>
      obtain ⟨own, later⟩ := List.forall_mem_cons.1 lowered
      have strewn := Strewn.char c rest rest (ih later)
      rwa [own] at strewn

theorem readProgression?_text (normal : positions.IsNormal) :
    readProgression? positions.text = some positions :=
  readProgression?_strewn normal (spelled_text positions)
    (strewn_self fun _ member => (isFormulaChar_of_mem_text member).toLower)

end Selector

end Formulas

end ComputedStyle
