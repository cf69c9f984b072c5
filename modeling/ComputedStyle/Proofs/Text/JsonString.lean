import Mathlib.Data.List.Basic
import Mathlib.Tactic.IntervalCases
import ComputedStyle.Text.JsonString

namespace ComputedStyle.Text.JsonString

open Syntax

variable {c : Char} {s rest : List Char} {n : Nat}

/-- No control characters, and each backslash is followed by a character that it escapes; all quotes
are escaped. -/
inductive IsEscaped : List Char → Prop where
  | nil : IsEscaped []
  | plain (c : Char) (s : List Char) (printable : 0x20 ≤ c.toNat) (bare : c ≠ '"' ∧ c ≠ '\\')
      (more : IsEscaped s) : IsEscaped (c :: s)
  | pair (c : Char) (s : List Char) (printable : 0x20 ≤ c.toNat) (more : IsEscaped s) :
      IsEscaped ('\\' :: c :: s)

theorem IsEscaped.printable (escaped : IsEscaped s) : ∀ c ∈ s, 0x20 ≤ c.toNat := by
  induction escaped with
  | nil => exact List.forall_mem_nil _
  | plain c s printable _ _ ih => exact List.forall_mem_cons.2 ⟨printable, ih⟩
  | pair c s printable _ ih =>
      exact List.forall_mem_cons.2 ⟨by decide, List.forall_mem_cons.2 ⟨printable, ih⟩⟩

theorem isHexDigit_hexDigit (digit : n < 16) : isHexDigit (hexDigit n) := by
  interval_cases n <;> decide

theorem hexValue_hexDigit (digit : n < 16) : hexValue (hexDigit n) = n := by
  interval_cases n <;> decide

theorem plain_of_isHexDigit (digit : isHexDigit c) : 0x20 ≤ c.toNat ∧ c ≠ '"' ∧ c ≠ '\\' := by
  have other : ∀ d ∈ ['"', '\\'], c ≠ d := by
    rintro d member rfl
    rcases List.mem_pair.1 member with rfl | rfl
    · exact absurd digit (by decide)
    · exact absurd digit (by decide)
  refine ⟨?_, other _ (by simp), other _ (by simp)⟩
  simp only [isHexDigit, Char.isDigit, Bool.or_eq_true, Bool.and_eq_true, decide_eq_true_eq] at digit
  rcases digit with (⟨low, -⟩ | ⟨low, -⟩) | ⟨low, -⟩
  · exact le_trans (by decide) (UInt32.le_iff_toNat_le.1 low)
  · exact le_trans (by decide) (UInt32.le_iff_toNat_le.1 low)
  · exact le_trans (by decide) (UInt32.le_iff_toNat_le.1 low)

theorem codes_unicodeEscape (small : n < 0x10000) :
    codes (unicodeEscape n ++ rest) = (codes rest).map (n :: ·) := by
  have digit (m : Nat) : isHexDigit (hexDigit (m % 0x10)) :=
    isHexDigit_hexDigit (Nat.mod_lt m (by decide))
  have value (m : Nat) : hexValue (hexDigit (m % 0x10)) = m % 0x10 :=
    hexValue_hexDigit (Nat.mod_lt m (by decide))
  have number : ofHexDigits [hexDigit (n / 0x1000 % 0x10), hexDigit (n / 0x100 % 0x10),
      hexDigit (n / 0x10 % 0x10), hexDigit (n % 0x10)] = n := by
    simp only [ofHexDigits, List.foldl_cons, List.foldl_nil, value]
    omega
  simp only [unicodeEscape, List.cons_append, List.nil_append]
  rw [codes, if_pos (by simp [digit]), number]

theorem codes_plain (bare : c ≠ '"' ∧ c ≠ '\\') (printable : 0x20 ≤ c.toNat) :
    codes (c :: rest) = (codes rest).map (c.toNat :: ·) := by
  rw [codes.eq_4 c rest (fun _ _ _ _ _ backslash => absurd backslash bare.2)
    fun _ _ backslash => absurd backslash bare.2]
  exact if_neg (by simp [bare, printable])

theorem codes_encodeChar (c : Char) (rest : List Char) :
    codes (encodeChar c ++ rest) = (codes rest).map (c.toNat :: ·) := by
  unfold encodeChar
  iterate 5 (split; · next same => cases eq_of_beq same; rfl)
  split
  · next control => exact codes_unicodeEscape (by omega)
  · next backslash quote _ _ _ printable =>
      exact codes_plain ⟨by simpa using quote, by simpa using backslash⟩ (not_lt.1 printable)

theorem codes_encode (s : List Char) : codes (encode s) = some (s.map Char.toNat) := by
  induction s with
  | nil => rfl
  | cons c rest ih =>
      rw [encode, List.flatMap_cons, codes_encodeChar, ← encode, ih]
      rfl

theorem ofCodes_toNat (s : List Char) : ofCodes (s.map Char.toNat) = some s := by
  induction s with
  | nil => rfl
  | cons c rest ih =>
      have valid : c.toNat.isValidChar := c.valid
      have single : isHighSurrogate c.toNat = false := by
        rcases valid with low | ⟨high, -⟩
        · simp [isHighSurrogate, low]
        · simp only [isHighSurrogate, Bool.and_eq_false_iff, decide_eq_false_iff_not]
          omega
      cases rest with
      | nil => simp [ofCodes, valid]
      | cons d others =>
          rw [List.map_cons] at ih ⊢
          rw [List.map_cons, ofCodes, single, Bool.false_and, if_neg Bool.false_ne_true,
            if_pos valid, ih, Char.ofNat_toNat]
          rfl

theorem decode_encode (s : List Char) : decode (encode s) = some s := by
  rw [decode, codes_encode, Option.bind_some, ofCodes_toNat]

theorem encode_injective : Function.Injective encode := fun s t same => by
  have read := decode_encode s
  rw [same, decode_encode t] at read
  exact (Option.some.inj read).symm

theorem printable_of_shortEscape? {meant : Char} (short : shortEscape? c = some meant) :
    0x20 ≤ c.toNat := by
  unfold shortEscape? at short
  split at short
  iterate 8 (· decide)
  cases short

theorem isEscaped_append_hexDigits {digits : List Char} (each : ∀ c ∈ digits, isHexDigit c)
    (more : IsEscaped s) : IsEscaped (digits ++ s) := by
  induction digits with
  | nil => exact more
  | cons c rest ih =>
      obtain ⟨first, later⟩ := List.forall_mem_cons.1 each
      obtain ⟨printable, bare⟩ := plain_of_isHexDigit first
      exact .plain c _ printable bare (ih later)

theorem isEscaped_of_codes {values : List Nat} (read : codes s = some values) : IsEscaped s := by
  induction s using codes.induct generalizing values with
  | case1 => exact .nil
  | case2 a b c d rest digits ih =>
      rw [codes, if_pos digits] at read
      obtain ⟨later, read, -⟩ := Option.map_eq_some_iff.1 read
      apply IsEscaped.pair 'u' _ (by decide)
      exact isEscaped_append_hexDigits (List.all_eq_true.1 digits) (ih read)
  | case3 a b c d rest digits =>
      rw [codes, if_neg digits] at read
      cases read
  | case4 c rest other meant short ih =>
      rw [codes.eq_3 c rest other, short] at read
      obtain ⟨later, read, -⟩ := Option.map_eq_some_iff.1 read
      exact .pair c rest (printable_of_shortEscape? short) (ih read)
  | case5 c rest other unknown =>
      rw [codes.eq_3 c rest other, unknown] at read
      cases read
  | case6 c rest other alone bad =>
      rw [codes.eq_4 c rest other alone, if_pos bad] at read
      cases read
  | case7 c rest other alone good ih =>
      rw [codes.eq_4 c rest other alone, if_neg good] at read
      obtain ⟨later, read, -⟩ := Option.map_eq_some_iff.1 read
      simp only [Bool.or_eq_true, beq_iff_eq, decide_eq_true_eq, not_or, not_lt] at good
      exact .plain c rest good.2 ⟨good.1.2, good.1.1⟩ (ih read)

theorem isEscaped_of_decode {value : List Char} (read : decode s = some value) : IsEscaped s := by
  obtain ⟨values, coded, -⟩ := Option.bind_eq_some_iff.1 read
  exact isEscaped_of_codes coded

theorem isEscaped_encode (s : List Char) : IsEscaped (encode s) :=
  isEscaped_of_decode (decode_encode s)

theorem IsEscaped.eq_of_append {t x y : List Char} (first : IsEscaped s) (second : IsEscaped t)
    (same : s ++ '"' :: x = t ++ '"' :: y) : s = t := by
  induction first generalizing t with
  | nil =>
      cases second with
      | nil => rfl
      | plain c t _ bare _ => exact absurd (List.cons.inj same).1.symm bare.1
      | pair c t _ _ => exact absurd (List.cons.inj same).1 (by decide)
  | plain c s _ bare _ ih =>
      cases second with
      | nil => exact absurd (List.cons.inj same).1 bare.1
      | plain d t _ _ more =>
          obtain ⟨rfl, later⟩ := List.cons.inj same
          rw [ih more later]
      | pair d t _ _ => exact absurd (List.cons.inj same).1 bare.2
  | pair c s _ _ ih =>
      cases second with
      | nil => exact absurd (List.cons.inj same).1 (by decide)
      | plain d t _ bare _ => exact absurd (List.cons.inj same).1.symm bare.2
      | pair d t _ more =>
          obtain ⟨rfl, later⟩ := List.cons.inj (List.cons.inj same).2
          rw [ih more later]

end ComputedStyle.Text.JsonString
