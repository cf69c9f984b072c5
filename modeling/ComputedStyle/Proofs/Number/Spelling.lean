import Mathlib
import ComputedStyle.Proofs.Selector.Formula

/-!
Texts of numbers.

`SpellsNumber` is the grammar of the texts that are read as numbers: decimals with an optional point
and an optional power of ten, and the words for what is not finite, each with an optional sign. A text
is read if and only if it is one of them (`Binary.isSome_read?_iff`), and as a NaN only if it says so.
-/

namespace ComputedStyle.Number

/-- Digits, with at most one point among them or at an end. -/
inductive SpellsMantissa : List Char → Prop where
  | whole (digits : List Char) (numeral : IsNumeral digits) : SpellsMantissa digits
  | pointed (whole fraction : List Char) (digits : ∀ c ∈ whole ++ fraction, c.isDigit)
      (nonempty : whole ++ fraction ≠ []) : SpellsMantissa (whole ++ '.' :: fraction)

inductive SpellsPower : List Char → Prop where
  | one : SpellsPower []
  | power (mark : Char) (n : Int) (s : List Char) (isMark : mark = 'e' ∨ mark = 'E')
      (spelled : SpelledInteger n s) : SpellsPower (mark :: s)

inductive SpellsDecimal : List Char → Prop where
  | intro (mantissa power : List Char) (spelled : SpellsMantissa mantissa)
      (raised : SpellsPower power) : SpellsDecimal (mantissa ++ power)

/-- The words for numbers that are not finite. -/
def unboundedWords : List String := ["inf", "infinity", "nan"]

/-- A number without its sign. -/
inductive SpellsMagnitude (s : List Char) : Prop where
  | decimal (spelled : SpellsDecimal s)
  | word (listed : String.ofList (Text.lower s) ∈ unboundedWords)

/-- Texts of one kind, with an optional sign before them. -/
inductive Signed (kind : List Char → Prop) : List Char → Prop where
  | plain (s : List Char) (own : kind s) : Signed kind s
  | signed (sign : Char) (s : List Char) (isSign : sign = '+' ∨ sign = '-') (own : kind s) :
      Signed kind (sign :: s)

def SpellsNumber : List Char → Prop :=
  Signed SpellsMagnitude

variable {s : List Char}

def IsUnsigned (s : List Char) : Prop :=
  ∀ c ∈ s.head?, c ≠ '+' ∧ c ≠ '-'

theorem takeSign_of_isUnsigned (unsigned : IsUnsigned s) :
    takeSign s = (false, s) := by
  unfold takeSign
  split
  · exact absurd rfl (unsigned '-' rfl).2
  · exact absurd rfl (unsigned '+' rfl).1
  · rfl

theorem signed_iff_takeSign {kind : List Char → Prop} (bare : ∀ s, kind s → IsUnsigned s) :
    Signed kind s ↔ kind (takeSign s).2 := by
  constructor
  · intro signed
    cases signed with
    | plain _ own =>
        rw [takeSign_of_isUnsigned (bare s own)]
        exact own
    | signed sign rest isSign own =>
        rcases isSign with rfl | rfl
        · exact own
        · exact own
  · intro own
    unfold takeSign at own
    split at own
    · exact .signed '-' _ (.inr rfl) own
    · exact .signed '+' _ (.inl rfl) own
    · exact .plain s own

theorem readNat?_isSome_iff : (readNat? s).isSome ↔ IsNumeral s := by
  unfold readNat?
  constructor
  · intro read
    split at read
    · next held =>
        rw [Bool.and_eq_true, Bool.not_eq_true', List.isEmpty_eq_false_iff] at held
        exact ⟨held.1, List.all_eq_true.1 held.2⟩
    · cases read
  · intro numeral
    have read := numeral.readNat?
    unfold readNat? at read
    rw [read]
    rfl

theorem readInt?_isSome_iff :
    (readInt? s).isSome ↔ ∃ n, SpelledInteger n s := by
  constructor
  · intro read
    simp only [readInt?, Option.isSome_map, Option.pure_def, Option.bind_eq_bind,
      Option.isSome_bind, Option.isSome_some, Option.any_true, readNat?_isSome_iff] at read
    unfold takeSign at read
    split at read
    · exact ⟨_, .signed _ _ (.minus _ read)⟩
    · exact ⟨_, .signed _ _ (.plus _ read)⟩
    · exact ⟨_, .unsigned _ read⟩
  · rintro ⟨n, spelled⟩
    rw [spelled.readInt?]
    rfl

theorem ends_of_spellsPower {power : List Char} (raised : SpellsPower power) :
    ∀ c ∈ power.head?, c.isDigit = false := by
  cases raised with
  | one => exact nofun
  | power mark n s isMark spelled =>
      intro c first
      cases first
      rcases isMark with rfl | rfl
      · rfl
      · rfl

theorem span_run {p : Char → Bool} {run rest : List Char} (each : ∀ c ∈ run, p c)
    (ends : ∀ c ∈ rest.head?, p c = false) :
    (run ++ rest).takeWhile p = run ∧ (run ++ rest).dropWhile p = rest := by
  rw [List.takeWhile_append_of_pos each, List.dropWhile_append_of_pos each]
  cases rest with
  | nil => exact ⟨List.append_nil _, rfl⟩
  | cons c rest =>
      have other := ends c rfl
      rw [List.takeWhile_cons_of_neg (by simp [other]), List.dropWhile_cons_of_neg (by simp [other])]
      exact ⟨List.append_nil _, rfl⟩

theorem SpellsMantissa.head (spelled : SpellsMantissa s) :
    ∃ c rest, s = c :: rest ∧ (c.isDigit ∨ c = '.') := by
  cases spelled with
  | whole digits numeral =>
      cases s with
      | nil => exact absurd rfl numeral.nonempty
      | cons c rest => exact ⟨c, rest, rfl, .inl (numeral.digits c List.mem_cons_self)⟩
  | pointed whole fraction digits nonempty =>
      cases whole with
      | nil => exact ⟨'.', fraction, rfl, .inr rfl⟩
      | cons c rest => exact ⟨c, _, rfl, .inl (digits c List.mem_cons_self)⟩

theorem SpellsDecimal.head (spelled : SpellsDecimal s) :
    ∃ c rest, s = c :: rest ∧ (c.isDigit ∨ c = '.') := by
  obtain ⟨mantissa, power, spelled, _⟩ := spelled
  obtain ⟨c, rest, rfl, first⟩ := spelled.head
  exact ⟨c, rest ++ power, rfl, first⟩

theorem SpellsDecimal.isUnsigned (spelled : SpellsDecimal s) : IsUnsigned s := by
  obtain ⟨c, rest, rfl, first⟩ := spelled.head
  intro d same
  cases same
  constructor
  · rintro rfl
    simp at first
  · rintro rfl
    simp at first

namespace Decimal

/-- What follows the digits is read if it is a power of ten, whatever is made of it. -/
theorem isSome_power_iff (tail : List Char) {one : Decimal} {raise : Int → Decimal} :
    (match tail with
      | [] => some one
      | mark :: power =>
          if mark == 'e' || mark == 'E' then (readInt? power).map raise else none).isSome ↔
      SpellsPower tail := by
  cases tail with
  | nil => exact ⟨fun _ => .one, fun _ => rfl⟩
  | cons mark power =>
      dsimp only
      constructor
      · intro read
        split at read
        · next isMark =>
            rw [Option.isSome_map, readInt?_isSome_iff] at read
            obtain ⟨n, spelled⟩ := read
            exact .power mark n power (by simpa using isMark) spelled
        · cases read
      · intro raised
        cases raised with
        | power _ n _ isMark spelled =>
            rw [if_pos (by simpa using isMark), spelled.readInt?]
            rfl

/-- The digits after a point, if there is one, and what follows them. -/
def fractionOf (tail : List Char) : List Char × List Char :=
  match tail with
  | '.' :: more => (more.takeWhile Char.isDigit, more.dropWhile Char.isDigit)
  | _ => ([], tail)

theorem fractionOf_cases (tail : List Char) :
    (∃ fraction rest, (∀ c ∈ fraction, c.isDigit) ∧ tail = '.' :: (fraction ++ rest) ∧
      fractionOf tail = (fraction, rest)) ∨ fractionOf tail = ([], tail) := by
  unfold fractionOf
  split
  · next more =>
      refine .inl ⟨_, _, fun _ => List.mem_takeWhile_imp, ?_, rfl⟩
      rw [List.takeWhile_append_dropWhile]
  · exact .inr rfl

theorem fractionOf_of_spellsPower {power : List Char} (raised : SpellsPower power) :
    fractionOf power = ([], power) := by
  cases raised with
  | one => rfl
  | power mark n s isMark spelled =>
      rcases isMark with rfl | rfl
      · rfl
      · rfl

theorem isSome_read?_iff_parts : (Decimal.read? s).isSome ↔
    (takeSign s).2.takeWhile Char.isDigit ++
        (fractionOf ((takeSign s).2.dropWhile Char.isDigit)).1 ≠ [] ∧
      SpellsPower (fractionOf ((takeSign s).2.dropWhile Char.isDigit)).2 := by
  rw [Decimal.read?]
  generalize takeSign s = signed
  obtain ⟨negative, body⟩ := signed
  dsimp only
  generalize body.takeWhile Char.isDigit = whole
  generalize body.dropWhile Char.isDigit = tail
  change Option.isSome (if whole.isEmpty && (fractionOf tail).1.isEmpty then none else _) ↔ _
  split
  · next empty =>
      simp only [Bool.and_eq_true, List.isEmpty_iff] at empty
      simp [empty]
  · next nonempty =>
      refine (isSome_power_iff (fractionOf tail).2).trans ?_
      simp only [Bool.and_eq_true, List.isEmpty_iff] at nonempty
      exact ⟨fun raised => ⟨fun empty => nonempty (List.append_eq_nil_iff.1 empty), raised⟩, And.right⟩

theorem isSome_read?_iff :
    (Decimal.read? s).isSome ↔ SpellsDecimal (takeSign s).2 := by
  rw [isSome_read?_iff_parts]
  generalize (takeSign s).2 = body
  constructor
  · rintro ⟨nonempty, raised⟩
    have joined := List.takeWhile_append_dropWhile (p := Char.isDigit) (l := body)
    have digits : ∀ c ∈ body.takeWhile Char.isDigit, c.isDigit := fun _ => List.mem_takeWhile_imp
    generalize body.takeWhile Char.isDigit = whole at joined digits nonempty
    generalize body.dropWhile Char.isDigit = tail at joined nonempty raised
    subst joined
    rcases fractionOf_cases tail with ⟨fraction, rest, digits', rfl, same⟩ | same
    · rw [same] at nonempty raised
      have point := SpellsMantissa.pointed whole fraction
        (List.forall_mem_append.2 ⟨digits, digits'⟩) nonempty
      have spelled := SpellsDecimal.intro _ _ point raised
      rwa [List.append_assoc, List.cons_append] at spelled
    · rw [same] at nonempty raised
      rw [List.append_nil] at nonempty
      exact .intro whole tail (.whole whole ⟨nonempty, digits⟩) raised
  · rintro ⟨mantissa, power, spelled, raised⟩
    have ends := ends_of_spellsPower raised
    cases spelled with
    | whole digits numeral =>
        obtain ⟨taken, left⟩ := span_run numeral.digits ends
        rw [taken, left, fractionOf_of_spellsPower raised]
        exact ⟨by simpa using numeral.nonempty, raised⟩
    | pointed whole fraction digits nonempty =>
        obtain ⟨first, second⟩ := List.forall_mem_append.1 digits
        have point : ∀ c ∈ ('.' :: (fraction ++ power)).head?, c.isDigit = false := by
          intro c same
          cases same
          rfl
        obtain ⟨taken, left⟩ := span_run first point
        obtain ⟨taken', left'⟩ := span_run second ends
        rw [List.append_assoc, List.cons_append, taken, left, fractionOf, taken', left']
        exact ⟨nonempty, raised⟩

end Decimal

theorem isUnsigned_of_lower {word : String} (same : String.ofList (Text.lower s) = word)
    (bare : IsUnsigned word.toList) : IsUnsigned s := by
  subst same
  rw [String.toList_ofList] at bare
  cases s with
  | nil => exact nofun
  | cons c rest =>
      have first := bare c.toLower rfl
      intro d same
      cases same
      constructor
      · rintro rfl
        exact first.1 rfl
      · rintro rfl
        exact first.2 rfl

theorem isUnsigned_of_mem_unboundedWords {word : String} (listed : word ∈ unboundedWords) :
    IsUnsigned word.toList := by
  simp only [unboundedWords, List.mem_cons, List.not_mem_nil, or_false] at listed
  rcases listed with rfl | rfl | rfl <;> exact fun c first => by cases first; decide

theorem SpellsMagnitude.isUnsigned (spelled : SpellsMagnitude s) : IsUnsigned s := by
  cases spelled with
  | decimal spelled => exact spelled.isUnsigned
  | word listed => exact isUnsigned_of_lower rfl (isUnsigned_of_mem_unboundedWords listed)

namespace Binary

variable {format : Format}

theorem read?_of_decimal {d : Decimal} (read : Decimal.read? s = some d) :
    Binary.read? format s = some (d.toBinary format) := by
  rw [Binary.read?, read]

/-- What is no decimal can only be a word. -/
theorem read?_of_word (unread : Decimal.read? s = none) :
    Binary.read? format s =
      match String.ofList (Text.lower (takeSign s).2) with
      | "inf" => some (.infinite (takeSign s).1)
      | "infinity" => some (.infinite (takeSign s).1)
      | "nan" => some .nan
      | _ => none := by
  rw [Binary.read?, unread]
  rfl

theorem isSome_read?_iff (format : Format) : (Binary.read? format s).isSome ↔ SpellsNumber s := by
  rw [SpellsNumber, signed_iff_takeSign fun _ => SpellsMagnitude.isUnsigned]
  cases read : Decimal.read? s with
  | some d =>
      have spelled : SpellsDecimal (takeSign s).2 := by
        rw [← Decimal.isSome_read?_iff, read]
        rfl
      rw [read?_of_decimal read]
      exact ⟨fun _ => .decimal spelled, fun _ => rfl⟩
  | none =>
      rw [read?_of_word read]
      constructor
      · intro found
        apply SpellsMagnitude.word
        split at found
        · next same => simp [same, unboundedWords]
        · next same => simp [same, unboundedWords]
        · next same => simp [same, unboundedWords]
        · cases found
      · intro spelled
        cases spelled with
        | decimal spelled =>
            rw [← Decimal.isSome_read?_iff, read] at spelled
            cases spelled
        | word listed =>
            simp only [unboundedWords, List.mem_cons, List.not_mem_nil, or_false] at listed
            rcases listed with same | same | same <;> rw [same] <;> rfl

theorem round_ne_nan (negative : Bool) (numerator denominator : Nat) :
    round format negative numerator denominator ≠ .nan := by
  unfold round
  dsimp only
  split
  · exact nofun
  · exact nofun

theorem toBinary_ne_nan (d : Decimal) : d.toBinary format ≠ .nan := by
  unfold Decimal.toBinary
  dsimp only
  split
  · exact nofun
  · split
    · exact nofun
    · split
      · exact nofun
      · split
        · exact round_ne_nan _ _ _
        · exact round_ne_nan _ _ _

/-- The word for a NaN, in any letter case and with any sign. -/
def SpellsNaN (s : List Char) : Prop :=
  Signed (fun word => String.ofList (Text.lower word) = "nan") s

theorem read?_eq_nan_iff (format : Format) : Binary.read? format s = some .nan ↔ SpellsNaN s := by
  have bare : ∀ word : List Char, String.ofList (Text.lower word) = "nan" → IsUnsigned word :=
    fun word same => isUnsigned_of_lower same (isUnsigned_of_mem_unboundedWords (by decide))
  rw [SpellsNaN, signed_iff_takeSign bare]
  cases read : Decimal.read? s with
  | some d =>
      rw [read?_of_decimal read]
      constructor
      · intro same
        exact absurd (Option.some.inj same) (toBinary_ne_nan d)
      · intro named
        have spelled : SpellsDecimal (takeSign s).2 := by
          rw [← Decimal.isSome_read?_iff, read]
          rfl
        obtain ⟨c, rest, same, first⟩ := spelled.head
        rw [same] at named
        have lowered := congrArg String.toList named
        rw [String.toList_ofList] at lowered
        have front : c.toLower = 'n' := congrArg (List.headD · 'n') lowered
        rcases first with digit | rfl
        · rw [IsFormulaChar.toLower (.inl digit)] at front
          subst front
          cases digit
        · cases front
  | none =>
      rw [read?_of_word read]
      constructor
      · intro found
        split at found
        · cases found
        · cases found
        · next same => exact same
        · cases found
      · intro named
        rw [named]
        rfl

end Binary

end ComputedStyle.Number
