import Mathlib
import ComputedStyle.Proofs.Syntax.Lexeme

namespace ComputedStyle.Syntax

open Number

/-- Marks that are no part of a name, a number or a marker, and start none. -/
def stops : List Char :=
  [';', ':', '/', '\x7b', '\x7d']

def closers : List Char :=
  [' ', '\t', '\n', '\r', '\x0c'] ++ stops

/-- A text that starts, if at all, with a blank or one of the marks. -/
def Closes (w : List Char) : Prop :=
  ∀ d ∈ w.head?, d ∈ closers

/-- What may stand in place of a blank or a mark: a text that starts with the same blank, or any that
starts with a mark. -/
inductive Follows (e : Char) : List Char → Prop where
  | space (rest : List Char) (space : isSpace e) : Follows e (e :: rest)
  | stop (w : List Char) (stop : e ∈ stops) (head : ∀ d ∈ w.head?, d ∈ stops) : Follows e w

variable {c d e : Char} {s t w : List Char} {p : Char → Bool}

theorem mem_closers_of_isSpace (space : isSpace c) : c ∈ closers := by
  simp only [isSpace, isNewline, Bool.or_eq_true, beq_iff_eq] at space
  rcases space with (rfl | rfl) | (rfl | rfl) | rfl <;> decide

theorem mem_closers_of_mem_stops (stop : c ∈ stops) : c ∈ closers :=
  List.mem_append_right _ stop

theorem not_mem_of_all {l : List Char} (other : l.all fun d => !p d) (own : p c) : c ∉ l :=
  fun member => by simpa [own] using List.all_eq_true.1 other c member

theorem Closes.apart (closes : Closes w) (other : closers.all fun d => !p d) :
    ∀ d ∈ w.head?, p d = false := by
  intro d first
  simpa using List.all_eq_true.1 other d (closes d first)

theorem Closes.not_head (closes : Closes w) (other : d ∉ closers) : d ∉ w.head? :=
  fun first => other (closes d first)

theorem Closes.cons (closer : c ∈ closers) (rest : List Char) : Closes (c :: rest) := by
  rintro _ ⟨⟩
  exact closer

theorem Closes.pad (closes : Closes w) (space : ∀ c ∈ s, isSpace c) : Closes (s ++ w) := by
  cases s with
  | nil => exact closes
  | cons c rest => exact .cons (mem_closers_of_isSpace (space c List.mem_cons_self)) (rest ++ w)

/-- A sign, a digit, a point or the mark of an exponent. -/
def isNumeralChar (c : Char) : Bool :=
  c.isDigit || c == '+' || c == '-' || c == '.' || c == 'e' || c == 'E'

/-- A text that continues no number. -/
def Unnumbered (w : List Char) : Prop :=
  ∀ d ∈ w.head?, isNumeralChar d = false

namespace Unnumbered

variable (plain : Unnumbered w)

include plain

theorem not_head (numeral : isNumeralChar d) : d ∉ w.head? := by
  intro first
  rw [plain d first] at numeral
  cases numeral

theorem isDigit : ∀ d ∈ w.head?, d.isDigit = false := by
  intro d first
  have other := plain d first
  simp only [isNumeralChar, Bool.or_eq_false_iff] at other
  exact other.1.1.1.1.1

theorem isMark : ∀ d ∈ w.head?, (d == 'e' || d == 'E') = false := by
  intro d first
  have other := plain d first
  simp only [isNumeralChar, Bool.or_eq_false_iff] at other ⊢
  exact ⟨other.1.2, other.2⟩

end Unnumbered

theorem Closes.unnumbered (closes : Closes w) : Unnumbered w :=
  closes.apart (by decide)

namespace Follows

variable (follows : Follows e w)

include follows

theorem mem_closers : e ∈ closers := by
  cases follows with
  | space rest space => exact mem_closers_of_isSpace space
  | stop w stop head => exact mem_closers_of_mem_stops stop

theorem closes : Closes w := by
  cases follows with
  | space rest space => exact .cons (mem_closers_of_isSpace space) rest
  | stop w stop head => exact fun d first => mem_closers_of_mem_stops (head d first)

theorem closes_singleton : Closes [e] :=
  .cons follows.mem_closers []

theorem startsNewline_eq : startsNewline w = startsNewline [e] := by
  cases follows with
  | space rest space => rfl
  | stop w stop head =>
      have other : ∀ d ∈ stops, isNewline d = false := by
        simp [stops, isNewline]
      cases w with
      | nil => exact (other e stop).symm
      | cons d rest => exact (other d (head d rfl)).trans (other e stop).symm

theorem isSpace_head (mark : isSpace e = false) : ∀ d ∈ w.head?, isSpace d = false := by
  cases follows with
  | space rest space =>
      rw [mark] at space
      cases space
  | stop w stop head =>
      have other : ∀ d ∈ stops, isSpace d = false := by
        simp [stops, isSpace, isNewline]
      exact fun d first => other d (head d first)

end Follows

/-! Readers that look no further than the next blank or mark. -/

section Closed

theorem takeWhile_append_of_head (other : ∀ d ∈ w.head?, p d = false) (s : List Char) :
    (s ++ w).takeWhile p = s.takeWhile p := by
  induction s with
  | nil =>
      cases w with
      | nil => rfl
      | cons d rest => simp [other d rfl]
  | cons c rest ih => simp [List.takeWhile_cons, ih]

theorem exists_run (p : Char → Bool) (s : List Char) :
    ∃ u v, s = u ++ v ∧ (∀ c ∈ u, p c) ∧ ∀ d ∈ v.head?, p d = false := by
  refine ⟨s.takeWhile p, s.dropWhile p, List.takeWhile_append_dropWhile.symm,
    fun _ => List.mem_takeWhile_imp, fun d first => ?_⟩
  have stop := List.head?_dropWhile_not p s
  rw [Option.mem_def.1 first] at stop
  simpa using stop

theorem head?_append_eq_some (other : d ∉ w.head?) (s : List Char) :
    (s ++ w).head? = some d ↔ s.head? = some d := by
  cases s with
  | nil =>
      refine ⟨fun first => absurd first other, fun first => ?_⟩
      cases first
  | cons c rest => rfl

theorem isPrefix_append_iff {l : List Char} (free : ∀ d ∈ w.head?, d ∉ l) (s : List Char) :
    l <+: s ++ w ↔ l <+: s := by
  induction l generalizing s with
  | nil => simp
  | cons c rest ih =>
      have later : ∀ d ∈ w.head?, d ∉ rest := fun d first member =>
        free d first (List.mem_cons_of_mem c member)
      cases s with
      | nil =>
          cases w with
          | nil => rfl
          | cons d others =>
              have apart : c ≠ d := fun same => free d rfl (same ▸ List.mem_cons_self)
              simp [apart]
      | cons d others =>
          rw [List.cons_append, List.cons_prefix_cons, List.cons_prefix_cons, ih later]

theorem commentMarkLength_eq (s : List Char) : commentMarkLength s =
    if ['<', '!', '-', '-'] <+: s then 4 else if ['-', '-', '>'] <+: s then 3 else 0 := by
  unfold commentMarkLength
  split
  · simp
  · simp
  · next html cdc =>
      rw [if_neg, if_neg]
      · rintro ⟨rest, rfl⟩
        exact cdc rest rfl
      · rintro ⟨rest, rfl⟩
        exact html rest rfl

theorem commentMarkLength_append (closes : Closes w) (s : List Char) :
    commentMarkLength (s ++ w) = commentMarkLength s := by
  have free {l : List Char} (other : ∀ c ∈ l, c ∉ closers) : ∀ d ∈ w.head?, d ∉ l :=
    fun d first member => other d member (closes d first)
  simp only [commentMarkLength_eq,
    isPrefix_append_iff (l := ['<', '!', '-', '-']) (free (by simp [closers, stops])),
    isPrefix_append_iff (l := ['-', '-', '>']) (free (by simp [closers, stops]))]

end Closed

/-! Numbers end before any character that none of their parts may hold. -/

section Numbers

variable (plain : Unnumbered w)

include plain

theorem startsDigit_append (s : List Char) : startsDigit (s ++ w) = startsDigit s := by
  cases s with
  | nil =>
      cases w with
      | nil => rfl
      | cons d rest => exact plain.isDigit d rfl
  | cons c rest => rfl

theorem startsUnsigned_append (s : List Char) : startsUnsigned (s ++ w) = startsUnsigned s := by
  cases s with
  | nil =>
      have digit := startsDigit_append plain []
      unfold startsUnsigned
      split
      · next rest same =>
          rw [List.nil_append] at same
          exact absurd (congrArg List.head? same) (plain.not_head (d := '.') rfl)
      · exact digit
  | cons c rest =>
      have digit := startsDigit_append plain rest
      have whole := startsDigit_append plain (c :: rest)
      unfold startsUnsigned
      split
      · next after same =>
          cases same
          exact digit
      · next other =>
          split
          · next after same =>
              cases same
              exact absurd rfl (other _)
          · exact whole

theorem startsNumber_append (s : List Char) : startsNumber (s ++ w) = startsNumber s := by
  have unsigned := startsUnsigned_append plain s
  cases s with
  | nil =>
      unfold startsNumber
      split
      · next rest same =>
          rw [List.nil_append] at same
          exact absurd (congrArg List.head? same) (plain.not_head (d := '+') rfl)
      · next rest same =>
          rw [List.nil_append] at same
          exact absurd (congrArg List.head? same) (plain.not_head (d := '-') rfl)
      · exact unsigned
  | cons c rest =>
      have later := startsUnsigned_append plain rest
      by_cases plus : c = '+'
      · subst plus
        exact later
      by_cases minus : c = '-'
      · subst minus
        exact later
      · have plain (t : List Char) : startsNumber (c :: t) = startsUnsigned (c :: t) := by
          rw [startsNumber]
          · exact fun _ same => plus (List.cons.inj same).1
          · exact fun _ same => minus (List.cons.inj same).1
        rw [List.cons_append, plain, plain]
        exact unsigned

theorem takeSign_append (s : List Char) :
    takeSign (s ++ w) = ((takeSign s).1, (takeSign s).2 ++ w) := by
  cases s with
  | nil =>
      unfold takeSign
      split
      · next rest same =>
          rw [List.nil_append] at same
          exact absurd (congrArg List.head? same) (plain.not_head (d := '-') rfl)
      · next rest same =>
          rw [List.nil_append] at same
          exact absurd (congrArg List.head? same) (plain.not_head (d := '+') rfl)
      · rfl
  | cons c rest =>
      unfold takeSign
      split <;> split <;> simp_all

/-- The sign of an exponent has this length. -/
def signLength : List Char → Nat
  | '+' :: _ => 1
  | '-' :: _ => 1
  | _ => 0

omit plain in
theorem signLength_le (s : List Char) : signLength s ≤ s.length := by
  unfold signLength
  split <;> simp

theorem signLength_append (s : List Char) : signLength (s ++ w) = signLength s := by
  cases s with
  | nil =>
      unfold signLength
      split
      · next rest same =>
          rw [List.nil_append] at same
          exact absurd (congrArg List.head? same) (plain.not_head (d := '+') rfl)
      · next rest same =>
          rw [List.nil_append] at same
          exact absurd (congrArg List.head? same) (plain.not_head (d := '-') rfl)
      · rfl
  | cons c rest =>
      unfold signLength
      split <;> split <;> simp_all

omit plain in
theorem readExponent_cons (mark : Char) (rest : List Char) :
    Numeral.readExponent (mark :: rest) =
      if mark == 'e' || mark == 'E' then
        let digits := (rest.drop (signLength rest)).takeWhile Char.isDigit
        if digits.isEmpty then (0, 0)
        else
          let value : Int := ofDigits digits
          (if rest.head? == some '-' then -value else value,
            1 + signLength rest + digits.length)
      else (0, 0) :=
  rfl

theorem readExponent_append (s : List Char) :
    Numeral.readExponent (s ++ w) = Numeral.readExponent s := by
  have digit : ∀ d ∈ w.head?, d.isDigit = false := plain.isDigit
  cases s with
  | nil =>
      cases w with
      | nil => rfl
      | cons d rest =>
          have mark : (d == 'e' || d == 'E') = false :=
            plain.isMark d rfl
          rw [List.nil_append, readExponent_cons, mark]
          rfl
  | cons c rest =>
      have minus : ((rest ++ w).head? == some '-') = (rest.head? == some '-') := by
        rw [Bool.eq_iff_iff, beq_iff_eq, beq_iff_eq]
        exact head?_append_eq_some (plain.not_head rfl) rest
      rw [List.cons_append, readExponent_cons, readExponent_cons, signLength_append plain, minus,
        List.drop_append_of_le_length (signLength_le rest), takeWhile_append_of_head digit]

/-- The digits after a point. -/
def fractionOf : List Char → List Char
  | '.' :: rest => rest.takeWhile Char.isDigit
  | _ => []

omit plain in
theorem length_fractionOf_le (s : List Char) (nonempty : (fractionOf s).isEmpty = false) :
    (fractionOf s).length + 1 ≤ s.length := by
  revert nonempty
  unfold fractionOf
  split
  · next rest =>
      intro _
      exact Nat.succ_le_succ (List.takeWhile_prefix Char.isDigit).length_le
  · rintro ⟨⟩

theorem fractionOf_append (s : List Char) : fractionOf (s ++ w) = fractionOf s := by
  have digit : ∀ d ∈ w.head?, d.isDigit = false := plain.isDigit
  cases s with
  | nil =>
      unfold fractionOf
      split
      · next rest same =>
          rw [List.nil_append] at same
          exact absurd (congrArg List.head? same) (plain.not_head (d := '.') rfl)
      · rfl
  | cons c rest =>
      by_cases point : c = '.'
      · subst point
        exact takeWhile_append_of_head digit rest
      · have plain (t : List Char) : fractionOf (c :: t) = [] := by
          rw [fractionOf]
          exact fun _ same => point (List.cons.inj same).1
        rw [List.cons_append, plain, plain]

/-- The length of a number up to its exponent. -/
def mantissaLength (s : List Char) : Nat :=
  let body := (takeSign s).2
  let whole := body.takeWhile Char.isDigit
  let fraction := fractionOf (body.drop whole.length)
  s.length - body.length + whole.length + (if fraction.isEmpty then 0 else fraction.length + 1)

omit plain in
theorem length_takeSign_le (s : List Char) : (takeSign s).2.length ≤ s.length := by
  unfold takeSign
  split <;> simp

omit plain in
theorem mantissaLength_le (s : List Char) : mantissaLength s ≤ s.length := by
  have sign := length_takeSign_le s
  unfold mantissaLength
  dsimp only
  generalize (takeSign s).2 = body at sign
  have whole := (List.takeWhile_prefix Char.isDigit (l := body)).length_le
  split
  · omega
  · next nonempty =>
      have fraction := length_fractionOf_le _ (Bool.not_eq_true _ ▸ nonempty)
      rw [List.length_drop] at fraction
      omega

theorem mantissaLength_append (s : List Char) : mantissaLength (s ++ w) = mantissaLength s := by
  have digit : ∀ d ∈ w.head?, d.isDigit = false := plain.isDigit
  unfold mantissaLength
  dsimp only
  rw [takeSign_append plain]
  dsimp only
  have whole := (List.takeWhile_prefix Char.isDigit (l := (takeSign s).2)).length_le
  rw [takeWhile_append_of_head digit, List.drop_append_of_le_length whole, fractionOf_append plain,
    List.length_append, List.length_append, Nat.add_sub_add_right]

omit plain in
theorem numeral_read (s : List Char) : Numeral.read s =
    let body := (takeSign s).2
    let whole := body.takeWhile Char.isDigit
    let exponent := Numeral.readExponent (s.drop (mantissaLength s))
    (⟨(takeSign s).1, whole, fractionOf (body.drop whole.length), exponent.1⟩,
      mantissaLength s + exponent.2) :=
  rfl

theorem numeral_append (s : List Char) : Numeral.read (s ++ w) = Numeral.read s := by
  have digit : ∀ d ∈ w.head?, d.isDigit = false := plain.isDigit
  have whole := (List.takeWhile_prefix Char.isDigit (l := (takeSign s).2)).length_le
  rw [numeral_read, numeral_read]
  dsimp only
  rw [mantissaLength_append plain, List.drop_append_of_le_length (mantissaLength_le s),
    readExponent_append plain, takeSign_append plain]
  dsimp only
  rw [takeWhile_append_of_head digit, List.drop_append_of_le_length whole, fractionOf_append plain]

omit plain in
theorem length_readExponent_le (s : List Char) : (Numeral.readExponent s).2 ≤ s.length := by
  cases s with
  | nil => exact Nat.le_refl 0
  | cons c rest =>
      have sign := signLength_le rest
      have digits := (List.takeWhile_prefix Char.isDigit (l := rest.drop (signLength rest))).length_le
      rw [List.length_drop] at digits
      rw [readExponent_cons]
      dsimp only
      split
      · split
        · exact Nat.zero_le _
        · rw [List.length_cons]
          omega
      · exact Nat.zero_le _

omit plain in
theorem length_numeral_le (s : List Char) : (Numeral.read s).2 ≤ s.length := by
  have mantissa := mantissaLength_le s
  have exponent := length_readExponent_le (s.drop (mantissaLength s))
  rw [List.length_drop] at exponent
  rw [numeral_read]
  dsimp only
  omega

end Numbers

/-! Readers that may take the next blank or mark. -/

section Escapes

theorem newlineLength_cons (c : Char) (rest : List Char) : newlineLength (c :: rest) =
    if c = '\r' ∧ rest.head? = some '\n' then 2 else if isNewline c then 1 else 0 := by
  by_cases both : c = '\r' ∧ rest.head? = some '\n'
  · obtain ⟨rfl, first⟩ := both
    obtain ⟨others, rfl⟩ := List.head?_eq_some_iff.1 first
    rfl
  · rw [if_neg both, newlineLength]
    rintro others rfl rfl
    exact both ⟨rfl, rfl⟩

/-- The blank that ends a number in an escape has this length. -/
def escapeBlank (s : List Char) : Nat :=
  match s with
  | d :: _ => if d == ' ' || d == '\t' then 1 else newlineLength s
  | [] => 0

theorem escapeBlank_cons (d : Char) (rest : List Char) : escapeBlank (d :: rest) =
    if d == ' ' || d == '\t' then 1 else newlineLength (d :: rest) :=
  rfl

theorem readEscape_cons (c : Char) (rest : List Char) : readEscape (c :: rest) =
    if isHexDigit c then
      let digits := ((c :: rest).take 6).takeWhile isHexDigit
      (charOfCode (ofHexDigits digits),
        digits.length + escapeBlank ((c :: rest).drop digits.length))
    else if c == '\x00' then (replacement, 1)
    else (c, 1) :=
  rfl

theorem takeWhile_take (n : Nat) (s : List Char) :
    (s.take n).takeWhile p = (s.takeWhile p).take n := by
  induction s generalizing n with
  | nil => simp
  | cons c rest ih =>
      cases n with
      | zero => simp
      | succ n =>
          rw [List.take_succ_cons, List.takeWhile_cons, List.takeWhile_cons, ih]
          split <;> simp

variable (follows : Follows e w)

include follows

theorem newlineLength_append (within : newlineLength ((c :: s) ++ [e]) ≤ s.length + 1) :
    newlineLength ((c :: s) ++ w) = newlineLength ((c :: s) ++ [e]) := by
  have first : c = '\r' → ((s ++ w).head? = some '\n' ↔ (s ++ [e]).head? = some '\n') := by
    rintro rfl
    cases s with
    | cons d others => rfl
    | nil =>
        rw [List.cons_append, newlineLength_cons] at within
        have other : ([] ++ [e]).head? ≠ some '\n' := by
          intro same
          rw [if_pos ⟨rfl, same⟩] at within
          cases Nat.le_of_succ_le_succ within
        refine iff_of_false (fun same => ?_) other
        have newline := follows.startsNewline_eq
        obtain ⟨rest, rfl⟩ := List.head?_eq_some_iff.1 same
        cases follows with
        | space _ _ => exact other rfl
        | stop _ _ head =>
            have listed := head '\n' rfl
            revert listed
            decide
  rw [List.cons_append, List.cons_append, newlineLength_cons, newlineLength_cons]
  by_cases carriage : c = '\r'
  · simp only [carriage, first carriage]
  · simp only [carriage, false_and]

theorem escapeBlank_append (within : escapeBlank (s ++ [e]) ≤ s.length) :
    escapeBlank (s ++ w) = escapeBlank (s ++ [e]) := by
  cases s with
  | cons c rest =>
      rw [List.cons_append, escapeBlank_cons] at within
      rw [List.cons_append, List.cons_append, escapeBlank_cons, escapeBlank_cons]
      split
      · rfl
      · next plain =>
          rw [if_neg plain] at within
          exact newlineLength_append follows within
  | nil =>
      have stops {d : Char} (mark : isSpace d = false) (rest : List Char) :
          escapeBlank (d :: rest) = 0 := by
        simp only [isSpace, Bool.or_eq_false_iff] at mark
        rw [escapeBlank_cons, mark.1.1, mark.1.2, newlineLength_cons, mark.2]
        simp only [Bool.or_self, Bool.false_eq_true, if_false]
        refine if_neg fun both => ?_
        rw [both.1] at mark
        cases mark.2
      have mark : isSpace e = false := by
        rw [Bool.eq_false_iff]
        intro space
        have taken : 0 < escapeBlank [e] := by
          simp only [isSpace, Bool.or_eq_true] at space
          rw [escapeBlank_cons]
          split
          · exact Nat.one_pos
          · next plain =>
              have newline := space.resolve_left (by simpa using plain)
              rw [newlineLength_cons, newline]
              split <;> decide
        exact absurd within (Nat.not_le_of_lt taken)
      rw [List.nil_append, List.nil_append, stops mark]
      cases w with
      | nil => rfl
      | cons d rest => exact stops (follows.isSpace_head mark d rfl) rest

theorem readEscape_append (within : (readEscape (s ++ [e])).2 ≤ s.length) :
    readEscape (s ++ w) = readEscape (s ++ [e]) := by
  cases s with
  | nil =>
      have other : isHexDigit e = false := follows.closes_singleton.apart (by decide) e rfl
      rw [List.nil_append, readEscape_cons, other, if_neg Bool.false_ne_true] at within
      split at within <;> cases within
  | cons c rest =>
      have digit {v : List Char} (closes : Closes v) : ((c :: rest ++ v).take 6).takeWhile isHexDigit =
          ((c :: rest).take 6).takeWhile isHexDigit := by
        rw [takeWhile_take, takeWhile_append_of_head (closes.apart (by decide)), takeWhile_take]
      have short : (((c :: rest).take 6).takeWhile isHexDigit).length ≤ (c :: rest).length := by
        have first := (List.takeWhile_prefix isHexDigit (l := (c :: rest).take 6)).length_le
        exact first.trans (List.length_take_le' _ _)
      have own := digit follows.closes_singleton
      have other := digit follows.closes
      rw [List.cons_append] at own other within ⊢
      rw [List.cons_append, readEscape_cons, readEscape_cons]
      rw [readEscape_cons] at within
      split
      · next hex =>
          rw [if_pos hex] at within
          dsimp only at within ⊢
          rw [own, ← List.cons_append, List.drop_append_of_le_length short] at within
          rw [own, other, ← List.cons_append, ← List.cons_append, List.drop_append_of_le_length short,
            List.drop_append_of_le_length short, escapeBlank_append follows]
          rw [List.length_drop]
          omega
      · rfl

end Escapes

section Names

theorem startsName_cons (c : Char) (rest : List Char) : startsName (c :: rest) =
    if c = '-' then rest.head?.any fun d => isNameStart d || d == '-' || d == '\\'
    else if c = '\\' then !startsNewline rest
    else isNameStart c := by
  split
  · next hyphen =>
      subst hyphen
      cases rest <;> rfl
  · next plain =>
      split
      · next escape =>
          subst escape
          rfl
      · next bare =>
          rw [startsName]
          · exact fun same _ => plain same
          · exact fun _ _ same _ => plain same
          · exact bare

theorem readName_cons (c : Char) (rest : List Char) : readName (c :: rest) =
    if isNameChar c then (c :: (readName rest).1, (readName rest).2 + 1)
    else if c == '\x00' then (replacement :: (readName rest).1, (readName rest).2 + 1)
    else if c == '\\' && !startsNewline rest then
      let after := readName (rest.drop (readEscape rest).2)
      ((readEscape rest).1 :: after.1, after.2 + (readEscape rest).2 + 1)
    else ([], 0) := by
  rw [readName]

theorem startsName_of_closes (closes : Closes w) : startsName w = false := by
  cases w with
  | nil => rfl
  | cons d rest =>
      have hyphen : d ≠ '-' := fun same => closes.not_head (by decide) (congrArg some same)
      have escape : d ≠ '\\' := fun same => closes.not_head (by decide) (congrArg some same)
      rw [startsName_cons, if_neg hyphen, if_neg escape]
      exact closes.apart (p := isNameStart) (by decide) d rfl

theorem readName_of_closes (closes : Closes w) : readName w = ([], 0) := by
  cases w with
  | nil => rw [readName]
  | cons d rest =>
      have name : isNameChar d = false := closes.apart (p := isNameChar) (by decide) d rfl
      have other : (d == '\x00') = false :=
        closes.apart (p := fun d => d == '\x00') (by decide) d rfl
      have escape : (d == '\\') = false :=
        closes.apart (p := fun d => d == '\\') (by decide) d rfl
      rw [readName_cons, name, other, escape]
      rfl

variable (follows : Follows e w)

include follows

theorem startsNewline_append (s : List Char) : startsNewline (s ++ w) = startsNewline (s ++ [e]) := by
  cases s with
  | nil => exact follows.startsNewline_eq
  | cons c rest => rfl

theorem startsName_append (s : List Char) : startsName (s ++ w) = startsName (s ++ [e]) := by
  cases s with
  | nil =>
      exact (startsName_of_closes follows.closes).trans
        (startsName_of_closes follows.closes_singleton).symm
  | cons c rest =>
      rw [List.cons_append, List.cons_append, startsName_cons, startsName_cons,
        startsNewline_append follows]
      cases rest with
      | cons d others => rfl
      | nil =>
          have stops {v : List Char} (closes : Closes v) : (([] ++ v).head?.any fun d =>
              isNameStart d || d == '-' || d == '\\') = false := by
            rw [Option.any_eq_false]
            intro d first
            have other := closes.apart (p := fun d => isNameStart d || d == '-' || d == '\\')
              (by decide) d first
            rw [other]
          rw [stops follows.closes, stops follows.closes_singleton]

theorem readName_append (s : List Char) (within : (readName (s ++ [e])).2 ≤ s.length) :
    readName (s ++ w) = readName (s ++ [e]) := by
  match s with
  | [] =>
      exact (readName_of_closes follows.closes).trans
        (readName_of_closes follows.closes_singleton).symm
  | c :: rest =>
      rw [List.cons_append, readName_cons, List.length_cons] at within
      rw [List.cons_append, List.cons_append, readName_cons, readName_cons]
      split
      · next name =>
          rw [if_pos name] at within
          rw [readName_append rest (Nat.le_of_succ_le_succ within)]
      next name =>
      rw [if_neg name] at within
      split
      · next null =>
          rw [if_pos null] at within
          rw [readName_append rest (Nat.le_of_succ_le_succ within)]
      next null =>
      rw [if_neg null] at within
      rw [startsNewline_append follows]
      split
      · next escape =>
          rw [if_pos escape] at within
          dsimp only at within ⊢
          have short : (readEscape (rest ++ [e])).2 ≤ rest.length := by omega
          rw [List.drop_append_of_le_length short] at within
          rw [readEscape_append follows short, List.drop_append_of_le_length short,
            List.drop_append_of_le_length short,
            readName_append (rest.drop (readEscape (rest ++ [e])).2) (by
              rw [List.length_drop]
              omega)]
      · rfl
termination_by s.length
decreasing_by
  all_goals simp only [List.length_cons, List.length_drop]
  all_goals omega

end Names

section Strings

theorem readQuoted_cons (quote c : Char) (rest : List Char) : readQuoted quote (c :: rest) =
    if c == quote then ([], 1, true)
    else if isNewline c then ([], 0, false)
    else if c == '\\' then
      if rest.isEmpty then ([], 1, true)
      else if startsNewline rest then
        let after := readQuoted quote (rest.drop (newlineLength rest))
        (after.1, after.2.1 + newlineLength rest + 1, after.2.2)
      else
        let after := readQuoted quote (rest.drop (readEscape rest).2)
        ((readEscape rest).1 :: after.1, after.2.1 + (readEscape rest).2 + 1, after.2.2)
    else
      ((if c == '\x00' then replacement else c) :: (readQuoted quote rest).1,
        (readQuoted quote rest).2.1 + 1, (readQuoted quote rest).2.2) := by
  rw [readQuoted]

theorem newlineLength_pos (newline : startsNewline s) : 0 < newlineLength s := by
  cases s with
  | nil => cases newline
  | cons c rest =>
      have own : isNewline c = true := newline
      rw [newlineLength_cons, own]
      split <;> decide

theorem readEscape_pos (c : Char) (rest : List Char) : 0 < (readEscape (c :: rest)).2 := by
  rw [readEscape_cons]
  split
  · next hex =>
      have digits : ((c :: rest).take 6).takeWhile isHexDigit =
          c :: (rest.take 5).takeWhile isHexDigit := by
        rw [List.take_succ_cons, List.takeWhile_cons_of_pos hex]
      dsimp only
      rw [digits, List.length_cons]
      omega
  · split <;> exact Nat.one_pos

variable (follows : Follows e w) {quote : Char}

include follows

theorem readQuoted_of_follows (other : quote ∉ closers) (within : (readQuoted quote [e]).2.1 = 0) :
    readQuoted quote w = readQuoted quote [e] := by
  have apart : (e == quote) = false := by
    rw [beq_eq_false_iff_ne]
    rintro rfl
    exact other follows.mem_closers
  have escape : (e == '\\') = false :=
    follows.closes_singleton.apart (p := fun d => d == '\\') (by decide) e rfl
  have line : isNewline e = true := by
    by_contra plain
    rw [readQuoted_cons, apart, escape, if_neg Bool.false_ne_true, if_neg plain,
      if_neg Bool.false_ne_true] at within
    cases within
  cases follows with
  | space rest space =>
      rw [readQuoted_cons, readQuoted_cons, apart, line]
      rfl
  | stop w stop head =>
      have all : ∀ d ∈ stops, isNewline d = false := by
        simp [stops, isNewline]
      rw [all e stop] at line
      cases line

theorem readQuoted_append (other : quote ∉ closers) (s : List Char)
    (within : (readQuoted quote (s ++ [e])).2.1 ≤ s.length) :
    readQuoted quote (s ++ w) = readQuoted quote (s ++ [e]) := by
  match s with
  | [] => exact readQuoted_of_follows follows other (Nat.le_zero.1 within)
  | c :: rest =>
      rw [List.cons_append, readQuoted_cons, List.length_cons] at within
      rw [List.cons_append, List.cons_append, readQuoted_cons, readQuoted_cons]
      split
      · rfl
      next open_ =>
      rw [if_neg open_] at within
      split
      · rfl
      next line =>
      rw [if_neg line] at within
      split
      · next escape =>
          rw [if_pos escape, if_neg (by simp)] at within
          have nonempty : rest ≠ [] := by
            rintro rfl
            split at within
            · next line =>
                have taken := newlineLength_pos line
                dsimp only [List.nil_append, List.length_nil] at within taken
                omega
            · have taken := readEscape_pos e []
              dsimp only [List.nil_append, List.length_nil] at within
              omega
          have notEmpty (v : List Char) : ¬(rest ++ v).isEmpty = true := by
            simp [nonempty]
          rw [if_neg (notEmpty w), if_neg (notEmpty [e]), startsNewline_append follows]
          split
          · next line =>
              rw [if_pos line] at within
              dsimp only at within ⊢
              have short : newlineLength (rest ++ [e]) ≤ rest.length := by omega
              have same : newlineLength (rest ++ w) = newlineLength (rest ++ [e]) := by
                obtain ⟨d, others, rfl⟩ := List.exists_cons_of_ne_nil nonempty
                exact newlineLength_append follows short
              rw [List.drop_append_of_le_length short] at within
              rw [same, List.drop_append_of_le_length short, List.drop_append_of_le_length short,
                readQuoted_append other (rest.drop (newlineLength (rest ++ [e]))) (by
                  rw [List.length_drop]
                  omega)]
          · next line =>
              rw [if_neg line] at within
              dsimp only at within ⊢
              have short : (readEscape (rest ++ [e])).2 ≤ rest.length := by omega
              rw [List.drop_append_of_le_length short] at within
              rw [readEscape_append follows short, List.drop_append_of_le_length short,
                List.drop_append_of_le_length short,
                readQuoted_append other (rest.drop (readEscape (rest ++ [e])).2) (by
                  rw [List.length_drop]
                  omega)]
      next escape =>
      rw [if_neg escape] at within
      rw [readQuoted_append other rest (Nat.le_of_succ_le_succ within)]
termination_by s.length
decreasing_by
  all_goals simp only [List.length_cons, List.length_drop]
  all_goals omega

end Strings

section Addresses

theorem readUrlEnd_cons (c : Char) (rest : List Char) : readUrlEnd (c :: rest) =
    if c == ')' then (.url, 1)
    else if isSpace c then ((readUrlEnd rest).1, (readUrlEnd rest).2 + 1)
    else (.badUrl, badUrlLength rest + 1) :=
  rfl

theorem readUrlBody_cons (c : Char) (rest : List Char) : readUrlBody (c :: rest) =
    if isSpace c then ((readUrlEnd rest).1, (readUrlEnd rest).2 + 1)
    else if c == ')' then (.url, 1)
    else if isBadInUrl c then (.badUrl, badUrlLength rest + 1)
    else if c == '\\' then
      if startsNewline rest then (.badUrl, badUrlLength rest + 1)
      else
        let after := readUrlBody (rest.drop (readEscape rest).2)
        (after.1, after.2 + (readEscape rest).2 + 1)
    else ((readUrlBody rest).1, (readUrlBody rest).2 + 1) := by
  rw [readUrlBody]

theorem badUrlLength_cons (c : Char) (rest : List Char) : badUrlLength (c :: rest) =
    if c = ')' then 1
    else if c = '\\' ∧ (rest.head? = some ')' ∨ rest.head? = some '\\') then
      badUrlLength rest.tail + 2
    else badUrlLength rest + 1 := by
  split
  · next closed =>
      subst closed
      rfl
  · next open_ =>
      split
      · next escape =>
          obtain ⟨rfl, first⟩ := escape
          rcases first with first | first
          · obtain ⟨others, rfl⟩ := List.head?_eq_some_iff.1 first
            rfl
          · obtain ⟨others, rfl⟩ := List.head?_eq_some_iff.1 first
            rfl
      · next plain =>
          rw [badUrlLength]
          · exact open_
          · rintro others rfl rfl
            exact plain ⟨rfl, .inl rfl⟩
          · rintro others rfl rfl
            exact plain ⟨rfl, .inr rfl⟩

theorem badUrlLength_pos (c : Char) (rest : List Char) : 0 < badUrlLength (c :: rest) := by
  rw [badUrlLength_cons]
  split
  · exact Nat.one_pos
  · split <;> exact Nat.succ_pos _

theorem readUrlEnd_pos (c : Char) (rest : List Char) : 0 < (readUrlEnd (c :: rest)).2 := by
  rw [readUrlEnd_cons]
  split
  · exact Nat.one_pos
  · split <;> exact Nat.succ_pos _

theorem readUrlBody_pos (c : Char) (rest : List Char) : 0 < (readUrlBody (c :: rest)).2 := by
  rw [readUrlBody_cons]
  split
  · exact Nat.succ_pos _
  split
  · exact Nat.one_pos
  split
  · exact Nat.succ_pos _
  split
  · split <;> exact Nat.succ_pos _
  · exact Nat.succ_pos _

theorem takeWhile_append_of_within (other : p e = false → ∀ d ∈ w.head?, p d = false)
    (within : ((s ++ [e]).takeWhile p).length ≤ s.length) :
    (s ++ w).takeWhile p = (s ++ [e]).takeWhile p := by
  rw [List.takeWhile_append] at within
  rw [List.takeWhile_append, List.takeWhile_append]
  split
  · next whole =>
      rw [if_pos whole] at within
      have stop : p e = false := by
        by_contra go
        rw [List.takeWhile_cons_of_pos (by simpa using go), List.length_append] at within
        simp at within
      have empty : w.takeWhile p = [] := by
        cases w with
        | nil => rfl
        | cons d rest => exact List.takeWhile_cons_of_neg (by rw [other stop d rfl]; decide)
      rw [empty, List.takeWhile_cons_of_neg (by rw [stop]; decide)]
  · rfl

variable (follows : Follows e w)

include follows

theorem badUrlLength_append (s : List Char) (within : badUrlLength (s ++ [e]) ≤ s.length) :
    badUrlLength (s ++ w) = badUrlLength (s ++ [e]) := by
  match s with
  | [] => exact absurd within (Nat.not_le_of_lt (badUrlLength_pos e []))
  | c :: rest =>
      have same {v : List Char} (closes : Closes v) : ((rest ++ v).head? = some ')' ∨
          (rest ++ v).head? = some '\\') ↔ (rest.head? = some ')' ∨ rest.head? = some '\\') := by
        rw [head?_append_eq_some (closes.not_head (by decide)),
          head?_append_eq_some (closes.not_head (by decide))]
      rw [List.cons_append, badUrlLength_cons, List.length_cons] at within
      rw [List.cons_append, List.cons_append, badUrlLength_cons, badUrlLength_cons]
      simp only [same follows.closes_singleton, same follows.closes] at within ⊢
      split
      · rfl
      next open_ =>
      rw [if_neg open_] at within
      split
      · next escape =>
          rw [if_pos escape] at within
          obtain ⟨d, others, rfl⟩ : ∃ d others, rest = d :: others := by
            rcases escape.2 with first | first
            · exact ⟨_, List.head?_eq_some_iff.1 first⟩
            · exact ⟨_, List.head?_eq_some_iff.1 first⟩
          dsimp only [List.cons_append, List.tail_cons] at within ⊢
          rw [List.length_cons] at within
          rw [badUrlLength_append others (by omega)]
      · next plain =>
          rw [if_neg plain] at within
          rw [badUrlLength_append rest (Nat.le_of_succ_le_succ within)]

theorem readUrlEnd_append (s : List Char) (within : (readUrlEnd (s ++ [e])).2 ≤ s.length) :
    readUrlEnd (s ++ w) = readUrlEnd (s ++ [e]) := by
  induction s with
  | nil => exact absurd within (Nat.not_le_of_lt (readUrlEnd_pos e []))
  | cons c rest ih =>
      rw [List.cons_append, readUrlEnd_cons, List.length_cons] at within
      rw [List.cons_append, List.cons_append, readUrlEnd_cons, readUrlEnd_cons]
      split
      · rfl
      next open_ =>
      rw [if_neg open_] at within
      split
      · next space =>
          rw [if_pos space] at within
          rw [ih (Nat.le_of_succ_le_succ within)]
      · next visible =>
          rw [if_neg visible] at within
          rw [badUrlLength_append follows rest (Nat.le_of_succ_le_succ within)]

theorem readUrlBody_append (s : List Char) (within : (readUrlBody (s ++ [e])).2 ≤ s.length) :
    readUrlBody (s ++ w) = readUrlBody (s ++ [e]) := by
  match s with
  | [] => exact absurd within (Nat.not_le_of_lt (readUrlBody_pos e []))
  | c :: rest =>
      have bad : badUrlLength (rest ++ [e]) + 1 ≤ rest.length + 1 →
          badUrlLength (rest ++ w) = badUrlLength (rest ++ [e]) :=
        fun short => badUrlLength_append follows rest (Nat.le_of_succ_le_succ short)
      rw [List.cons_append, readUrlBody_cons, List.length_cons] at within
      rw [List.cons_append, List.cons_append, readUrlBody_cons, readUrlBody_cons,
        startsNewline_append follows]
      split
      · next space =>
          rw [if_pos space] at within
          rw [readUrlEnd_append follows rest (Nat.le_of_succ_le_succ within)]
      next visible =>
      rw [if_neg visible] at within
      split
      · rfl
      next open_ =>
      rw [if_neg open_] at within
      split
      · next wrong =>
          rw [if_pos wrong] at within
          rw [bad within]
      next right =>
      rw [if_neg right] at within
      split
      · next escape =>
          rw [if_pos escape] at within
          split
          · next line =>
              rw [if_pos line] at within
              rw [bad within]
          · next line =>
              rw [if_neg line] at within
              dsimp only at within ⊢
              have short : (readEscape (rest ++ [e])).2 ≤ rest.length := by omega
              rw [List.drop_append_of_le_length short] at within
              rw [readEscape_append follows short, List.drop_append_of_le_length short,
                List.drop_append_of_le_length short,
                readUrlBody_append (rest.drop (readEscape (rest ++ [e])).2) (by
                  rw [List.length_drop]
                  omega)]
      · next plain =>
          rw [if_neg plain] at within
          rw [readUrlBody_append rest (Nat.le_of_succ_le_succ within)]
termination_by s.length
decreasing_by
  all_goals simp only [List.length_cons, List.length_drop]
  all_goals omega

theorem readUrl?_append (s : List Char)
    (within : ∀ token n, readUrl? (s ++ [e]) = some (token, n) → n ≤ s.length) :
    readUrl? (s ++ w) = readUrl? (s ++ [e]) := by
  have short : ((s ++ [e]).takeWhile isSpace).length ≤ s.length := by
    by_contra long
    have all : (s ++ [e]).drop ((s ++ [e]).takeWhile isSpace).length = [] := by
      rw [List.drop_eq_nil_iff, List.length_append, List.length_singleton]
      omega
    refine long (within .url _ ?_)
    rw [readUrl?, all]
  have blanks := takeWhile_append_of_within follows.isSpace_head short
  unfold readUrl? at within ⊢
  dsimp only at within ⊢
  rw [List.drop_append_of_le_length short] at within
  rw [blanks, List.drop_append_of_le_length short, List.drop_append_of_le_length short]
  generalize ((s ++ [e]).takeWhile isSpace).length = k at within short
  have length : (s.drop k).length = s.length - k := List.length_drop
  generalize s.drop k = t at within length
  have unquoted {d : Char} (closer : d ∈ closers) : ¬(d == '"' || d == '\'') = true := by
    have unquoted : closers.all fun d => !(d == '"' || d == '\'') := by decide
    simpa using List.all_eq_true.1 unquoted d closer
  cases t with
  | nil =>
      have read := within (readUrlBody [e]).1 (k + (readUrlBody [e]).2)
      rw [List.nil_append] at read
      dsimp only at read
      rw [if_neg (unquoted follows.mem_closers)] at read
      have bound := read rfl
      have positive := readUrlBody_pos e []
      rw [List.length_nil] at length
      omega
  | cons c rest =>
      dsimp only [List.cons_append] at within ⊢
      split
      · rfl
      · next plain =>
          rw [if_neg plain] at within
          have bound := within _ _ rfl
          have body := readUrlBody_append follows (c :: rest) (by
            rw [length, List.cons_append]
            omega)
          rw [List.cons_append, List.cons_append] at body
          rw [body]

end Addresses

end ComputedStyle.Syntax
