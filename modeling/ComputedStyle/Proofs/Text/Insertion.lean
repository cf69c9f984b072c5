import ComputedStyle.Proofs.Text.Closed
import ComputedStyle.Proofs.Text.Nested

namespace ComputedStyle.Text

open Nesting (Brackets)

namespace Nesting

/-- No other character than a quote is open as one. -/
def IsProper (state : Nesting) : Prop :=
  ∀ q, state.quote = some q → q ∈ ['"', '\'']

theorem isProper_none (n : Nat) : IsProper ⟨none, n⟩ :=
  nofun

theorem IsProper.step {state : Nesting} (proper : state.IsProper) (brackets : Brackets) (c : Char) :
    (state.step brackets c).IsProper := by
  unfold Nesting.step
  split
  · split
    · exact nofun
    · exact proper
  · split
    · next opens =>
        rintro q ⟨⟩
        simpa using opens
    · split
      · exact proper
      · split
        · exact proper
        · exact proper

/-- Brackets of no other kinds than round and square ones. -/
def Brackets.AreUsual (brackets : Brackets) : Prop :=
  ∀ c, IsBare c → c ∉ brackets.openers ∧ c ∉ brackets.closers

theorem Brackets.areUsual_round : Brackets.round.AreUsual := by
  intro c bare
  simp only [IsBare, List.mem_cons, List.not_mem_nil, or_false, not_or] at bare
  simp [Brackets.round, bare]

theorem Brackets.areUsual_roundAndSquare : Brackets.roundAndSquare.AreUsual := by
  intro c bare
  simp only [IsBare, List.mem_cons, List.not_mem_nil, or_false, not_or] at bare
  simp [Brackets.roundAndSquare, bare]

theorem IsProper.step_of_isBare {state : Nesting} (proper : state.IsProper) {brackets : Brackets}
    (usual : brackets.AreUsual) {c : Char} (bare : IsBare c) : state.step brackets c = state := by
  obtain ⟨quote, n⟩ := state
  cases quote with
  | none =>
      obtain ⟨opener, closer⟩ := usual c bare
      simp only [IsBare, List.mem_cons, List.not_mem_nil, or_false, not_or] at bare
      simp [Nesting.step, bare, opener, closer]
  | some q =>
      apply Nesting.step_in_quote
      rintro rfl
      have listed := proper c rfl
      simp only [List.mem_cons, List.not_mem_nil, or_false] at listed
      rcases listed with rfl | rfl
      · exact bare (by decide)
      · exact bare (by decide)

end Nesting

/-- A reader goes from one state to another, and outside of everything it meets characters of one kind
only. -/
inductive Passes (brackets : Brackets) (kind : Char → Prop) :
    Nesting → List Char → Nesting → Prop where
  | nil (state : Nesting) : Passes brackets kind state [] state
  | cons {state last : Nesting} {c : Char} {s : List Char} (own : state.isTop → kind c)
      (more : Passes brackets kind (state.step brackets c) s last) :
      Passes brackets kind state (c :: s) last

section Passes

variable {brackets : Brackets} {kind : Char → Prop} {first middle last state : Nesting}
  {s t : List Char}

theorem Passes.append (before : Passes brackets kind first s middle)
    (after : Passes brackets kind middle t last) : Passes brackets kind first (s ++ t) last := by
  induction before with
  | nil => exact after
  | cons own _ ih => exact .cons own (ih after)

theorem Passes.foldl_eq (passes : Passes brackets kind first s last) :
    s.foldl (Nesting.step brackets) first = last := by
  induction passes with
  | nil => rfl
  | cons _ _ ih => exact ih

theorem passes_of_isBare (proper : state.IsProper) (usual : brackets.AreUsual)
    (bare : ∀ c ∈ s, IsBare c) (own : ∀ c ∈ s, state.isTop → kind c) :
    Passes brackets kind state s state := by
  induction s with
  | nil => exact .nil state
  | cons c rest ih =>
      obtain ⟨bareFirst, bareOthers⟩ := List.forall_mem_cons.1 bare
      obtain ⟨first, others⟩ := List.forall_mem_cons.1 own
      apply Passes.cons first
      rw [proper.step_of_isBare usual bareFirst]
      exact ih bareOthers others

theorem passes_cons_in_quote {q c : Char} {n : Nat}
    (more : Passes brackets kind (Nesting.step brackets ⟨some q, n⟩ c) s last) :
    Passes brackets kind ⟨some q, n⟩ (c :: s) last :=
  .cons (fun top => absurd top Bool.false_ne_true) more

theorem passes_in_quote {q : Char} {n : Nat} (held : q ∉ s) :
    Passes brackets kind ⟨some q, n⟩ s ⟨some q, n⟩ := by
  induction s with
  | nil => exact .nil _
  | cons c rest ih =>
      obtain ⟨other, later⟩ := not_or.1 (List.mem_cons.not.1 held)
      apply passes_cons_in_quote
      rw [Nesting.step_in_quote (Ne.symm other)]
      exact ih later

theorem not_mem_of_isBare {c : Char} (bare : ∀ c ∈ s, IsBare c) (held : ¬IsBare c) : c ∉ s :=
  fun member => held (bare c member)

/-- A quoted value in square brackets is passed over, also where each of its quotes is the other end of
one: the value then stands outside of quotes. -/
theorem passes_square {front value : List Char} (proper : state.IsProper)
    (usual : brackets.AreUsual) (bareFront : ∀ c ∈ front, IsBare c)
    (bareValue : ∀ c ∈ value, IsBare c) (own : ∀ c ∈ value, kind c)
    (marks : kind '[' ∧ kind '"' ∧ kind ']')
    (square : ∀ n, ∃ m, Nesting.step brackets ⟨none, n⟩ '[' = ⟨none, m⟩ ∧
      Nesting.step brackets ⟨none, m⟩ ']' = ⟨none, n⟩ ∧ (m = 0 → ∀ c ∈ front, kind c)) :
    Passes brackets kind state ('[' :: (front ++ '"' :: (value ++ ['"', ']']))) state := by
  obtain ⟨quote, n⟩ := state
  have plainFront : '"' ∉ '[' :: front :=
    List.not_mem_cons_of_ne_of_not_mem (by decide) (not_mem_of_isBare bareFront (by decide))
  cases quote with
  | none =>
      obtain ⟨m, opens, closes, sheltered⟩ := square n
      apply Passes.cons fun _ => marks.1
      rw [opens]
      refine (passes_of_isBare (Nesting.isProper_none m) usual bareFront ?_).append ?_
      · intro c member top
        exact sheltered (by simpa [Nesting.isTop] using top) c member
      · apply Passes.cons fun _ => marks.2.1
        rw [Nesting.step_of_quote (by decide)]
        refine (passes_in_quote (not_mem_of_isBare bareValue (by decide))).append ?_
        apply passes_cons_in_quote
        rw [Nesting.step_end_quote]
        apply Passes.cons fun _ => marks.2.2
        rw [closes]
        exact .nil _
  | some q =>
      have listed := proper q rfl
      simp only [List.mem_cons, List.not_mem_nil, or_false] at listed
      rcases listed with rfl | rfl
      · rw [← List.cons_append]
        apply (passes_in_quote plainFront).append
        apply passes_cons_in_quote
        rw [Nesting.step_end_quote]
        refine (passes_of_isBare (Nesting.isProper_none n) usual bareValue
          fun c member _ => own c member).append ?_
        apply Passes.cons fun _ => marks.2.1
        rw [Nesting.step_of_quote (by decide)]
        exact passes_in_quote (by decide)
      · apply passes_in_quote
        have first := not_mem_of_isBare bareFront (c := '\'') (by decide)
        have second := not_mem_of_isBare bareValue (c := '\'') (by decide)
        simp [first, second]

end Passes

/-- A text that readers pass over wherever it stands. Outside of quotes and of brackets of both kinds
they meet nothing else in it than characters of the kind. -/
structure IsPassed (kind : Char → Prop) (s : List Char) : Prop where
  undivided : ',' ∉ s
  unclosed : ')' ∉ s
  passes : ∀ state, state.IsProper → Passes .roundAndSquare kind state s state
  round : ∀ state, state.IsProper → s.foldl (Nesting.step .round) state = state

theorem isPassed_nil (kind : Char → Prop) : IsPassed kind [] where
  undivided := List.not_mem_nil
  unclosed := List.not_mem_nil
  passes state _ := .nil state
  round _ _ := rfl

section IsPassed

variable {kind : Char → Prop} {s front value : List Char}

theorem isPassed_of_isBare (bare : ∀ c ∈ s, IsBare c) (own : ∀ c ∈ s, kind c)
    (undivided : ',' ∉ s) : IsPassed kind s where
  undivided := undivided
  unclosed := not_mem_of_isBare bare (by decide)
  passes _ proper :=
    passes_of_isBare proper Brackets.areUsual_roundAndSquare bare fun c member _ => own c member
  round state proper := by
    have passes : Passes .round (fun _ => True) state s state :=
      passes_of_isBare proper Brackets.areUsual_round bare fun _ _ _ => trivial
    exact passes.foldl_eq

theorem isPassed_square (bareFront : ∀ c ∈ front, IsBare c) (bareValue : ∀ c ∈ value, IsBare c)
    (own : ∀ c ∈ value, kind c) (marks : kind '[' ∧ kind '"' ∧ kind ']')
    (undivided : ',' ∉ front ++ value) :
    IsPassed kind ('[' :: (front ++ '"' :: (value ++ ['"', ']']))) where
  undivided := by
    rw [List.mem_append, not_or] at undivided
    simp [undivided]
  unclosed := by
    have first := not_mem_of_isBare bareFront (c := ')') (by decide)
    have second := not_mem_of_isBare bareValue (c := ')') (by decide)
    simp [first, second]
  passes _ proper := by
    refine passes_square proper Brackets.areUsual_roundAndSquare bareFront bareValue own marks ?_
    exact fun n => ⟨n + 1, rfl, rfl, fun zero => absurd zero n.succ_ne_zero⟩
  round state proper := by
    have passes : Passes .round (fun _ => True) state
        ('[' :: (front ++ '"' :: (value ++ ['"', ']']))) state := by
      refine passes_square proper Brackets.areUsual_round bareFront bareValue
        (fun _ _ => trivial) ⟨trivial, trivial, trivial⟩ ?_
      exact fun n => ⟨n, rfl, rfl, fun _ _ _ => trivial⟩
    exact passes.foldl_eq

end IsPassed

section Trimmed

/-- What stands before a trimmed text and behind it is trimmed on one side only. -/
theorem trim_insert {middle : List Char} (trimmed : IsTrimmed middle) (nonempty : middle ≠ [])
    (before after : List Char) :
    trim (before ++ middle ++ after) = trimLeft before ++ middle ++ trimRight after := by
  have left : trimLeft (before ++ middle ++ after) = trimLeft before ++ middle ++ after := by
    have own : trimLeft (middle ++ after) = middle ++ after := by
      apply trimLeft_of_head
      rw [List.head?_append_of_ne_nil _ nonempty]
      exact trimmed.1
    rw [trimLeft, trimLeft, List.append_assoc, List.dropWhile_append]
    split
    · next empty =>
        rw [List.isEmpty_iff.1 empty, ← trimLeft, own]
        rfl
    · rw [List.append_assoc]
  rw [trim, left]
  obtain ⟨others, d, rfl⟩ := List.eq_nil_or_concat middle |>.resolve_left nonempty
  have visible := trimmed.2 d (by simp)
  have whole : trimLeft before ++ others.concat d ++ after =
      (trimLeft before ++ others) ++ d :: after := by simp
  rw [whole, trimRight_append_cons visible]
  simp

theorem isEmpty_trim_append {s : List Char} (begun : (trim s).isEmpty = false) (t : List Char) :
    (trim (s ++ t)).isEmpty = false := by
  rw [List.isEmpty_eq_false_iff, ne_eq, trim_eq_nil_iff] at begun ⊢
  exact fun blank => begun fun c member => blank c (List.mem_append_left t member)

end Trimmed

section Pieces

variable {d : Char}

/-- The piece of a text that holds the place between two parts of it. -/
structure SplitsAt (before after front back : List Char) (first last : List (List Char)) : Prop where
  pieces : splitTopLevel ',' (before ++ after) = first ++ (front ++ back) :: last
  place : before = [','].intercalate (first ++ [front])

theorem fields_append_of_not_mem {s right piece : List Char} {others : List (List Char)}
    (free : d ∉ s) (pieces : fields (· == d) right = piece :: others) :
    fields (· == d) (s ++ right) = (s ++ piece) :: others := by
  induction s with
  | nil => exact pieces
  | cons c rest ih =>
      obtain ⟨other, later⟩ := not_or.1 (List.mem_cons.not.1 free)
      rw [List.cons_append, fields, if_neg (by simpa using Ne.symm other), ih later]
      rfl

theorem exists_fields_insert (d : Char) (left right : List Char) :
    ∃ first front back last, left = [d].intercalate (first ++ [front]) ∧
      ∀ s, d ∉ s → fields (· == d) (left ++ s ++ right) = first ++ (front ++ s ++ back) :: last := by
  induction left with
  | nil =>
      obtain ⟨piece, others, pieces⟩ := List.exists_cons_of_ne_nil (fields_ne_nil (· == d) right)
      exact ⟨[], [], piece, others, rfl, fun s free => fields_append_of_not_mem free pieces⟩
  | cons c rest ih =>
      obtain ⟨first, front, back, last, place, pieces⟩ := ih
      by_cases cut : c = d
      · refine ⟨[] :: first, front, back, last, ?_, fun s free => ?_⟩
        · rw [List.cons_append, List.intercalate_cons_of_ne_nil (by simp), ← place, cut]
          rfl
        · rw [List.cons_append, List.cons_append, fields, if_pos (by simpa using cut),
            pieces s free]
          rfl
      · cases first with
        | nil =>
            refine ⟨[], c :: front, back, last, ?_, fun s free => ?_⟩
            · rw [place]
              simp
            · rw [List.cons_append, List.cons_append, fields, if_neg (by simpa using cut),
                pieces s free]
              rfl
        | cons piece others =>
            refine ⟨(c :: piece) :: others, front, back, last, ?_, fun s free => ?_⟩
            · rw [place, List.cons_append, List.cons_append,
                List.intercalate_cons_of_ne_nil (by simp),
                List.intercalate_cons_of_ne_nil (by simp)]
              rfl
            · rw [List.cons_append, List.cons_append, fields, if_neg (by simpa using cut),
                pieces s free]
              rfl

variable {kind : Char → Prop}

theorem splitFrom_append_of_passes {state last : Nesting} {s : List Char} (other : ¬kind d)
    (passes : Passes .roundAndSquare kind state s last) (piece rest : List Char) :
    splitFrom d state piece (s ++ rest) = splitFrom d last (s.reverse ++ piece) rest := by
  induction passes generalizing piece with
  | nil => rfl
  | @cons state last c s own _ ih =>
      have goes : ¬(c == d && state.isTop) := by
        intro cut
        rw [Bool.and_eq_true, beq_iff_eq] at cut
        exact other (cut.1 ▸ own cut.2)
      rw [List.cons_append, splitFrom, if_neg goes, ih]
      simp

/-- After the place, the piece goes on up to the next delimiter. -/
theorem exists_splitFrom_begun (state : Nesting) (left right rest : List Char) :
    ∃ first front back last, left = [d].intercalate (first ++ [front]) ∧
      ∀ s, d ∉ s → splitFrom d state (left ++ s ++ right).reverse rest =
        first ++ (front ++ s ++ back) :: last := by
  induction rest generalizing state right with
  | nil =>
      cases top : state.isTop with
      | true =>
          refine ⟨[], left, right, [], by simp, fun s _ => ?_⟩
          rw [splitFrom, if_pos top, List.reverse_reverse]
          rfl
      | false =>
          obtain ⟨first, front, back, last, place, pieces⟩ := exists_fields_insert d left right
          refine ⟨first, front, back, last, place, fun s free => ?_⟩
          rw [splitFrom, top, if_neg Bool.false_ne_true, List.reverse_reverse, pieces s free]
  | cons c later ih =>
      cases cut : c == d && state.isTop with
      | true =>
          refine ⟨[], left, right, splitFrom d state [] later, by simp, fun s _ => ?_⟩
          rw [splitFrom, cut, if_pos rfl, List.reverse_reverse]
          rfl
      | false =>
          obtain ⟨first, front, back, last, place, pieces⟩ :=
            ih (state.step .roundAndSquare c) (right ++ [c])
          refine ⟨first, front, back, last, place, fun s free => ?_⟩
          rw [splitFrom, cut, if_neg Bool.false_ne_true, ← pieces s free]
          simp

theorem exists_splitFrom_insert {state : Nesting} (proper : state.IsProper) (other : ¬kind ',')
    (piece before after : List Char) :
    ∃ first front back last, piece.reverse ++ before = [','].intercalate (first ++ [front]) ∧
      ∀ s, IsPassed kind s → splitFrom ',' state piece (before ++ s ++ after) =
        first ++ (front ++ s ++ back) :: last := by
  induction before generalizing state piece with
  | nil =>
      obtain ⟨first, front, back, last, place, pieces⟩ :=
        exists_splitFrom_begun (d := ',') state piece.reverse [] after
      refine ⟨first, front, back, last, by rw [List.append_nil, place], fun s passed => ?_⟩
      rw [List.nil_append, splitFrom_append_of_passes other (passed.passes state proper),
        ← pieces s passed.undivided]
      simp
  | cons c rest ih =>
      cases cut : c == ',' && state.isTop with
      | true =>
          obtain ⟨first, front, back, last, place, pieces⟩ := ih proper []
          refine ⟨piece.reverse :: first, front, back, last, ?_, fun s passed => ?_⟩
          · rw [Bool.and_eq_true, beq_iff_eq] at cut
            rw [List.cons_append, List.intercalate_cons_of_ne_nil (by simp), ← place, cut.1]
            simp
          · rw [List.cons_append, List.cons_append, splitFrom, cut, if_pos rfl, pieces s passed]
            rfl
      | false =>
          obtain ⟨first, front, back, last, place, pieces⟩ :=
            ih (proper.step .roundAndSquare c) (c :: piece)
          refine ⟨first, front, back, last, ?_, fun s passed => ?_⟩
          · rw [← place]
            simp
          · rw [List.cons_append, List.cons_append, splitFrom, cut, if_neg Bool.false_ne_true,
              pieces s passed]

theorem ne_later_place {front back piece : List Char} (own : front ++ back = piece)
    (others : List (List Char)) (front' : List Char) :
    [d].intercalate ([] ++ [front]) ≠ [d].intercalate (piece :: others ++ [front']) := by
  intro place
  have length := congrArg List.length place
  rw [List.cons_append, List.intercalate_cons_of_ne_nil (by simp), ← own] at length
  simp at length

/-- A place lies in one piece only. -/
theorem pieces_unique {first first' last last' : List (List Char)} {front front' back back' : List Char}
    (pieces : first ++ (front ++ back) :: last = first' ++ (front' ++ back') :: last')
    (place : [d].intercalate (first ++ [front]) = [d].intercalate (first' ++ [front'])) :
    first = first' ∧ front = front' ∧ back = back' ∧ last = last' := by
  induction first generalizing first' with
  | nil =>
      cases first' with
      | nil =>
          obtain ⟨own, rest⟩ := List.cons.inj pieces
          obtain rfl : front = front' := by simpa using place
          exact ⟨rfl, rfl, List.append_cancel_left own, rest⟩
      | cons piece others =>
          exact absurd place (ne_later_place (List.cons.inj pieces).1 others front')
  | cons piece others ih =>
      cases first' with
      | nil =>
          exact absurd place.symm (ne_later_place (List.cons.inj pieces).1.symm others front)
      | cons piece' others' =>
          obtain ⟨rfl, rest⟩ := List.cons.inj pieces
          rw [List.cons_append, List.cons_append, List.intercalate_cons_of_ne_nil (by simp),
            List.intercalate_cons_of_ne_nil (by simp)] at place
          obtain ⟨rfl, equal⟩ := ih rest (List.append_cancel_left place)
          exact ⟨rfl, equal⟩

/-- Any text that is passed over makes the piece longer that holds the place, and no other one. -/
theorem SplitsAt.insert {before after front back : List Char} {first last : List (List Char)}
    (splits : SplitsAt before after front back first last) (other : ¬kind ',') {s : List Char}
    (passed : IsPassed kind s) :
    splitTopLevel ',' (before ++ s ++ after) = first ++ (front ++ s ++ back) :: last := by
  obtain ⟨first', front', back', last', place, pieces⟩ :=
    exists_splitFrom_insert (Nesting.isProper_none 0) other [] before after
  have own := pieces [] (isPassed_nil kind)
  rw [List.append_nil, List.append_nil] at own
  obtain ⟨rfl, rfl, rfl, rfl⟩ := pieces_unique (splits.pieces.symm.trans own)
    (splits.place.symm.trans place)
  exact pieces s passed

end Pieces

end ComputedStyle.Text
