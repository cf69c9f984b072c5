import ComputedStyle.Proofs.Text.Closed
import ComputedStyle.Proofs.Text.Nested

namespace ComputedStyle.Text

/-- The places of the delimiters between pieces in the text that they join to. -/
def boundaries : List (List Char) → List Nat
  | [] => []
  | [_] => []
  | piece :: next :: rest =>
      piece.length :: (boundaries (next :: rest)).map (piece.length + 1 + ·)

/-- At place `i` a reader that starts in a state meets the delimiter outside of brackets and
quotes. -/
def MeetsAt (d : Char) (state : Nesting) (s : List Char) (i : Nat) : Prop :=
  s[i]? = some d ∧ ((s.take i).foldl (Nesting.step .roundAndSquare) state).isTop

instance (d : Char) (state : Nesting) (s : List Char) : DecidablePred (MeetsAt d state s) :=
  fun _ => inferInstanceAs (Decidable (_ ∧ _))

/-- Each bracket is closed by one of its own kind, in the order in which they were opened, and each
quote by the same quote. -/
inductive WellNested : List Char → Prop where
  | nil : WellNested []
  | plain (c : Char) (s : List Char) (bare : IsBare c) (more : WellNested s) : WellNested (c :: s)
  | quoted (q : Char) (value s : List Char) (quote : q ∈ ['"', '\'']) (held : q ∉ value)
      (more : WellNested s) : WellNested (q :: (value ++ q :: s))
  | bracket (opener closer : Char) (inner s : List Char)
      (pair : (opener, closer) ∈ [('(', ')'), ('[', ']')]) (inside : WellNested inner)
      (more : WellNested s) : WellNested (opener :: (inner ++ closer :: s))

variable {d c : Char} {state : Nesting} {s : List Char} {i n : Nat}

section Places

theorem mem_boundaries_cons {piece : List Char} {rest : List (List Char)} (more : rest ≠ []) :
    i ∈ boundaries (piece :: rest) ↔
      i = piece.length ∨ ∃ j ∈ boundaries rest, piece.length + 1 + j = i := by
  cases rest with
  | nil => exact absurd rfl more
  | cons next others => rw [boundaries, List.mem_cons, List.mem_map]

theorem mem_boundaries_fields (s : List Char) :
    i ∈ boundaries (fields (· == d) s) ↔ s[i]? = some d := by
  induction s generalizing i with
  | nil => simp [fields, boundaries]
  | cons c rest ih =>
      rw [fields]
      split
      · next cut =>
          rw [mem_boundaries_cons (fields_ne_nil _ rest)]
          cases i with
          | zero => simp [eq_of_beq cut]
          | succ i => simp [ih, Nat.add_comm 1]
      · next keep =>
          have other : c ≠ d := fun same => keep (beq_iff_eq.2 same)
          cases pieces : fields (· == d) rest with
          | nil => exact absurd pieces (fields_ne_nil _ rest)
          | cons piece others =>
              rw [pieces] at ih
              dsimp only
              cases others with
              | nil =>
                  cases i with
                  | zero => simp [boundaries, other]
                  | succ i => simp [boundaries, ← ih]
              | cons next more =>
                  cases i with
                  | zero => simp [boundaries, other]
                  | succ i =>
                      rw [List.getElem?_cons_succ, ← ih, boundaries, boundaries]
                      simp [Nat.add_right_comm _ 1]

theorem meetsAt_cons_zero : MeetsAt d state (c :: s) 0 ↔ c = d ∧ state.isTop := by
  simp [MeetsAt]

theorem meetsAt_cons_succ :
    MeetsAt d state (c :: s) (i + 1) ↔ MeetsAt d (state.step .roundAndSquare c) s i := by
  simp [MeetsAt]

theorem exists_meetsAt_cons {p : Nat → Prop} :
    (∃ j, MeetsAt d state (c :: s) j ∧ p j) ↔
      ((c = d ∧ state.isTop) ∧ p 0) ∨
        ∃ j, MeetsAt d (state.step .roundAndSquare c) s j ∧ p (j + 1) := by
  rw [← Nat.or_exists_add_one, meetsAt_cons_zero]
  simp only [meetsAt_cons_succ]

theorem forall_meetsAt_cons {p : Nat → Prop} :
    (∀ j, MeetsAt d state (c :: s) j → p j) ↔
      (c = d ∧ state.isTop → p 0) ∧
        ∀ j, MeetsAt d (state.step .roundAndSquare c) s j → p (j + 1) := by
  rw [← Nat.and_forall_add_one, meetsAt_cons_zero]
  simp only [meetsAt_cons_succ]

/-- A boundary behind a piece begun is a delimiter met outside of brackets and quotes. If the text
ends inside, delimiters met inside count as well, also those of the piece begun, once they stand
after all that are met outside. -/
theorem mem_boundaries_splitFrom (neutral : Nesting.top.step .roundAndSquare d = .top)
    (piece : List Char) :
    i ∈ boundaries (splitFrom d state piece s) ↔
      (∃ j, MeetsAt d state s j ∧ piece.length + j = i) ∨
        (piece.reverse ++ s)[i]? = some d ∧
          ¬(s.foldl (Nesting.step .roundAndSquare) state).isTop ∧
            ∀ j, MeetsAt d state s j → piece.length + j < i := by
  induction s generalizing state piece i with
  | nil =>
      have nowhere : ∀ j, ¬MeetsAt d state [] j := fun j meets => by simp [MeetsAt] at meets
      rw [splitFrom, List.append_nil, List.foldl_nil]
      split
      · next top => simp [boundaries, nowhere, top]
      · next inside => simp [mem_boundaries_fields, nowhere, inside]
  | cons c rest ih =>
      rw [splitFrom, List.foldl_cons, exists_meetsAt_cons, forall_meetsAt_cons]
      split
      · next cut =>
          simp only [Bool.and_eq_true, beq_iff_eq] at cut
          obtain ⟨rfl, top⟩ := cut
          obtain rfl := Nesting.eq_top_of_isTop top
          rw [mem_boundaries_cons (splitFrom_ne_nil c .top [] rest), neutral]
          simp only [ih, List.length_nil, Nat.zero_add, exists_eq_right, List.reverse_nil,
            List.nil_append]
          -- Nothing splits before the delimiter that is met here, and what splits after it is what
          -- splits the rest.
          by_cases after : ∃ j, i = piece.length + (j + 1)
          · obtain ⟨j, rfl⟩ := after
            have behind : (piece.reverse ++ c :: rest)[piece.length + (j + 1)]? = rest[j]? := by
              rw [List.getElem?_append_right (by simp)]
              simp
            simp [behind, Nat.add_assoc, Nat.add_comm 1]
          · have early : i ≤ piece.length := by
              by_contra late
              exact after ⟨i - piece.length - 1, by omega⟩
            have never : ∀ j, piece.length + 1 + j ≠ i := by omega
            have never' : ∀ j, piece.length + (j + 1) ≠ i := by omega
            simp [never, never', top, Nat.not_lt.2 early, eq_comm (a := i)]
      · next keep =>
          have other : ¬(c = d ∧ state.isTop) := by simpa using keep
          rw [ih]
          simp [other, Nat.add_assoc, Nat.add_comm 1]

theorem mem_boundaries_splitTopLevel (neutral : Nesting.top.step .roundAndSquare d = .top) :
    i ∈ boundaries (splitTopLevel d s) ↔
      MeetsAt d .top s i ∨
        s[i]? = some d ∧ ¬Balanced s ∧ ∀ j, MeetsAt d .top s j → j < i := by
  have places := @mem_boundaries_splitFrom d .top s i neutral []
  simpa [splitTopLevel, Balanced] using places

end Places

section Pieces

variable {piece : List Char}

theorem mem_of_pair {opener closer : Char} (pair : (opener, closer) ∈ [('(', ')'), ('[', ']')]) :
    opener ∈ ['(', '['] ∧ closer ∈ [')', ']'] := by
  rcases List.mem_pair.1 pair with same | same
  · cases same
    decide
  · cases same
    decide

theorem WellNested.append {t : List Char} (first : WellNested s) (second : WellNested t) :
    WellNested (s ++ t) := by
  induction first with
  | nil => exact second
  | plain c s bare _ ih => exact .plain c _ bare ih
  | quoted q value s quote held _ ih =>
      rw [List.cons_append, List.append_assoc, List.cons_append]
      exact .quoted q value _ quote held ih
  | bracket opener closer inner s pair inside _ _ ih =>
      rw [List.cons_append, List.append_assoc, List.cons_append]
      exact .bracket opener closer inner _ pair inside ih

theorem splitFrom_cons_of_inside (inside : state.isTop = false) (piece : List Char) :
    splitFrom d state piece (c :: s) =
      splitFrom d (state.step .roundAndSquare c) (c :: piece) s := by
  rw [splitFrom, inside, Bool.and_false, if_neg Bool.false_ne_true]

theorem splitFrom_cons_of_ne (other : c ≠ d) (piece : List Char) :
    splitFrom d state piece (c :: s) =
      splitFrom d (state.step .roundAndSquare c) (c :: piece) s := by
  rw [splitFrom, beq_false_of_ne other, Bool.false_and, if_neg Bool.false_ne_true]

theorem splitFrom_quoted {q : Char} {value : List Char} (held : q ∉ value) (piece : List Char) :
    splitFrom d ⟨some q, n⟩ piece (value ++ q :: s) =
      splitFrom d ⟨none, n⟩ (q :: (value.reverse ++ piece)) s := by
  induction value generalizing piece with
  | nil =>
      rw [List.nil_append, splitFrom_cons_of_inside rfl]
      simp [Nesting.step]
  | cons c rest ih =>
      obtain ⟨other, later⟩ := not_or.1 (List.mem_cons.not.1 held)
      rw [List.cons_append, splitFrom_cons_of_inside rfl]
      simp [Nesting.step, Ne.symm other, ih later]

theorem splitFrom_nested {inner : List Char} (nested : WellNested inner) (piece : List Char) :
    splitFrom d ⟨none, n + 1⟩ piece (inner ++ s) =
      splitFrom d ⟨none, n + 1⟩ (inner.reverse ++ piece) s := by
  induction nested generalizing n piece s with
  | nil => rfl
  | plain c rest bare _ ih =>
      rw [List.cons_append, splitFrom_cons_of_inside rfl, Nesting.step_of_isBare bare, ih]
      simp
  | quoted q value rest quote held _ ih =>
      rw [List.cons_append, List.append_assoc, List.cons_append, splitFrom_cons_of_inside rfl,
        Nesting.step_of_quote quote, splitFrom_quoted held, ih]
      simp
  | bracket opener closer inner rest pair _ _ ihInner ih =>
      obtain ⟨opens, closes⟩ := mem_of_pair pair
      rw [List.cons_append, List.append_assoc, List.cons_append, splitFrom_cons_of_inside rfl,
        Nesting.step_opener opens, ihInner, splitFrom_cons_of_inside rfl,
        Nesting.step_closer closes, ih]
      simp

theorem wellNested_of_mem_splitFrom (delimiter : IsBare d) (nested : WellNested s)
    (begun : WellNested piece.reverse) : ∀ p ∈ splitFrom d .top piece s, WellNested p := by
  induction nested generalizing piece with
  | nil => exact List.forall_mem_singleton.2 begun
  | plain c rest bare _ ih =>
      by_cases same : c = d
      · subst same
        rw [splitFrom, beq_self_eq_true, Bool.true_and, if_pos (by rfl : Nesting.top.isTop)]
        exact List.forall_mem_cons.2 ⟨begun, ih .nil⟩
      · rw [splitFrom_cons_of_ne same, Nesting.top, Nesting.step_of_isBare bare]
        apply ih
        rw [List.reverse_cons]
        exact begun.append (.plain c [] bare .nil)
  | quoted q value rest quote held _ ih =>
      have other : q ≠ d := by
        rintro rfl
        exact delimiter (by rcases List.mem_pair.1 quote with rfl | rfl <;> decide)
      rw [splitFrom_cons_of_ne other, Nesting.top, Nesting.step_of_quote quote,
        splitFrom_quoted held]
      apply ih
      have whole := begun.append (.quoted q value [] quote held .nil)
      simpa using whole
  | bracket opener closer inner rest pair inside _ _ ih =>
      obtain ⟨opens, closes⟩ := mem_of_pair pair
      have other : opener ≠ d := by
        rintro rfl
        exact delimiter (by rcases List.mem_pair.1 opens with rfl | rfl <;> decide)
      rw [splitFrom_cons_of_ne other, Nesting.top, Nesting.step_opener opens,
        splitFrom_nested inside, splitFrom_cons_of_inside rfl, Nesting.step_closer closes]
      apply ih
      have whole := begun.append (.bracket opener closer inner [] pair inside .nil)
      simpa using whole

theorem foldl_step_in_quote {q : Char} {value : List Char} (held : q ∉ value) :
    value.foldl (Nesting.step .roundAndSquare) ⟨some q, n⟩ = ⟨some q, n⟩ := by
  induction value with
  | nil => rfl
  | cons c rest ih =>
      obtain ⟨other, later⟩ := not_or.1 (List.mem_cons.not.1 held)
      rw [List.foldl_cons, Nesting.step_in_quote (Ne.symm other), ih later]

theorem WellNested.foldl_step (nested : WellNested s) :
    s.foldl (Nesting.step .roundAndSquare) ⟨none, n⟩ = ⟨none, n⟩ := by
  induction nested generalizing n with
  | nil => rfl
  | plain c rest bare _ ih => rw [List.foldl_cons, Nesting.step_of_isBare bare, ih]
  | quoted q value rest quote held _ ih =>
      rw [List.foldl_cons, Nesting.step_of_quote quote, List.foldl_append,
        foldl_step_in_quote held, List.foldl_cons, Nesting.step_end_quote, ih]
  | bracket opener closer inner rest pair _ _ ihInner ih =>
      obtain ⟨opens, closes⟩ := mem_of_pair pair
      rw [List.foldl_cons, Nesting.step_opener opens, List.foldl_append, ihInner, List.foldl_cons,
        Nesting.step_closer closes, ih]

theorem WellNested.balanced (nested : WellNested s) : Balanced s := by
  rw [Balanced, Nesting.top, nested.foldl_step]
  rfl

theorem IsPiece.foldl_step {p : List Char} (whole : IsPiece d state p) :
    (p.foldl (Nesting.step .roundAndSquare) state).isTop := by
  induction p generalizing state with
  | nil => exact whole
  | cons c rest ih => exact ih whole.2

end Pieces

/-- The pieces of a text join to the text. Between them stand the delimiters that are met outside of
brackets and quotes and, where the text ends inside, all that come after these. Whatever is balanced
or well nested has pieces that are. -/
theorem splitTopLevel_boundaries (delimiter : IsBare d) (s : List Char) :
    [d].intercalate (splitTopLevel d s) = s ∧
      (Balanced s → (∀ i, i ∈ boundaries (splitTopLevel d s) ↔ MeetsAt d .top s i) ∧
        ∀ piece ∈ splitTopLevel d s, Balanced piece) ∧
      (¬Balanced s → ∀ i, i ∈ boundaries (splitTopLevel d s) ↔
        MeetsAt d .top s i ∨ s[i]? = some d ∧ ∀ j, MeetsAt d .top s j → j < i) ∧
      (WellNested s → Balanced s ∧ ∀ piece ∈ splitTopLevel d s, WellNested piece) := by
  have neutral : Nesting.top.step .roundAndSquare d = .top := Nesting.step_of_isBare delimiter
  refine ⟨intercalate_splitTopLevel d s, fun balanced => ⟨fun i => ?_, fun piece member => ?_⟩,
    fun inside i => ?_, fun nested => ⟨nested.balanced, ?_⟩⟩
  · simp [mem_boundaries_splitTopLevel neutral, balanced]
  · exact (isPiece_of_mem_splitTopLevel neutral balanced member).foldl_step
  · simp [mem_boundaries_splitTopLevel neutral, inside]
  · exact wellNested_of_mem_splitFrom delimiter nested .nil

/-- A stray bracket at first, a comma in brackets, and a bracket that is not closed. -/
theorem splitTopLevel_boundaries_unclosed :
    splitTopLevel ',' "p), q(r,s), [[, .c".toList =
        ["p)".toList, " q(r,s)".toList, " [[".toList, " .c".toList] ∧
      ¬Balanced "p), q(r,s), [[, .c".toList ∧
        ∀ i, i ∈ [2, 10, 14] ↔ MeetsAt ',' .top "p), q(r,s), [[, .c".toList i ∨
          "p), q(r,s), [[, .c".toList[i]? = some ',' ∧
            ∀ j, MeetsAt ',' .top "p), q(r,s), [[, .c".toList j → j < i := by
  have pieces : splitTopLevel ',' "p), q(r,s), [[, .c".toList =
      ["p)".toList, " q(r,s)".toList, " [[".toList, " .c".toList] := by
    decide +kernel
  have unclosed : ¬Balanced "p), q(r,s), [[, .c".toList := by decide +kernel
  have places := (splitTopLevel_boundaries (d := ',') (by decide)
    "p), q(r,s), [[, .c".toList).2.2.1 unclosed
  rw [pieces] at places
  exact ⟨pieces, unclosed, places⟩

end ComputedStyle.Text
