import ComputedStyle.Proofs.Text.Nested
import ComputedStyle.Proofs.Text.Tokens

namespace ComputedStyle.Text

/-- A row of words, with one or more characters of a kind between any two of them. -/
inductive Spaced (gap : Char → Prop) : List (List Char) → List Char → Prop where
  | last (word : List Char) : Spaced gap [word] word
  | more (word blanks s : List Char) (words : List (List Char)) (given : blanks ≠ [])
      (between : ∀ c ∈ blanks, gap c) (rest : Spaced gap words s) :
      Spaced gap (word :: words) (word ++ (blanks ++ s))

section Spaced

variable {gap inside : Char → Prop} {words : List (List Char)} {s blanks before after : List Char}

theorem isWhole_of_isBlank (blank : ∀ c ∈ blanks, isBlank c) : IsWhole blanks := by
  induction blanks with
  | nil => exact .nil _
  | cons c rest ih =>
      obtain ⟨own, later⟩ := List.forall_mem_cons.1 blank
      exact .plain c rest trivial (isFree_of_isBlank own) (ih later)

theorem Spaced.isWhole (spaced : Spaced (isBlank ·) words s) (each : ∀ t ∈ words, IsWhole t) :
    IsWhole s := by
  induction spaced with
  | last word => exact each word List.mem_cons_self
  | more word blanks s words _ between _ ih =>
      obtain ⟨own, later⟩ := List.forall_mem_cons.1 each
      exact own.append ((isWhole_of_isBlank between).append (ih later))

theorem tokensFrom_blanks (blank : ∀ c ∈ blanks, isBlank c) (s : List Char) :
    tokensFrom .top [] (blanks ++ s) = tokensFrom .top [] s := by
  induction blanks with
  | nil => rfl
  | cons c rest ih =>
      obtain ⟨own, later⟩ := List.forall_mem_cons.1 blank
      rw [List.cons_append, tokensFrom_blank own, ih later]

theorem tokensFrom_of_spaced (spaced : Spaced (isBlank ·) words s)
    (each : ∀ t ∈ words, IsToken t) : tokensFrom .top [] s = words := by
  induction spaced with
  | last word => exact (each word List.mem_cons_self).tokensFrom
  | more word blanks s words given between _ ih =>
      obtain ⟨own, later⟩ := List.forall_mem_cons.1 each
      have begun : word.reverse ≠ [] := by simpa using own.given
      obtain ⟨c, others, rfl⟩ := List.exists_cons_of_ne_nil given
      obtain ⟨first, blank⟩ := List.forall_mem_cons.1 between
      rw [own.tokensFrom_append, List.cons_append, tokensFrom_cut first begun,
        tokensFrom_blanks blank, ih later, List.reverse_reverse]

theorem foldl_step_of_isBlank (blank : ∀ c ∈ blanks, isBlank c) :
    blanks.foldl (Nesting.step .round) .top = .top := by
  induction blanks with
  | nil => rfl
  | cons c rest ih =>
      obtain ⟨own, later⟩ := List.forall_mem_cons.1 blank
      rw [List.foldl_cons, Nesting.step_round_of_isBlank Nesting.isVisible_top own, ih later]

theorem Spaced.foldl_step (spaced : Spaced (isBlank ·) words s) (each : ∀ t ∈ words, IsToken t) :
    s.foldl (Nesting.step .round) .top = .top := by
  induction spaced with
  | last word => exact (each word List.mem_cons_self).ends
  | more word blanks s words _ between _ ih =>
      obtain ⟨own, later⟩ := List.forall_mem_cons.1 each
      rw [List.foldl_append, List.foldl_append, own.ends, foldl_step_of_isBlank between, ih later]

theorem Spaced.mono {other : Char → Prop} (weaker : ∀ c, gap c → other c)
    (spaced : Spaced gap words s) : Spaced other words s := by
  induction spaced with
  | last word => exact .last word
  | more word blanks s words given between _ ih =>
      exact .more word blanks s words given (fun c member => weaker c (between c member)) ih

theorem Spaced.exists_rest {word : List Char} (spaced : Spaced gap (word :: words) s) :
    ∃ rest, s = word ++ rest ∧ ∀ c ∈ rest.head?, gap c := by
  cases spaced with
  | last =>
      refine ⟨[], (List.append_nil _).symm, ?_⟩
      rintro _ ⟨⟩
  | more _ blanks rest _ given between _ =>
      obtain ⟨c, others, rfl⟩ := List.exists_cons_of_ne_nil given
      refine ⟨(c :: others) ++ rest, rfl, ?_⟩
      rintro _ ⟨⟩
      exact between c List.mem_cons_self

theorem Spaced.isTrimmed (spaced : Spaced gap words s)
    (each : ∀ t ∈ words, t ≠ [] ∧ IsTrimmed t) : s ≠ [] ∧ IsTrimmed s := by
  induction spaced with
  | last word => exact each word List.mem_cons_self
  | more word blanks s words _ _ _ ih =>
      obtain ⟨⟨nonempty, own⟩, others⟩ := List.forall_mem_cons.1 each
      obtain ⟨later, rest⟩ := ih others
      rw [← List.append_assoc]
      exact ⟨by simp [nonempty], isTrimmed_append own rest nonempty later blanks⟩

theorem isPiece_of_isBlank {d : Char} (delimiter : isBlank d = false)
    (blank : ∀ c ∈ blanks, isBlank c) : IsPiece d .top blanks := by
  induction blanks with
  | nil => rfl
  | cons c rest ih =>
      obtain ⟨own, later⟩ := List.forall_mem_cons.1 blank
      exact (isPiece_cons_iff delimiter own Nesting.isVisible_top).2 (ih later)

theorem Spaced.isPiece {d : Char} (delimiter : isBlank d = false)
    (spaced : Spaced (isBlank ·) words s) (each : ∀ t ∈ words, IsPiece d .top t) :
    IsPiece d .top s := by
  induction spaced with
  | last word => exact each word List.mem_cons_self
  | more word blanks s words _ between _ ih =>
      obtain ⟨own, others⟩ := List.forall_mem_cons.1 each
      exact own.append ((isPiece_of_isBlank delimiter between).append (ih others))

def IsRow (words : List (List Char)) (s : List Char) : Prop :=
  words = [] ∧ s = [] ∨ Spaced (isBlank ·) words s

/-- A text that is written with tokens has these tokens, however many blanks there are. -/
theorem valueTokens_of_row (row : IsRow words s) (each : ∀ t ∈ words, IsToken t)
    (first : ∀ c ∈ before, isBlank c) (last : ∀ c ∈ after, isBlank c) :
    valueTokens (before ++ (s ++ after)) = words := by
  have trimmed : valueTokens (before ++ (s ++ after)) = valueTokens s := by
    rw [valueTokens, valueTokens, trim_append_left first, trim_append_right last]
  rw [trimmed]
  rcases row with ⟨rfl, rfl⟩ | spaced
  · rfl
  · rw [valueTokens_eq_tokensFrom (spaced.foldl_step each), tokensFrom_of_spaced spaced each]

theorem valueTokens_of_spaced (spaced : Spaced (isBlank ·) words s)
    (each : ∀ t ∈ words, t ≠ [] ∧ Closed inside IsSolid t)
    (first : ∀ c ∈ before, isBlank c) (last : ∀ c ∈ after, isBlank c) :
    valueTokens (before ++ (s ++ after)) = words :=
  valueTokens_of_row (.inr spaced) (fun t member => (each t member).2.isToken (each t member).1)
    first last

theorem isRow_intercalate (words : List (List Char)) : IsRow words ([' '].intercalate words) := by
  induction words with
  | nil => exact .inl ⟨rfl, rfl⟩
  | cons word rest ih =>
      rcases ih with ⟨rfl, -⟩ | spaced
      · rw [List.intercalate_singleton]
        exact .inr (.last word)
      · cases rest with
        | nil => cases spaced
        | cons next others =>
            rw [List.intercalate_cons_cons, List.append_assoc]
            refine .inr (.more word [' '] _ _ (List.cons_ne_nil _ _) ?_ spaced)
            exact List.forall_mem_singleton.2 rfl

theorem valueTokens_intercalate (each : ∀ t ∈ words, t ≠ [] ∧ Closed inside IsSolid t) :
    valueTokens ([' '].intercalate words) = words := by
  have tokens := valueTokens_of_row (isRow_intercalate words)
    (fun t member => (each t member).2.isToken (each t member).1) (List.forall_mem_nil _)
    (List.forall_mem_nil _)
  rwa [List.nil_append, List.append_nil] at tokens

end Spaced

end ComputedStyle.Text
