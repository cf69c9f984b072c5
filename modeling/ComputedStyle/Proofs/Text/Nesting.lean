import Mathlib.Data.List.DropRight
import ComputedStyle.Text.Nesting

namespace ComputedStyle.Text

section Trim

variable {b : Char} {s : List Char}

theorem trim_cons_of_isBlank (blank : isBlank b) : trim (b :: s) = trim s := by
  rw [trim, trim, trimLeft, trimLeft, List.dropWhile_cons_of_pos blank]

theorem trimLeft_of_head (visible : ∀ c ∈ s.head?, isBlank c = false) : trimLeft s = s := by
  cases s with
  | nil => rfl
  | cons c rest => rw [trimLeft, List.dropWhile_cons_of_neg (by rw [visible c rfl]; decide)]

theorem trimRight_concat_of_isBlank (blank : isBlank b) : trimRight (s ++ [b]) = trimRight s := by
  simp [trimRight, blank]

theorem trimRight_cons_of_not_isBlank (visible : isBlank b = false) :
    trimRight (b :: s) = b :: trimRight s := by
  rw [trimRight, List.reverse_cons, List.dropWhile_append]
  split
  · next empty =>
      rw [List.dropWhile_cons_of_neg (by rw [visible]; decide), trimRight, List.isEmpty_iff.1 empty]
      rfl
  · rw [List.reverse_append]
    rfl

theorem trim_concat_of_isBlank (blank : isBlank b) : trim (s ++ [b]) = trim s := by
  rw [trim, trim, trimLeft, trimLeft, List.dropWhile_append]
  split
  · next empty =>
      rw [List.isEmpty_iff.1 empty, List.dropWhile_cons_of_pos blank]
      rfl
  · exact trimRight_concat_of_isBlank blank

theorem trim_induction {motive : List Char → Prop} (s : List Char) (core : motive (trim s))
    (left : ∀ b t, isBlank b → motive t → motive (b :: t))
    (right : ∀ b t, isBlank b → motive t → motive (t ++ [b])) : motive s := by
  have before : ∀ blanks : List Char, (∀ b ∈ blanks, isBlank b) →
      ∀ t, motive t → motive (blanks ++ t) := by
    intro blanks all t holds
    induction blanks with
    | nil => exact holds
    | cons b rest ih =>
        refine left b _ (all b List.mem_cons_self) (ih fun c member => ?_)
        exact all c (List.mem_cons_of_mem _ member)
  have after : ∀ blanks : List Char, (∀ b ∈ blanks, isBlank b) →
      ∀ t, motive t → motive (t ++ blanks.reverse) := by
    intro blanks all t holds
    induction blanks with
    | nil => simpa using holds
    | cons b rest ih =>
        rw [List.reverse_cons, ← List.append_assoc]
        refine right b _ (all b List.mem_cons_self) (ih fun c member => ?_)
        exact all c (List.mem_cons_of_mem _ member)
  have ending : motive (trimLeft s) := by
    have parts := after ((trimLeft s).reverse.takeWhile isBlank)
      (fun b member => List.mem_takeWhile_imp member) (trim s) core
    rwa [trim, trimRight, ← List.reverse_append, List.takeWhile_append_dropWhile,
      List.reverse_reverse] at parts
  have parts := before (s.takeWhile isBlank) (fun b member => List.mem_takeWhile_imp member)
    (trimLeft s) ending
  rwa [trimLeft, List.takeWhile_append_dropWhile] at parts

theorem trimRight_trimRight (s : List Char) : trimRight (trimRight s) = trimRight s := by
  rw [trimRight, trimRight, List.reverse_reverse, List.dropWhile_idempotent]

theorem trimLeft_trim (s : List Char) : trimLeft (trim s) = trim s := by
  rw [trim]
  obtain ⟨blanks, parts⟩ : trimRight (trimLeft s) <+: trimLeft s := by
    rw [trimRight, ← List.reverse_suffix, List.reverse_reverse]
    exact List.dropWhile_suffix isBlank
  cases core : trimRight (trimLeft s) with
  | nil => rfl
  | cons c rest =>
      rw [core, List.cons_append] at parts
      have kept : ¬isBlank c := by
        have := List.dropWhile_get_zero_not isBlank s
        grind [trimLeft]
      rw [trimLeft, List.dropWhile_cons_of_neg kept]

@[simp] theorem trim_trim (s : List Char) : trim (trim s) = trim s := by
  rw [trim, trimLeft_trim, trim, trimRight_trimRight]

end Trim

section Blanks

variable {b d : Char}

theorem map_trim_fields_cons {isSeparator : Char → Bool} (blank : isBlank b)
    (plain : isSeparator b = false) (s : List Char) :
    (fields isSeparator (b :: s)).map trim = (fields isSeparator s).map trim := by
  rw [fields, plain]
  cases pieces : fields isSeparator s with
  | nil => exact absurd pieces (fields_ne_nil isSeparator s)
  | cons piece rest => simp [trim_cons_of_isBlank blank]

theorem fields_concat (isSeparator : Char → Bool) (plain : isSeparator b = false) (s : List Char) :
    ∃ before last, fields isSeparator s = before ++ [last] ∧
      fields isSeparator (s ++ [b]) = before ++ [last ++ [b]] := by
  induction s with
  | nil => exact ⟨[], [], rfl, by simp [fields, plain]⟩
  | cons c rest ih =>
      obtain ⟨before, last, pieces, longer⟩ := ih
      rw [List.cons_append, fields, fields, pieces, longer]
      split
      · exact ⟨[] :: before, last, rfl, rfl⟩
      · cases before with
        | nil => exact ⟨[], c :: last, rfl, rfl⟩
        | cons piece others => exact ⟨(c :: piece) :: others, last, rfl, rfl⟩

/-- A quote that is open is no blank. -/
def Nesting.IsVisible (state : Nesting) : Prop :=
  ∀ q, state.quote = some q → isBlank q = false

theorem Nesting.IsVisible.step {state : Nesting} (visible : state.IsVisible)
    (brackets : Brackets) (c : Char) : (state.step brackets c).IsVisible := by
  unfold Nesting.step
  split
  · split
    · intro q open_
      cases open_
    · exact visible
  · next closed =>
      split
      · next opens =>
          intro q open_
          cases open_
          simp only [Bool.or_eq_true, beq_iff_eq] at opens
          rcases opens with rfl | rfl <;> rfl
      · split
        · exact visible
        · split
          · exact visible
          · exact visible

theorem Nesting.step_of_isBlank {state : Nesting} (visible : state.IsVisible)
    (blank : isBlank b) : state.step .roundAndSquare b = state := by
  have apart : ∀ c, isBlank c = false → b ≠ c := by
    rintro c visible rfl
    simp [blank] at visible
  unfold Nesting.step
  split
  · next q open_ => rw [if_neg (by simpa using apart q (visible q open_))]
  · simp [Brackets.roundAndSquare, apart '"' rfl, apart '\'' rfl, apart '(' rfl, apart '[' rfl,
      apart ')' rfl, apart ']' rfl]

theorem Nesting.isVisible_top : Nesting.top.IsVisible := by
  intro q open_
  cases open_

variable (plain : isBlank d = false)

include plain

theorem ne_delimiter (blank : isBlank b) : (b == d) = false := by
  rw [beq_eq_false_iff_ne]
  rintro rfl
  simp [blank] at plain

theorem map_trim_splitFrom_piece (blank : isBlank b) (state : Nesting) (piece s : List Char) :
    (splitFrom d state (piece ++ [b]) s).map trim = (splitFrom d state piece s).map trim := by
  induction s generalizing state piece with
  | nil =>
      rw [splitFrom, splitFrom, List.reverse_append]
      split
      · simp [trim_cons_of_isBlank blank]
      · exact map_trim_fields_cons blank (by rw [ne_delimiter plain blank]) piece.reverse
  | cons c rest ih =>
      rw [splitFrom, splitFrom]
      split
      · simp [trim_cons_of_isBlank blank]
      · exact ih _ (c :: piece)

theorem map_trim_splitFrom_concat (blank : isBlank b) {state : Nesting}
    (visible : state.IsVisible) (piece s : List Char) :
    (splitFrom d state piece (s ++ [b])).map trim = (splitFrom d state piece s).map trim := by
  induction s generalizing state piece with
  | nil =>
      have other := ne_delimiter plain blank
      rw [List.nil_append, splitFrom.eq_2, other, Bool.false_and, if_neg Bool.false_ne_true,
        Nesting.step_of_isBlank visible blank, splitFrom, splitFrom, List.reverse_cons]
      split
      · simp [trim_concat_of_isBlank blank]
      · obtain ⟨before, last, pieces, longer⟩ := fields_concat (· == d) other piece.reverse
        rw [pieces, longer]
        simp [trim_concat_of_isBlank blank]
  | cons c rest ih =>
      rw [List.cons_append, splitFrom, splitFrom]
      split
      · exact congrArg (trim piece.reverse :: ·) (ih visible [])
      · exact ih (visible.step _ c) (c :: piece)

theorem map_trim_splitTopLevel_cons (blank : isBlank b) (s : List Char) :
    (splitTopLevel d (b :: s)).map trim = (splitTopLevel d s).map trim := by
  rw [splitTopLevel, splitFrom, ne_delimiter plain blank, Bool.false_and,
    if_neg Bool.false_ne_true, Nesting.step_of_isBlank Nesting.isVisible_top blank]
  exact map_trim_splitFrom_piece plain blank .top [] s

theorem map_trim_splitTopLevel_trim (s : List Char) :
    (splitTopLevel d (trim s)).map trim = (splitTopLevel d s).map trim := by
  induction s using trim_induction with
  | core => rw [trim_trim]
  | left b t blank ih => rw [trim_cons_of_isBlank blank, ih, map_trim_splitTopLevel_cons plain blank]
  | right b t blank ih =>
      rw [trim_concat_of_isBlank blank, ih]
      exact (map_trim_splitFrom_concat plain blank Nesting.isVisible_top [] t).symm

end Blanks

section Pieces

/-- All brackets and quotes that are opened are closed again. -/
def Balanced (s : List Char) : Prop :=
  (s.foldl (Nesting.step .roundAndSquare) .top).isTop

instance : DecidablePred Balanced :=
  fun s => inferInstanceAs (Decidable ((s.foldl (Nesting.step .roundAndSquare) .top).isTop = true))

/-- From a state, the text ends outside brackets and quotes and has no delimiter there. -/
def IsPiece (d : Char) (state : Nesting) : List Char → Prop
  | [] => state.isTop
  | c :: rest => (c = d → state.isTop = false) ∧ IsPiece d (state.step .roundAndSquare c) rest

instance decidableIsPiece (d : Char) : ∀ state s, Decidable (IsPiece d state s)
  | state, [] => inferInstanceAs (Decidable (state.isTop = true))
  | state, c :: rest =>
      have := decidableIsPiece d (state.step .roundAndSquare c) rest
      inferInstanceAs (Decidable ((c = d → state.isTop = false) ∧ _))

theorem Nesting.eq_top_of_isTop {state : Nesting} (top : state.isTop) : state = .top := by
  obtain ⟨quote, depth⟩ := state
  simp only [isTop, Bool.and_eq_true, Option.isNone_iff_eq_none, beq_iff_eq] at top
  rw [top.1, top.2]
  rfl

variable {d : Char} {state : Nesting} {p : List Char}

theorem IsPiece.keeps {c : Char} (whole : IsPiece d state (c :: p)) :
    (c == d && state.isTop) = false := by
  cases same : c == d with
  | false => rfl
  | true => rw [whole.1 (by simpa using same), Bool.and_false]

theorem splitFrom_of_isPiece (whole : IsPiece d state p) (piece : List Char) :
    splitFrom d state piece p = [piece.reverse ++ p] := by
  induction p generalizing state piece with
  | nil =>
      have top : state.isTop := whole
      rw [splitFrom, if_pos top, List.append_nil]
  | cons c rest ih =>
      rw [splitFrom, whole.keeps, if_neg Bool.false_ne_true, ih whole.2]
      simp

theorem splitFrom_append_of_isPiece (whole : IsPiece d state p) (piece rest : List Char) :
    splitFrom d state piece (p ++ d :: rest) =
      (piece.reverse ++ p) :: splitFrom d .top [] rest := by
  induction p generalizing state piece with
  | nil =>
      have top : state.isTop := whole
      rw [List.nil_append, splitFrom, beq_self_eq_true, top, Nesting.eq_top_of_isTop top]
      simp
  | cons c others ih =>
      rw [List.cons_append, splitFrom, whole.keeps, if_neg Bool.false_ne_true, ih whole.2]
      simp

/-- What a text that ends at the top is split into: the rest of the piece begun, then others. -/
theorem isPiece_splitFrom (neutral : Nesting.top.step .roundAndSquare d = .top) {s : List Char}
    (ends : (s.foldl (Nesting.step .roundAndSquare) state).isTop) (piece : List Char) :
    ∃ p others, splitFrom d state piece s = (piece.reverse ++ p) :: others ∧
      IsPiece d state p ∧ ∀ other ∈ others, IsPiece d .top other := by
  induction s generalizing state piece with
  | nil =>
      rw [List.foldl_nil] at ends
      exact ⟨[], [], by rw [splitFrom, if_pos ends, List.append_nil], ends,
        List.forall_mem_nil _⟩
  | cons c rest ih =>
      rw [List.foldl_cons] at ends
      rw [splitFrom]
      split
      · next cut =>
          simp only [Bool.and_eq_true, beq_iff_eq] at cut
          obtain ⟨rfl, top⟩ := cut
          rw [Nesting.eq_top_of_isTop top] at ends ⊢
          rw [neutral] at ends
          obtain ⟨p, others, pieces, first, later⟩ := ih ends []
          refine ⟨[], splitFrom c .top [] rest, by rw [List.append_nil], rfl, ?_⟩
          rw [pieces]
          exact List.forall_mem_cons.2 ⟨first, later⟩
      · next keep =>
          obtain ⟨p, others, pieces, first, later⟩ := ih ends (c :: piece)
          refine ⟨c :: p, others, by rw [pieces]; simp, ⟨fun same => ?_, first⟩, later⟩
          simpa [same] using keep

theorem isPiece_of_mem_splitTopLevel (neutral : Nesting.top.step .roundAndSquare d = .top)
    {s : List Char} (balanced : Balanced s) (member : p ∈ splitTopLevel d s) :
    IsPiece d .top p := by
  obtain ⟨first, others, pieces, whole, later⟩ := isPiece_splitFrom neutral balanced []
  rw [splitTopLevel, pieces] at member
  exact List.forall_mem_cons.2 ⟨whole, later⟩ p member

theorem isPiece_cons_iff {b : Char} (plain : isBlank d = false) (blank : isBlank b)
    (visible : state.IsVisible) : IsPiece d state (b :: p) ↔ IsPiece d state p := by
  rw [IsPiece, Nesting.step_of_isBlank visible blank]
  refine and_iff_right fun same => ?_
  rw [same, plain] at blank
  cases blank

theorem isPiece_concat_iff {b : Char} (plain : isBlank d = false) (blank : isBlank b)
    (visible : state.IsVisible) : IsPiece d state (p ++ [b]) ↔ IsPiece d state p := by
  induction p generalizing state with
  | nil => exact isPiece_cons_iff plain blank visible
  | cons c rest ih => exact and_congr_right' (ih (visible.step _ c))

theorem isPiece_trim_iff (plain : isBlank d = false) :
    IsPiece d .top (trim p) ↔ IsPiece d .top p := by
  induction p using trim_induction with
  | core => rw [trim_trim]
  | left b t blank ih =>
      rw [trim_cons_of_isBlank blank, ih, isPiece_cons_iff plain blank Nesting.isVisible_top]
  | right b t blank ih =>
      rw [trim_concat_of_isBlank blank, ih, isPiece_concat_iff plain blank Nesting.isVisible_top]

theorem IsPiece.append {q : List Char} (first : IsPiece d state p) (second : IsPiece d .top q) :
    IsPiece d state (p ++ q) := by
  induction p generalizing state with
  | nil =>
      have top : state.isTop := first
      rwa [List.nil_append, Nesting.eq_top_of_isTop top]
  | cons c rest ih => exact ⟨first.1, ih first.2⟩

theorem splitTopLevel_intercalate_append {pieces : List (List Char)}
    (whole : ∀ p ∈ pieces, IsPiece d .top p) (last more : List Char) :
    splitTopLevel d ([d].intercalate (pieces ++ [last]) ++ more) =
      pieces ++ splitTopLevel d (last ++ more) := by
  induction pieces with
  | nil => rw [List.nil_append, List.intercalate_singleton, List.nil_append]
  | cons p rest ih =>
      obtain ⟨own, others⟩ := List.forall_mem_cons.1 whole
      have joined : [d].intercalate (p :: rest ++ [last]) ++ more =
          p ++ d :: ([d].intercalate (rest ++ [last]) ++ more) := by
        rw [List.cons_append, List.intercalate_cons_of_ne_nil (List.append_ne_nil_of_right_ne_nil
          rest (List.cons_ne_nil last [])), List.append_assoc, List.append_assoc,
          List.singleton_append]
      rw [joined, splitTopLevel, splitFrom_append_of_isPiece own, ← splitTopLevel, ih others]
      rfl

theorem splitTopLevel_intercalate {pieces : List (List Char)} (given : pieces ≠ [])
    (whole : ∀ p ∈ pieces, IsPiece d .top p) :
    splitTopLevel d ([d].intercalate pieces) = pieces := by
  obtain ⟨front, last, rfl⟩ := (List.eq_nil_or_concat' pieces).resolve_left given
  obtain ⟨others, own⟩ := List.forall_mem_append.1 whole
  have cut := splitTopLevel_intercalate_append others last []
  rw [List.append_nil, List.append_nil] at cut
  rw [cut, splitTopLevel, splitFrom_of_isPiece (own last List.mem_cons_self)]
  rfl

/-- Pieces that are joined are found again, up to the blanks around them. -/
theorem map_trim_splitTopLevel_intercalate (plain : isBlank d = false) {pieces : List (List Char)}
    (nonempty : pieces ≠ []) (whole : ∀ p ∈ pieces, IsPiece d .top p) :
    (splitTopLevel d ([d, ' '].intercalate pieces)).map trim = pieces.map trim := by
  induction pieces with
  | nil => exact absurd rfl nonempty
  | cons p rest ih =>
      have own := whole p List.mem_cons_self
      cases rest with
      | nil =>
          rw [List.intercalate_singleton, splitTopLevel, splitFrom_of_isPiece own]
          rfl
      | cons q others =>
          have later := ih (List.cons_ne_nil q others) fun other member =>
            whole other (List.mem_cons_of_mem p member)
          have joined : [d, ' '].intercalate (p :: q :: others) =
              p ++ d :: ' ' :: [d, ' '].intercalate (q :: others) := by simp
          rw [joined, splitTopLevel, splitFrom_append_of_isPiece own, ← splitTopLevel,
            List.map_cons, map_trim_splitTopLevel_cons plain rfl, later]
          rfl

end Pieces

/-! Nothing is lost where a text is split. -/

section Joining

variable (d : Char)

theorem intercalate_fields (s : List Char) : [d].intercalate (fields (· == d) s) = s := by
  induction s with
  | nil => rfl
  | cons c rest ih =>
      rw [fields]
      cases cut : c == d with
      | true =>
          rw [if_pos rfl, List.intercalate_cons_of_ne_nil (fields_ne_nil _ rest), ih, eq_of_beq cut]
          rfl
      | false =>
          rw [if_neg Bool.false_ne_true]
          cases pieces : fields (· == d) rest with
          | nil => exact absurd pieces (fields_ne_nil _ rest)
          | cons piece others =>
              rw [pieces] at ih
              cases others with
              | nil => simpa using ih
              | cons other more => simpa using ih

theorem splitFrom_ne_nil (state : Nesting) (piece s : List Char) :
    splitFrom d state piece s ≠ [] := by
  induction s generalizing state piece with
  | nil =>
      rw [splitFrom]
      split
      · exact List.cons_ne_nil _ _
      · exact fields_ne_nil _ _
  | cons c rest ih =>
      rw [splitFrom]
      split
      · exact List.cons_ne_nil _ _
      · exact ih _ _

theorem intercalate_splitFrom (state : Nesting) (piece s : List Char) :
    [d].intercalate (splitFrom d state piece s) = piece.reverse ++ s := by
  induction s generalizing state piece with
  | nil =>
      rw [splitFrom, List.append_nil]
      split
      · exact List.intercalate_singleton
      · exact intercalate_fields d piece.reverse
  | cons c rest ih =>
      rw [splitFrom]
      split
      · next cut =>
          simp only [Bool.and_eq_true, beq_iff_eq] at cut
          rw [List.intercalate_cons_of_ne_nil (splitFrom_ne_nil d state [] rest), ih, cut.1]
          simp
      · rw [ih]
        simp

theorem intercalate_splitTopLevel (s : List Char) : [d].intercalate (splitTopLevel d s) = s :=
  intercalate_splitFrom d .top [] s

theorem infix_intercalate (sep : List Char) {piece : List Char} {pieces : List (List Char)}
    (member : piece ∈ pieces) : piece <:+: sep.intercalate pieces := by
  induction pieces with
  | nil => cases member
  | cons first rest ih =>
      cases rest with
      | nil =>
          have same : sep.intercalate [first] = piece := by
            rw [List.intercalate_singleton, List.mem_singleton.1 member]
          exact same ▸ List.infix_rfl
      | cons second others =>
          rw [List.intercalate_cons_cons]
          rcases List.mem_cons.1 member with rfl | later
          · rw [List.append_assoc]
            exact (List.prefix_append piece _).isInfix
          · exact (ih later).trans (List.suffix_append _ _).isInfix

theorem infix_of_mem_splitTopLevel {s piece : List Char} (member : piece ∈ splitTopLevel d s) :
    piece <:+: s := by
  have part := infix_intercalate [d] member
  rwa [intercalate_splitTopLevel] at part

end Joining

section Marks

variable {α : Type} {mark : α} {x y u v : List α}

theorem append_mark_inj (first : mark ∉ x) (second : mark ∉ y)
    (same : x ++ mark :: u = y ++ mark :: v) : x = y ∧ u = v := by
  induction x generalizing y with
  | nil =>
      cases y with
      | nil => exact ⟨rfl, (List.cons.inj same).2⟩
      | cons b y => exact absurd (List.cons.inj same).1 (List.ne_of_not_mem_cons second)
  | cons a x ih =>
      cases y with
      | nil => exact absurd (List.cons.inj same).1.symm (List.ne_of_not_mem_cons first)
      | cons b y =>
          obtain ⟨head, tail⟩ := List.cons.inj same
          obtain ⟨rest, later⟩ := ih (List.not_mem_of_not_mem_cons first)
            (List.not_mem_of_not_mem_cons second) tail
          exact ⟨by rw [head, rest], later⟩

theorem eq_of_splitOnce {c : Char} {s before after : List Char}
    (found : splitOnce c s = some (before, after)) : s = before ++ c :: after := by
  induction s generalizing before with
  | nil => cases found
  | cons d rest ih =>
      rw [splitOnce] at found
      split at found
      · next same =>
          cases found
          rw [eq_of_beq same, List.nil_append]
      · obtain ⟨⟨lead, tail⟩, later, same⟩ := Option.map_eq_some_iff.1 found
        cases same
        rw [ih later, List.cons_append]

theorem splitOnce_append {c : Char} {before : List Char} (free : c ∉ before) (after : List Char) :
    splitOnce c (before ++ c :: after) = some (before, after) := by
  induction before with
  | nil => simp [splitOnce]
  | cons d rest ih =>
      obtain ⟨other, later⟩ := not_or.1 (List.mem_cons.not.1 free)
      rw [List.cons_append, splitOnce, if_neg (by simpa using Ne.symm other), ih later]
      rfl

theorem splitOnce_eq_none {c : Char} {s : List Char} (free : c ∉ s) : splitOnce c s = none := by
  induction s with
  | nil => rfl
  | cons d rest ih =>
      obtain ⟨other, later⟩ := not_or.1 (List.mem_cons.not.1 free)
      rw [splitOnce, if_neg (by simpa using Ne.symm other), ih later]
      rfl

theorem splitOnce_takeWhile (c : Char) (s : List Char) :
    splitOnce c s = none ∧ s.takeWhile (· != c) = s ∨
      ∃ after, splitOnce c s = some (s.takeWhile (· != c), after) := by
  induction s with
  | nil => exact .inl ⟨rfl, rfl⟩
  | cons d rest ih =>
      by_cases same : d = c
      · subst same
        exact .inr ⟨rest, by simp [splitOnce]⟩
      · rw [splitOnce, if_neg (by simpa using same), List.takeWhile_cons_of_pos (by simpa using same)]
        rcases ih with ⟨unmarked, all⟩ | ⟨after, found⟩
        · rw [unmarked, all]
          exact .inl ⟨rfl, rfl⟩
        · rw [found]
          exact .inr ⟨after, rfl⟩

theorem mark_append_inj (first : mark ∉ u) (second : mark ∉ v)
    (same : x ++ mark :: u = y ++ mark :: v) : x = y ∧ u = v := by
  have turned : u.reverse ++ mark :: x.reverse = v.reverse ++ mark :: y.reverse := by
    simpa using congrArg List.reverse same
  obtain ⟨last, earlier⟩ := append_mark_inj (by rwa [List.mem_reverse])
    (by rwa [List.mem_reverse]) turned
  exact ⟨List.reverse_injective earlier, List.reverse_injective last⟩

end Marks

end ComputedStyle.Text
