import Mathlib
import ComputedStyle.Proofs.Syntax.Blocks

namespace ComputedStyle.Syntax

open Component

variable {c : Char} {s w : List Char}

section Names

theorem readName_append_of_ends (chars : ∀ c ∈ s, isNameChar c) (ends : readName w = ([], 0)) :
    readName (s ++ w) = (s, s.length) := by
  induction s with
  | nil => exact ends
  | cons c rest ih =>
      obtain ⟨own, later⟩ := List.forall_mem_cons.1 chars
      rw [List.cons_append, readName_cons, if_pos own, ih later]
      rfl

theorem readName_append_of_closes (chars : ∀ c ∈ s, isNameChar c) (closes : Closes w) :
    readName (s ++ w) = (s, s.length) :=
  readName_append_of_ends chars (readName_of_closes closes)

theorem startsName_append_of_isName (name : IsName s) (w : List Char) : startsName (s ++ w) := by
  obtain ⟨starts, chars⟩ := name
  cases s with
  | nil => cases starts
  | cons c rest =>
      have plain : c ≠ '\\' := by
        rintro rfl
        exact absurd (chars '\\' List.mem_cons_self) (by decide)
      rw [List.cons_append, startsName_cons]
      rw [startsName_cons] at starts
      split
      · next hyphen =>
          rw [if_pos hyphen] at starts
          cases rest with
          | nil => cases starts
          | cons d others => exact starts
      · next other =>
          rwa [if_neg other, if_neg plain] at starts

theorem isNameStart_of_isDigit (digit : c.isDigit) : isNameStart c = false := by
  have bounds : 48 ≤ c.toNat ∧ c.toNat ≤ 57 := by
    simpa [Char.isDigit, UInt32.le_iff_toNat_le] using digit
  have other : c ≠ '_' ∧ c ≠ '\x00' := by
    constructor <;> (rintro rfl; revert bounds; decide)
  have letter : c.isAlpha = false := by
    simp [Char.isAlpha, Char.isUpper, Char.isLower, UInt32.le_iff_toNat_le]
    omega
  simp [isNameStart, letter, other]
  omega

theorem startsUnsigned_of_isNameStart (starts : isNameStart c) (rest : List Char) :
    startsUnsigned (c :: rest) = false := by
  have digit : c.isDigit = false := by
    by_contra digit
    rw [isNameStart_of_isDigit (by simpa using digit)] at starts
    cases starts
  unfold startsUnsigned
  split
  · next same =>
      cases same
      cases starts
  · exact digit

theorem startsNumber_of_startsName (starts : startsName s) : startsNumber s = false := by
  cases s with
  | nil => rfl
  | cons c rest =>
      rw [startsName_cons] at starts
      split at starts
      · next hyphen =>
          subst hyphen
          cases rest with
          | nil => rfl
          | cons d others =>
              simp only [List.head?_cons, Option.any_some, Bool.or_eq_true, beq_iff_eq] at starts
              rcases starts with (first | rfl) | rfl
              · exact startsUnsigned_of_isNameStart first others
              · rfl
              · rfl
      · split at starts
        · next escape =>
            subst escape
            rfl
        · next hyphen _ =>
            unfold startsNumber
            split
            · next same =>
                cases same
                cases starts
            · next same =>
                cases same
                exact absurd rfl hyphen
            · exact startsUnsigned_of_isNameStart starts rest

theorem isUnmarked_of_isNameChar (chars : ∀ c ∈ s, isNameChar c) : IsUnmarked s where
  chars c member := not_mem_of_all (by decide) (chars c member)
  comments inside := absurd (chars '*' (inside.subset (by simp))) (by decide)
  markers mark member inside := by
    simp only [commentMarks, List.mem_cons, List.not_mem_nil, or_false] at member
    rcases member with rfl | rfl
    · exact absurd (chars '!' (inside.subset (by simp))) (by decide)
    · exact absurd (chars '>' (inside.subset (by simp))) (by decide)

theorem commentMarkLength_of_readName {name : List Char} (starts : startsName (s ++ w))
    (read : readName (s ++ w) = (name, s.length)) : commentMarkLength s = 0 := by
  rw [commentMarkLength_eq]
  split
  · next first =>
      obtain ⟨rest, rfl⟩ := first
      cases starts
  split
  · next first =>
      obtain ⟨rest, rfl⟩ := first
      have length := congrArg Prod.snd read
      have marker : isNameChar '>' = false := by decide
      have hyphen : isNameChar '-' := by decide
      simp [readName_cons, hyphen, marker] at length
  · rfl

/-- What is read as a name is one lexeme, unless it introduces a function. -/
theorem lexemes_of_unmarked {name : List Char} (nonempty : s ≠ []) (starts : startsName (s ++ w))
    (read : readName (s ++ w) = (name, s.length)) (mark : commentMarkLength (s ++ w) = 0)
    (round : '(' ∉ w.head?) : lexemes (s ++ w) = ⟨.name name, s⟩ :: lexemes w := by
  have number := startsNumber_of_startsName starts
  have like : readNameLike (s ++ w) = (.name name, s.length) := by
    rw [readNameLike_eq, read, List.drop_left, afterName_of_ne round]
  cases s with
  | nil => exact absurd rfl nonempty
  | cons c rest =>
      have special : ∀ d ∈ [' ', '\t', '\n', '\r', '\x0c', '"', '\'', '#', '/', '@'], c ≠ d := by
        rintro d member rfl
        by_cases escape : c = '\\'
        · subst escape
          revert member
          decide
        · exact not_mem_of_all (by decide) (isWordChar_of_startsName escape starts) member
      simp only [List.forall_mem_cons] at special
      rw [List.cons_append] at starts number mark like ⊢
      have scan : Token.scan c (rest ++ w) = (.name name, rest.length) := by
        simp [Token.scan, isSpace, isNewline, special, number, mark, starts, like]
      rw [lexemes_cons, scan]
      simp

theorem lexemes_of_readName {name : List Char} (starts : startsName (s ++ w))
    (read : readName (s ++ w) = (name, s.length)) (closes : Closes w) :
    lexemes (s ++ w) = ⟨.name name, s⟩ :: lexemes w := by
  have mark : commentMarkLength (s ++ w) = 0 :=
    (commentMarkLength_append closes s).trans (commentMarkLength_of_readName starts read)
  refine lexemes_of_unmarked ?_ starts read mark (closes.not_head (by decide))
  rintro rfl
  rw [List.nil_append, startsName_of_closes closes] at starts
  cases starts

theorem readName_of_readNameLike {name : List Char} (found : (readNameLike s).1 = .name name) :
    readName s = (name, (readNameLike s).2) := by
  rw [readNameLike_eq] at found ⊢
  unfold afterName at found ⊢
  split at found
  · split at found
    · split at found
      · next address =>
          have named := isAddress_readUrl? address
          dsimp only at found
          rw [found] at named
          cases named
      · cases found
    · cases found
  · cases found
    rfl

/-- Without escapes, the name that is read is as long as its lexeme. -/
theorem readName_of_scan {name : List Char} {n : Nat} (free : '\\' ∉ c :: s)
    (scan : Token.scan c s = (.name name, n)) :
    startsName (c :: s) ∧ readName (c :: s) = (name, (c :: s.take n).length) := by
  obtain ⟨starts, like, size⟩ := scan_eq_name (congrArg Prod.fst scan)
  have read := readName_of_readNameLike like
  rw [scan] at size
  refine ⟨starts, ?_⟩
  generalize (readNameLike (c :: s)).2 = k at read size
  have length : k = ((c :: s).takeWhile isWordChar).length := by
    rw [← length_readName free, read]
  have short := (List.takeWhile_sublist isWordChar (l := c :: s)).length_le
  rw [← length, List.length_cons] at short
  have own : isWordChar c :=
    isWordChar_of_startsName (fun same => free (same ▸ List.mem_cons_self)) starts
  rw [List.takeWhile_cons_of_pos own, List.length_cons] at length
  have taken : (c :: s.take n).length = k := by
    rw [List.length_cons, List.length_take]
    dsimp only at size
    omega
  rw [read, taken]

theorem lexemes_name (name : IsName s) (closes : Closes w) :
    lexemes (s ++ w) = ⟨.name s, s⟩ :: lexemes w :=
  lexemes_of_readName (startsName_append_of_isName name w)
    (readName_append_of_closes name.chars closes) closes

theorem lexemes_keyword (name : IsName s) (closes : Closes w) :
    lexemes ('@' :: (s ++ w)) = ⟨.atKeyword s, '@' :: s⟩ :: lexemes w := by
  have scan : Token.scan '@' (s ++ w) = (.atKeyword s, s.length) := by
    have number : startsNumber ('@' :: (s ++ w)) = false := rfl
    have mark : commentMarkLength ('@' :: (s ++ w)) = 0 := rfl
    simp [Token.scan, number, mark, startsName_append_of_isName name w,
      readName_append_of_closes name.chars closes, isSpace, isNewline]
  rw [lexemes_cons, scan]
  simp

end Names

section Blanks

variable {gap v : List Char}

def blankLexemes : List Char → List Lexeme
  | [] => []
  | c :: rest => [⟨.blank, c :: rest⟩]

theorem lexemes_blanks (space : ∀ c ∈ gap, isSpace c) (visible : ∀ d ∈ v.head?, isSpace d = false) :
    lexemes (gap ++ v) = blankLexemes gap ++ lexemes v := by
  cases gap with
  | nil => rfl
  | cons c rest =>
      obtain ⟨own, later⟩ := List.forall_mem_cons.1 space
      have scan : Token.scan c (rest ++ v) = (.blank, rest.length) := by
        rw [Token.scan, if_pos own, List.takeWhile_append_of_pos later]
        cases v with
        | nil => simp
        | cons d others => rw [List.takeWhile_cons_of_neg (by simp [visible d rfl]), List.append_nil]
      rw [List.cons_append, lexemes_cons, scan]
      simp [blankLexemes]

def blanks (gap : List Char) : List Component :=
  (blankLexemes gap).map .single

theorem isBlank_of_mem_blanks {component : Component} (member : component ∈ blanks gap) :
    component.token = .blank := by
  cases gap with
  | nil => cases member
  | cons c rest =>
      cases List.mem_singleton.1 member
      rfl

theorem isSpace_of_mem_blanks {component : Component} (space : ∀ c ∈ gap, isSpace c)
    (member : component ∈ blanks gap) : ∀ c ∈ component.text, isSpace c := by
  cases gap with
  | nil => cases member
  | cons c rest =>
      cases List.mem_singleton.1 member
      exact space

theorem isBlankOrComment_of_mem_blanks {component : Component} (member : component ∈ blanks gap) :
    component.isBlankOrComment := by
  rw [isBlankOrComment, isBlank_of_mem_blanks member]
  rfl

theorem reads_blanks (gap : List Char) : Reads (blankLexemes gap) (blanks gap) := by
  cases gap with
  | nil => exact reads_nil
  | cons c rest => exact reads_single rfl (by rintro ⟨⟩)

theorem read_blanks (space : ∀ c ∈ gap, isSpace c) (visible : ∀ d ∈ v.head?, isSpace d = false) :
    read (gap ++ v) = blanks gap ++ read v := by
  rw [Component.read, lexemes_blanks space visible, ofLexemes_append (reads_blanks gap).isClosed,
    (reads_blanks gap).ofLexemes_eq]
  rfl

theorem spells_blanks (space : ∀ c ∈ gap, isSpace c) : Spells gap (blanks gap) := by
  have alone := lexemes_blanks (v := []) space (by rintro _ ⟨⟩)
  rw [List.append_nil, lexemes_nil, List.append_nil] at alone
  refine ⟨?_, ?_⟩
  · rw [Ends, lexemes_blanks space (by rintro _ ⟨⟩; rfl), alone]
  · rw [alone]
    exact reads_blanks gap

theorem Stands.pad {cs : List Component} (stands : Stands s cs) (space : ∀ c ∈ gap, isSpace c)
    (visible : ∀ w, ∀ d ∈ (s ++ w).head?, isSpace d = false) :
    Stands (gap ++ s) (blanks gap ++ cs) := by
  have whole (w : List Char) :
      lexemes (gap ++ s ++ w) = blankLexemes gap ++ (lexemes s ++ lexemes w) := by
    rw [List.append_assoc, lexemes_blanks space (visible w), stands.lexemes_append]
  have alone := whole []
  rw [List.append_nil, lexemes_nil, List.append_nil] at alone
  refine ⟨fun w => ?_, ?_⟩
  · rw [whole, alone, List.append_assoc]
  · rw [alone]
    exact (reads_blanks gap).append stands.reads

theorem visible_of_startsName (starts : startsName s) : ∀ d ∈ s.head?, isSpace d = false := by
  cases s with
  | nil => exact nofun
  | cons c rest =>
      rintro _ ⟨⟩
      by_contra space
      have closes : Closes (c :: rest) := .cons (mem_closers_of_isSpace (by simpa using space)) rest
      rw [startsName_of_closes closes] at starts
      cases starts

theorem visible_of_isName (name : IsName s) (w : List Char) :
    ∀ d ∈ (s ++ w).head?, isSpace d = false :=
  visible_of_startsName (startsName_append_of_isName name w)

theorem spells_name (space : ∀ c ∈ gap, isSpace c) (name : IsName s) :
    Spells (gap ++ s) (blanks gap ++ [.single ⟨.name s, s⟩]) := by
  have whole {w : List Char} (closes : Closes w) :
      lexemes (gap ++ (s ++ w)) = blankLexemes gap ++ ⟨.name s, s⟩ :: lexemes w := by
    rw [lexemes_blanks space (visible_of_isName name w), lexemes_name name closes]
  have alone := whole (w := []) (by rintro _ ⟨⟩)
  rw [List.append_nil, lexemes_nil] at alone
  refine ⟨?_, ?_⟩
  · rw [Ends, List.append_assoc, whole (.cons (by decide) []), alone, List.append_assoc]
    rfl
  · rw [alone]
    exact (reads_blanks gap).append (reads_single rfl (by rintro ⟨⟩))

theorem isUnmarked_cons (space : isSpace c) (unmarked : IsUnmarked s) : IsUnmarked (c :: s) where
  chars := List.forall_mem_cons.2 ⟨not_mem_of_all (by decide) space, unmarked.chars⟩
  comments inside := by
    refine unmarked.comments ((List.infix_cons_iff.1 inside).resolve_left fun first => ?_)
    cases (List.cons_prefix_cons.1 first).1
    cases space
  markers mark member inside := by
    refine unmarked.markers mark member ((List.infix_cons_iff.1 inside).resolve_left fun first => ?_)
    simp only [commentMarks, List.mem_cons, List.not_mem_nil, or_false] at member
    rcases member with rfl | rfl
    all_goals
      cases (List.cons_prefix_cons.1 first).1
      cases space

theorem IsUnmarked.pad (unmarked : IsUnmarked s) (space : ∀ c ∈ gap, isSpace c) :
    IsUnmarked (gap ++ s) := by
  induction gap with
  | nil => exact unmarked
  | cons c rest ih =>
      obtain ⟨own, later⟩ := List.forall_mem_cons.1 space
      exact isUnmarked_cons own (ih later)

theorem isUnmarked_of_isSpace (space : ∀ c ∈ gap, isSpace c) : IsUnmarked gap := by
  have empty : IsUnmarked [] := isUnmarked_of_isNameChar (List.forall_mem_nil _)
  have padded := empty.pad space
  rwa [List.append_nil] at padded

theorem IsPlainText.pad (plain : IsPlainText s) (space : ∀ c ∈ gap, isSpace c) :
    IsPlainText (gap ++ s) where
  toIsUnmarked := plain.toIsUnmarked.pad space
  balanced := by
    rw [List.foldlM_append,
      foldlM_openAfter?_of_free (fun c member => isSpace_not_bracket (space c member))]
    exact plain.balanced

theorem isPlainText_cons (space : isSpace c) (plain : IsPlainText s) : IsPlainText (c :: s) :=
  plain.pad (List.forall_mem_singleton.2 space)

theorem spells_keyword {prelude : List Char} (space : ∀ c ∈ gap, isSpace c) (name : IsName s)
    (plain : IsPlainText prelude) :
    Spells (gap ++ '@' :: (s ++ ' ' :: prelude))
      (blanks gap ++ .single ⟨.atKeyword s, '@' :: s⟩ :: read (' ' :: prelude)) := by
  have whole (w : List Char) : lexemes (gap ++ '@' :: (s ++ ' ' :: w)) =
      blankLexemes gap ++ ⟨.atKeyword s, '@' :: s⟩ :: lexemes (' ' :: w) := by
    rw [lexemes_blanks space (by rintro _ ⟨⟩; rfl), lexemes_keyword name (.cons (by decide) w)]
  have spells := (isPlainText_cons (c := ' ') rfl plain).spells
  refine ⟨?_, ?_⟩
  · have ends : lexemes (' ' :: (prelude ++ [';'])) = lexemes (' ' :: prelude) ++ lexemes [';'] :=
      spells.ends
    rw [Ends, List.append_assoc, List.cons_append, List.append_assoc, List.cons_append, whole, whole,
      ends, List.append_assoc]
    rfl
  · rw [whole]
    exact (reads_blanks gap).append ((reads_single rfl (by rintro ⟨⟩)).append spells.reads)

end Blanks

section Unmarked

variable {u v : List Char} {d : Char}

theorem infix_of_append_cons {l : List Char} (apart : d ∉ l) (inside : l <:+: u ++ d :: v) :
    l <:+: u ∨ l <:+: v := by
  have free : ∀ c ∈ (d :: v).head?, c ∉ l := by
    rintro _ ⟨⟩
    exact apart
  induction u with
  | nil =>
      rcases List.infix_cons_iff.1 inside with first | later
      · have own := (isPrefix_append_iff free []).1 first
        exact .inl own.isInfix
      · exact .inr later
  | cons c rest ih =>
      rcases List.infix_cons_iff.1 inside with first | later
      · exact .inl ((isPrefix_append_iff free (c :: rest)).1 first).isInfix
      · exact (ih later).imp_left fun part => part.trans (List.suffix_cons c rest).isInfix

/-- Characters with a meaning of their own, and those that comments and markers cannot do without. -/
def marks : List Char :=
  ['"', '\'', '\\', '\x7b', '\x7d', ';', '/', '*', '<', '!', '-', '>']

theorem IsUnmarked.append_cons (first : IsUnmarked u) (second : IsUnmarked v) (plain : d ∉ marks) :
    IsUnmarked (u ++ d :: v) where
  chars := by
    refine List.forall_mem_append.2 ⟨first.chars, List.forall_mem_cons.2 ⟨fun member => plain ?_,
      second.chars⟩⟩
    exact List.mem_append_left ['/', '*', '<', '!', '-', '>'] member
  comments inside := by
    have apart : d ∉ ['/', '*'] := fun member =>
      plain (List.mem_of_mem_drop (List.mem_of_mem_take (i := 2) (l := marks.drop 6) member))
    exact (infix_of_append_cons apart inside).elim first.comments second.comments
  markers mark member inside := by
    have apart : d ∉ mark := by
      simp only [commentMarks, List.mem_cons, List.not_mem_nil, or_false] at member
      rcases member with rfl | rfl <;> (simp [marks] at plain ⊢; simp [plain])
    exact (infix_of_append_cons apart inside).elim (first.markers mark member)
      (second.markers mark member)

end Unmarked

end ComputedStyle.Syntax
