import ComputedStyle.Proofs.Selector.Alike
import ComputedStyle.Proofs.Selector.Escape
import ComputedStyle.Proofs.Text.Insertion

/-!
Places for one more simple selector in the text of a compound.

There is one wherever a simple selector ends, or the tag, or no compound has begun. Brackets hold
places too: those of `:not` by the compound in them, and those that nobody reads into. Texts of simple
selectors that are alike make alike compounds in the same place.
-/

namespace ComputedStyle

open Text

namespace Selector

section Head

variable {s rest : List Char} {compound : Compound}

theorem StartsSimple.visible (starts : StartsSimple s) : ∀ c ∈ s.head?, isBlank c = false := by
  intro c first
  have listed := starts c first
  simp only [List.mem_cons, List.not_mem_nil, or_false] at listed
  rcases listed with rfl | rfl | rfl | rfl <;> rfl

theorem readTag_append (first : StartsSimple (readTag s).2) (starts : StartsSimple rest) :
    readTag (s ++ rest) = ((readTag s).1, (readTag s).2 ++ rest) := by
  cases s with
  | nil =>
      cases rest with
      | nil => rfl
      | cons c later =>
          have listed := starts c rfl
          simp only [List.mem_cons, List.not_mem_nil, or_false] at listed
          rcases listed with rfl | rfl | rfl | rfl <;> rfl
  | cons c later =>
      rw [readTag] at first
      rw [List.cons_append, readTag, readTag]
      split at first
      · next any => rw [if_pos any, if_pos any]
      · next nonempty =>
          rw [if_neg nonempty, if_neg nonempty]
          split at first
          · next named =>
              have whole := readIdent_append_starts (s := c :: later) first.ne_backslash
                starts.endsIdent
              rw [List.cons_append] at whole
              rw [if_pos named, if_pos named, whole]
          · next bare =>
              rw [if_neg bare, if_neg bare]
              rfl

/-- Reads the start of a compound without the blanks before it; there may be nothing else. -/
def readHead (s : List Char) : Except SelectorError Compound :=
  readSimples { Compound.empty with tag := (readTag (trimLeft s)).1 } (readTag (trimLeft s)).2

/-- A compound that asks for nothing is none. -/
def filled (compound : Compound) : Except SelectorError Compound :=
  if compound.isEmpty then .error .unreadable else .ok compound

theorem readCompound_eq (s : List Char) : readCompound s = readHead (trim s) >>= filled := by
  rw [readCompound, readHead, trimLeft_trim]
  rfl

theorem readCompound_trim (s : List Char) : readCompound (trim s) = readCompound s := by
  rw [readCompound_eq, trim_trim, ← readCompound_eq]

theorem readHead_append (read : readHead s = .ok compound) (starts : StartsSimple rest) :
    readHead (trimLeft s ++ rest) = readSimples compound rest := by
  have first := startsSimple_of_readSimples read
  have left : trimLeft (trimLeft s ++ rest) = trimLeft s ++ rest := by
    apply trimLeft_of_head
    intro c head
    cases own : trimLeft s with
    | nil =>
        rw [own] at head
        exact starts.visible c head
    | cons d later =>
        have ends := List.head?_dropWhile_not isBlank s
        rw [← trimLeft, own] at ends
        rw [own] at head
        cases head
        simpa using ends
  rw [readHead, left, readTag_append first starts]
  exact readSimples_append read starts

theorem readCompound_insert {middle : List Char} (read : readHead s = .ok compound)
    (trimmed : IsTrimmed middle) (nonempty : middle ≠ []) (starts : StartsSimple middle)
    (after : List Char) :
    readCompound (s ++ middle ++ after) =
      readSimples compound (middle ++ trimRight after) >>= filled := by
  have starts' : StartsSimple (middle ++ trimRight after) := by
    obtain ⟨c, later, rfl⟩ := List.exists_cons_of_ne_nil nonempty
    exact starts
  rw [readCompound_eq, trim_insert trimmed nonempty, List.append_assoc, readHead_append read starts']

end Head

section Brackets

variable {name ident s : List Char}

/-- What stands before the name of a pseudo-class, or of a pseudo-element in the newer way. -/
def colons (doubled : Bool) : List Char :=
  if doubled then [':', ':'] else [':']

theorem readPseudoName_bracket (doubled : Bool) {inner : List Char}
    (named : readIdent name = (ident, []))
    (bracket : readBracket '(' ')' (inner ++ [')']) = some (inner, [])) (rest : List Char) :
    readPseudoName doubled (name ++ '(' :: (inner ++ ')' :: rest)) =
      if ident.isEmpty then .error .unreadable
      else .ok ⟨doubled, lower ident, some inner, rest⟩ := by
  have ends : EndsIdent ('(' :: (inner ++ ')' :: rest)) := endsIdent_cons rfl (by decide)
  have whole := readIdent_append_starts (s := name) (by simp [named]) ends
  have inside : readBracket '(' ')' (inner ++ ')' :: rest) = some (inner, rest) := by
    have longer : readBracket '(' ')' (inner ++ [')'] ++ rest) = some (inner, [] ++ rest) :=
      readBalanced_append bracket rest
    rwa [List.append_assoc] at longer
  rw [named] at whole
  rw [readPseudoName, whole]
  simp only [List.nil_append, inside]

theorem readSimple_bracket (doubled : Bool) {inner : List Char}
    (named : readIdent name = (ident, []))
    (bracket : readBracket '(' ')' (inner ++ [')']) = some (inner, [])) (rest : List Char) :
    readSimple (colons doubled ++ (name ++ '(' :: (inner ++ ')' :: rest))) =
      if ident.isEmpty then .error .unreadable
      else if doubled || String.ofList (lower ident) ∈ elementNames then
        .ok (.pseudoElement (String.ofList (lower ident)), rest)
      else PseudoText.meaning ⟨doubled, lower ident, some inner, rest⟩ >>= fun pseudo =>
        .ok (.pseudoClass pseudo, rest) := by
  have own := readPseudoName_bracket doubled named bracket rest
  have read : readPseudo ((colons doubled).tail ++ (name ++ '(' :: (inner ++ ')' :: rest))) =
      readPseudoName doubled (name ++ '(' :: (inner ++ ')' :: rest)) := by
    cases doubled with
    | true => rfl
    | false =>
        cases name with
        | nil => rfl
        | cons c later =>
            rw [colons, if_neg Bool.false_ne_true, List.tail_cons, List.nil_append,
              List.cons_append, readPseudo]
            intro tail same
            cases same
            cases named
  have mark : colons doubled = ':' :: (colons doubled).tail := by
    cases doubled <;> rfl
  rw [mark, List.cons_append, readSimple, read, own]
  split
  · rfl
  · rfl

/-- Two arguments that mean the same after `:not` mean the same in every pseudo-class without a
formula. -/
theorem readSimple_bracket_agree (doubled : Bool) {inner inner' : List Char}
    (named : readIdent name = (ident, []))
    (bracket : readBracket '(' ')' (inner ++ [')']) = some (inner, []))
    (bracket' : readBracket '(' ')' (inner' ++ [')']) = some (inner', []))
    (plain : String.ofList (lower ident) ∉ formulaNames)
    (negates : doubled = false → String.ofList (lower ident) = "not" →
      Agree Compound.Alike (readCompound inner) (readCompound inner')) (rest : List Char) :
    Agree (fun read read' => read.1.Alike read'.1 ∧ read'.2 = read.2)
      (readSimple (colons doubled ++ (name ++ '(' :: (inner ++ ')' :: rest))))
      (readSimple (colons doubled ++ (name ++ '(' :: (inner' ++ ')' :: rest)))) := by
  rw [readSimple_bracket doubled named bracket, readSimple_bracket doubled named bracket']
  split
  · exact .error _
  · split
    · exact .ok ⟨.refl _, rfl⟩
    · next class_ =>
        simp only [Bool.or_eq_true, decide_eq_true_eq, not_or, Bool.not_eq_true] at class_
        simp only [PseudoText.meaning]
        split
        · next not_ =>
            refine ((negates class_.1 not_).map (S := fun pseudo pseudo' =>
              Simple.Alike (.pseudoClass pseudo) (.pseudoClass pseudo')) ?_).bind ?_
            · exact fun _ _ alike => Simple.alike_not alike
            · exact fun _ _ alike => .ok ⟨alike, rfl⟩
        · have same : functionalPseudoClass (String.ofList (lower ident)) inner' =
              functionalPseudoClass (String.ofList (lower ident)) inner := by
            simp only [formulaNames, List.mem_cons, List.not_mem_nil, or_false, not_or] at plain
            simp [functionalPseudoClass, plain]
          rw [same]
          exact .bind_same fun _ => .ok ⟨.refl _, rfl⟩

theorem readBalanced_append_left (free : ')' ∉ s) (state : Nesting) (rest : List Char) :
    readBalanced '(' ')' state (s ++ rest) =
      within s (readBalanced '(' ')' (s.foldl (Nesting.step .round) state) rest) := by
  induction s generalizing state with
  | nil => exact (within_nil _).symm
  | cons c others ih =>
      obtain ⟨other, later⟩ := not_or.1 (List.mem_cons.not.1 free)
      rw [List.cons_append, readBalanced_cons (by simp [Ne.symm other]), ih later, within_within]
      rfl

theorem readBalanced_insert {kind : Char → Prop} (passed : IsPassed kind s) {state : Nesting}
    (proper : state.IsProper) {before rest inner after : List Char}
    (read : readBalanced '(' ')' state (before ++ rest) = some (before ++ inner, after)) :
    readBalanced '(' ')' state (before ++ s ++ rest) = some (before ++ s ++ inner, after) := by
  induction before generalizing state with
  | nil =>
      rw [List.nil_append, readBalanced_append_left passed.unclosed, passed.round state proper]
      exact congrArg (within s) read
  | cons c others ih =>
      rw [List.cons_append, readBalanced] at read
      rw [List.cons_append, List.cons_append, readBalanced]
      split at read
      · cases read
      · next goes =>
          obtain ⟨⟨inside, final⟩, found, same⟩ := Option.map_eq_some_iff.1 read
          cases same
          rw [if_neg goes, ih (proper.step _ c) found]
          rfl

theorem isTrimmed_bracket (doubled : Bool) (name inner : List Char) :
    IsTrimmed (colons doubled ++ (name ++ '(' :: (inner ++ [')']))) := by
  constructor
  · intro c first
    cases doubled <;> cases first <;> rfl
  · intro c last
    have own : (colons doubled ++ (name ++ '(' :: (inner ++ [')']))).getLast? = some ')' := by
      rw [← List.cons_append, ← List.append_assoc, ← List.append_assoc, List.getLast?_concat]
    cases own.symm.trans last
    rfl

theorem readSimples_bracket_agree (compound : Compound) (doubled : Bool) {inner inner' : List Char}
    (named : readIdent name = (ident, []))
    (bracket : readBracket '(' ')' (inner ++ [')']) = some (inner, []))
    (bracket' : readBracket '(' ')' (inner' ++ [')']) = some (inner', []))
    (plain : String.ofList (lower ident) ∉ formulaNames)
    (negates : doubled = false → String.ofList (lower ident) = "not" →
      Agree Compound.Alike (readCompound inner) (readCompound inner')) (rest : List Char) :
    Agree Compound.Alike
      (readSimples compound (colons doubled ++ (name ++ '(' :: (inner ++ ')' :: rest))))
      (readSimples compound (colons doubled ++ (name ++ '(' :: (inner' ++ ')' :: rest)))) := by
  have ended : ∀ s, IsOver compound (colons doubled ++ s) ↔ compound.pseudoElement.isSome := by
    cases doubled <;> simp [IsOver, colons]
  have filled : ∀ s, colons doubled ++ s ≠ [] := by
    cases doubled <;> simp [colons]
  rw [readSimples_eq compound (filled _), readSimples_eq compound (filled _)]
  simp only [ended]
  split
  · exact .error _
  · refine (readSimple_bracket_agree doubled named bracket bracket' plain negates rest).bind ?_
    rintro ⟨simple, after⟩ ⟨simple', after'⟩ ⟨alike, rfl⟩
    exact readSimples_alike ((Compound.Alike.refl compound).adding alike) _

end Brackets

/-- Between two parts of the text of a compound there is a place for a simple selector: after a simple
selector or the tag, or in brackets that hold no formula. Only the brackets of `:not` are read into. -/
inductive SimplePlace : List Char → List Char → Prop where
  | here {before after : List Char} {compound : Compound} (read : readHead before = .ok compound)
      (ends : EndsIdent after) : SimplePlace before after
  | inside {lead name before after later ident : List Char} {compound : Compound} (doubled : Bool)
      (read : readHead lead = .ok compound) (named : readIdent name = (ident, []))
      (bracket : readBracket '(' ')' (before ++ (after ++ [')'])) = some (before ++ after, []))
      (plain : String.ofList (lower ident) ∉ formulaNames)
      (negates : doubled = false → String.ofList (lower ident) = "not" → SimplePlace before after) :
      SimplePlace (lead ++ (colons doubled ++ (name ++ '(' :: before))) (after ++ ')' :: later)

/-- A text that is read as one simple selector wherever an identifier may end behind it. -/
structure Spells (s : List Char) (simple : Simple) : Prop where
  passed : IsPassed (endsCompound · = false) s
  trimmed : IsTrimmed s
  colonless : s.head? ≠ some ':'
  reads : ∀ rest, EndsIdent rest → readSimple (s ++ rest) = .ok (simple, rest)

section Spells

variable {s s' : List Char} {simple simple' : Simple}

theorem Spells.ne_nil (spells : Spells s simple) : s ≠ [] := by
  rintro rfl
  have read := spells.reads [] endsIdent_nil
  cases read

theorem Spells.startsSimple (spells : Spells s simple) : StartsSimple s := by
  have read := spells.reads [] endsIdent_nil
  rw [List.append_nil] at read
  exact startsSimple_of_readSimple read

theorem Spells.readSimples_eq (spells : Spells s simple) (compound : Compound) {rest : List Char}
    (ends : EndsIdent rest) :
    readSimples compound (s ++ rest) = readSimples (compound.adding simple) rest := by
  have open_ : ¬IsOver compound (s ++ rest) := by
    rw [IsOver, List.head?_append_of_ne_nil _ spells.ne_nil]
    exact fun ended => spells.colonless ended.2
  rw [Selector.readSimples_eq compound (by simp [spells.ne_nil]), if_neg open_,
    spells.reads rest ends]
  rfl

theorem EndsIdent.trimRight {rest : List Char} (ends : EndsIdent rest) :
    EndsIdent (trimRight rest) := by
  obtain ⟨blanks, -, same⟩ := exists_trimRight rest
  intro c first
  refine ends c ?_
  rw [← same]
  cases own : Text.trimRight rest with
  | nil => rw [own] at first; cases first
  | cons d later => rw [own] at first; exact first

theorem filled_agree {compound other : Compound} (alike : compound.Alike other) :
    Agree Compound.Alike (filled compound) (filled other) := by
  rw [filled, filled, alike.isEmpty]
  split
  · exact .error _
  · exact .ok alike

theorem SimplePlace.readCompound_agree {before after : List Char}
    (place : SimplePlace before after) (spells : Spells s simple) (spells' : Spells s' simple')
    (alike : simple.Alike simple') :
    Agree Compound.Alike (readCompound (before ++ s ++ after))
      (readCompound (before ++ s' ++ after)) := by
  induction place with
  | @here before after compound read ends =>
      rw [readCompound_insert read spells.trimmed spells.ne_nil spells.startsSimple,
        readCompound_insert read spells'.trimmed spells'.ne_nil spells'.startsSimple,
        spells.readSimples_eq compound ends.trimRight,
        spells'.readSimples_eq compound ends.trimRight]
      have same : (compound.adding simple).Alike (compound.adding simple') :=
        (Compound.Alike.refl compound).adding alike
      exact (readSimples_alike same _).bind fun _ _ => filled_agree
  | @inside lead name before after later ident compound doubled read named bracket plain negates ih =>
      have longer {t : List Char} (passed : IsPassed (endsCompound · = false) t) :
          readBracket '(' ')' (before ++ t ++ after ++ [')']) = some (before ++ t ++ after, []) := by
        rw [List.append_assoc (before ++ t)]
        exact readBalanced_insert passed (Nesting.isProper_none 1) bracket
      have split (t : List Char) :
          lead ++ (colons doubled ++ (name ++ '(' :: before)) ++ t ++ (after ++ ')' :: later) =
            lead ++ (colons doubled ++ (name ++ '(' :: (before ++ t ++ after ++ [')']))) ++ later := by
        simp
      have ends (t : List Char) :
          colons doubled ++ (name ++ '(' :: (before ++ t ++ after ++ [')'])) ++ trimRight later =
            colons doubled ++
              (name ++ '(' :: (before ++ t ++ after ++ ')' :: trimRight later)) := by
        simp
      have starts (t : List Char) : StartsSimple (colons doubled ++ t) := by
        cases doubled <;> rintro c ⟨⟩ <;> decide
      have nonempty (t : List Char) : colons doubled ++ t ≠ [] := by
        cases doubled <;> exact List.cons_ne_nil _ _
      rw [split, split, readCompound_insert read (isTrimmed_bracket ..) (nonempty _) (starts _),
        readCompound_insert read (isTrimmed_bracket ..) (nonempty _) (starts _), ends, ends]
      exact (readSimples_bracket_agree compound doubled named (longer spells.passed)
        (longer spells'.passed) plain ih _).bind fun _ _ => filled_agree

end Spells

end Selector

end ComputedStyle
