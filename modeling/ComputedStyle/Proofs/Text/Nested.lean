import ComputedStyle.Proofs.Text.Case
import ComputedStyle.Proofs.Text.Nesting

namespace ComputedStyle.Text

/-- Neither a quote nor a round or square bracket. -/
def IsBare (c : Char) : Prop :=
  c ∉ ['"', '\'', '(', ')', '[', ']']

instance : DecidablePred IsBare := fun c => inferInstanceAs (Decidable (c ∉ _))

theorem IsBare.ne_of_not {c d : Char} (bare : IsBare d) (held : ¬IsBare c) : c ≠ d :=
  fun same => held (same ▸ bare)

/-- Brackets are closed in the order in which they were opened, quoted text is closed, and outside of
both there are only characters of one kind. -/
inductive Nested : (Char → Prop) → List Char → Prop where
  | nil (kind : Char → Prop) : Nested kind []
  | plain {kind : Char → Prop} (c : Char) (s : List Char) (own : kind c) (bare : IsBare c)
      (more : Nested kind s) : Nested kind (c :: s)
  | quoted {kind : Char → Prop} (value s : List Char) (inside : '"' ∉ value)
      (more : Nested kind s) : Nested kind ('"' :: (value ++ '"' :: s))
  | round {kind : Char → Prop} (inner s : List Char) (inside : Nested (fun _ => True) inner)
      (more : Nested kind s) : Nested kind ('(' :: (inner ++ ')' :: s))
  | square {kind : Char → Prop} (inner s : List Char) (inside : Nested (fun _ => True) inner)
      (more : Nested kind s) : Nested kind ('[' :: (inner ++ ']' :: s))

namespace Nested

variable {kind : Char → Prop} {s t : List Char}

theorem append (first : Nested kind s) (second : Nested kind t) : Nested kind (s ++ t) := by
  induction first with
  | nil => exact second
  | plain c s own bare _ ih => exact .plain c _ own bare (ih second)
  | quoted value s inside _ ih =>
      rw [List.cons_append, List.append_assoc, List.cons_append]
      exact .quoted value _ inside (ih second)
  | round inner s inside _ _ ih =>
      rw [List.cons_append, List.append_assoc, List.cons_append]
      exact .round inner _ inside (ih second)
  | square inner s inside _ _ ih =>
      rw [List.cons_append, List.append_assoc, List.cons_append]
      exact .square inner _ inside (ih second)

theorem of_plain (own : ∀ c ∈ s, kind c) (bare : ∀ c ∈ s, IsBare c) : Nested kind s := by
  induction s with
  | nil => exact .nil kind
  | cons c rest ih =>
      obtain ⟨first, others⟩ := List.forall_mem_cons.1 own
      obtain ⟨bareFirst, bareOthers⟩ := List.forall_mem_cons.1 bare
      exact .plain c rest first bareFirst (ih others bareOthers)

theorem mono {other : Char → Prop} (weaker : ∀ c, kind c → other c) (nested : Nested kind s) :
    Nested other s := by
  induction nested with
  | nil => exact .nil other
  | plain c s own bare _ ih => exact .plain c s (weaker c own) bare (ih weaker)
  | quoted value s inside _ ih => exact .quoted value s inside (ih weaker)
  | round inner s inside _ _ ih => exact .round inner s inside (ih weaker)
  | square inner s inside _ _ ih => exact .square inner s inside (ih weaker)

end Nested

/-! How the readers of nested text count. -/

section Counting

variable {n : Nat} {c : Char}

theorem Nesting.step_of_isBare (bare : IsBare c) :
    Nesting.step .roundAndSquare ⟨none, n⟩ c = ⟨none, n⟩ := by
  simp only [IsBare, List.mem_cons, List.not_mem_nil, or_false, not_or] at bare
  simp [Nesting.step, Brackets.roundAndSquare, bare]

theorem Nesting.step_of_ne_quote {state : Nesting} (bare : IsBare c)
    (other : state.quote ≠ some c) : state.step .roundAndSquare c = state := by
  obtain ⟨quote, n⟩ := state
  cases quote with
  | none => exact step_of_isBare bare
  | some q =>
      have apart : (c == q) = false := beq_eq_false_iff_ne.2 fun same => other (by rw [same])
      rw [step]
      dsimp only
      rw [apart, if_neg Bool.false_ne_true]

theorem Nesting.quote_step_ne {state : Nesting} {d : Char} (bare : IsBare d)
    (other : state.quote ≠ some d) (brackets : Brackets) (c : Char) :
    (state.step brackets c).quote ≠ some d := by
  unfold step
  split
  · split
    · exact nofun
    · exact other
  · split
    · next opens =>
        intro same
        have own : c = d := Option.some.inj same
        rw [own, Bool.or_eq_true, beq_iff_eq, beq_iff_eq] at opens
        rcases opens with rfl | rfl
        · exact bare (by decide)
        · exact bare (by decide)
    · split
      · exact other
      · split <;> exact other

theorem Nesting.step_quote :
    Nesting.step .roundAndSquare ⟨none, n⟩ '"' = ⟨some '"', n⟩ :=
  rfl

theorem Nesting.step_inside (other : c ≠ '"') :
    Nesting.step .roundAndSquare ⟨some '"', n⟩ c = ⟨some '"', n⟩ := by
  simp [Nesting.step, other]

theorem Nesting.step_opener (opener : c ∈ ['(', '[']) :
    Nesting.step .roundAndSquare ⟨none, n⟩ c = ⟨none, n + 1⟩ := by
  rcases List.mem_pair.1 opener with rfl | rfl <;> rfl

theorem Nesting.step_closer (closer : c ∈ [')', ']']) :
    Nesting.step .roundAndSquare ⟨none, n + 1⟩ c = ⟨none, n⟩ := by
  rcases List.mem_pair.1 closer with rfl | rfl <;> rfl

variable {d : Char} {kind : Char → Prop} {s t : List Char}

theorem isPiece_quoted {value : List Char} (inside : '"' ∉ value)
    (rest : IsPiece d ⟨none, n⟩ t) : IsPiece d ⟨some '"', n⟩ (value ++ '"' :: t) := by
  induction value with
  | nil => exact ⟨fun _ => rfl, rest⟩
  | cons c others ih =>
      obtain ⟨other, later⟩ := not_or.1 (List.mem_cons.not.1 inside)
      refine ⟨fun _ => rfl, ?_⟩
      rw [Nesting.step_inside (Ne.symm other)]
      exact ih later

theorem Nested.isPiece_append (nested : Nested kind s) (apart : n = 0 → ¬kind d)
    (delimiter : IsBare d) (rest : IsPiece d ⟨none, n⟩ t) : IsPiece d ⟨none, n⟩ (s ++ t) := by
  induction nested generalizing n t with
  | nil => exact rest
  | plain c s own bare _ ih =>
      refine ⟨fun same => ?_, ?_⟩
      · subst same
        cases n with
        | zero => exact absurd own (apart rfl)
        | succ n => rfl
      · rw [Nesting.step_of_isBare bare]
        exact ih apart rest
  | quoted value s inside _ ih =>
      rw [List.cons_append, List.append_assoc, List.cons_append]
      refine ⟨fun same => absurd same (delimiter.ne_of_not (by decide)), ?_⟩
      rw [Nesting.step_quote]
      exact isPiece_quoted inside (ih apart rest)
  | round inner s _ _ ihInner ih =>
      rw [List.cons_append, List.append_assoc, List.cons_append]
      refine ⟨fun same => absurd same (delimiter.ne_of_not (by decide)), ?_⟩
      rw [Nesting.step_opener (by decide)]
      refine ihInner nofun ⟨fun _ => rfl, ?_⟩
      rw [Nesting.step_closer (by decide)]
      exact ih apart rest
  | square inner s _ _ ihInner ih =>
      rw [List.cons_append, List.append_assoc, List.cons_append]
      refine ⟨fun same => absurd same (delimiter.ne_of_not (by decide)), ?_⟩
      rw [Nesting.step_opener (by decide)]
      refine ihInner nofun ⟨fun _ => rfl, ?_⟩
      rw [Nesting.step_closer (by decide)]
      exact ih apart rest

end Counting

section Letters

variable {c d : Char} {state : Nesting} {s : List Char}

theorem isBare_of_isAlpha (letter : c.isAlpha) : IsBare c := by
  intro held
  have unlettered : ∀ d ∈ ['"', '\'', '(', ')', '[', ']'], d.isAlpha = false := by
    simp only [List.forall_mem_cons]
    exact ⟨rfl, rfl, rfl, rfl, rfl, rfl, List.forall_mem_nil _⟩
  rw [unlettered c held] at letter
  cases letter

theorem Nesting.step_toLower (unquoted : ∀ d, d.isAlpha → state.quote ≠ some d) (c : Char) :
    state.step .roundAndSquare c.toLower = state.step .roundAndSquare c := by
  cases letter : c.isAlpha with
  | true =>
      have lowered : c.toLower.isAlpha := by rw [Char.isAlpha_toLower_eq_isAlpha, letter]
      rw [step_of_ne_quote (isBare_of_isAlpha letter) (unquoted c letter),
        step_of_ne_quote (isBare_of_isAlpha lowered) (unquoted _ lowered)]
  | false =>
      rw [(toLower_eq_iff letter).2 rfl]

theorem isPiece_lower (other : d.isAlpha = false)
    (unquoted : ∀ d, d.isAlpha → state.quote ≠ some d) :
    IsPiece d state (lower s) ↔ IsPiece d state s := by
  induction s generalizing state with
  | nil => exact Iff.rfl
  | cons c rest ih =>
      have later : ∀ d, d.isAlpha → (state.step .roundAndSquare c).quote ≠ some d :=
        fun d letter =>
          Nesting.quote_step_ne (isBare_of_isAlpha letter) (unquoted d letter) _ c
      rw [lower, List.map_cons, IsPiece, IsPiece, toLower_eq_iff other,
        Nesting.step_toLower unquoted, ← lower, ih later]

end Letters

section Ends

variable {kind : Char → Prop} {s : List Char}

/-- A text that neither starts nor ends with a blank. -/
def IsTrimmed (s : List Char) : Prop :=
  (∀ c ∈ s.head?, isBlank c = false) ∧ ∀ c ∈ s.getLast?, isBlank c = false

theorem trim_of_isTrimmed (trimmed : IsTrimmed s) : trim s = s := by
  rw [trim, trimLeft_of_head trimmed.1, trimRight]
  rcases List.eq_nil_or_concat s with rfl | ⟨others, c, rfl⟩
  · rfl
  · have visible : isBlank c = false := trimmed.2 c (by simp)
    simp [visible]

theorem isTrimmed_trim (s : List Char) : IsTrimmed (trim s) := by
  constructor
  · intro c first
    have kept := trimLeft_trim s
    cases core : trim s with
    | nil =>
        rw [core] at first
        cases first
    | cons d rest =>
        rw [core] at first kept
        cases first
        have visible := List.dropWhile_eq_self_iff.1 kept (Nat.succ_pos _)
        simpa using visible
  · intro c last
    obtain ⟨nonempty, rfl⟩ := List.mem_getLast?_eq_getLast last
    exact Bool.eq_false_iff.2 (List.rdropWhile_last_not isBlank (trimLeft s) nonempty)

theorem trim_append_left {blanks : List Char} (blank : ∀ c ∈ blanks, isBlank c)
    (s : List Char) : trim (blanks ++ s) = trim s := by
  induction blanks with
  | nil => rfl
  | cons c rest ih =>
      obtain ⟨own, others⟩ := List.forall_mem_cons.1 blank
      rw [List.cons_append, trim_cons_of_isBlank own, ih others]

theorem trim_append_right {blanks : List Char} (blank : ∀ c ∈ blanks, isBlank c)
    (s : List Char) : trim (s ++ blanks) = trim s := by
  induction blanks using List.reverseRecOn with
  | nil => rw [List.append_nil]
  | append_singleton rest c ih =>
      rw [List.forall_mem_append, List.forall_mem_singleton] at blank
      rw [← List.append_assoc, trim_concat_of_isBlank blank.2, ih blank.1]

theorem trim_eq_nil_iff : trim s = [] ↔ ∀ c ∈ s, isBlank c := by
  refine ⟨fun empty => ?_, fun blank => ?_⟩
  · refine trim_induction (motive := fun t => ∀ c ∈ t, isBlank c) s ?_ ?_ ?_
    · rw [empty]
      exact List.forall_mem_nil _
    · exact fun b t own others => List.forall_mem_cons.2 ⟨own, others⟩
    · exact fun b t own others => List.forall_mem_append.2 ⟨others, List.forall_mem_singleton.2 own⟩
  · exact trim_append_right blank []

theorem exists_trimRight (s : List Char) :
    ∃ blanks, (∀ c ∈ blanks, isBlank c) ∧ trimRight s ++ blanks = s := by
  refine ⟨(s.reverse.takeWhile isBlank).reverse, fun c member => ?_, ?_⟩
  · exact List.mem_takeWhile_imp (List.mem_reverse.1 member)
  · rw [trimRight, ← List.reverse_append, List.takeWhile_append_dropWhile, List.reverse_reverse]

theorem mem_trimRight {c : Char} {s : List Char} (visible : isBlank c = false) (member : c ∈ s) :
    c ∈ trimRight s := by
  obtain ⟨blanks, blank, same⟩ := exists_trimRight s
  rw [← same] at member
  refine (List.mem_append.1 member).resolve_right fun last => ?_
  rw [blank c last] at visible
  cases visible

theorem isPrefix_trimRight (s : List Char) : trimRight s <+: s :=
  List.rdropWhile_prefix isBlank s

theorem trim_infix (s : List Char) : trim s <:+: s :=
  (isPrefix_trimRight _).isInfix.trans (List.dropWhile_suffix isBlank).isInfix

theorem trim_trimRight (s : List Char) : trim (trimRight s) = trim s := by
  obtain ⟨blanks, blank, same⟩ := exists_trimRight s
  conv_rhs => rw [← same, trim_append_right blank]

theorem trimRight_append_cons {c : Char} (visible : isBlank c = false) (s t : List Char) :
    trimRight (s ++ c :: t) = s ++ c :: trimRight t := by
  rw [trimRight, List.reverse_append, List.reverse_cons, List.append_assoc, List.dropWhile_append]
  split
  · next empty =>
      rw [List.singleton_append, List.dropWhile_cons_of_neg (by simp [visible]), trimRight,
        List.isEmpty_iff.1 empty]
      simp
  · simp [trimRight]

theorem isTrimmed_append {s t : List Char} (first : IsTrimmed s) (second : IsTrimmed t)
    (nonempty : s ≠ []) (others : t ≠ []) (middle : List Char) : IsTrimmed (s ++ middle ++ t) := by
  constructor
  · rw [List.append_assoc, List.head?_append_of_ne_nil _ nonempty]
    exact first.1
  · rw [List.getLast?_append_of_ne_nil _ others]
    exact second.2

theorem Nested.isTrimmed (nested : Nested kind s) (visible : ∀ c, kind c → isBlank c = false) :
    IsTrimmed s := by
  induction nested with
  | nil => exact ⟨nofun, nofun⟩
  | plain c s own bare _ ih =>
      refine ⟨fun _ same => ?_, fun _ last => ?_⟩
      · cases same
        exact visible c own
      · cases s with
        | nil =>
            cases last
            exact visible c own
        | cons => exact (ih visible).2 _ last
  | quoted value s inside _ ih =>
      refine ⟨fun _ same => by cases same; rfl, fun c last => ?_⟩
      rw [← List.cons_append, List.getLast?_append_of_ne_nil _ (by simp)] at last
      cases s with
      | nil => cases last; rfl
      | cons => exact (ih visible).2 _ last
  | round inner s inside _ _ ih =>
      refine ⟨fun _ same => by cases same; rfl, fun c last => ?_⟩
      rw [← List.cons_append, List.getLast?_append_of_ne_nil _ (by simp)] at last
      cases s with
      | nil => cases last; rfl
      | cons => exact (ih visible).2 _ last
  | square inner s inside _ _ ih =>
      refine ⟨fun _ same => by cases same; rfl, fun c last => ?_⟩
      rw [← List.cons_append, List.getLast?_append_of_ne_nil _ (by simp)] at last
      cases s with
      | nil => cases last; rfl
      | cons => exact (ih visible).2 _ last

end Ends

end ComputedStyle.Text
