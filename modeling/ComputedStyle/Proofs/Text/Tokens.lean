import ComputedStyle.Proofs.Text.Closed

namespace ComputedStyle.Text

section Blanks

variable {state : Nesting} {token s : List Char} {b c : Char}

theorem isFree_of_isBlank (blank : isBlank b) : IsFree b := by
  intro held
  simp only [List.mem_cons, List.not_mem_nil, or_false] at held
  rcases held with rfl | rfl | rfl | rfl <;> cases blank

theorem Nesting.step_round_of_isBlank (visible : state.IsVisible) (blank : isBlank b) :
    state.step .round b = state := by
  obtain ⟨quote, n⟩ := state
  cases quote with
  | none => exact step_of_isFree (isFree_of_isBlank blank)
  | some q =>
      apply step_in_quote
      rintro rfl
      rw [visible b rfl] at blank
      cases blank

theorem Nesting.isVisible_foldl (visible : state.IsVisible) (brackets : Brackets)
    (s : List Char) : (s.foldl (Nesting.step brackets) state).IsVisible := by
  induction s generalizing state with
  | nil => exact visible
  | cons c rest ih => exact ih (visible.step brackets c)

theorem tokensFrom_blank (blank : isBlank b) (s : List Char) :
    tokensFrom .top [] (b :: s) = tokensFrom .top [] s := by
  rw [tokensFrom, blank]
  rfl

theorem tokensFrom_cut (blank : isBlank b) (given : token ≠ []) (s : List Char) :
    tokensFrom .top token (b :: s) = token.reverse :: tokensFrom .top [] s := by
  have begun : token.isEmpty = false := List.isEmpty_eq_false_iff.2 given
  rw [tokensFrom, blank, begun]
  rfl

theorem tokensFrom_keep (kept : (isBlank c && state.isTop) = false) (token s : List Char) :
    tokensFrom state token (c :: s) = tokensFrom (state.step .round c) (c :: token) s := by
  rw [tokensFrom, kept, if_neg Bool.false_ne_true]

/-- A reader is at a blank outside of everything, or it goes on with its token. -/
theorem blank_cases (state : Nesting) (c : Char) :
    state = .top ∧ isBlank c ∨ (isBlank c && state.isTop) = false := by
  cases blank : isBlank c with
  | false => exact .inr rfl
  | true =>
      cases top : state.isTop with
      | false => exact .inr rfl
      | true => exact .inl ⟨Nesting.eq_top_of_isTop top, rfl⟩

theorem tokensFrom_concat_blank (blank : isBlank b)
    (ends : s.foldl (Nesting.step .round) state = .top) (token : List Char) :
    tokensFrom state token (s ++ [b]) = tokensFrom state token s := by
  induction s generalizing state token with
  | nil =>
      rw [List.foldl_nil] at ends
      rw [ends, List.nil_append]
      by_cases given : token = []
      · rw [given, tokensFrom_blank blank]
      · rw [tokensFrom_cut blank given, tokensFrom, tokensFrom]
        simp [given]
  | cons c rest ih =>
      rw [List.foldl_cons] at ends
      rw [List.cons_append]
      rcases blank_cases state c with ⟨rfl, between⟩ | kept
      · rw [Nesting.step_round_of_isBlank Nesting.isVisible_top between] at ends
        by_cases given : token = []
        · rw [given, tokensFrom_blank between, tokensFrom_blank between, ih ends]
        · rw [tokensFrom_cut between given, tokensFrom_cut between given, ih ends]
      · rw [tokensFrom_keep kept, tokensFrom_keep kept, ih ends]

theorem valueTokens_eq_tokensFrom (ends : s.foldl (Nesting.step .round) .top = .top) :
    valueTokens s = tokensFrom .top [] s := by
  rw [valueTokens]
  induction s using trim_induction with
  | core => rw [trim_trim]
  | left b t blank ih =>
      rw [List.foldl_cons, Nesting.step_round_of_isBlank Nesting.isVisible_top blank] at ends
      rw [trim_cons_of_isBlank blank, tokensFrom_blank blank, ih ends]
  | right b t blank ih =>
      rw [List.foldl_append, List.foldl_cons, List.foldl_nil, Nesting.step_round_of_isBlank
        (Nesting.isVisible_foldl Nesting.isVisible_top _ t) blank] at ends
      rw [trim_concat_of_isBlank blank, tokensFrom_concat_blank blank ends, ih ends]

end Blanks

section Gaps

variable {state : Nesting} {s t : List Char} {c : Char} {i : Nat}

/-- At place `i` a reader that starts in a state meets a blank outside of brackets and quotes. -/
def IsGap (state : Nesting) (s : List Char) (i : Nat) : Prop :=
  s[i]?.any isBlank ∧ ((s.take i).foldl (Nesting.step .round) state).isTop

instance (state : Nesting) (s : List Char) : DecidablePred (IsGap state s) :=
  fun _ => inferInstanceAs (Decidable (_ ∧ _))

def IsUncut (state : Nesting) (s : List Char) : Prop :=
  ∀ i, ¬IsGap state s i

theorem isGap_cons_zero : IsGap state (c :: s) 0 ↔ (isBlank c && state.isTop) := by
  simp [IsGap]

theorem isGap_cons_succ : IsGap state (c :: s) (i + 1) ↔ IsGap (state.step .round c) s i := by
  simp [IsGap]

theorem isUncut_nil : IsUncut state [] := by
  simp [IsUncut, IsGap]

theorem isUncut_cons_iff : IsUncut state (c :: s) ↔
    (isBlank c && state.isTop) = false ∧ IsUncut (state.step .round c) s := by
  rw [IsUncut, ← Nat.and_forall_add_one, isGap_cons_zero, Bool.not_eq_true]
  simp only [isGap_cons_succ, IsUncut]

theorem isUncut_append_iff : IsUncut state (s ++ t) ↔
    IsUncut state s ∧ IsUncut (s.foldl (Nesting.step .round) state) t := by
  induction s generalizing state with
  | nil => simp [isUncut_nil]
  | cons c rest ih => simp [isUncut_cons_iff, ih, and_assoc]

instance decidableIsUncut : ∀ state s, Decidable (IsUncut state s)
  | _, [] => .isTrue isUncut_nil
  | state, c :: s =>
      have := decidableIsUncut (state.step .round c) s
      decidable_of_iff _ isUncut_cons_iff.symm

/-- A reader meets no blank outside of everything, and is outside at the end. Brackets may be closed
where none is open. -/
structure IsToken (t : List Char) : Prop where
  given : t ≠ []
  uncut : IsUncut .top t
  ends : t.foldl (Nesting.step .round) .top = .top

instance : DecidablePred IsToken := fun t =>
  decidable_of_iff (t ≠ [] ∧ IsUncut .top t ∧ t.foldl (Nesting.step .round) .top = .top)
    ⟨fun h => ⟨h.1, h.2.1, h.2.2⟩, fun h => ⟨h.given, h.uncut, h.ends⟩⟩

theorem tokensFrom_append (uncut : IsUncut state t) (token rest : List Char) :
    tokensFrom state token (t ++ rest) =
      tokensFrom (t.foldl (Nesting.step .round) state) (t.reverse ++ token) rest := by
  induction t generalizing state token with
  | nil => rfl
  | cons c s ih =>
      obtain ⟨kept, later⟩ := isUncut_cons_iff.1 uncut
      rw [List.cons_append, tokensFrom_keep kept, ih later, List.foldl_cons]
      simp

theorem IsToken.tokensFrom_append (token : IsToken t) (rest : List Char) :
    tokensFrom .top [] (t ++ rest) = tokensFrom .top t.reverse rest := by
  rw [Text.tokensFrom_append token.uncut, token.ends, List.append_nil]

theorem IsToken.tokensFrom (token : IsToken t) : tokensFrom .top [] t = [t] := by
  have alone := token.tokensFrom_append []
  rw [List.append_nil, Text.tokensFrom] at alone
  simpa [token.given] using alone

end Gaps

section Tokens

variable {inside outside : Char → Prop} {state last : Nesting} {token s t : List Char} {c : Char}

/-- The kind of characters that tokens are made of. -/
def IsSolid (c : Char) : Prop :=
  isBlank c = false

instance : DecidablePred IsSolid := fun c => inferInstanceAs (Decidable (isBlank c = false))

theorem Leads.foldl_eq (leads : Leads inside outside state s last) :
    s.foldl (Nesting.step .round) state = last := by
  induction leads with
  | nil => rfl
  | cons _ _ ih => exact ih

theorem Closed.valueTokens_eq (closed : Closed inside outside s) :
    valueTokens s = tokensFrom .top [] s :=
  valueTokens_eq_tokensFrom (closed_iff_leads.1 closed).foldl_eq

theorem Nesting.Admits.solid (admits : state.Admits inside outside c)
    (kept : (isBlank c && state.isTop) = false) : state.Admits inside IsSolid c := by
  refine ⟨?_, admits.inner, admits.opened⟩
  rintro rfl _
  exact (Bool.and_true (isBlank c)).symm.trans kept

/-- The token begun leads to where the reader is, and the text from there back to the top. -/
theorem closed_of_mem_tokensFrom (token : List Char)
    (begun : Leads inside IsSolid .top token.reverse state)
    (leads : Leads inside outside state s .top) :
    ∀ t ∈ tokensFrom state token s, t ≠ [] ∧ Closed inside IsSolid t := by
  induction s generalizing state token with
  | nil =>
      cases leads_nil_iff.1 leads
      rw [tokensFrom]
      split
      · exact List.forall_mem_nil _
      · next given =>
          have nonempty : token.reverse ≠ [] := by simpa using given
          exact List.forall_mem_singleton.2 ⟨nonempty, closed_iff_leads.2 begun⟩
  | cons c rest ih =>
      obtain ⟨admits, more⟩ := leads_cons_iff.1 leads
      rcases blank_cases state c with ⟨rfl, blank⟩ | kept
      · rw [Nesting.step_round_of_isBlank Nesting.isVisible_top blank] at more
        have later := ih [] (.nil .top) more
        by_cases given : token = []
        · rw [given, tokensFrom_blank blank]
          exact later
        · rw [tokensFrom_cut blank given]
          have nonempty : token.reverse ≠ [] := by simpa using given
          exact List.forall_mem_cons.2 ⟨⟨nonempty, closed_iff_leads.2 begun⟩, later⟩
      · rw [tokensFrom_keep kept]
        apply ih (c :: token) _ more
        rw [List.reverse_cons]
        apply begun.append
        exact .cons (admits.solid kept) (.nil _)

/-- The tokens of a closed text are closed, and there are blanks only inside their brackets and
quotes. -/
theorem Closed.mem_valueTokens (closed : Closed inside outside s) (member : t ∈ valueTokens s) :
    t ≠ [] ∧ Closed inside IsSolid t := by
  rw [closed.valueTokens_eq] at member
  exact closed_of_mem_tokensFrom [] (.nil .top) (closed_iff_leads.1 closed) t member

theorem Leads.isUncut (leads : Leads inside IsSolid state t last) : IsUncut state t := by
  induction leads with
  | nil => exact isUncut_nil
  | @cons state last c s admits _ ih =>
      refine isUncut_cons_iff.2 ⟨?_, ih⟩
      rcases blank_cases state c with ⟨rfl, blank⟩ | kept
      · have solid : isBlank c = false := admits.outer rfl (isFree_of_isBlank blank)
        rw [solid, Bool.false_and]
      · exact kept

theorem Closed.isToken (given : t ≠ []) (closed : Closed inside IsSolid t) : IsToken t :=
  have leads := closed_iff_leads.1 closed
  ⟨given, leads.isUncut, leads.foldl_eq⟩

theorem Closed.intercalate {d : Char} (own : outside d) (free : IsFree d)
    {pieces : List (List Char)} (each : ∀ p ∈ pieces, Closed inside outside p) :
    Closed inside outside ([d].intercalate pieces) := by
  induction pieces with
  | nil => exact .nil _
  | cons p rest ih =>
      obtain ⟨first, others⟩ := List.forall_mem_cons.1 each
      cases rest with
      | nil =>
          rw [List.intercalate_singleton]
          exact first
      | cons q more =>
          rw [List.intercalate_cons_cons, List.append_assoc]
          exact first.append (.plain d _ own free (ih others))

theorem isWhole_intercalate {tokens : List (List Char)} (each : ∀ t ∈ tokens, IsWhole t) :
    IsWhole ([' '].intercalate tokens) :=
  Closed.intercalate trivial (by decide) each

end Tokens

section Cuts

variable {inside outside : Char → Prop} {state : Nesting} {token s t : List Char} {d : Char}

theorem Closed.of_append (front : Closed inside outside s)
    (whole : Closed inside outside (s ++ t)) : Closed inside outside t := by
  obtain ⟨middle, first, second⟩ := leads_append_iff.1 (closed_iff_leads.1 whole)
  have top : middle = .top := first.foldl_eq.symm.trans (closed_iff_leads.1 front).foldl_eq
  rw [top] at second
  exact closed_iff_leads.2 second

theorem Closed.of_cons (free : IsFree d) (whole : Closed inside outside (d :: s)) :
    Closed inside outside s := by
  obtain ⟨-, more⟩ := leads_cons_iff.1 (closed_iff_leads.1 whole)
  have step : Nesting.top.step .round d = .top := Nesting.step_of_isFree (n := 0) free
  rw [step] at more
  exact closed_iff_leads.2 more

theorem exists_tokensFrom (begun : token ≠ []) (state : Nesting) (s : List Char) :
    ∃ after more, tokensFrom state token s = (token.reverse ++ after) :: more := by
  induction s generalizing state token with
  | nil =>
      refine ⟨[], [], ?_⟩
      rw [tokensFrom, List.append_nil]
      simp [begun]
  | cons c rest ih =>
      rcases blank_cases state c with ⟨rfl, blank⟩ | kept
      · exact ⟨[], tokensFrom .top [] rest, by rw [tokensFrom_cut blank begun, List.append_nil]⟩
      · obtain ⟨after, more, same⟩ := ih (List.cons_ne_nil c token) (state.step .round c)
        refine ⟨c :: after, more, ?_⟩
        rw [tokensFrom_keep kept, same, List.reverse_cons, List.append_assoc]
        rfl

/-- A text goes on with what is no blank. Its last token may go on with it; all others are tokens
still. -/
theorem mem_tokensFrom_front (leads : Leads inside outside state s .top) (solid : IsSolid d)
    (rest : List Char) : ∀ t ∈ tokensFrom state token s,
      t ∈ tokensFrom state token (s ++ d :: rest) ∨
        ∃ after, t ++ d :: after ∈ tokensFrom state token (s ++ d :: rest) := by
  induction s generalizing state token with
  | nil =>
      cases leads_nil_iff.1 leads
      intro t member
      rw [tokensFrom] at member
      split at member
      · cases member
      · rw [List.mem_singleton.1 member]
        have kept : (isBlank d && Nesting.top.isTop) = false := by
          rw [show isBlank d = false from solid, Bool.false_and]
        obtain ⟨after, more, same⟩ := exists_tokensFrom (List.cons_ne_nil d token)
          (Nesting.top.step .round d) rest
        right
        refine ⟨after, ?_⟩
        rw [List.nil_append, tokensFrom_keep kept, same]
        simp
  | cons c s ih =>
      obtain ⟨-, more⟩ := leads_cons_iff.1 leads
      rcases blank_cases state c with ⟨rfl, blank⟩ | kept
      · rw [Nesting.step_round_of_isBlank Nesting.isVisible_top blank] at more
        by_cases begun : token = []
        · rw [begun, List.cons_append, tokensFrom_blank blank, tokensFrom_blank blank]
          exact ih more
        · rw [List.cons_append, tokensFrom_cut blank begun, tokensFrom_cut blank begun]
          intro t member
          rcases List.mem_cons.1 member with rfl | member
          · exact .inl List.mem_cons_self
          · rcases ih more t member with same | ⟨after, longer⟩
            · exact .inl (List.mem_cons_of_mem _ same)
            · exact .inr ⟨after, List.mem_cons_of_mem _ longer⟩
      · rw [List.cons_append, tokensFrom_keep kept, tokensFrom_keep kept]
        exact ih more

theorem Closed.mem_valueTokens_front (front : Closed inside outside s)
    (whole : Closed inside outside (s ++ d :: t)) (solid : IsSolid d) {u : List Char}
    (member : u ∈ valueTokens s) :
    u ∈ valueTokens (s ++ d :: t) ∨ ∃ after, u ++ d :: after ∈ valueTokens (s ++ d :: t) := by
  rw [front.valueTokens_eq] at member
  rw [whole.valueTokens_eq]
  exact mem_tokensFrom_front (closed_iff_leads.1 front) solid t u member

theorem exists_open_of_tokensFrom (token : List Char)
    (begun : token.reverse.foldl (Nesting.step .round) .top = state)
    (ends : s.foldl (Nesting.step .round) state ≠ .top) :
    ∃ t ∈ tokensFrom state token s, t.foldl (Nesting.step .round) .top ≠ .top := by
  induction s generalizing state token with
  | nil =>
      rw [List.foldl_nil] at ends
      have given : token ≠ [] := by
        rintro rfl
        exact ends begun.symm
      refine ⟨token.reverse, ?_, begun ▸ ends⟩
      rw [tokensFrom]
      simp [given]
  | cons c rest ih =>
      rw [List.foldl_cons] at ends
      rcases blank_cases state c with ⟨rfl, blank⟩ | kept
      · rw [Nesting.step_round_of_isBlank Nesting.isVisible_top blank] at ends
        obtain ⟨t, member, left⟩ := ih [] rfl ends
        by_cases given : token = []
        · rw [given, tokensFrom_blank blank]
          exact ⟨t, member, left⟩
        · rw [tokensFrom_cut blank given]
          exact ⟨t, List.mem_cons_of_mem _ member, left⟩
      · rw [tokensFrom_keep kept]
        apply ih (c :: token) _ ends
        rw [List.reverse_cons, List.foldl_append, begun]
        rfl

theorem foldl_trim (s : List Char) :
    (trim s).foldl (Nesting.step .round) .top = s.foldl (Nesting.step .round) .top := by
  induction s using trim_induction with
  | core => rw [trim_trim]
  | left b t blank ih =>
      rw [trim_cons_of_isBlank blank, ih, List.foldl_cons,
        Nesting.step_round_of_isBlank Nesting.isVisible_top blank]
  | right b t blank ih =>
      rw [trim_concat_of_isBlank blank, ih, List.foldl_append, List.foldl_cons, List.foldl_nil,
        Nesting.step_round_of_isBlank (Nesting.isVisible_foldl Nesting.isVisible_top _ t) blank]

theorem Closed.of_valueTokens (whole : Closed inside outside (s ++ t))
    (each : ∀ u ∈ valueTokens s, IsWhole u) : Closed inside outside s := by
  obtain ⟨middle, first, -⟩ := leads_append_iff.1 (closed_iff_leads.1 whole)
  suffices top : middle = .top by
    rw [top] at first
    exact closed_iff_leads.2 first
  by_contra opened
  have ends : (trim s).foldl (Nesting.step .round) .top ≠ .top := by
    rw [foldl_trim, first.foldl_eq]
    exact opened
  obtain ⟨u, member, left⟩ := exists_open_of_tokensFrom [] rfl ends
  exact left (closed_iff_leads.1 (each u member)).foldl_eq

end Cuts

section Pieces

variable {state : Nesting} {piece s : List Char} {c d : Char}

def IsUnsquare (c : Char) : Prop :=
  c ∉ ['[', ']']

instance : DecidablePred IsUnsquare := fun c => inferInstanceAs (Decidable (c ∉ _))

theorem Nesting.step_of_isUnsquare (unsquare : IsUnsquare c) (state : Nesting) :
    state.step .roundAndSquare c = state.step .round c := by
  simp only [IsUnsquare, List.mem_cons, List.not_mem_nil, or_false, not_or] at unsquare
  simp [Nesting.step, Brackets.round, Brackets.roundAndSquare, unsquare]

/-- Square brackets count only where they stand outside of quotes. -/
theorem Nesting.Admits.step_eq (admits : state.Admits IsUnsquare IsUnsquare c) :
    state.step .roundAndSquare c = state.step .round c := by
  obtain ⟨quote, n⟩ := state
  cases quote with
  | some q => rfl
  | none =>
      apply Nesting.step_of_isUnsquare
      by_cases free : IsFree c
      · by_cases top : n = 0
        · exact admits.outer (by rw [top]; rfl) free
        · exact admits.inner rfl top free
      · intro square
        rcases List.mem_pair.1 square with rfl | rfl
        · exact free (by decide)
        · exact free (by decide)

theorem closed_of_mem_splitFrom (free : IsFree d)
    (begun : Leads IsUnsquare IsUnsquare .top piece.reverse state)
    (leads : Leads IsUnsquare IsUnsquare state s .top) :
    ∀ p ∈ splitFrom d state piece s, Closed IsUnsquare IsUnsquare p := by
  induction s generalizing state piece with
  | nil =>
      cases leads_nil_iff.1 leads
      rw [splitFrom, if_pos (by rfl)]
      exact List.forall_mem_singleton.2 (closed_iff_leads.2 begun)
  | cons c rest ih =>
      obtain ⟨admits, more⟩ := leads_cons_iff.1 leads
      rw [splitFrom]
      split
      · next cut =>
          rw [Bool.and_eq_true, beq_iff_eq] at cut
          obtain ⟨rfl, top⟩ := cut
          rw [Nesting.eq_top_of_isTop top] at begun more ⊢
          have step : Nesting.top.step .round c = .top := Nesting.step_of_isFree (n := 0) free
          rw [step] at more
          exact List.forall_mem_cons.2 ⟨closed_iff_leads.2 begun, ih (.nil .top) more⟩
      · rw [admits.step_eq]
        apply ih _ more
        rw [List.reverse_cons]
        apply begun.append
        exact .cons admits (.nil _)

theorem Closed.mem_splitTopLevel (closed : Closed IsUnsquare IsUnsquare s) (free : IsFree d)
    {p : List Char} (member : p ∈ splitTopLevel d s) : Closed IsUnsquare IsUnsquare p :=
  closed_of_mem_splitFrom free (.nil .top) (closed_iff_leads.1 closed) p member

theorem splitFrom_append (free : IsFree d) (leads : Leads IsUnsquare IsUnsquare state s .top)
    (piece t : List Char) :
    ∃ others,
      splitFrom d state piece (s ++ t) = (splitFrom d state piece s).dropLast ++ others := by
  induction s generalizing state piece with
  | nil =>
      cases leads_nil_iff.1 leads
      exact ⟨splitFrom d .top piece t, rfl⟩
  | cons c rest ih =>
      obtain ⟨admits, more⟩ := leads_cons_iff.1 leads
      rw [List.cons_append, splitFrom, splitFrom]
      split
      · next cut =>
          rw [Bool.and_eq_true, beq_iff_eq] at cut
          obtain ⟨rfl, top⟩ := cut
          rw [Nesting.eq_top_of_isTop top] at more ⊢
          have step : Nesting.top.step .round c = .top := Nesting.step_of_isFree (n := 0) free
          rw [step] at more
          obtain ⟨others, same⟩ := ih more []
          refine ⟨others, ?_⟩
          rw [same, List.dropLast_cons_of_ne_nil (splitFrom_ne_nil c .top [] rest),
            List.cons_append]
      · rw [admits.step_eq]
        exact ih more (c :: piece)

/-- What follows a closed text changes no piece of it but the last. -/
theorem Closed.splitTopLevel_append (closed : Closed IsUnsquare IsUnsquare s) (free : IsFree d)
    (t : List Char) :
    ∃ others, splitTopLevel d (s ++ t) = (splitTopLevel d s).dropLast ++ others :=
  splitFrom_append free (closed_iff_leads.1 closed) [] t

end Pieces

end ComputedStyle.Text
