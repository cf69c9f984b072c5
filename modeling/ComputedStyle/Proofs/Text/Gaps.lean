import ComputedStyle.Proofs.Text.Spaced

namespace ComputedStyle.Text

variable {state : Nesting} {token s t : List Char} {c : Char}

def withoutGaps (state : Nesting) (s : List Char) : List Char :=
  ((List.range s.length).filter fun i => ¬IsGap state s i).filterMap (s[·]?)

theorem withoutGaps_cons (state : Nesting) (c : Char) (s : List Char) :
    withoutGaps state (c :: s) =
      (if isBlank c && state.isTop then [] else [c]) ++
        withoutGaps (state.step .round c) s := by
  have later : (((List.range s.length).map Nat.succ).filter
        fun i => ¬IsGap state (c :: s) i).filterMap ((c :: s)[·]?) =
      withoutGaps (state.step .round c) s := by
    rw [List.filter_map, List.filterMap_map]
    rfl
  rw [← later, withoutGaps, List.length_cons, List.range_succ_eq_map, List.filter_cons]
  cases gap : isBlank c && state.isTop with
  | true => simp [isGap_cons_zero, gap]
  | false => simp [isGap_cons_zero, gap]

/-- No character but those at the gaps is lost. -/
theorem flatten_tokensFrom (state : Nesting) (token s : List Char) :
    (tokensFrom state token s).flatten = token.reverse ++ withoutGaps state s := by
  induction s generalizing state token with
  | nil =>
      rw [tokensFrom]
      cases token with
      | nil => rfl
      | cons c rest => simp [withoutGaps]
  | cons c rest ih =>
      rw [withoutGaps_cons]
      rcases blank_cases state c with ⟨rfl, blank⟩ | kept
      · have gap : (isBlank c && Nesting.top.isTop) = true := by rw [blank]; rfl
        rw [Nesting.step_round_of_isBlank Nesting.isVisible_top blank, if_pos gap]
        by_cases given : token = []
        · rw [given, tokensFrom_blank blank, ih]
          rfl
        · rw [tokensFrom_cut blank given, List.flatten_cons, ih]
          rfl
      · rw [tokensFrom_keep kept, ih, kept, List.reverse_cons]
        simp

/-- The token begun is not cut up to where the reader is, and no token is cut. -/
theorem isUncut_of_mem_tokensFrom (begun : IsUncut .top token.reverse)
    (reads : token.reverse.foldl (Nesting.step .round) .top = state) :
    ∀ t ∈ tokensFrom state token s, t ≠ [] ∧ IsUncut .top t := by
  induction s generalizing state token with
  | nil =>
      rw [tokensFrom]
      split
      · exact List.forall_mem_nil _
      · next given =>
          have nonempty : token.reverse ≠ [] := by simpa using given
          exact List.forall_mem_singleton.2 ⟨nonempty, begun⟩
  | cons c rest ih =>
      rcases blank_cases state c with ⟨rfl, blank⟩ | kept
      · have later : ∀ t ∈ tokensFrom .top [] rest, t ≠ [] ∧ IsUncut .top t := ih isUncut_nil rfl
        by_cases given : token = []
        · rw [given, tokensFrom_blank blank]
          exact later
        · rw [tokensFrom_cut blank given]
          have nonempty : token.reverse ≠ [] := by simpa using given
          exact List.forall_mem_cons.2 ⟨⟨nonempty, begun⟩, later⟩
      · rw [tokensFrom_keep kept]
        apply ih
        · rw [List.reverse_cons, isUncut_append_iff, reads]
          exact ⟨begun, isUncut_cons_iff.2 ⟨kept, isUncut_nil⟩⟩
        · rw [List.reverse_cons, List.foldl_append, reads]
          rfl

/-- Before a text that ends visibly a reader has begun a token, or has only blanks behind it. -/
theorem spaced_tokensFrom (visible : ∀ c ∈ s.getLast?, isBlank c = false) :
    (∀ state token, token ≠ [] →
      Spaced (isBlank ·) (tokensFrom state token s) (token.reverse ++ s)) ∧
    (s ≠ [] → ∃ blanks core, s = blanks ++ core ∧ (∀ c ∈ blanks, isBlank c) ∧
      Spaced (isBlank ·) (tokensFrom .top [] s) core) := by
  induction s with
  | nil =>
      refine ⟨fun state token given => ?_, fun nonempty => absurd rfl nonempty⟩
      rw [tokensFrom, List.append_nil]
      simp only [List.isEmpty_iff, given, if_false]
      exact .last _
  | cons c rest ih =>
      have more : isBlank c → rest ≠ [] := by
        rintro blank rfl
        rw [visible c rfl] at blank
        cases blank
      have ends : ∀ d ∈ rest.getLast?, isBlank d = false := by
        intro d last
        apply visible
        rw [Option.mem_def, List.getLast?_cons, last]
        rfl
      obtain ⟨going, starting⟩ := ih ends
      constructor
      · intro state token given
        rcases blank_cases state c with ⟨rfl, blank⟩ | kept
        · obtain ⟨blanks, core, same, between, spaced⟩ := starting (more blank)
          rw [tokensFrom_cut blank given, same, ← List.cons_append]
          refine .more _ _ _ _ (List.cons_ne_nil _ _) ?_ (same ▸ spaced)
          exact List.forall_mem_cons.2 ⟨blank, between⟩
        · have further := going (state.step .round c) (c :: token) (List.cons_ne_nil _ _)
          rw [tokensFrom_keep kept]
          simpa using further
      · intro _
        cases blank : isBlank c with
        | true =>
            obtain ⟨blanks, core, same, before, spaced⟩ := starting (more blank)
            rw [tokensFrom_blank blank]
            refine ⟨c :: blanks, core, by rw [same, List.cons_append], ?_, spaced⟩
            exact List.forall_mem_cons.2 ⟨blank, before⟩
        | false =>
            have kept : (isBlank c && Nesting.top.isTop) = false := by rw [blank, Bool.false_and]
            rw [tokensFrom_keep kept]
            exact ⟨[], c :: rest, rfl, List.forall_mem_nil _,
              going (Nesting.top.step .round c) [c] (List.cons_ne_nil _ _)⟩

theorem isRow_valueTokens (s : List Char) : IsRow (valueTokens s) (trim s) := by
  rw [valueTokens]
  obtain ⟨first, last⟩ := isTrimmed_trim s
  by_cases blank : trim s = []
  · rw [blank]
    exact .inl ⟨rfl, rfl⟩
  · obtain ⟨blanks, core, same, before, spaced⟩ := (spaced_tokensFrom last).2 blank
    cases blanks with
    | nil => exact .inr (same ▸ spaced)
    | cons c rest =>
        have visible := first c (by rw [same]; rfl)
        rw [before c List.mem_cons_self] at visible
        cases visible

/-- Closed texts with no blanks outside of brackets and quotes are tokens, and so are those where
brackets are closed that were not open. Tokens in a row, with blanks between them and around them,
are the tokens of the text. The tokens of a text stand in a row in the trimmed text, no blank in them
is outside of brackets and quotes, and together they are the trimmed text without the blanks that
are. -/
theorem valueTokens_exact :
    (∀ t, t ≠ [] → Closed Anything IsSolid t → IsToken t) ∧
    (∀ words row before after, (∀ t ∈ words, IsToken t) → IsRow words row →
      (∀ c ∈ before, isBlank c) → (∀ c ∈ after, isBlank c) →
        valueTokens (before ++ (row ++ after)) = words) ∧
    ∀ s, IsRow (valueTokens s) (trim s) ∧
      (∀ t ∈ valueTokens s, t ≠ [] ∧ IsUncut .top t) ∧
      (valueTokens s).flatten = withoutGaps .top (trim s) := by
  refine ⟨fun t => Closed.isToken, fun words row before after each inRow => ?_, fun s => ?_⟩
  · exact valueTokens_of_row inRow each
  · exact ⟨isRow_valueTokens s, isUncut_of_mem_tokensFrom isUncut_nil rfl, flatten_tokensFrom _ _ _⟩

/-- A bracket that was not open, blanks in brackets and in quotes, and several between tokens. -/
theorem valueTokens_exact_stray :
    (∀ t ∈ [")".toList, "a(b ')' c)".toList, "'x\ty'".toList], IsToken t) ∧
      IsRow [")".toList, "a(b ')' c)".toList, "'x\ty'".toList] ") a(b ')' c)\t\n'x\ty'".toList ∧
        valueTokens "\n) a(b ')' c)\t\n'x\ty' ".toList =
          [")".toList, "a(b ')' c)".toList, "'x\ty'".toList] := by
  have each : ∀ t ∈ [")".toList, "a(b ')' c)".toList, "'x\ty'".toList], IsToken t := by
    decide +kernel
  have blank : ∀ c ∈ [' ', '\t', '\n'], isBlank c := by simp [isBlank]
  have row : IsRow _ ") a(b ')' c)\t\n'x\ty'".toList :=
    .inr (.more ")".toList [' '] _ _ (by simp) (by simp [blank])
      (.more "a(b ')' c)".toList ['\t', '\n'] _ _ (by simp) (by simp [blank])
        (.last "'x\ty'".toList)))
  exact ⟨each, row, valueTokens_exact.2.1 _ _ ['\n'] [' '] each row (by simp [blank])
    (by simp [blank])⟩

end ComputedStyle.Text
