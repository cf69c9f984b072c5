import ComputedStyle.Proofs.Text.Case
import ComputedStyle.Proofs.Text.Nesting

/-!
Texts that close every bracket and every quote they open.

`Closed` says it by the form of the text, `Leads` by the way of a reader that counts round brackets.
The two agree (`closed_iff_leads`), so a closed text can be put together from closed texts, and
cutting it where the reader is outside of everything leaves closed texts.
-/

namespace ComputedStyle.Text

/-- Neither a quote nor a round bracket. -/
def IsFree (c : Char) : Prop :=
  c ∉ ['"', '\'', '(', ')']

instance : DecidablePred IsFree := fun c => inferInstanceAs (Decidable (c ∉ _))

theorem not_isFree_of_quote {c : Char} (quote : c ∈ ['"', '\'']) : ¬IsFree c := by
  rcases List.mem_pair.1 quote with rfl | rfl
  · decide
  · decide

def Anything (_ : Char) : Prop := True

instance : DecidablePred Anything := fun _ => inferInstanceAs (Decidable True)

/-- Round brackets are closed in the order in which they were opened and quoted text is closed.
Outside of both there are characters of one kind only, and inside the brackets of another. -/
inductive Closed (inside : Char → Prop) : (Char → Prop) → List Char → Prop where
  | nil (outside : Char → Prop) : Closed inside outside []
  | plain {outside : Char → Prop} (c : Char) (s : List Char) (own : outside c) (free : IsFree c)
      (more : Closed inside outside s) : Closed inside outside (c :: s)
  | quoted {outside : Char → Prop} (q : Char) (value s : List Char) (quote : q ∈ ['"', '\''])
      (held : q ∉ value) (more : Closed inside outside s) :
      Closed inside outside (q :: (value ++ q :: s))
  | round {outside : Char → Prop} (inner s : List Char) (held : Closed inside inside inner)
      (more : Closed inside outside s) : Closed inside outside ('(' :: (inner ++ ')' :: s))

abbrev IsWhole (s : List Char) : Prop :=
  Closed Anything Anything s

namespace Closed

variable {inside outside : Char → Prop} {s t : List Char}

theorem append (first : Closed inside outside s) (second : Closed inside outside t) :
    Closed inside outside (s ++ t) := by
  induction first with
  | nil => exact second
  | plain c s own free _ ih => exact .plain c _ own free (ih second)
  | quoted q value s quote held _ ih =>
      rw [List.cons_append, List.append_assoc, List.cons_append]
      exact .quoted q value _ quote held (ih second)
  | round inner s held _ _ ih =>
      rw [List.cons_append, List.append_assoc, List.cons_append]
      exact .round inner _ held (ih second)

theorem mono {inside' outside' : Char → Prop} (within : ∀ c, inside c → inside' c)
    (around : ∀ c, outside c → outside' c) (closed : Closed inside outside s) :
    Closed inside' outside' s := by
  induction closed generalizing outside' with
  | nil => exact .nil outside'
  | plain c s own free _ ih => exact .plain c s (around c own) free (ih around)
  | quoted q value s quote held _ ih => exact .quoted q value s quote held (ih around)
  | round inner s _ _ ihInner ih => exact .round inner s (ihInner within) (ih around)

theorem isWhole (closed : Closed inside outside s) : IsWhole s :=
  closed.mono (fun _ _ => trivial) fun _ _ => trivial

theorem toLower_of_quote {q : Char} (quote : q ∈ ['"', '\'']) : q.toLower = q := by
  rcases List.mem_pair.1 quote with rfl | rfl
  · rfl
  · rfl

theorem isAlpha_of_not_isFree {c : Char} (held : ¬IsFree c) : c.isAlpha = false := by
  have cases : c = '"' ∨ c = '\'' ∨ c = '(' ∨ c = ')' := by simpa using not_not.1 held
  rcases cases with rfl | rfl | rfl | rfl
  · rfl
  · rfl
  · rfl
  · rfl

theorem isFree_toLower {c : Char} (free : IsFree c) : IsFree c.toLower := by
  by_contra held
  have same : c = c.toLower := eq_of_toLower (isAlpha_of_not_isFree held) rfl
  exact held (same ▸ free)

theorem lower (closed : Closed inside outside s) : IsWhole (lower s) := by
  induction closed with
  | nil => exact .nil _
  | plain c s _ free _ ih => exact .plain _ _ trivial (isFree_toLower free) ih
  | quoted q value s quote held _ ih =>
      rw [Text.lower, List.map_cons, List.map_append, List.map_cons, toLower_of_quote quote]
      have other : q.isAlpha = false := isAlpha_of_not_isFree (not_isFree_of_quote quote)
      exact .quoted q _ _ quote (not_mem_lower other held) ih
  | round inner s _ _ ihInner ih =>
      rw [Text.lower, List.map_cons, List.map_append, List.map_cons]
      exact .round _ _ ihInner ih

end Closed

/-- Outside of quotes a character is of the kind for where it stands, and closes no bracket that is
not open. -/
structure Nesting.Admits (inside outside : Char → Prop) (state : Nesting) (c : Char) : Prop where
  outer : state = .top → IsFree c → outside c
  inner : state.quote = none → state.depth ≠ 0 → IsFree c → inside c
  opened : state.quote = none → c = ')' → state.depth ≠ 0

/-- A reader goes through the text from one state to another. -/
inductive Leads (inside outside : Char → Prop) : Nesting → List Char → Nesting → Prop where
  | nil (state : Nesting) : Leads inside outside state [] state
  | cons {state last : Nesting} {c : Char} {s : List Char}
      (admits : state.Admits inside outside c)
      (more : Leads inside outside (state.step .round c) s last) :
      Leads inside outside state (c :: s) last

section Leads

variable {inside outside : Char → Prop} {first middle last state : Nesting} {c : Char}
  {s t : List Char} {n : Nat}

theorem leads_nil_iff : Leads inside outside first [] last ↔ first = last := by
  constructor
  · intro leads
    cases leads
    rfl
  · rintro rfl
    exact .nil first

theorem leads_cons_iff : Leads inside outside first (c :: s) last ↔
    first.Admits inside outside c ∧ Leads inside outside (first.step .round c) s last := by
  constructor
  · intro leads
    cases leads with
    | cons admits more => exact ⟨admits, more⟩
  · rintro ⟨admits, more⟩
    exact .cons admits more

theorem leads_append_iff : Leads inside outside first (s ++ t) last ↔
    ∃ middle, Leads inside outside first s middle ∧ Leads inside outside middle t last := by
  induction s generalizing first with
  | nil => simp [leads_nil_iff]
  | cons c rest ih => simp [leads_cons_iff, ih, and_assoc]

theorem Leads.append (before : Leads inside outside first s middle)
    (after : Leads inside outside middle t last) : Leads inside outside first (s ++ t) last :=
  leads_append_iff.2 ⟨middle, before, after⟩

theorem Nesting.step_of_isFree (free : IsFree c) :
    Nesting.step .round ⟨none, n⟩ c = ⟨none, n⟩ := by
  simp only [IsFree, List.mem_cons, List.not_mem_nil, or_false, not_or] at free
  simp [Nesting.step, Brackets.round, free]

theorem Nesting.step_of_quote (quote : c ∈ ['"', '\'']) (brackets : Brackets) :
    Nesting.step brackets ⟨none, n⟩ c = ⟨some c, n⟩ := by
  rcases List.mem_pair.1 quote with rfl | rfl
  · rfl
  · rfl

theorem Nesting.step_in_quote {q : Char} (other : c ≠ q) (brackets : Brackets) :
    Nesting.step brackets ⟨some q, n⟩ c = ⟨some q, n⟩ := by
  simp [Nesting.step, other]

theorem Nesting.step_end_quote (q : Char) (brackets : Brackets) :
    Nesting.step brackets ⟨some q, n⟩ q = ⟨none, n⟩ := by
  simp [Nesting.step]

theorem Nesting.admits_in_quote (q : Char) : Nesting.Admits inside outside ⟨some q, n⟩ c :=
  ⟨nofun, nofun, nofun⟩

theorem Nesting.admits_of_not_isFree (held : ¬IsFree c) (opening : c ≠ ')') :
    Nesting.Admits inside outside state c :=
  ⟨fun _ free => absurd free held, fun _ _ free => absurd free held,
    fun _ closing => absurd closing opening⟩

theorem leads_quoted {q : Char} (held : q ∉ s) :
    Leads inside outside ⟨some q, n⟩ (s ++ [q]) ⟨none, n⟩ := by
  induction s with
  | nil =>
      apply Leads.cons (Nesting.admits_in_quote q)
      rw [Nesting.step_end_quote]
      exact .nil _
  | cons c rest ih =>
      obtain ⟨other, later⟩ := not_or.1 (List.mem_cons.not.1 held)
      apply Leads.cons (Nesting.admits_in_quote q)
      rw [Nesting.step_in_quote (Ne.symm other)]
      exact ih later

theorem Closed.leads {kind : Char → Prop} (closed : Closed inside kind s)
    (outer : n = 0 → ∀ c, kind c → outside c) (inner : n ≠ 0 → ∀ c, kind c → inside c) :
    Leads inside outside ⟨none, n⟩ s ⟨none, n⟩ := by
  induction closed generalizing n with
  | nil => exact .nil _
  | plain c s own free _ ih =>
      refine .cons ⟨?_, ?_, ?_⟩ ?_
      · intro top _
        cases top
        exact outer rfl c own
      · intro _ deep _
        exact inner deep c own
      · rintro _ rfl
        exact absurd free (by decide)
      · rw [Nesting.step_of_isFree free]
        exact ih outer inner
  | quoted q value s quote held _ ih =>
      have whole : q :: (value ++ q :: s) = q :: (value ++ [q]) ++ s := by simp
      rw [whole]
      apply Leads.append _ (ih outer inner)
      apply Leads.cons
      · apply Nesting.admits_of_not_isFree (not_isFree_of_quote quote)
        rintro rfl
        exact absurd quote (by decide)
      · rw [Nesting.step_of_quote quote]
        exact leads_quoted held
  | round inner' s _ _ ihInner ih =>
      apply Leads.cons
      · exact Nesting.admits_of_not_isFree (by decide) (by decide)
      · have deeper : Leads inside outside ⟨none, n + 1⟩ inner' ⟨none, n + 1⟩ :=
          ihInner (fun zero => absurd zero n.succ_ne_zero) fun _ _ => id
        apply deeper.append
        apply Leads.cons
        · exact ⟨nofun, fun _ _ free => absurd free (by decide), fun _ _ => n.succ_ne_zero⟩
        · exact ih outer inner

/-- What is left to read inside `n` brackets: closed texts, each up to the bracket that closes its
level. -/
def Layers (inside outside : Char → Prop) : Nat → List Char → Prop
  | 0, s => Closed inside outside s
  | n + 1, s => ∃ inner rest, s = inner ++ ')' :: rest ∧ Closed inside inside inner ∧
      Layers inside outside n rest

theorem Layers.prepend (front : List Char)
    (closed : ∀ kind, (n = 0 → kind = outside) → (n ≠ 0 → kind = inside) →
      Closed inside kind front)
    (layers : Layers inside outside n s) : Layers inside outside n (front ++ s) := by
  cases n with
  | zero => exact (closed outside (fun _ => rfl) fun deep => absurd rfl deep).append layers
  | succ n =>
      obtain ⟨inner, rest, rfl, held, more⟩ := layers
      have own := closed inside (fun zero => absurd zero n.succ_ne_zero) fun _ => rfl
      exact ⟨front ++ inner, rest, by rw [List.append_assoc], own.append held, more⟩

theorem exists_end_of_quote {q : Char} (leads : Leads inside outside ⟨some q, n⟩ s .top) :
    ∃ value rest, s = value ++ q :: rest ∧ q ∉ value ∧
      Leads inside outside ⟨none, n⟩ rest .top := by
  induction s with
  | nil => cases leads_nil_iff.1 leads
  | cons c rest ih =>
      obtain ⟨-, more⟩ := leads_cons_iff.1 leads
      by_cases ends : c = q
      · rw [ends, Nesting.step_end_quote] at more
        exact ⟨[], rest, by rw [ends, List.nil_append], List.not_mem_nil, more⟩
      · rw [Nesting.step_in_quote ends] at more
        obtain ⟨value, later, same, held, more⟩ := ih more
        refine ⟨c :: value, later, by rw [same, List.cons_append], ?_, more⟩
        exact List.not_mem_cons_of_ne_of_not_mem (Ne.symm ends) held

theorem layers_of_leads (leads : Leads inside outside ⟨none, n⟩ s .top) :
    Layers inside outside n s := by
  -- What a quote holds is passed over at once, so the induction is on the length.
  induction length : s.length using Nat.strong_induction_on generalizing s n with
  | _ size ih =>
      subst length
      cases s with
      | nil =>
          cases leads_nil_iff.1 leads
          exact .nil outside
      | cons c rest =>
          obtain ⟨admits, more⟩ := leads_cons_iff.1 leads
          by_cases free : IsFree c
          · rw [Nesting.step_of_isFree free] at more
            apply (ih rest.length (Nat.lt_succ_self _) more rfl).prepend [c]
            intro kind outer inner
            apply Closed.plain c [] _ free (.nil kind)
            by_cases top : n = 0
            · rw [outer top]
              exact admits.outer (by rw [top]; rfl) free
            · rw [inner top]
              exact admits.inner rfl top free
          · have held : c ∈ ['"', '\''] ∨ c = '(' ∨ c = ')' := by
              simpa [or_assoc] using not_not.1 free
            rcases held with quote | rfl | rfl
            · rw [Nesting.step_of_quote quote] at more
              obtain ⟨value, later, rfl, held, more⟩ := exists_end_of_quote more
              have whole : c :: (value ++ c :: later) = c :: (value ++ [c]) ++ later := by simp
              rw [whole]
              apply (ih later.length (by simp; omega) more rfl).prepend
              intro kind _ _
              exact .quoted c value [] quote held (.nil kind)
            · have deeper : Leads inside outside ⟨none, n + 1⟩ rest .top := more
              obtain ⟨inner, later, rfl, held, layers⟩ :=
                ih rest.length (Nat.lt_succ_self _) deeper rfl
              have whole : '(' :: (inner ++ ')' :: later) = '(' :: (inner ++ [')']) ++ later := by
                simp
              rw [whole]
              apply layers.prepend
              intro kind _ _
              exact .round inner [] held (.nil kind)
            · obtain ⟨m, rfl⟩ := Nat.exists_eq_succ_of_ne_zero (admits.opened rfl rfl)
              have outer : Leads inside outside ⟨none, m⟩ rest .top := more
              exact ⟨[], rest, rfl, .nil inside, ih rest.length (Nat.lt_succ_self _) outer rfl⟩

theorem closed_iff_leads :
    Closed inside outside s ↔ Leads inside outside .top s .top := by
  constructor
  · intro closed
    exact closed.leads (fun _ _ => id) fun deep => absurd rfl deep
  · intro leads
    exact layers_of_leads (n := 0) leads

variable [DecidablePred inside] [DecidablePred outside]

instance : Decidable (state.Admits inside outside c) :=
  decidable_of_iff ((state = .top → IsFree c → outside c) ∧
      (state.quote = none → state.depth ≠ 0 → IsFree c → inside c) ∧
      (state.quote = none → c = ')' → state.depth ≠ 0))
    ⟨fun h => ⟨h.1, h.2.1, h.2.2⟩, fun h => ⟨h.outer, h.inner, h.opened⟩⟩

instance decidableLeads : ∀ first s last, Decidable (Leads inside outside first s last)
  | _, [], _ => decidable_of_iff _ leads_nil_iff.symm
  | first, c :: s, last =>
      have := decidableLeads (first.step .round c) s last
      decidable_of_iff _ leads_cons_iff.symm

instance : DecidablePred (Closed inside outside) :=
  fun _ => decidable_of_iff _ closed_iff_leads.symm

end Leads

end ComputedStyle.Text
