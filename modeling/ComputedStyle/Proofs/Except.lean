namespace ComputedStyle

theorem bind_eq_ok {x : Except ε α} {f : α → Except ε β} {b : β} :
    x >>= f = .ok b ↔ ∃ a, x = .ok a ∧ f a = .ok b := by
  cases x with
  | error e => simp [bind, Except.bind]
  | ok a => simp [bind, Except.bind]

theorem bind_eq_error {x : Except ε α} {f : α → Except ε β} {e : ε} :
    x >>= f = .error e ↔ x = .error e ∨ ∃ a, x = .ok a ∧ f a = .error e := by
  cases x with
  | error e' => simp [bind, Except.bind]
  | ok a => simp [bind, Except.bind]

theorem map_eq_ok {x : Except ε α} {f : α → β} {b : β} :
    x.map f = .ok b ↔ ∃ a, x = .ok a ∧ f a = b := by
  cases x with
  | error e => simp [Except.map]
  | ok a => simp [Except.map]

theorem map_eq_error {x : Except ε α} {f : α → β} {e : ε} :
    x.map f = .error e ↔ x = .error e := by
  cases x with
  | error e' => simp [Except.map]
  | ok a => simp [Except.map]

theorem mapError_eq_ok {x : Except ε α} {f : ε → ε'} {a : α} :
    x.mapError f = .ok a ↔ x = .ok a := by
  cases x with
  | error e =>
      constructor
      · intro h
        cases h
      · intro h
        cases h
  | ok b =>
      constructor
      · intro h
        cases h
        rfl
      · intro h
        cases h
        rfl

theorem exists_bind_ok_iff {x : Except ε α} {f : α → Except ε β} :
    (∃ b, x >>= f = .ok b) ↔ ∃ a, x = .ok a ∧ ∃ b, f a = .ok b := by
  simp only [bind_eq_ok]
  constructor
  · rintro ⟨b, a, given, made⟩
    exact ⟨a, given, b, made⟩
  · rintro ⟨a, given, b, made⟩
    exact ⟨b, a, given, made⟩

theorem exists_map_ok_iff {x : Except ε α} {f : α → β} :
    (∃ b, x.map f = .ok b) ↔ ∃ a, x = .ok a := by
  simp only [map_eq_ok]
  constructor
  · rintro ⟨b, a, given, -⟩
    exact ⟨a, given⟩
  · rintro ⟨a, given⟩
    exact ⟨f a, a, given, rfl⟩

theorem exists_of_isOk {x : Except ε α} (h : x.isOk) : ∃ a, x = .ok a := by
  cases x with
  | error e => cases h
  | ok a => exact ⟨a, rfl⟩

theorem exists_mapM_ok_iff {f : α → Except ε β} {items : List α} :
    (∃ results, items.mapM f = .ok results) ↔ ∀ item ∈ items, ∃ b, f item = .ok b := by
  induction items with
  | nil => exact ⟨fun _ => List.forall_mem_nil _, fun _ => ⟨[], rfl⟩⟩
  | cons item rest ih =>
      rw [List.mapM_cons, exists_bind_ok_iff, List.forall_mem_cons, ← ih]
      simp only [exists_bind_ok_iff]
      constructor
      · rintro ⟨b, own, results, others, -⟩
        exact ⟨⟨b, own⟩, results, others⟩
      · rintro ⟨⟨b, own⟩, results, others⟩
        exact ⟨b, own, results, others, _, rfl⟩

/-- A loop whose steps do not fail because of the state that it is in. -/
theorem exists_foldlM_ok_iff {step : σ → α → Except ε σ} {returns : α → Prop}
    (each : ∀ state item, (∃ next, step state item = .ok next) ↔ returns item) {items : List α}
    {start : σ} :
    (∃ final, items.foldlM step start = .ok final) ↔ ∀ item ∈ items, returns item := by
  induction items generalizing start with
  | nil => exact ⟨fun _ => List.forall_mem_nil _, fun _ => ⟨start, rfl⟩⟩
  | cons item rest ih =>
      rw [List.foldlM_cons, exists_bind_ok_iff, List.forall_mem_cons, ← each start item]
      constructor
      · rintro ⟨next, own, others⟩
        exact ⟨⟨next, own⟩, ih.1 others⟩
      · rintro ⟨⟨next, own⟩, others⟩
        exact ⟨next, own, ih.2 others⟩

theorem mapM_eq_ok {f : α → Except ε β} {items : List α} {results : List β}
    (h : items.mapM f = .ok results) :
    results.length = items.length ∧
      ∀ (i : Nat) item, items[i]? = some item → ∃ b, results[i]? = some b ∧ f item = .ok b := by
  induction items generalizing results with
  | nil =>
      cases h
      exact ⟨rfl, nofun⟩
  | cons first rest ih =>
      simp only [List.mapM_cons, bind_eq_ok] at h
      obtain ⟨b, own, others, later, h⟩ := h
      cases h
      obtain ⟨length, each⟩ := ih later
      refine ⟨congrArg (· + 1) length, ?_⟩
      intro i item found
      cases i with
      | zero =>
          cases found
          exact ⟨b, rfl, own⟩
      | succ i => exact each i item found

theorem exists_of_mem_mapM {f : α → Except ε β} {items : List α} {results : List β}
    (h : items.mapM f = .ok results) {b : β} (member : b ∈ results) :
    ∃ item ∈ items, f item = .ok b := by
  obtain ⟨length, each⟩ := mapM_eq_ok h
  obtain ⟨i, inside, rfl⟩ := List.getElem_of_mem member
  have there : i < items.length := length ▸ inside
  obtain ⟨b, found, own⟩ := each i items[i] (List.getElem?_eq_getElem there)
  rw [List.getElem?_eq_getElem inside] at found
  cases found
  exact ⟨items[i], List.getElem_mem there, own⟩

theorem exists_of_findSomeM? {f : α → Except ε (Option β)} {items : List α} {b : β}
    (h : items.findSomeM? f = .ok (some b)) : ∃ item ∈ items, f item = .ok (some b) := by
  induction items with
  | nil => cases h
  | cons first rest ih =>
      rw [List.findSomeM?, bind_eq_ok] at h
      obtain ⟨found, own, h⟩ := h
      cases found with
      | some other =>
          cases h
          exact ⟨first, List.mem_cons_self, own⟩
      | none =>
          obtain ⟨item, member, later⟩ := ih h
          exact ⟨item, List.mem_cons_of_mem first member, later⟩

theorem of_findM? {p : α → Except ε Bool} {items : List α} {a : α}
    (h : items.findM? p = .ok (some a)) : a ∈ items ∧ p a = .ok true := by
  induction items with
  | nil => cases h
  | cons first rest ih =>
      rw [List.findM?, bind_eq_ok] at h
      obtain ⟨holds, own, h⟩ := h
      cases holds with
      | true =>
          cases h
          exact ⟨List.mem_cons_self, own⟩
      | false =>
          obtain ⟨member, sought⟩ := ih h
          exact ⟨List.mem_cons_of_mem first member, sought⟩

theorem findM?_ne_none {p : α → Except ε Bool} {items : List α}
    (found : ∃ b ∈ items, p b = .ok true) : items.findM? p ≠ .ok none := by
  induction items with
  | nil =>
      obtain ⟨b, member, -⟩ := found
      cases member
  | cons first rest ih =>
      obtain ⟨b, member, sought⟩ := found
      intro missed
      rw [List.findM?, bind_eq_ok] at missed
      obtain ⟨holds, own, missed⟩ := missed
      cases holds with
      | true => cases missed
      | false =>
          rcases List.mem_cons.1 member with rfl | later
          · rw [sought] at own
            cases own
          · exact ih ⟨b, later, sought⟩ missed

theorem findM?_append_of_ne_none {p : α → Except ε Bool} {items : List α}
    (found : items.findM? p ≠ .ok none) (others : List α) :
    (items ++ others).findM? p = items.findM? p := by
  induction items with
  | nil => exact absurd rfl found
  | cons first rest ih =>
      rw [List.findM?] at found
      rw [List.cons_append, List.findM?, List.findM?]
      cases own : p first with
      | error e => rfl
      | ok holds =>
          rw [own] at found
          cases holds with
          | true => rfl
          | false => exact ih found

theorem mem_of_findM?_append {p : α → Except ε Bool} {items others : List α} {a : α}
    (h : (items ++ others).findM? p = .ok (some a)) (found : ∃ b ∈ items, p b = .ok true) :
    a ∈ items := by
  rw [findM?_append_of_ne_none (findM?_ne_none found)] at h
  exact (of_findM? h).1

theorem findSomeM?_append_of_none {f : α → Except ε (Option β)} {items : List α}
    (missed : items.findSomeM? f = .ok none) (others : List α) :
    (items ++ others).findSomeM? f = others.findSomeM? f := by
  induction items with
  | nil => rfl
  | cons first rest ih =>
      rw [List.findSomeM?, bind_eq_ok] at missed
      obtain ⟨found, own, missed⟩ := missed
      cases found with
      | some b => cases missed
      | none =>
          rw [List.cons_append, List.findSomeM?, own]
          exact ih missed

theorem findSomeM?_append_of_ne_none {f : α → Except ε (Option β)} {items : List α}
    (found : items.findSomeM? f ≠ .ok none) (others : List α) :
    (items ++ others).findSomeM? f = items.findSomeM? f := by
  induction items with
  | nil => exact absurd rfl found
  | cons first rest ih =>
      rw [List.findSomeM?] at found
      rw [List.cons_append, List.findSomeM?, List.findSomeM?]
      cases own : f first with
      | error e => rfl
      | ok result =>
          rw [own] at found
          cases result with
          | some b => rfl
          | none => exact ih found

theorem findSomeM?_singleton (f : α → Except ε (Option β)) (item : α) :
    [item].findSomeM? f = f item := by
  rw [List.findSomeM?]
  cases f item with
  | error e => rfl
  | ok result =>
      cases result with
      | none => rfl
      | some b => rfl

theorem findSomeM?_cons_of_ne_none {f : α → Except ε (Option β)} {first : α}
    (found : f first ≠ .ok none) (rest : List α) : (first :: rest).findSomeM? f = f first := by
  have only : [first].findSomeM? f ≠ .ok none := by
    rw [findSomeM?_singleton]
    exact found
  rw [← List.singleton_append, findSomeM?_append_of_ne_none only, findSomeM?_singleton]

theorem findSomeM?_cons_of_none {f : α → Except ε (Option β)} {first : α}
    (missed : f first = .ok none) (rest : List α) :
    (first :: rest).findSomeM? f = rest.findSomeM? f := by
  rw [List.findSomeM?, missed]
  rfl

theorem findSomeM?_eq_none {f : α → Except ε (Option β)} {items : List α}
    (missed : ∀ item ∈ items, f item = .ok none) : items.findSomeM? f = .ok none := by
  induction items with
  | nil => rfl
  | cons first rest ih =>
      obtain ⟨own, others⟩ := List.forall_mem_cons.1 missed
      rw [List.findSomeM?, own]
      exact ih others

theorem foldlM_cons_of_ok {step : σ → α → Except ε σ} {state next : σ} {item : α}
    (stepped : step state item = .ok next) (rest : List α) :
    (item :: rest).foldlM step state = rest.foldlM step next := by
  rw [List.foldlM_cons, stepped]
  rfl

theorem foldlM_append_of_ok {step : σ → α → Except ε σ} {state next : σ} {items : List α}
    (run : items.foldlM step state = .ok next) (rest : List α) :
    (items ++ rest).foldlM step state = rest.foldlM step next := by
  rw [List.foldlM_append, run]
  rfl

/-- A loop that fails does so at one of its items. -/
theorem foldlM_eq_error {step : σ → α → Except ε σ} {items : List α} {start : σ} {e : ε}
    (h : items.foldlM step start = .error e) :
    ∃ before item after state, items = before ++ item :: after ∧
      before.foldlM step start = .ok state ∧ step state item = .error e := by
  induction items generalizing start with
  | nil => cases h
  | cons item rest ih =>
      rw [List.foldlM_cons, bind_eq_error] at h
      rcases h with h | ⟨next, stepped, h⟩
      · exact ⟨[], item, rest, start, rfl, rfl, h⟩
      · obtain ⟨before, failing, after, state, rfl, run, failed⟩ := ih h
        refine ⟨item :: before, failing, after, state, rfl, ?_, failed⟩
        rw [foldlM_cons_of_ok stepped, run]

theorem foldlM_ok_rest {motive : σ → List α → Prop} {step : σ → α → Except ε σ}
    (keeps : ∀ state item rest next, motive state (item :: rest) → step state item = .ok next →
      motive next rest)
    (items : List α) {start final : σ} (holds : motive start items)
    (h : items.foldlM step start = .ok final) : motive final [] := by
  induction items generalizing start with
  | nil =>
      cases h
      exact holds
  | cons item rest ih =>
      rw [List.foldlM_cons, bind_eq_ok] at h
      obtain ⟨next, stepped, run⟩ := h
      exact ih (keeps start item rest next holds stepped) run

theorem foldlM_ok_induction {motive : σ → Prop} {step : σ → α → Except ε σ}
    (keeps : ∀ state item next, motive state → step state item = .ok next → motive next)
    (items : List α) {start final : σ} (holds : motive start)
    (h : items.foldlM step start = .ok final) : motive final :=
  foldlM_ok_rest (motive := fun state _ => motive state)
    (fun state item _ next => keeps state item next) items holds h

/-- Both succeed with related results, or both fail with the same error. -/
inductive Agree (R : α → β → Prop) : Except ε α → Except ε β → Prop where
  | ok {a : α} {b : β} (related : R a b) : Agree R (.ok a) (.ok b)
  | error (e : ε) : Agree R (.error e) (.error e)

namespace Agree

theorem refl {R : α → α → Prop} (same : ∀ a, R a a) (x : Except ε α) : Agree R x x := by
  cases x with
  | ok a => exact .ok (same a)
  | error e => exact .error e

variable {R : α → β → Prop} {S : γ → δ → Prop}

theorem isOk_eq {x : Except ε α} {y : Except ε β} (agree : Agree R x y) : y.isOk = x.isOk := by
  cases agree with
  | ok related => rfl
  | error e => rfl

theorem bind {x : Except ε α} {y : Except ε β} {f : α → Except ε γ} {g : β → Except ε δ}
    (first : Agree R x y) (next : ∀ a b, R a b → Agree S (f a) (g b)) :
    Agree S (x >>= f) (y >>= g) := by
  cases first with
  | ok related => exact next _ _ related
  | error e => exact .error e

theorem bind_same {x : Except ε α} {f : α → Except ε γ} {g : α → Except ε δ}
    (next : ∀ a, Agree S (f a) (g a)) : Agree S (x >>= f) (x >>= g) := by
  cases x with
  | ok a => exact next a
  | error e => exact .error e

theorem map {x : Except ε α} {y : Except ε β} {f : α → γ} {g : β → δ} (first : Agree R x y)
    (next : ∀ a b, R a b → S (f a) (g b)) : Agree S (x.map f) (y.map g) := by
  cases first with
  | ok related => exact .ok (next _ _ related)
  | error e => exact .error e

theorem foldlM {f : α → ι → Except ε α} {g : β → ι → Except ε β} {items : List ι}
    (keeps : ∀ a b item, R a b → Agree R (f a item) (g b item)) {a : α} {b : β} (start : R a b) :
    Agree R (items.foldlM f a) (items.foldlM g b) := by
  induction items generalizing a b with
  | nil => exact .ok start
  | cons item rest ih =>
      rw [List.foldlM_cons, List.foldlM_cons]
      exact (keeps a b item start).bind fun _ _ related => ih related

end Agree

end ComputedStyle
