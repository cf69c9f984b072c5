/-!
Dictionaries: values under text keys, held in the order of the keys.

The keys are strictly ascending, so two dictionaries with the same value under every key are equal
(`Dictionary.ext_get`), whatever the order in which they were filled.
-/

namespace ComputedStyle

/-- Keys strictly ascending. -/
def KeysAscend (entries : List (String × α)) : Prop :=
  entries.Pairwise fun a b => a.1 < b.1

structure Dictionary (α : Type) where
  entries : List (String × α)
  ascending : KeysAscend entries

namespace Dictionary

def empty : Dictionary α := ⟨[], .nil⟩

instance : Inhabited (Dictionary α) := ⟨empty⟩

/-- The value under a key. -/
def get? (key : String) (dictionary : Dictionary α) : Option α :=
  dictionary.entries.lookup key

def contains (key : String) (dictionary : Dictionary α) : Bool :=
  (dictionary.get? key).isSome

def isEmpty (dictionary : Dictionary α) : Bool :=
  dictionary.entries.isEmpty

def keys (dictionary : Dictionary α) : List String :=
  dictionary.entries.map Prod.fst

/-- Puts a value under a key in a list of ascending keys. -/
def insertEntry (key : String) (value : α) : List (String × α) → List (String × α)
  | [] => [(key, value)]
  | entry :: rest =>
      if key = entry.1 then (key, value) :: rest
      else if key < entry.1 then (key, value) :: entry :: rest
      else entry :: insertEntry key value rest

theorem mem_insertEntry {key : String} {value : α} {entries : List (String × α)}
    {entry : String × α} (h : entry ∈ insertEntry key value entries) :
    entry = (key, value) ∨ entry ∈ entries := by
  induction entries with
  | nil => simpa [insertEntry] using h
  | cons head rest ih =>
      unfold insertEntry at h
      split at h
      · simp only [List.mem_cons] at h ⊢
        rcases h with h | h
        · exact .inl h
        · exact .inr (.inr h)
      · split at h
        · simp only [List.mem_cons] at h ⊢
          exact h
        · simp only [List.mem_cons] at h ⊢
          rcases h with h | h
          · exact .inr (.inl h)
          · rcases ih h with h | h
            · exact .inl h
            · exact .inr (.inr h)

theorem ascend_insertEntry {key : String} {value : α} {entries : List (String × α)}
    (h : KeysAscend entries) : KeysAscend (insertEntry key value entries) := by
  induction entries with
  | nil => simp [insertEntry, KeysAscend]
  | cons head rest ih =>
      obtain ⟨below, rest_ascends⟩ := List.pairwise_cons.1 h
      unfold insertEntry
      split
      · next same =>
          refine List.pairwise_cons.2 ⟨fun entry mem => ?_, rest_ascends⟩
          exact same ▸ below entry mem
      · next other =>
          split
          · next less =>
              refine List.pairwise_cons.2 ⟨fun entry mem => ?_, h⟩
              rcases List.mem_cons.1 mem with rfl | mem
              · exact less
              · exact String.lt_trans less (below entry mem)
          · next notLess =>
              have greater : head.1 < key :=
                Std.lt_of_le_of_ne (String.not_lt.1 notLess) (Ne.symm other)
              refine List.pairwise_cons.2 ⟨fun entry mem => ?_, ih rest_ascends⟩
              rcases mem_insertEntry mem with rfl | mem
              · exact greater
              · exact below entry mem

/-- Puts a value under a key, in place of the value that was there. -/
def insert (key : String) (value : α) (dictionary : Dictionary α) : Dictionary α :=
  ⟨insertEntry key value dictionary.entries, ascend_insertEntry dictionary.ascending⟩

/-- Inserts pairs from the left, so the last value of a key stays. -/
def insertAll (pairs : List (String × α)) (dictionary : Dictionary α) : Dictionary α :=
  pairs.foldl (fun result pair => result.insert pair.1 pair.2) dictionary

def ofList (pairs : List (String × α)) : Dictionary α :=
  empty.insertAll pairs

/-- All of both; where both hold a key, the value of `overriding`. -/
def extend (dictionary overriding : Dictionary α) : Dictionary α :=
  dictionary.insertAll overriding.entries

/-- Adds an entry for each pair whose key is not there yet. -/
def insertMissing (pairs : List (String × α)) (dictionary : Dictionary α) : Dictionary α :=
  pairs.foldl
    (fun result pair => if result.contains pair.1 then result else result.insert pair.1 pair.2)
    dictionary

instance [DecidableEq α] : DecidableEq (Dictionary α) := fun a b =>
  if h : a.entries = b.entries then
    isTrue (by cases a; cases b; simp_all)
  else isFalse (by intro same; exact h (same ▸ rfl))

@[simp] theorem lookup_cons_entry (key : String) (entry : String × α)
    (rest : List (String × α)) :
    (entry :: rest).lookup key = if key = entry.1 then some entry.2 else rest.lookup key := by
  obtain ⟨k, v⟩ := entry
  rw [List.lookup_cons]
  by_cases h : key = k
  · rw [if_pos h, beq_iff_eq.2 h]
  · rw [if_neg h, beq_eq_false_iff_ne.2 h]

theorem lookup_insertEntry (key : String) (value : α) (entries : List (String × α))
    (other : String) :
    (insertEntry key value entries).lookup other =
      if other = key then some value else entries.lookup other := by
  induction entries with
  | nil => simp [insertEntry]
  | cons head rest ih =>
      unfold insertEntry
      split
      · next same => grind [lookup_cons_entry]
      · split
        · grind [lookup_cons_entry]
        · grind [lookup_cons_entry]

@[simp] theorem get?_empty (key : String) : (empty : Dictionary α).get? key = none := rfl

@[simp] theorem get?_insert (key other : String) (value : α) (dictionary : Dictionary α) :
    (dictionary.insert key value).get? other =
      if other = key then some value else dictionary.get? other :=
  lookup_insertEntry key value dictionary.entries other

theorem lookup_eq_none_of_below {key : String} {entries : List (String × α)}
    (h : ∀ entry ∈ entries, key < entry.1) : entries.lookup key = none := by
  rw [List.lookup_eq_none_iff]
  intro entry mem
  have : key ≠ entry.1 := fun same => String.lt_irrefl _ (same ▸ h entry mem)
  simpa using this

/-- Lists of ascending keys with the same value under every key are the same list. -/
theorem entries_eq_of_lookup {a b : List (String × α)} (ha : KeysAscend a) (hb : KeysAscend b)
    (h : ∀ key, a.lookup key = b.lookup key) : a = b := by
  induction a generalizing b with
  | nil =>
      cases b with
      | nil => rfl
      | cons entry rest => simpa using h entry.1
  | cons x a ih =>
      cases b with
      | nil => simpa using h x.1
      | cons y b =>
          obtain ⟨belowA, ascA⟩ := List.pairwise_cons.1 ha
          obtain ⟨belowB, ascB⟩ := List.pairwise_cons.1 hb
          have hx := h x.1
          have hy := h y.1
          have same : x.1 = y.1 := by
            refine Decidable.byContradiction fun different => ?_
            have different' : y.1 ≠ x.1 := Ne.symm different
            simp only [lookup_cons_entry, different, different', if_true, if_false] at hx hy
            by_cases less : x.1 < y.1
            · rw [lookup_eq_none_of_below fun entry mem =>
                String.lt_trans less (belowB entry mem)] at hx
              simp at hx
            · have greater := Std.lt_of_le_of_ne (String.not_lt.1 less) different'
              rw [lookup_eq_none_of_below fun entry mem =>
                String.lt_trans greater (belowA entry mem)] at hy
              simp at hy
          have values : x.2 = y.2 := by simpa [same] using hx
          have pair : x = y := Prod.ext same values
          subst pair
          congr 1
          refine ih ascA ascB fun key => ?_
          have hk := h key
          simp only [lookup_cons_entry] at hk
          split at hk
          · next eq =>
              subst eq
              rw [lookup_eq_none_of_below belowA, lookup_eq_none_of_below belowB]
          · exact hk

theorem ext_get {a b : Dictionary α} (h : ∀ key, a.get? key = b.get? key) : a = b := by
  cases a with
  | mk entriesA ascA =>
      cases b with
      | mk entriesB ascB =>
          have := entries_eq_of_lookup ascA ascB h
          subst this
          rfl

end Dictionary

/-- Property names with their values. -/
abbrev StyleMap := Dictionary String

end ComputedStyle
