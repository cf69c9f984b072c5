import ComputedStyle.Dictionary

namespace ComputedStyle

/-! Names in the order in which they first occur. -/

theorem eraseDups_append_singleton (names : List String) (name : String) :
    (names ++ [name]).eraseDups = names.eraseDups ++ if name ∈ names then [] else [name] := by
  rw [List.eraseDups_append]
  by_cases member : name ∈ names
  · simp [List.removeAll, member]
  · simp [List.removeAll, member, List.eraseDups_cons]

theorem nodup_eraseDups (names : List String) : names.eraseDups.Nodup := by
  suffices ∀ before : List String, before.reverse.eraseDups.Nodup by
    simpa using this names.reverse
  intro before
  induction before with
  | nil => exact .nil
  | cons name before ih =>
      rw [List.reverse_cons, eraseDups_append_singleton]
      split
      · simpa using ih
      · next new =>
          refine List.nodup_append.2 ⟨ih, by simp, fun other earlier last member => ?_⟩
          rintro rfl
          rw [List.mem_singleton] at member
          exact new (member ▸ List.mem_eraseDups.1 earlier)

namespace Dictionary

theorem contains_iff {key : String} {dictionary : Dictionary α} :
    dictionary.contains key ↔ ∃ value, dictionary.get? key = some value :=
  Option.isSome_iff_exists

theorem get?_eq_none {key : String} {dictionary : Dictionary α}
    (absent : dictionary.contains key = false) : dictionary.get? key = none :=
  Option.isSome_eq_false_iff.1 absent |> Option.isNone_iff_eq_none.1

theorem keys_nodup {entries : List (String × α)} (ascending : KeysAscend entries) :
    (entries.map Prod.fst).Nodup := by
  rw [List.Nodup, List.pairwise_map]
  refine ascending.imp fun {a b} below => ?_
  intro same
  exact String.lt_irrefl b.1 (same ▸ below)

theorem lookup_eq_none {key : String} {entries : List (String × α)}
    (fresh : key ∉ entries.map Prod.fst) : entries.lookup key = none := by
  rw [List.lookup_eq_none_iff]
  intro entry member
  rw [bne_iff_ne]
  intro same
  exact fresh (same ▸ List.mem_map_of_mem member)

theorem get?_insertAll {pairs : List (String × α)} (distinct : (pairs.map Prod.fst).Nodup)
    (dictionary : Dictionary α) (key : String) :
    (dictionary.insertAll pairs).get? key = (pairs.lookup key).or (dictionary.get? key) := by
  induction pairs generalizing dictionary with
  | nil => rfl
  | cons pair rest ih =>
      obtain ⟨fresh, distinct⟩ := List.nodup_cons.1 distinct
      have later := ih distinct (dictionary.insert pair.1 pair.2)
      rw [get?_insert] at later
      rw [lookup_cons_entry]
      refine later.trans ?_
      split
      · next same =>
          rw [same, lookup_eq_none fresh]
          rfl
      · rfl

theorem get?_ofList_append {first second : List (String × α)}
    (distinct : (first.map Prod.fst).Nodup) (distinct' : (second.map Prod.fst).Nodup)
    (key : String) :
    (ofList (first ++ second)).get? key = (second.lookup key).or (first.lookup key) := by
  have split : ofList (first ++ second) = (ofList first).insertAll second := by
    simp only [ofList, insertAll, List.foldl_append]
  rw [split, get?_insertAll distinct', ofList, get?_insertAll distinct, get?_empty, Option.or_none]

theorem get?_extend (dictionary overriding : Dictionary α) (key : String) :
    (dictionary.extend overriding).get? key = (overriding.get? key).or (dictionary.get? key) :=
  get?_insertAll (keys_nodup overriding.ascending) dictionary key

theorem get?_insertMissing (pairs : List (String × α)) (dictionary : Dictionary α)
    (key : String) :
    (dictionary.insertMissing pairs).get? key = (dictionary.get? key).or (pairs.lookup key) := by
  induction pairs generalizing dictionary with
  | nil => exact (Option.or_none).symm
  | cons pair rest ih =>
      rw [lookup_cons_entry]
      cases held : dictionary.contains pair.1 with
      | true =>
          obtain ⟨value, found⟩ := contains_iff.1 held
          have later := ih dictionary
          rw [insertMissing, List.foldl_cons, if_pos held, ← insertMissing, later]
          split
          · next same => simp [same, found]
          · rfl
      | false =>
          have absent := get?_eq_none held
          have later := ih (dictionary.insert pair.1 pair.2)
          rw [get?_insert] at later
          rw [insertMissing, List.foldl_cons, if_neg (by simp [held]), ← insertMissing, later]
          split
          · next same => simp [same, absent]
          · rfl

theorem keys_filterMap_sublist (f : String → α → Option β) (entries : List (String × α)) :
    ((entries.filterMap fun entry => (f entry.1 entry.2).map (entry.1, ·)).map Prod.fst).Sublist
      (entries.map Prod.fst) := by
  induction entries with
  | nil => exact .slnil
  | cons entry rest ih =>
      rw [List.filterMap_cons, List.map_cons]
      cases f entry.1 entry.2 with
      | none => exact ih.cons _
      | some value => exact ih.cons_cons _

theorem lookup_filterMap {entries : List (String × α)} (distinct : (entries.map Prod.fst).Nodup)
    (f : String → α → Option β) (key : String) :
    (entries.filterMap fun entry => (f entry.1 entry.2).map (entry.1, ·)).lookup key =
      (entries.lookup key).bind (f key) := by
  induction entries with
  | nil => rfl
  | cons entry rest ih =>
      obtain ⟨fresh, distinct⟩ := List.nodup_cons.1 distinct
      have later := ih distinct
      rw [lookup_cons_entry, List.filterMap_cons]
      by_cases same : key = entry.1
      · subst same
        rw [lookup_eq_none fresh] at later
        rw [if_pos rfl]
        cases computed : f entry.1 entry.2 with
        | none => simpa [computed] using later
        | some value => simp [computed]
      · rw [if_neg same, ← later]
        cases f entry.1 entry.2 with
        | none => rfl
        | some value => simp [same]

end Dictionary

end ComputedStyle
