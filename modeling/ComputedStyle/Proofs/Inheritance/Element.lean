import ComputedStyle.Inheritance
import ComputedStyle.Proofs.Dictionary

namespace ComputedStyle

/-- A value as it is compared with keywords: without blanks around it, in lower case. -/
def keywordOf (value : String) : String :=
  (Text.trimmed value).toLower

/-- Whether a value of an inherited property leaves the choice to the parent. -/
def isDeferring (value : String) : Bool :=
  keywordOf value == "inherit" || keywordOf value == "unset"

def isInitial (value : String) : Bool :=
  keywordOf value == "initial"

/-- Whether a value is one of the keywords that every property takes. -/
def isWide (value : String) : Bool :=
  isDeferring value || isInitial value

theorem keyword_cases (value : String) :
    keywordOf value = "inherit" ∨ keywordOf value = "unset" ∨ keywordOf value = "initial" ∨
      (keywordOf value ≠ "inherit" ∧ keywordOf value ≠ "unset" ∧ keywordOf value ≠ "initial") := by
  grind

theorem sourceOf_eq (name value : String) :
    sourceOf name value =
      if keywordOf value = "inherit" then .parent
      else if keywordOf value = "initial" then .initial
      else if keywordOf value = "unset" then (if isInherited name then .parent else .initial)
      else .declared := by
  unfold sourceOf
  rw [← keywordOf]
  generalize keywordOf value = keyword
  split
  · rfl
  · rfl
  · rfl
  · next inherit_ initial_ unset_ => rw [if_neg inherit_, if_neg initial_, if_neg unset_]

theorem resolve?_of_inherited {name : String} (inherited : isInherited name) (value : String)
    (parent : StyleMap) :
    resolve? name value parent =
      if isDeferring value then inheritedValue? name parent
      else if isInitial value then initialValue? name
      else some value := by
  rw [resolve?, sourceOf_eq]
  simp only [isDeferring, isInitial, inherited, if_true, Bool.or_eq_true, beq_iff_eq]
  rcases keyword_cases value with same | same | same | ⟨first, second, third⟩
  · simp [same]
  · simp [same]
  · simp [same]
  · simp [first, second, third]

theorem resolve?_of_reset {name : String} (reset : isInherited name = false) (value : String)
    (parent : StyleMap) :
    resolve? name value parent =
      if keywordOf value = "inherit" then inheritedValue? name parent
      else if isWide value then initialValue? name
      else some value := by
  rw [resolve?, sourceOf_eq]
  simp only [isWide, isDeferring, isInitial, reset, Bool.or_eq_true, beq_iff_eq]
  rcases keyword_cases value with same | same | same | ⟨first, second, third⟩
  · simp [same]
  · simp [same]
  · simp [same]
  · simp [first, second, third]

theorem inheritedValue?_or_initial (name : String) (parent : StyleMap) :
    (inheritedValue? name parent).or (initialValue? name) = inheritedValue? name parent := by
  rw [inheritedValue?, Option.or_assoc, Option.or_self]

theorem computeInherited?_or_initial {name : String} (inherited : isInherited name)
    (declared parent : StyleMap) :
    (declared.computeInherited? parent name).or (initialValue? name) =
      declared.computeInherited? parent name := by
  unfold StyleMap.computeInherited?
  split
  · rw [resolve?_of_inherited inherited]
    split
    · exact inheritedValue?_or_initial name parent
    · split
      · exact Option.or_self
      · rfl
  · exact inheritedValue?_or_initial name parent

theorem nodup_inheritedProperties : (inheritedProperties.map Prod.fst).Nodup := by
  decide

theorem isWide_initialValue? {name value : String} (initial : initialValue? name = some value) :
    isWide value = false := by
  have inherited : ∀ entry ∈ inheritedProperties, ∀ value ∈ entry.2, isWide value = false := by
    decide +kernel
  have reset : ∀ entry ∈ resetProperties, isWide entry.2 = false := by
    decide +kernel
  unfold initialValue? at initial
  split at initial
  · next found =>
      obtain ⟨before, after, split, _⟩ := List.lookup_eq_some_iff.1 found
      exact inherited (name, _) (by simp [split]) value initial
  · obtain ⟨before, after, split, _⟩ := List.lookup_eq_some_iff.1 initial
    exact reset (name, value) (by simp [split])

/-- No keyword stands in a style. -/
def StyleMap.IsSettled (style : StyleMap) : Prop :=
  ∀ name value, style.get? name = some value → isWide value = false

theorem isWide_inheritedValue? {name value : String} {parent : StyleMap}
    (settled : parent.IsSettled) (h : inheritedValue? name parent = some value) :
    isWide value = false := by
  rcases Option.or_eq_some_iff.1 h with found | ⟨_, initial⟩
  · exact settled name value found
  · exact isWide_initialValue? initial

theorem isWide_resolve? {name declared value : String} {parent : StyleMap}
    (settled : parent.IsSettled) (h : resolve? name declared parent = some value) :
    isWide value = false := by
  cases inherited : isInherited name with
  | true =>
      rw [resolve?_of_inherited inherited] at h
      split at h
      · exact isWide_inheritedValue? settled h
      · next keeps =>
          split at h
          · exact isWide_initialValue? h
          · next plain =>
              cases h
              simp [isWide, keeps, plain]
  | false =>
      rw [resolve?_of_reset inherited] at h
      split at h
      · exact isWide_inheritedValue? settled h
      · split at h
        · exact isWide_initialValue? h
        · next plain =>
            cases h
            simpa using plain

namespace StyleMap

theorem get?_compute (declared parent : StyleMap) (name : String) :
    (compute declared parent).get? name =
      if isInherited name then computeInherited? declared parent name
      else (declared.get? name).bind fun value => resolve? name value parent := by
  let always : String → Option String → Option String :=
    fun name _ => computeInherited? declared parent name
  let own : String → String → Option String :=
    fun name value => if isInherited name then none else resolve? name value parent
  have entries : computedEntries declared parent =
      (inheritedProperties.filterMap fun entry => (always entry.1 entry.2).map (entry.1, ·)) ++
        declared.entries.filterMap fun entry => (own entry.1 entry.2).map (entry.1, ·) := by
    unfold computedEntries
    congr 2
    funext entry
    dsimp only [own]
    split <;> rfl
  have distinct := Dictionary.keys_nodup declared.ascending
  rw [compute, entries, Dictionary.get?_ofList_append
    ((Dictionary.keys_filterMap_sublist always _).nodup nodup_inheritedProperties)
    ((Dictionary.keys_filterMap_sublist own _).nodup distinct),
    Dictionary.lookup_filterMap nodup_inheritedProperties, Dictionary.lookup_filterMap distinct,
    ← Dictionary.get?]
  cases listed : inheritedProperties.lookup name with
  | none => simp [isInherited, listed, own]
  | some initial => simp [isInherited, listed, own, always]

theorem isSettled_empty : IsSettled .empty := by
  intro name value found
  cases found

theorem isSettled_compute (declared : StyleMap) {parent : StyleMap} (settled : parent.IsSettled) :
    (compute declared parent).IsSettled := by
  intro name value found
  rw [get?_compute] at found
  split at found
  · unfold computeInherited? at found
    split at found
    · exact isWide_resolve? settled found
    · exact isWide_inheritedValue? settled found
  · obtain ⟨own, _, resolved⟩ := Option.bind_eq_some_iff.1 found
    exact isWide_resolve? settled resolved

end StyleMap

end ComputedStyle
