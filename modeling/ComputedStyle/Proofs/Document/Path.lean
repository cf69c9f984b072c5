import ComputedStyle.Document.Path
import ComputedStyle.Proofs.Document.Bookkeeping
import ComputedStyle.Proofs.Text.Nesting

namespace ComputedStyle.Document

variable {doc : Document}

theorem path_of_root {id : NodeId} (root : doc.parent? id = none) :
    doc.path id = "/" ++ doc.segment id := by
  rw [path, ancestors_of_root root]
  simp [String.join_cons]

theorem path_of_child {id p : NodeId} (parent : doc.parent? id = some p) :
    doc.path id = doc.path p ++ "/" ++ doc.segment id := by
  rw [path, path, ancestors_of_child parent, List.reverse_cons, List.map_append, String.join_append,
    String.append_assoc]
  simp [String.join_cons]

theorem size_addPath (paths : Array String) (id : NodeId) :
    (doc.addPath paths id).size = paths.size :=
  Array.size_modify

theorem getElem?_addPath (paths : Array String) (id other : NodeId) :
    (doc.addPath paths id)[other]? =
      if other = id then
        (paths[id]?).map fun _ =>
          ((doc.parent? id).bind (paths[·]?)).getD "" ++ "/" ++ doc.segment id
      else paths[other]? := by
  rw [addPath, Array.getElem?_modify]
  by_cases same : other = id
  · rw [if_pos same, if_pos same.symm, same]
  · rw [if_neg same, if_neg (Ne.symm same)]

/-- Built from the path of the parent, the path of a node is the one that leads up from it. -/
theorem getElem?_addPath_self {paths : Array String} {id : NodeId} (bound : id < paths.size)
    (ready : ∀ p, doc.parent? id = some p → paths[p]? = some (doc.path p)) :
    (doc.addPath paths id)[id]? = some (doc.path id) := by
  rw [getElem?_addPath, if_pos rfl, Array.getElem?_eq_getElem bound, Option.map_some]
  cases parent : doc.parent? id with
  | none => rw [path_of_root parent]; rfl
  | some p => rw [path_of_child parent, Option.bind_some, ready p parent, Option.getD_some]

theorem Consistent.paths_spec (h : doc.Consistent) :
    doc.paths.size = doc.size ∧ ∀ id, id < doc.size → doc.paths[id]? = some (doc.path id) := by
  let motive (passed : List NodeId) (paths : Array String) : Prop :=
    paths.size = doc.size ∧ ∀ id ∈ passed, paths[id]? = some (doc.path id)
  have passed : motive doc.preorder.reverse doc.paths := by
    apply h.foldl_preorder
    · intro passed paths id bound ready ⟨size, final⟩
      have own : (doc.addPath paths id)[id]? = some (doc.path id) := by
        apply getElem?_addPath_self
        · exact size ▸ bound
        · exact fun p parent => final p (ready p parent)
      refine ⟨by rw [size_addPath, size], List.forall_mem_cons.2 ⟨own, fun other member => ?_⟩⟩
      by_cases same : other = id
      · rw [same, own]
      · rw [getElem?_addPath, if_neg same]
        exact final other member
    · exact ⟨Array.size_replicate, List.forall_mem_nil _⟩
  refine ⟨passed.1, fun id bound => passed.2 id ?_⟩
  rw [List.mem_reverse]
  exact h.mem_preorder.2 bound

/-- What a segment says apart from the place. -/
def label (doc : Document) (id : NodeId) : String :=
  (doc.tag? id).getD textSegment

/-- The place that a segment gives. -/
def place (doc : Document) (id : NodeId) : Nat :=
  if doc.isElement id then (doc.position id).elementIndex else (doc.position id).childIndex

theorem segment_of_root {id : NodeId} (root : doc.parent? id = none) :
    doc.segment id = doc.label id := by
  rw [segment, isRoot, root]
  rfl

theorem segment_of_child {id p : NodeId} (parent : doc.parent? id = some p) :
    doc.segment id = doc.label id ++ "[" ++ toString (doc.place id) ++ "]" := by
  rw [segment, isRoot, parent]
  rfl

theorem isDigit_of_mem_toString {n : Nat} {c : Char} (member : c ∈ (toString n).toList) :
    c.isDigit := by
  rw [Nat.toString_eq_repr, Nat.repr_eq_ofList_toDigits, String.toList_ofList] at member
  exact Nat.isDigit_of_mem_toDigits (by decide) (by decide) member

theorem not_mem_toString {mark : Char} (apart : mark.isDigit = false) (n : Nat) :
    mark ∉ (toString n).toList := by
  intro member
  rw [isDigit_of_mem_toString member] at apart
  cases apart

/-- The label and the place of a node below the root are told by its segment, whatever stands in the
label. -/
theorem label_place_of_segment {a b p q : NodeId} (first : doc.parent? a = some p)
    (second : doc.parent? b = some q) (same : doc.segment a = doc.segment b) :
    doc.label a = doc.label b ∧ doc.place a = doc.place b := by
  rw [segment_of_child first, segment_of_child second] at same
  have lists : (doc.label a).toList ++ '[' :: ((toString (doc.place a)).toList ++ [']']) =
      (doc.label b).toList ++ '[' :: ((toString (doc.place b)).toList ++ [']']) := by
    simpa using congrArg String.toList same
  have plain : ∀ n : Nat, '[' ∉ (toString n).toList ++ [']'] := by
    intro n member
    rcases List.mem_append.1 member with digit | last
    · exact not_mem_toString rfl n digit
    · simp at last
  obtain ⟨labels, places⟩ := Text.mark_append_inj (plain _) (plain _) lists
  refine ⟨String.toList_injective labels, Nat.repr_injective ?_⟩
  exact String.toList_injective (List.append_cancel_right places)

/-- Tags that paths can be told apart by: none holds a slash or is the mark of a text. -/
def HasPlainTags (doc : Document) : Prop :=
  ∀ id tag, doc.tag? id = some tag → '/' ∉ tag.toList ∧ tag ≠ textSegment

instance : DecidablePred HasPlainTags := fun doc =>
  decidable_of_iff
    (∀ id ∈ doc.ids, ∀ tag ∈ doc.tag? id, '/' ∉ tag.toList ∧ tag ≠ textSegment)
    (by
      constructor
      · intro plain id tag own
        have bound : id < doc.size := by
          by_contra outside
          rw [tag?, node?_eq_none (Nat.le_of_not_lt outside)] at own
          cases own
        exact plain id (List.mem_range.2 bound) tag own
      · exact fun plain id _ tag own => plain id tag own)

namespace HasPlainTags

variable (plain : doc.HasPlainTags)

include plain

theorem slash_not_mem_label (id : NodeId) : '/' ∉ (doc.label id).toList := by
  rw [label]
  cases own : doc.tag? id with
  | none => decide
  | some tag => exact (plain id tag own).1

theorem slash_not_mem_segment (id : NodeId) : '/' ∉ (doc.segment id).toList := by
  have label := plain.slash_not_mem_label id
  cases parent : doc.parent? id with
  | none => rwa [segment_of_root parent]
  | some p =>
      have place : '/' ∉ (toString (doc.place id)).toList := not_mem_toString rfl _
      simp only [segment_of_child parent, String.toList_append, List.mem_append, not_or]
      exact ⟨⟨⟨label, by decide⟩, place⟩, by decide⟩

theorem eq_of_append_segment {a b : NodeId} {x y : String}
    (same : x ++ "/" ++ doc.segment a = y ++ "/" ++ doc.segment b) :
    x = y ∧ doc.segment a = doc.segment b := by
  have lists : x.toList ++ '/' :: (doc.segment a).toList =
      y.toList ++ '/' :: (doc.segment b).toList := by
    simpa using congrArg String.toList same
  obtain ⟨heads, last⟩ := Text.mark_append_inj (plain.slash_not_mem_segment a)
    (plain.slash_not_mem_segment b) lists
  exact ⟨String.toList_injective heads, String.toList_injective last⟩

theorem isElement_of_label {a b : NodeId} (same : doc.label a = doc.label b) :
    doc.isElement a = doc.isElement b := by
  rw [label, label] at same
  rw [isElement, isElement]
  cases first : doc.tag? a with
  | none =>
      cases second : doc.tag? b with
      | none => rfl
      | some tag =>
          rw [first, second] at same
          exact absurd same.symm (plain b tag second).2
  | some tag =>
      cases second : doc.tag? b with
      | none =>
          rw [first, second] at same
          exact absurd same (plain a tag first).2
      | some other => rfl

end HasPlainTags

/-- Of two children of one kind, the later one has the greater place. -/
theorem Consistent.place_lt (h : doc.Consistent) {before after : List NodeId} {a b p : NodeId}
    (split : doc.children p = before ++ a :: after) (later : b ∈ after)
    (kind : doc.isElement a = doc.isElement b) : doc.place a < doc.place b := by
  obtain ⟨between, rest, rfl⟩ := List.append_of_mem later
  have second : doc.children p = (before ++ a :: between) ++ b :: rest := by simp [split]
  rw [place, place, kind]
  cases element : doc.isElement b with
  | false =>
      rw [if_neg Bool.false_ne_true, if_neg Bool.false_ne_true, h.childIndex_of_split split,
        h.childIndex_of_split second]
      simp
  | true =>
      rw [element] at kind
      obtain ⟨tag, own⟩ := Option.isSome_iff_exists.1 kind
      obtain ⟨other, own'⟩ := Option.isSome_iff_exists.1 element
      rw [if_pos rfl, if_pos rfl, (h.recounted_of_split split own).elementIndex,
        (h.recounted_of_split second own').elementIndex]
      simp [elementsAmong, kind]

theorem Consistent.eq_of_place (h : doc.Consistent) {a b p : NodeId}
    (first : doc.parent? a = some p) (second : doc.parent? b = some p)
    (kind : doc.isElement a = doc.isElement b) (same : doc.place a = doc.place b) : a = b := by
  obtain ⟨before, after, split⟩ := h.exists_split first
  have listed := (h.listed b p).1 second
  rw [split, List.mem_append, List.mem_cons] at listed
  rcases listed with earlier | rfl | later
  · obtain ⟨left, right, rfl⟩ := List.append_of_mem earlier
    have other : doc.children p = left ++ b :: (right ++ a :: after) := by simp [split]
    have less := h.place_lt other (List.mem_append_right _ List.mem_cons_self) kind.symm
    exact absurd same (Nat.ne_of_gt less)
  · rfl
  · exact absurd same (Nat.ne_of_lt (h.place_lt split later kind))

theorem path_ne_empty (id : NodeId) : doc.path id ≠ "" := by
  cases parent : doc.parent? id with
  | none => simp [path_of_root parent]
  | some p => simp [path_of_child parent]

theorem Consistent.path_injective (h : doc.Consistent) (plain : doc.HasPlainTags) {a b : NodeId}
    (first : a < doc.size) (second : b < doc.size) (same : doc.path a = doc.path b) : a = b := by
  induction a using ancestors.induct doc generalizing b with
  | case1 a p up ih =>
      rw [path_of_child up] at same
      cases up' : doc.parent? b with
      | none =>
          rw [path_of_root up', ← String.empty_append (s := "/")] at same
          exact absurd (plain.eq_of_append_segment same).1 (path_ne_empty p)
      | some q =>
          rw [path_of_child up'] at same
          obtain ⟨above, last⟩ := plain.eq_of_append_segment same
          obtain rfl := ih (Nat.lt_trans (parent?_lt up) first)
            (Nat.lt_trans (parent?_lt up') second) above
          obtain ⟨labels, places⟩ := label_place_of_segment up up' last
          exact h.eq_of_place up up' (plain.isElement_of_label labels) places
  | case2 a orphan =>
      rw [path_of_root orphan] at same
      cases up' : doc.parent? b with
      | none => rw [h.rooted a first orphan, h.rooted b second up']
      | some q =>
          rw [path_of_child up', ← String.empty_append (s := "/")] at same
          exact absurd (plain.eq_of_append_segment same).1.symm (path_ne_empty q)

theorem Consistent.getElem?_paths_iff (h : doc.Consistent) {id : NodeId} {text : String} :
    doc.paths[id]? = some text ↔ id < doc.size ∧ doc.path id = text := by
  obtain ⟨size, final⟩ := h.paths_spec
  constructor
  · intro own
    have bound : id < doc.size := size ▸ (Array.getElem?_eq_some_iff.1 own).1
    exact ⟨bound, Option.some.inj ((final id bound).symm.trans own)⟩
  · rintro ⟨bound, rfl⟩
    exact final id bound

theorem Consistent.find?_eq_none_iff (h : doc.Consistent) {text : String} :
    doc.find? text = none ↔ ∀ id < doc.size, doc.path id ≠ text := by
  simp only [find?, List.find?_eq_none, decide_eq_true_eq, h.mem_preorder, h.getElem?_paths_iff]
  constructor
  · exact fun missing id bound same => missing id bound ⟨bound, same⟩
  · exact fun missing id bound own => missing id bound own.2

theorem Consistent.path_of_find? (h : doc.Consistent) {text : String} {id : NodeId}
    (found : doc.find? text = some id) : id < doc.size ∧ doc.path id = text := by
  apply h.getElem?_paths_iff.1
  simpa using List.find?_some found

theorem Consistent.find?_path (h : doc.Consistent) (plain : doc.HasPlainTags) {id : NodeId}
    (bound : id < doc.size) : doc.find? (doc.path id) = some id := by
  cases found : doc.find? (doc.path id) with
  | none => exact absurd rfl (h.find?_eq_none_iff.1 found id bound)
  | some other =>
      obtain ⟨bound', same⟩ := h.path_of_find? found
      rw [h.path_injective plain bound' bound same]

/-- Paths are keys of the nodes. -/
structure IsKeyedByPath (doc : Document) : Prop where
  injective : ∀ a b, a < doc.size → b < doc.size → doc.path a = doc.path b → a = b
  found : ∀ id, id < doc.size → doc.find? (doc.path id) = some id
  missing : ∀ text, (∀ id, id < doc.size → text ≠ doc.path id) → doc.find? text = none

theorem Consistent.isKeyedByPath (h : doc.Consistent) (plain : doc.HasPlainTags) :
    doc.IsKeyedByPath where
  injective _ _ first second := h.path_injective plain first second
  found _ := h.find?_path plain
  missing _ other := h.find?_eq_none_iff.2 fun id bound => (other id bound).symm

/-- Both ways to a path agree, and paths are keys of the nodes if the tags are plain. -/
structure HasFaithfulPaths (doc : Document) : Prop where
  size : doc.paths.size = doc.size
  agree : ∀ id, id < doc.size → doc.paths[id]? = some (doc.path id)
  keyed : doc.HasPlainTags → doc.IsKeyedByPath

theorem Consistent.hasFaithfulPaths (h : doc.Consistent) : doc.HasFaithfulPaths where
  size := h.paths_spec.1
  agree := h.paths_spec.2
  keyed := h.isKeyedByPath

end ComputedStyle.Document
