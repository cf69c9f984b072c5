import ComputedStyle.Proofs.Document.Edits

/-!
The invariant of trees built by edits.

Parents and children name each other, and what a node keeps about its place and its children is what
counting the children from the first comes to. Every edit keeps this (`consistent_ofEdits`).
-/

namespace ComputedStyle

/-- A tally with one more child counted. -/
def Tally.count (tally : Tally) (id : NodeId) (content : Content) : Tally :=
  (tally.place 0 id content).2

theorem Tally.place_snd (tally : Tally) (childIndex id : Nat) (content : Content) :
    (tally.place childIndex id content).2 = tally.count id content := by
  cases content <;> rfl

namespace Document

/-- What children come to, counted from the first. -/
def tallyOf (doc : Document) (children : List NodeId) : Tally :=
  children.foldl (fun tally child => tally.count child (doc.content child)) {}

theorem tallyOf_concat (doc : Document) (children : List NodeId) (child : NodeId) :
    doc.tallyOf (children ++ [child]) =
      (doc.tallyOf children).count child (doc.content child) := by
  simp [tallyOf, List.foldl_append]

theorem tallyOf_congr {doc next : Document} {children : List NodeId}
    (same : ∀ child ∈ children, next.content child = doc.content child) :
    next.tallyOf children = doc.tallyOf children := by
  unfold tallyOf
  refine List.foldl_ext _ _ _ fun tally child member => ?_
  rw [same child member]

structure Consistent (doc : Document) : Prop where
  rooted : ∀ id, id < doc.size → doc.parent? id = none → id = 0
  unplaced : ∀ id, doc.parent? id = none → doc.position id = {}
  listed : ∀ id p, doc.parent? id = some p ↔ id ∈ doc.children p
  distinct : ∀ p, (doc.children p).Nodup
  placed : ∀ p before id after, doc.children p = before ++ id :: after →
    doc.position id = ((doc.tallyOf before).place before.length id (doc.content id)).1
  tallied : ∀ p, doc.tally p = doc.tallyOf (doc.children p)
  lowered : ∀ id, (doc.content id).IsLower

theorem consistent_empty : empty.Consistent where
  rooted id bound := absurd bound (Nat.not_lt_zero id)
  unplaced _ _ := rfl
  listed _ _ := ⟨nofun, nofun⟩
  distinct _ := List.nodup_nil
  placed _ before _ _ split := absurd split (by cases before <;> nofun)
  tallied _ := rfl
  lowered _ := Content.isLower_text ""

theorem children_ofRoot (content : Content) (id : NodeId) : (ofRoot content).children id = [] := by
  simp only [children, node?_ofRoot]
  split <;> rfl

theorem parent?_ofRoot (content : Content) (id : NodeId) :
    (ofRoot content).parent? id = none := by
  simp only [parent?, node?_ofRoot]
  split <;> rfl

theorem consistent_ofRoot {content : Content} (lower : content.IsLower) :
    (ofRoot content).Consistent where
  rooted id bound _ := Nat.lt_one_iff.1 bound
  unplaced id _ := by
    simp only [position, node?_ofRoot]
    split <;> rfl
  listed id p := by simp [children_ofRoot, parent?_ofRoot]
  distinct p := by simp [children_ofRoot]
  placed p before id after split := by
    rw [children_ofRoot] at split
    cases before <;> cases split
  tallied p := by
    rw [children_ofRoot]
    simp only [tally, node?_ofRoot]
    split <;> rfl
  lowered id := by
    simp only [Document.content, node?_ofRoot]
    split
    · exact lower
    · exact Content.isLower_text ""

theorem Consistent.update {doc : Document} (h : doc.Consistent) (id : NodeId)
    (change : Node → Node) (keeps : ∀ node, (change node).links = node.links)
    (same : ∀ node, (change node).content = node.content) :
    (doc.update id change keeps).Consistent where
  rooted := by simpa using h.rooted
  unplaced := by simpa using h.unplaced
  listed := by simpa using h.listed
  distinct := by simpa using h.distinct
  placed p before other after split := by
    rw [children_update] at split
    rw [position_update, content_update same,
      tallyOf_congr fun child _ => content_update same child]
    exact h.placed p before other after split
  tallied p := by
    rw [tally_update, children_update, tallyOf_congr fun child _ => content_update same child]
    exact h.tallied p
  lowered other := by
    rw [content_update same]
    exact h.lowered other

section Append

variable {doc : Document} {p : NodeId} {content : Content} {bound : p < doc.nodes.size}

theorem content_append_of_child {q child : NodeId} (member : child ∈ doc.children q) :
    (doc.append p content bound).content child = doc.content child := by
  rw [content_append, if_neg (Nat.ne_of_lt (children_range member).2)]

theorem tallyOf_append {q : NodeId} {children : List NodeId}
    (sub : ∀ child ∈ children, child ∈ doc.children q) :
    (doc.append p content bound).tallyOf children = doc.tallyOf children :=
  tallyOf_congr fun child member => content_append_of_child (sub child member)

theorem size_not_mem_children (q : NodeId) : doc.size ∉ doc.children q :=
  fun member => Nat.lt_irrefl _ (children_range member).2

theorem Consistent.listed_append (h : doc.Consistent) (id q : NodeId) :
    (doc.append p content bound).parent? id = some q ↔
      id ∈ (doc.append p content bound).children q := by
  rw [parent?_append, children_append]
  by_cases fresh : id = doc.size
  · subst fresh
    by_cases same : q = p
    · simp [same]
    · simp [same, Ne.symm same, size_not_mem_children]
  · by_cases same : q = p
    · subst same
      simp [fresh, h.listed]
    · simp [same, fresh, h.listed]

/-- The children of a node that had them before keep their positions; the new child is placed after
all others. -/
theorem Consistent.placed_append (h : doc.Consistent) {q id : NodeId}
    {before after : List NodeId}
    (split : (doc.append p content bound).children q = before ++ id :: after) :
    (doc.append p content bound).position id =
      (((doc.append p content bound).tallyOf before).place before.length id
        ((doc.append p content bound).content id)).1 := by
  have old : ∀ tail, doc.children q = before ++ id :: tail →
      (doc.append p content bound).position id =
        (((doc.append p content bound).tallyOf before).place before.length id
          ((doc.append p content bound).content id)).1 := by
    intro tail earlier
    have member : id ∈ doc.children q := by simp [earlier]
    have sub : ∀ child ∈ before, child ∈ doc.children q := fun child inside => by
      simp [earlier, inside]
    rw [position_append, if_neg (Nat.ne_of_lt (children_range member).2),
      content_append_of_child member, tallyOf_append sub]
    exact h.placed q before id tail earlier
  rw [children_append] at split
  by_cases same : q = p
  · subst same
    rw [if_pos rfl] at split
    rcases List.eq_nil_or_concat after with rfl | ⟨tail, last, rfl⟩
    · obtain ⟨rfl, last⟩ := List.append_inj' split rfl
      obtain rfl : doc.size = id := by simpa using last
      rw [position_append, if_pos rfl, content_append, if_pos rfl,
        tallyOf_append fun child inside => inside, placeUnder, h.tallied]
    · have ends : doc.children q ++ [doc.size] = (before ++ id :: tail) ++ [last] := by
        simpa using split
      exact old tail (List.append_inj' ends rfl).1
  · rw [if_neg same] at split
    exact old after split

theorem Consistent.append (h : doc.Consistent) (lower : content.IsLower) :
    (doc.append p content bound).Consistent where
  rooted id less orphan := by
    rw [parent?_append] at orphan
    split at orphan
    · cases orphan
    · next old =>
        rw [size_append] at less
        exact h.rooted id (Nat.lt_of_le_of_ne (Nat.lt_succ_iff.1 less) old) orphan
  unplaced id orphan := by
    rw [parent?_append] at orphan
    split at orphan
    · cases orphan
    · next old =>
        rw [position_append, if_neg old]
        exact h.unplaced id orphan
  listed := h.listed_append
  distinct q := by
    rw [children_append]
    split
    · refine List.nodup_append.2 ⟨h.distinct p, List.nodup_singleton _, ?_⟩
      intro child member other last same
      rw [List.mem_singleton.1 last] at same
      exact size_not_mem_children p (same ▸ member)
    · exact h.distinct q
  placed _ _ _ _ := h.placed_append
  tallied q := by
    rw [tally_append, children_append]
    split
    · rw [tallyOf_concat, content_append, if_pos rfl,
        tallyOf_append fun child inside => inside, placeUnder, Tally.place_snd, h.tallied]
    · rw [h.tallied, tallyOf_append fun child inside => inside]
  lowered id := by
    rw [content_append]
    split
    · exact lower
    · exact h.lowered id

end Append

theorem Consistent.step {doc next : Document} (h : doc.Consistent) (step : Step doc next) :
    next.Consistent := by
  cases step with
  | same => exact h
  | root content _ lower => exact consistent_ofRoot lower
  | child p content bound lower => exact h.append lower
  | update id change keeps same => exact h.update id change keeps same

theorem consistent_ofEdits (edits : List Edit) : (ofEdits edits).Consistent :=
  ofEdits_induction consistent_empty (fun _ _ h step => h.step step) edits

end Document

end ComputedStyle
