import ComputedStyle.Document.Order
import ComputedStyle.Proofs.Document.Consistency

namespace ComputedStyle.Document

variable {doc : Document}

theorem ancestors_of_root {id : NodeId} (orphan : doc.parent? id = none) :
    doc.ancestors id = [] := by
  rw [ancestors]
  split <;> simp_all

theorem ancestors_of_child {id p : NodeId} (parent : doc.parent? id = some p) :
    doc.ancestors id = p :: doc.ancestors p := by
  rw [ancestors]
  split <;> simp_all

theorem parent_mem_ancestors {id a p : NodeId} (member : a ∈ doc.ancestors id)
    (parent : doc.parent? a = some p) : p ∈ doc.ancestors id := by
  induction id using ancestors.induct doc with
  | case1 id q up ih =>
      rw [ancestors_of_child up] at member ⊢
      rcases List.mem_cons.1 member with rfl | member
      · rw [ancestors_of_child parent]
        simp
      · exact List.mem_cons_of_mem _ (ih member)
  | case2 id orphan =>
      rw [ancestors_of_root orphan] at member
      cases member

theorem ancestors_lt {id a : NodeId} (member : a ∈ doc.ancestors id) : a < id := by
  induction id using ancestors.induct doc with
  | case1 id q up ih =>
      rw [ancestors_of_child up] at member
      rcases List.mem_cons.1 member with rfl | member
      · exact parent?_lt up
      · exact Nat.lt_trans (ih member) (parent?_lt up)
  | case2 id orphan =>
      rw [ancestors_of_root orphan] at member
      cases member

/-- A node with its ancestors. -/
def lineage (doc : Document) (id : NodeId) : List NodeId :=
  id :: doc.ancestors id

/-- Of two nodes on one way to the root, one is on the way of the other. -/
theorem lineage_comparable {id a b : NodeId} (first : a ∈ doc.lineage id)
    (second : b ∈ doc.lineage id) : a ∈ doc.lineage b ∨ b ∈ doc.lineage a := by
  induction id using ancestors.induct doc with
  | case1 id p up ih =>
      rcases List.mem_cons.1 first with rfl | above
      · exact .inr second
      · rcases List.mem_cons.1 second with rfl | above'
        · exact .inl first
        · rw [ancestors_of_child up] at above above'
          exact ih above above'
  | case2 id orphan =>
      simp only [lineage, ancestors_of_root orphan, List.mem_singleton] at first second
      subst first second
      exact .inl (List.mem_cons_self ..)

theorem child_mem_subtree {id p c : NodeId} (member : p ∈ doc.subtree id)
    (child : c ∈ doc.children p) : c ∈ doc.subtree id := by
  induction id using subtree.induct doc with
  | case1 id ih =>
      rw [subtree_eq] at member ⊢
      refine List.mem_cons_of_mem _ (List.mem_flatMap.2 ?_)
      rcases List.mem_cons.1 member with rfl | below
      · exact ⟨c, child, by rw [subtree_eq]; exact List.mem_cons_self ..⟩
      · obtain ⟨top, listed, inside⟩ := List.mem_flatMap.1 below
        exact ⟨top, listed, ih top listed inside⟩

theorem Consistent.mem_subtree (h : doc.Consistent) {id x : NodeId} :
    x ∈ doc.subtree id ↔ id ∈ doc.lineage x := by
  constructor
  · intro member
    induction id using subtree.induct doc with
    | case1 id ih =>
        rw [subtree_eq] at member
        rcases List.mem_cons.1 member with rfl | below
        · exact List.mem_cons_self ..
        · obtain ⟨child, listed, inside⟩ := List.mem_flatMap.1 below
          have parent := (h.listed child id).2 listed
          refine List.mem_cons_of_mem _ ?_
          rcases List.mem_cons.1 (ih child listed inside) with rfl | above
          · rw [ancestors_of_child parent]
            exact List.mem_cons_self ..
          · exact parent_mem_ancestors above parent
  · intro member
    induction x using ancestors.induct doc with
    | case1 x p up ih =>
        rcases List.mem_cons.1 member with rfl | above
        · rw [subtree_eq]
          exact List.mem_cons_self ..
        · rw [ancestors_of_child up] at above
          exact child_mem_subtree (ih above) ((h.listed x p).1 up)
    | case2 x orphan =>
        simp only [lineage, ancestors_of_root orphan, List.mem_singleton] at member
        rw [member, subtree_eq]
        exact List.mem_cons_self ..

theorem Consistent.disjoint_subtrees (h : doc.Consistent) {p a b : NodeId}
    (first : a ∈ doc.children p) (second : b ∈ doc.children p) (apart : a ≠ b) :
    (doc.subtree a).Disjoint (doc.subtree b) := by
  have parents := And.intro ((h.listed a p).2 first) ((h.listed b p).2 second)
  -- A child of `p` above another child of `p` would be `p` itself or above it.
  have impossible : ∀ c d, doc.parent? c = some p → doc.parent? d = some p → c ≠ d →
      c ∉ doc.lineage d := by
    intro c d up up' other member
    rcases List.mem_cons.1 member with same | above
    · exact other same
    · rw [ancestors_of_child up'] at above
      have below := parent?_lt up
      rcases List.mem_cons.1 above with rfl | above
      · exact Nat.lt_irrefl _ below
      · exact Nat.lt_asymm below (ancestors_lt above)
  intro x inA inB
  rcases lineage_comparable (h.mem_subtree.1 inA) (h.mem_subtree.1 inB) with above | above
  · exact impossible a b parents.1 parents.2 apart above
  · exact impossible b a parents.2 parents.1 apart.symm above

theorem Consistent.nodup_subtree (h : doc.Consistent) (id : NodeId) :
    (doc.subtree id).Nodup := by
  induction id using subtree.induct doc with
  | case1 id ih =>
      rw [subtree_eq, List.nodup_cons]
      constructor
      · intro member
        obtain ⟨child, listed, inside⟩ := List.mem_flatMap.1 member
        have below := (children_range listed).1
        rcases List.mem_cons.1 (h.mem_subtree.1 inside) with same | above
        · exact Nat.ne_of_gt below same
        · exact Nat.lt_asymm below (ancestors_lt above)
      · refine List.nodup_flatMap.2 ⟨ih, ?_⟩
        exact (h.distinct id).imp_of_mem fun first second apart =>
          h.disjoint_subtrees first second apart

theorem Consistent.root_mem_lineage (h : doc.Consistent) {id : NodeId} (bound : id < doc.size) :
    0 ∈ doc.lineage id := by
  induction id using ancestors.induct doc with
  | case1 id p up ih =>
      have above := ih (Nat.lt_trans (parent?_lt up) bound)
      rw [lineage, ancestors_of_child up]
      exact List.mem_cons_of_mem _ above
  | case2 id orphan =>
      rw [h.rooted id bound orphan]
      exact List.mem_cons_self ..

theorem root?_eq (h : 0 < doc.size) : doc.root? = some 0 := by
  rw [root?, if_neg]
  simpa [isEmpty, size, Nat.pos_iff_ne_zero] using h

theorem preorder_eq_subtree_root (h : 0 < doc.size) : doc.preorder = doc.subtree 0 := by
  rw [preorder_eq_subtree, root?_eq h]
  simp

theorem preorder_of_size_eq_zero (h : doc.size = 0) : doc.preorder = [] := by
  have empty : doc.isEmpty := by simpa [isEmpty, size] using h
  rw [preorder_eq_subtree, root?, if_pos empty]
  rfl

theorem mem_subtree_lt {id x : NodeId} (bound : id < doc.size) (member : x ∈ doc.subtree id) :
    x < doc.size := by
  induction id using subtree.induct doc with
  | case1 id ih =>
      rw [subtree_eq] at member
      rcases List.mem_cons.1 member with rfl | below
      · exact bound
      · obtain ⟨child, listed, inside⟩ := List.mem_flatMap.1 below
        exact ih child listed (children_range listed).2 inside

theorem Consistent.mem_preorder (h : doc.Consistent) {id : NodeId} :
    id ∈ doc.preorder ↔ id < doc.size := by
  rcases Nat.eq_zero_or_pos doc.size with zero | positive
  · rw [preorder_of_size_eq_zero zero, zero]
    simp
  · rw [preorder_eq_subtree_root positive]
    exact ⟨mem_subtree_lt positive, fun bound => h.mem_subtree.2 (h.root_mem_lineage bound)⟩

theorem Consistent.nodup_preorder (h : doc.Consistent) : doc.preorder.Nodup := by
  rcases Nat.eq_zero_or_pos doc.size with zero | positive
  · rw [preorder_of_size_eq_zero zero]
    exact List.nodup_nil
  · rw [preorder_eq_subtree_root positive]
    exact h.nodup_subtree 0

theorem Consistent.preorder_perm_ids (h : doc.Consistent) : doc.preorder.Perm doc.ids := by
  refine (List.perm_ext_iff_of_nodup h.nodup_preorder List.nodup_range).2 fun id => ?_
  rw [h.mem_preorder, List.mem_range]

theorem root_of_root? {id : NodeId} (member : id ∈ doc.root?.toList) : id = 0 ∧ 0 < doc.size := by
  rcases Nat.eq_zero_or_pos doc.size with zero | positive
  · have empty : doc.isEmpty := by simpa [isEmpty, size] using zero
    rw [root?, if_pos empty] at member
    cases member
  · rw [root?_eq positive] at member
    exact ⟨List.mem_singleton.1 member, positive⟩

section Pass

variable {σ : Type} {motive : List NodeId → σ → Prop} {f : σ → NodeId → σ}

/-- The parent of each node on the stack has been passed, so that it has been when its turn comes. -/
theorem Consistent.foldl_walk (h : doc.Consistent)
    (step : ∀ passed state id, id < doc.size → (∀ p, doc.parent? id = some p → p ∈ passed) →
      motive passed state → motive (id :: passed) (f state id))
    (stack passed : List NodeId) (state : σ) (inside : ∀ id ∈ stack, id < doc.size)
    (ready : ∀ id ∈ stack, ∀ p, doc.parent? id = some p → p ∈ passed)
    (holds : motive passed state) :
    motive ((doc.walk stack).reverse ++ passed) ((doc.walk stack).foldl f state) := by
  fun_induction walk doc stack generalizing passed state with
  | case1 => exact holds
  | case2 id stack ih =>
      rw [List.reverse_cons, List.append_assoc, List.singleton_append, List.foldl_cons]
      apply ih
      · intro other member
        rcases List.mem_append.1 member with child | waiting
        · exact (children_range child).2
        · exact inside other (List.mem_cons_of_mem _ waiting)
      · intro other member p parent
        rcases List.mem_append.1 member with child | waiting
        · obtain rfl : id = p := by
            have listed := (h.listed other id).2 child
            rw [parent] at listed
            exact (Option.some.inj listed).symm
          exact List.mem_cons_self
        · exact List.mem_cons_of_mem _ (ready other (List.mem_cons_of_mem _ waiting) p parent)
      · apply step
        · exact inside id List.mem_cons_self
        · exact ready id List.mem_cons_self
        · exact holds

theorem Consistent.foldl_preorder (h : doc.Consistent)
    (step : ∀ passed state id, id < doc.size → (∀ p, doc.parent? id = some p → p ∈ passed) →
      motive passed state → motive (id :: passed) (f state id))
    {state : σ} (start : motive [] state) :
    motive doc.preorder.reverse (doc.preorder.foldl f state) := by
  have walked := h.foldl_walk step doc.root?.toList [] state ?_ ?_ start
  · rwa [List.append_nil] at walked
  · intro id member
    obtain ⟨rfl, bound⟩ := root_of_root? member
    exact bound
  · intro id member p parent
    obtain ⟨rfl, _⟩ := root_of_root? member
    exact absurd (parent?_lt parent) (Nat.not_lt_zero p)

end Pass

end ComputedStyle.Document
