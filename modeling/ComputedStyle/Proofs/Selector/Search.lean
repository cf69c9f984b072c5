import ComputedStyle.Proofs.Document.Siblings
import ComputedStyle.Selector.Matching

/-!
The pruned search for a placement misses none.

An outcome other than a match rules out more than the node it was found at: `retryAncestor` also the
elements before it, `never` also everything reached from it by going up and to earlier elements
(`Outcome.SoundAt`). Each combinator turns sound outcomes on its left into a sound outcome, because
the nodes it reaches from a node that is ruled out are ruled out on its left.
-/

namespace ComputedStyle

namespace Document

variable {doc : Document}

/-- A node is reached from another one by going up and to earlier elements. -/
def IsEarlier (doc : Document) : NodeId → NodeId → Prop :=
  Relation.TransGen fun a b => doc.parent? b = some a ∨ doc.previousElement? b = some a

theorem isEarlier_of_parent {a b : NodeId} (parent : doc.parent? b = some a) :
    doc.IsEarlier a b :=
  .single (.inl parent)

theorem isEarlier_of_ancestor {a b : NodeId} (above : a ∈ doc.ancestors b) :
    doc.IsEarlier a b := by
  induction isAncestor_iff.2 above with
  | single parent => exact isEarlier_of_parent parent
  | tail higher parent ih => exact .tail (ih (isAncestor_iff.1 higher)) (.inl parent)

theorem isEarlier_of_preceding {a b : NodeId} (member : a ∈ doc.precedingElements b) :
    doc.IsEarlier a b := by
  induction b using precedingElements.induct doc with
  | case1 b s later ih =>
      rw [precedingElements_of_later later] at member
      rcases List.mem_cons.1 member with rfl | member
      · exact .single (.inr later)
      · exact .tail (ih member) (.inr later)
  | case2 b first =>
      rw [precedingElements_of_first first] at member
      cases member

theorem preceding_trans {a b c : NodeId} (first : a ∈ doc.precedingElements b)
    (second : b ∈ doc.precedingElements c) : a ∈ doc.precedingElements c := by
  induction c using precedingElements.induct doc with
  | case1 c s later ih =>
      rw [precedingElements_of_later later] at second ⊢
      refine List.mem_cons_of_mem _ ?_
      rcases List.mem_cons.1 second with rfl | second
      · exact first
      · exact ih second
  | case2 c none =>
      rw [precedingElements_of_first none] at second
      cases second

theorem Consistent.parent?_preceding (h : doc.Consistent) {a b : NodeId}
    (member : a ∈ doc.precedingElements b) : doc.parent? a = doc.parent? b := by
  induction b using precedingElements.induct doc with
  | case1 b s later ih =>
      rw [precedingElements_of_later later] at member
      have same := h.parent?_previousElement later
      rcases List.mem_cons.1 member with rfl | member
      · exact same
      · exact (ih member).trans same
  | case2 b first =>
      rw [precedingElements_of_first first] at member
      cases member

theorem Consistent.ancestors_earlier (h : doc.Consistent) {a b c : NodeId}
    (earlier : doc.IsEarlier a b) (above : c ∈ doc.ancestors a) : c ∈ doc.ancestors b := by
  have step : ∀ x y, (doc.parent? y = some x ∨ doc.previousElement? y = some x) →
      c ∈ doc.ancestors x → c ∈ doc.ancestors y := by
    intro x y reached above
    rcases reached with parent | previous
    · rw [ancestors_of_child parent]
      exact List.mem_cons_of_mem _ above
    · have same := h.parent?_previousElement previous
      cases parent : doc.parent? x with
      | none =>
          rw [ancestors_of_root parent] at above
          cases above
      | some p =>
          rw [ancestors_of_child parent] at above
          rwa [ancestors_of_child (same.symm.trans parent)]
  induction earlier with
  | single reached => exact step _ _ reached above
  | tail _ reached ih => exact step _ _ reached ih

theorem Consistent.isEarlier_cases (h : doc.Consistent) {a b s : NodeId}
    (previous : doc.previousElement? b = some s) (earlier : doc.IsEarlier a b) :
    a = s ∨ doc.IsEarlier a s := by
  have up : ∀ p, doc.parent? b = some p → doc.parent? s = some p := fun p parent =>
    (h.parent?_previousElement previous).trans parent
  cases earlier with
  | single reached =>
      rcases reached with parent | other
      · exact .inr (isEarlier_of_parent (up a parent))
      · exact .inl (Option.some.inj (other.symm.trans previous))
  | tail earlier reached =>
      rcases reached with parent | other
      · exact .inr (.tail earlier (.inl (up _ parent)))
      · rw [Option.some.inj (previous.symm.trans other)]
        exact .inr earlier

end Document

/-- The nodes on the left of a combinator, by the links that the search follows. -/
def Combinator.Reaches (doc : Document) : Combinator → NodeId → NodeId → Prop
  | .child, a, b => doc.parent? b = some a
  | .descendant, a, b => a ∈ doc.ancestors b
  | .adjacentSibling, a, b => doc.previousElement? b = some a
  | .generalSibling, a, b => a ∈ doc.precedingElements b

/-- What an outcome at a node says about which nodes fit. -/
def Outcome.SoundAt (doc : Document) (fits : NodeId → Prop) (id : NodeId) : Outcome → Prop
  | .matched => fits id
  | .retrySibling => ¬fits id
  | .retryAncestor => ¬fits id ∧ ∀ a ∈ doc.precedingElements id, ¬fits a
  | .never => ¬fits id ∧ ∀ a, doc.IsEarlier a id → ¬fits a

namespace Outcome.SoundAt

open Document

variable {doc : Document} {fits : NodeId → Prop} {reaches : NodeId → NodeId → Prop} {id : NodeId}

theorem matched_iff {outcome : Outcome} (sound : outcome.SoundAt doc fits id) :
    outcome = .matched ↔ fits id := by
  cases outcome with
  | matched => exact ⟨fun _ => sound, fun _ => rfl⟩
  | retrySibling => exact ⟨nofun, fun fit => absurd fit sound⟩
  | retryAncestor => exact ⟨nofun, fun fit => absurd fit sound.1⟩
  | never => exact ⟨nofun, fun fit => absurd fit sound.1⟩

theorem restrict {outcome : Outcome} (sound : outcome.SoundAt doc fits id)
    (condition : NodeId → Prop) (holds : condition id) :
    outcome.SoundAt doc (fun a => condition a ∧ fits a) id := by
  cases outcome with
  | matched => exact ⟨holds, sound⟩
  | retrySibling => exact fun fit => sound fit.2
  | retryAncestor => exact ⟨fun fit => sound.1 fit.2, fun a member fit => sound.2 a member fit.2⟩
  | never => exact ⟨fun fit => sound.1 fit.2, fun a earlier fit => sound.2 a earlier fit.2⟩

theorem never_of_ancestors (h : doc.Consistent) (above : ∀ a b, reaches a b → a ∈ doc.ancestors b)
    (misfits : ∀ a ∈ doc.ancestors id, ¬fits a) :
    Outcome.never.SoundAt doc (fun b => ∃ a, reaches a b ∧ fits a) id := by
  refine ⟨?_, ?_⟩
  · rintro ⟨a, reached, fit⟩
    exact misfits a (above a id reached) fit
  · rintro b earlier ⟨a, reached, fit⟩
    exact misfits a (h.ancestors_earlier earlier (above a b reached)) fit

theorem never_of_earlier (before : ∀ a b, reaches a b → doc.IsEarlier a b)
    (misfits : ∀ a, doc.IsEarlier a id → ¬fits a) :
    Outcome.never.SoundAt doc (fun b => ∃ a, reaches a b ∧ fits a) id := by
  refine ⟨?_, ?_⟩
  · rintro ⟨a, reached, fit⟩
    exact misfits a (before a id reached) fit
  · rintro b earlier ⟨a, reached, fit⟩
    exact misfits a ((before a b reached).trans earlier) fit

theorem retryAncestor_of_preceding (before : ∀ a b, reaches a b → a ∈ doc.precedingElements b)
    (misfits : ∀ a ∈ doc.precedingElements id, ¬fits a) :
    Outcome.retryAncestor.SoundAt doc (fun b => ∃ a, reaches a b ∧ fits a) id := by
  refine ⟨?_, ?_⟩
  · rintro ⟨a, reached, fit⟩
    exact misfits a (before a id reached) fit
  · rintro b member ⟨a, reached, fit⟩
    exact misfits a (preceding_trans (before a b reached) member) fit

end Outcome.SoundAt

namespace Combinator

open Document

variable {doc : Document} {attempt : NodeId → Outcome} {fits : NodeId → Prop} {id : NodeId}

theorem search_of_none (combinator : Combinator) (next : combinator.candidate? doc id = none) :
    combinator.search doc attempt id = combinator.exhausted := by
  rw [search]
  split <;> simp_all

theorem search_of_some (combinator : Combinator) {current : NodeId}
    (next : combinator.candidate? doc id = some current) :
    combinator.search doc attempt id =
      (combinator.settles? (attempt current)).getD (combinator.search doc attempt current) := by
  rw [search]
  split
  · next stop => rw [stop] at next; cases next
  · next other found =>
      obtain rfl : other = current := Option.some.inj (found.symm.trans next)
      cases combinator.settles? (attempt other) <;> rfl

theorem search_child_soundAt (h : doc.Consistent)
    (sound : ∀ id, (attempt id).SoundAt doc fits id) (id : NodeId) :
    (child.search doc attempt id).SoundAt doc
      (fun b => ∃ a, child.Reaches doc a b ∧ fits a) id := by
  have above : ∀ a b, child.Reaches doc a b → a ∈ doc.ancestors b := fun a b parent => by
    rw [ancestors_of_child parent]
    exact List.mem_cons_self ..
  cases parent : doc.parent? id with
  | none =>
      rw [search_of_none child parent]
      exact .never_of_ancestors h above fun a member => by
        rw [ancestors_of_root parent] at member
        cases member
  | some p =>
      rw [search_of_some child parent]
      have left := sound p
      have only : ∀ a b, doc.parent? b = doc.parent? id → child.Reaches doc a b → a = p :=
        fun a b same reached => Option.some.inj (reached.symm.trans (same.trans parent))
      have retry : ¬fits p → Outcome.retryAncestor.SoundAt doc
          (fun b => ∃ a, child.Reaches doc a b ∧ fits a) id := by
        intro unfit
        refine ⟨?_, ?_⟩
        · rintro ⟨a, reached, fit⟩
          exact unfit (only a id rfl reached ▸ fit)
        · rintro b member ⟨a, reached, fit⟩
          exact unfit (only a b (h.parent?_preceding member) reached ▸ fit)
      cases outcome : attempt p with
      | matched =>
          rw [outcome] at left
          exact ⟨p, parent, left⟩
      | retrySibling =>
          rw [outcome] at left
          exact retry left
      | retryAncestor =>
          rw [outcome] at left
          exact retry left.1
      | never =>
          rw [outcome] at left
          refine .never_of_ancestors h above fun a member => ?_
          rw [ancestors_of_child parent] at member
          rcases List.mem_cons.1 member with rfl | member
          · exact left.1
          · exact left.2 a (isEarlier_of_ancestor member)

theorem search_descendant_cases (sound : ∀ id, (attempt id).SoundAt doc fits id) (id : NodeId) :
    (descendant.search doc attempt id = .matched ∧ ∃ a ∈ doc.ancestors id, fits a) ∨
      (descendant.search doc attempt id = .never ∧ ∀ a ∈ doc.ancestors id, ¬fits a) := by
  induction id using ancestors.induct doc with
  | case1 id p up ih =>
      have left := sound p
      rw [search_of_some descendant up, ancestors_of_child up]
      have retry : ¬fits p →
          (descendant.search doc attempt p = .matched ∧ ∃ a ∈ p :: doc.ancestors p, fits a) ∨
            (descendant.search doc attempt p = .never ∧
              ∀ a ∈ p :: doc.ancestors p, ¬fits a) := by
        intro unfit
        rcases ih with ⟨found, a, member, fit⟩ | ⟨stopped, none⟩
        · exact .inl ⟨found, a, List.mem_cons_of_mem _ member, fit⟩
        · exact .inr ⟨stopped, List.forall_mem_cons.2 ⟨unfit, none⟩⟩
      cases outcome : attempt p with
      | matched =>
          rw [outcome] at left
          exact .inl ⟨rfl, p, List.mem_cons_self .., left⟩
      | retrySibling =>
          rw [outcome] at left
          exact retry left
      | retryAncestor =>
          rw [outcome] at left
          exact retry left.1
      | never =>
          rw [outcome] at left
          refine .inr ⟨rfl, List.forall_mem_cons.2 ⟨left.1, fun a member => ?_⟩⟩
          exact left.2 a (isEarlier_of_ancestor member)
  | case2 id orphan =>
      rw [search_of_none descendant orphan, ancestors_of_root orphan]
      exact .inr ⟨rfl, List.forall_mem_nil _⟩

theorem search_descendant_soundAt (h : doc.Consistent)
    (sound : ∀ id, (attempt id).SoundAt doc fits id) (id : NodeId) :
    (descendant.search doc attempt id).SoundAt doc
      (fun b => ∃ a, descendant.Reaches doc a b ∧ fits a) id := by
  rcases search_descendant_cases sound id with ⟨found, a, member, fit⟩ | ⟨stopped, none⟩
  · rw [found]
    exact ⟨a, member, fit⟩
  · rw [stopped]
    exact .never_of_ancestors h (fun _ _ member => member) none

theorem search_adjacentSibling_soundAt (h : doc.Consistent)
    (sound : ∀ id, (attempt id).SoundAt doc fits id) (id : NodeId) :
    (adjacentSibling.search doc attempt id).SoundAt doc
      (fun b => ∃ a, adjacentSibling.Reaches doc a b ∧ fits a) id := by
  have before : ∀ a b, adjacentSibling.Reaches doc a b → a ∈ doc.precedingElements b :=
    fun a b previous => by
      rw [precedingElements_of_later previous]
      exact List.mem_cons_self ..
  cases previous : doc.previousElement? id with
  | none =>
      rw [search_of_none adjacentSibling previous]
      refine .retryAncestor_of_preceding before fun a member => ?_
      rw [precedingElements_of_first previous] at member
      cases member
  | some s =>
      rw [search_of_some adjacentSibling previous]
      have left := sound s
      cases outcome : attempt s with
      | matched =>
          rw [outcome] at left
          exact ⟨s, previous, left⟩
      | retrySibling =>
          rw [outcome] at left
          rintro ⟨a, reached, fit⟩
          exact left (Option.some.inj (reached.symm.trans previous) ▸ fit)
      | retryAncestor =>
          rw [outcome] at left
          refine .retryAncestor_of_preceding before ?_
          rw [precedingElements_of_later previous]
          exact List.forall_mem_cons.2 left
      | never =>
          rw [outcome] at left
          refine .never_of_earlier (fun a b reached => isEarlier_of_preceding (before a b reached))
            fun a earlier => ?_
          rcases h.isEarlier_cases previous earlier with rfl | earlier
          · exact left.1
          · exact left.2 a earlier

/-- The search among the elements before a node ends with a match, with none of them fitting, or
with nothing earlier fitting at all. -/
theorem search_generalSibling_cases (h : doc.Consistent)
    (sound : ∀ id, (attempt id).SoundAt doc fits id) (id : NodeId) :
    (generalSibling.search doc attempt id = .matched ∧ ∃ a ∈ doc.precedingElements id, fits a) ∨
      (generalSibling.search doc attempt id = .retryAncestor ∧
        ∀ a ∈ doc.precedingElements id, ¬fits a) ∨
      (generalSibling.search doc attempt id = .never ∧
        ∀ a, doc.IsEarlier a id → ¬fits a) := by
  induction id using precedingElements.induct doc with
  | case1 id s later ih =>
      have left := sound s
      have extend : ¬fits s → (∀ a, doc.IsEarlier a s → ¬fits a) →
          ∀ a, doc.IsEarlier a id → ¬fits a := by
        intro unfit none a earlier
        rcases h.isEarlier_cases later earlier with rfl | earlier
        · exact unfit
        · exact none a earlier
      rw [search_of_some generalSibling later, precedingElements_of_later later]
      cases outcome : attempt s with
      | matched =>
          rw [outcome] at left
          exact .inl ⟨rfl, s, List.mem_cons_self .., left⟩
      | retrySibling =>
          rw [outcome] at left
          rcases ih with ⟨found, a, member, fit⟩ | ⟨stopped, none⟩ | ⟨stopped, none⟩
          · exact .inl ⟨found, a, List.mem_cons_of_mem _ member, fit⟩
          · exact .inr (.inl ⟨stopped, List.forall_mem_cons.2 ⟨left, none⟩⟩)
          · exact .inr (.inr ⟨stopped, extend left none⟩)
      | retryAncestor =>
          rw [outcome] at left
          exact .inr (.inl ⟨rfl, List.forall_mem_cons.2 left⟩)
      | never =>
          rw [outcome] at left
          exact .inr (.inr ⟨rfl, extend left.1 left.2⟩)
  | case2 id first =>
      rw [search_of_none generalSibling first, precedingElements_of_first first]
      exact .inr (.inl ⟨rfl, List.forall_mem_nil _⟩)

theorem search_generalSibling_soundAt (h : doc.Consistent)
    (sound : ∀ id, (attempt id).SoundAt doc fits id) (id : NodeId) :
    (generalSibling.search doc attempt id).SoundAt doc
      (fun b => ∃ a, generalSibling.Reaches doc a b ∧ fits a) id := by
  rcases search_generalSibling_cases h sound id with
    ⟨found, a, member, fit⟩ | ⟨stopped, none⟩ | ⟨stopped, none⟩
  · rw [found]
    exact ⟨a, member, fit⟩
  · rw [stopped]
    exact .retryAncestor_of_preceding (fun _ _ member => member) none
  · rw [stopped]
    exact .never_of_earlier (fun _ _ member => isEarlier_of_preceding member) none

theorem search_soundAt (h : doc.Consistent) (combinator : Combinator)
    (sound : ∀ id, (attempt id).SoundAt doc fits id) (id : NodeId) :
    (combinator.search doc attempt id).SoundAt doc
      (fun b => ∃ a, combinator.Reaches doc a b ∧ fits a) id := by
  cases combinator with
  | descendant => exact search_descendant_soundAt h sound id
  | child => exact search_child_soundAt h sound id
  | adjacentSibling => exact search_adjacentSibling_soundAt h sound id
  | generalSibling => exact search_generalSibling_soundAt h sound id

end Combinator

namespace ComplexSelector

/-- A compound holds at a node and those on its left hold at nodes that their combinators reach. -/
def Placed (doc : Document) : Compound → List (Combinator × Compound) → NodeId → Prop
  | compound, [], id => compound.holdsFor doc id
  | compound, (combinator, left) :: rest, id =>
      compound.holdsFor doc id ∧ ∃ a, combinator.Reaches doc a id ∧ Placed doc left rest a

theorem place_soundAt {doc : Document} (h : doc.Consistent) (compound : Compound)
    (context : List (Combinator × Compound)) (id : NodeId) :
    (place doc compound context id).SoundAt doc (Placed doc compound context) id := by
  induction context generalizing compound id with
  | nil =>
      cases holds : compound.holdsFor doc id with
      | false => simp [place, Placed, holds, Outcome.SoundAt]
      | true => simp [place, Placed, holds, Outcome.SoundAt]
  | cons entry rest ih =>
      obtain ⟨combinator, left⟩ := entry
      cases holds : compound.holdsFor doc id with
      | false => simp [place, Placed, holds, Outcome.SoundAt]
      | true =>
          simp only [place, holds, Bool.not_true, Bool.false_eq_true, if_false]
          exact (combinator.search_soundAt h (ih left) id).restrict
            (fun a => compound.holdsFor doc a) holds

theorem holdsFor_iff_placed {doc : Document} (h : doc.Consistent) (selector : ComplexSelector)
    (id : NodeId) :
    selector.holdsFor doc id ↔ Placed doc selector.subject selector.context id := by
  rw [holdsFor, decide_eq_true_iff]
  exact (place_soundAt h selector.subject selector.context id).matched_iff

end ComplexSelector

end ComputedStyle
