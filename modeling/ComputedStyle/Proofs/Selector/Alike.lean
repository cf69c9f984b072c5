import ComputedStyle.Proofs.Selector.Fragments
import ComputedStyle.Proofs.Selector.Placement

/-!
Selectors that no tree tells apart.

Two compounds are alike if they ask the same of every node of every tree made by edits, whatever they
are written with. Adding simple selectors to them that are alike keeps them so; so the readers, which
only add to what they have read, end alike where they go on from compounds that are alike. What is
read is matched alike.
-/

namespace ComputedStyle

open Text

def Simple.holdsFor (doc : Document) (id : NodeId) : Simple → Bool
  | .id value => doc.elementId? id == some value
  | .className name => (doc.classes id).contains name
  | .hasAttribute test => test.holdsFor doc id
  | .pseudoClass pseudo => pseudo.holdsFor doc id
  | .pseudoElement _ => false

theorem PseudoClass.allHold_concat (doc : Document) (id : NodeId) (pseudos : List PseudoClass)
    (pseudo : PseudoClass) :
    PseudoClass.allHold doc id (pseudos ++ [pseudo]) =
      (PseudoClass.allHold doc id pseudos && pseudo.holdsFor doc id) := by
  induction pseudos with
  | nil => simp [PseudoClass.allHold]
  | cons first rest ih =>
      rw [List.cons_append, PseudoClass.allHold, PseudoClass.allHold, ih, Bool.and_assoc]

namespace Compound

theorem holdsFor_adding (doc : Document) (id : NodeId) (compound : Compound) (simple : Simple) :
    (compound.adding simple).holdsFor doc id =
      (compound.holdsFor doc id && simple.holdsFor doc id) := by
  obtain ⟨tag, ids, classes, attributes, pseudos, element⟩ := compound
  cases own : doc.tag? id with
  | none => cases simple <;> simp [adding, holdsFor, own]
  | some name =>
      cases simple <;>
        simp [adding, holdsFor, own, Simple.holdsFor, PseudoClass.allHold_concat, Bool.and_assoc,
          Bool.and_comm, Bool.and_left_comm]

/-- Compounds that ask the same of every node. -/
structure Alike (compound other : Compound) : Prop where
  holds : ∀ edits id,
    other.holdsFor (.ofEdits edits) id = compound.holdsFor (.ofEdits edits) id
  isEmpty : other.isEmpty = compound.isEmpty
  pseudoElement : other.pseudoElement = compound.pseudoElement

theorem Alike.refl (compound : Compound) : Alike compound compound :=
  ⟨fun _ _ => rfl, rfl, rfl⟩

end Compound

/-- Simple selectors that ask the same of every node. -/
structure Simple.Alike (simple other : Simple) : Prop where
  holds : ∀ edits id,
    other.holdsFor (.ofEdits edits) id = simple.holdsFor (.ofEdits edits) id
  pseudoElement : ∀ compound : Compound,
    (compound.adding other).pseudoElement = (compound.adding simple).pseudoElement

theorem Simple.Alike.refl (simple : Simple) : simple.Alike simple :=
  ⟨fun _ _ => rfl, fun _ => rfl⟩

theorem Simple.alike_not {inner other : Compound} (alike : inner.Alike other) :
    Simple.Alike (.pseudoClass (.not inner)) (.pseudoClass (.not other)) where
  holds edits id := by
    simp only [holdsFor, PseudoClass.holdsFor, alike.holds]
  pseudoElement _ := rfl

theorem Compound.Alike.adding {compound other : Compound} {simple simple' : Simple}
    (alike : compound.Alike other) (same : simple.Alike simple') :
    (compound.adding simple).Alike (other.adding simple') where
  holds edits id := by
    rw [holdsFor_adding, holdsFor_adding, alike.holds, same.holds]
  isEmpty := by
    rw [isEmpty_adding, isEmpty_adding]
  pseudoElement := by
    rw [same.pseudoElement]
    cases simple <;> first | exact alike.pseudoElement | rfl

namespace Selector

/-- What is read does not depend on what has been read, but for a pseudo-element. -/
theorem readSimples_alike {compound other : Compound} (alike : compound.Alike other)
    (s : List Char) : Agree Compound.Alike (readSimples compound s) (readSimples other s) := by
  induction h : s.length using Nat.strongRecOn generalizing compound other s with
  | ind n ih =>
      subst h
      rcases eq_or_ne s [] with rfl | nonempty
      · rw [readSimples_nil, readSimples_nil]
        exact .ok alike
      · have ended : IsOver other s ↔ IsOver compound s := by
          rw [IsOver, IsOver, alike.pseudoElement]
        rw [readSimples_eq compound nonempty, readSimples_eq other nonempty]
        simp only [ended]
        split
        · exact .error _
        · cases read : readSimple s with
          | error e => exact .error e
          | ok result =>
              obtain ⟨simple, after⟩ := result
              exact ih after.length (length_of_readSimple read) (alike.adding (.refl simple)) after rfl

/-! What has been read of a text is read of it before more simple selectors. -/

section Append

variable {s rest : List Char}

theorem readIdent_append_starts (closed : ∀ c ∈ (readIdent s).2.head?, c ≠ '\\')
    (ends : EndsIdent rest) :
    readIdent (s ++ rest) = ((readIdent s).1, (readIdent s).2 ++ rest) := by
  fun_induction readIdent s with
  | case1 c later ident after same ih =>
      rw [same] at ih
      rw [List.cons_append, List.cons_append, readIdent, ih closed]
  | case2 c later escapes own ident after same ih =>
      rw [same] at ih
      rw [List.cons_append, readIdent, if_pos own, ih closed]
      rintro d tail rfl
      exact absurd own (by decide)
  | case3 c later escapes other =>
      rw [List.cons_append, readIdent, if_neg other]
      intro _ _ same
      exact absurd same (closed c rfl)
  | case4 => exact readIdent_append (List.forall_mem_nil _) ends

theorem StartsSimple.ne_backslash (starts : StartsSimple s) : ∀ c ∈ s.head?, c ≠ '\\' :=
  fun c first => (starts.endsIdent c first).2

theorem readPseudoName_append {doubled : Bool} {p : PseudoText}
    (read : readPseudoName doubled s = .ok p) (first : StartsSimple p.after)
    (starts : StartsSimple rest) :
    readPseudoName doubled (s ++ rest) = .ok { p with after := p.after ++ rest } := by
  unfold readPseudoName at read
  split at read
  · cases read
  · next nonempty =>
      split at read
      · next inside bracket =>
          split at read
          · next arguments after found =>
              cases read
              have whole := readIdent_append_starts (s := s) (by rw [bracket]; rintro _ ⟨⟩; decide)
                starts.endsIdent
              have found' : readBracket '(' ')' (inside ++ rest) = some (arguments, after ++ rest) :=
                readBalanced_append found rest
              rw [readPseudoName, whole, if_neg nonempty, bracket, List.cons_append]
              simp only [found']
          · cases read
      · next after bare =>
          cases read
          have whole := readIdent_append_starts first.ne_backslash starts.endsIdent
          have plain := (startsSimple_append first starts).ne_round
          rw [readPseudoName, whole, if_neg nonempty]
          dsimp only
          split
          · next inside same => exact absurd same (plain inside)
          · rfl

theorem readPseudo_append {p : PseudoText} (read : readPseudo s = .ok p)
    (first : StartsSimple p.after) (starts : StartsSimple rest) :
    readPseudo (s ++ rest) = .ok { p with after := p.after ++ rest } := by
  unfold readPseudo at read
  split at read
  · rw [List.cons_append, readPseudo]
    exact readPseudoName_append read first starts
  · next other =>
      have more := readPseudoName_append read first starts
      unfold readPseudo
      split
      · next later same =>
          cases s with
          | nil =>
              cases read
          | cons c tail =>
              cases same
              exact absurd rfl (other tail)
      · exact more

theorem startsSimple_of_readSimple {simple : Simple} {after : List Char}
    (read : readSimple s = .ok (simple, after)) : StartsSimple s := by
  cases readsSimple_of_readSimple read <;> (rintro _ ⟨⟩; decide)

theorem startsSimple_of_readSimples {compound next : Compound}
    (read : readSimples compound s = .ok next) : StartsSimple s := by
  rcases eq_or_ne s [] with rfl | nonempty
  · exact startsSimple_nil
  · rw [readSimples_eq compound nonempty] at read
    split at read
    · cases read
    · obtain ⟨⟨simple, after⟩, own, -⟩ := bind_eq_ok.1 read
      exact startsSimple_of_readSimple own

theorem readSimple_append {simple : Simple} {after : List Char}
    (read : readSimple s = .ok (simple, after)) (first : StartsSimple after)
    (starts : StartsSimple rest) : readSimple (s ++ rest) = .ok (simple, after ++ rest) := by
  apply ReadsSimple.read
  cases readsSimple_of_readSimple read with
  | id later value ident =>
      have whole := readIdent_append_starts first.ne_backslash starts.endsIdent
      have reads := ReadsSimple.id (later ++ rest) value (by rw [whole, ident])
      rwa [whole] at reads
  | className later name ident =>
      have whole := readIdent_append_starts first.ne_backslash starts.endsIdent
      have reads := ReadsSimple.className (later ++ rest) name (by rw [whole, ident])
      rwa [whole] at reads
  | hasAttribute later inner after test bracket own =>
      exact .hasAttribute _ inner _ test (readBalanced_append bracket rest) own
  | pseudoElement later p found element =>
      exact .pseudoElement _ _ (readPseudo_append found first starts) element
  | pseudoClass later p pseudo found plain meaning =>
      exact .pseudoClass _ _ pseudo (readPseudo_append found first starts) plain meaning

theorem readSimples_append {compound next : Compound} (read : readSimples compound s = .ok next)
    (starts : StartsSimple rest) :
    readSimples compound (s ++ rest) = readSimples next rest := by
  induction h : s.length using Nat.strongRecOn generalizing compound s with
  | ind n ih =>
      subst h
      rcases eq_or_ne s [] with rfl | nonempty
      · rw [readSimples_nil] at read
        cases read
        rw [List.nil_append]
      · have ended : IsOver compound (s ++ rest) ↔ IsOver compound s := by
          rw [IsOver, IsOver, List.head?_append_of_ne_nil _ nonempty]
        rw [readSimples_eq compound nonempty] at read
        rw [readSimples_eq compound (by simp [nonempty])]
        simp only [ended]
        split at read
        · cases read
        · next open_ =>
            obtain ⟨⟨simple, after⟩, own, more⟩ := bind_eq_ok.1 read
            have first := startsSimple_of_readSimples more
            rw [if_neg open_, readSimple_append own first starts]
            exact ih after.length (length_of_readSimple own) more rfl

end Append

end Selector

end ComputedStyle
