import Mathlib.Logic.Basic
import ComputedStyle.Proofs.Except
import ComputedStyle.Selector.Reading

namespace ComputedStyle

open Text

/-- One thing that a compound asks for, other than its tag. -/
inductive Simple where
  | id (value : String)
  | className (name : String)
  | hasAttribute (test : AttributeTest)
  | pseudoClass (pseudo : PseudoClass)
  | pseudoElement (name : String)

namespace Compound

def adding (compound : Compound) : Simple → Compound
  | .id value => { compound with ids := compound.ids ++ [value] }
  | .className name => { compound with classes := compound.classes ++ [name] }
  | .hasAttribute test => { compound with attributes := compound.attributes ++ [test] }
  | .pseudoClass pseudo => { compound with pseudoClasses := compound.pseudoClasses ++ [pseudo] }
  | .pseudoElement name => { compound with pseudoElement := some name }

theorem tag_adding (compound : Compound) (simple : Simple) :
    (compound.adding simple).tag = compound.tag := by
  cases simple <;> rfl

theorem isEmpty_adding (compound : Compound) (simple : Simple) :
    (compound.adding simple).isEmpty = false := by
  cases simple <;> simp [adding, isEmpty]

end Compound

namespace Selector

/-- The name takes a pseudo-element, with one colon or with two. -/
def PseudoText.IsElement (p : PseudoText) : Prop :=
  p.doubled ∨ String.ofList p.name ∈ elementNames

/-- The pseudo-class that a name and its arguments stand for. -/
def PseudoText.meaning (p : PseudoText) : Except SelectorError PseudoClass :=
  match p.arguments with
  | none => .ok (plainPseudoClass (String.ofList p.name))
  | some arguments =>
      if String.ofList p.name = "not" then (readCompound arguments).map .not
      else functionalPseudoClass (String.ofList p.name) arguments

/-- The simple selector at the start of a text, and what follows it. -/
def readSimple : List Char → Except SelectorError (Simple × List Char)
  | '#' :: rest => do return (.id (← requireIdent (readIdent rest).1), (readIdent rest).2)
  | '.' :: rest => do return (.className (← requireIdent (readIdent rest).1), (readIdent rest).2)
  | '[' :: rest =>
      match readBracket '[' ']' rest with
      | none => .error .unreadable
      | some (inner, after) => do return (.hasAttribute (← readAttribute inner), after)
  | ':' :: rest => do
      let p ← readPseudo rest
      if p.doubled || String.ofList p.name ∈ elementNames then
        return (.pseudoElement (String.ofList p.name), p.after)
      else return (.pseudoClass (← p.meaning), p.after)
  | _ => .error .unreadable

/-- After a pseudo-element there is no other and no pseudo-class. -/
def IsOver (compound : Compound) (s : List Char) : Prop :=
  compound.pseudoElement.isSome ∧ s.head? = some ':'

instance (compound : Compound) (s : List Char) : Decidable (IsOver compound s) :=
  inferInstanceAs (Decidable (_ ∧ _))

theorem readSimples_nil (compound : Compound) : readSimples compound [] = .ok compound := by
  rw [readSimples]

theorem readSimples_eq (compound : Compound) {s : List Char} (nonempty : s ≠ []) :
    readSimples compound s =
      if IsOver compound s then .error .unreadable
      else readSimple s >>= fun read => readSimples (compound.adding read.1) read.2 := by
  rw [readSimples.eq_def]
  split
  · exact absurd rfl nonempty
  · rw [if_neg (by simp [IsOver]), readSimple, bind_assoc]
    rfl
  · rw [if_neg (by simp [IsOver]), readSimple, bind_assoc]
    rfl
  · rw [if_neg (by simp [IsOver]), readSimple]
    split
    · next missing =>
        rw [missing]
        rfl
    · next inner after found =>
        rw [found]
        dsimp only
        rw [bind_assoc]
        rfl
  · next rest =>
      have ended : IsOver compound (':' :: rest) ↔ compound.pseudoElement.isSome := by
        simp [IsOver]
      rw [readSimple]
      simp only [ended]
      split
      · rfl
      · split
        · next e failed =>
            rw [failed]
            rfl
        · next p found =>
            rw [found]
            dsimp only [bind, Except.bind]
            split
            · rfl
            · obtain ⟨doubled, name, arguments, after⟩ := p
              cases arguments with
              | none => rfl
              | some inner =>
                  dsimp only [PseudoText.meaning]
                  generalize (if String.ofList name = "not" then _ else _) = read
                  cases read <;> rfl
  · next id class_ bracket colon =>
      have plain : readSimple s = .error .unreadable := by
        unfold readSimple
        split <;> simp_all
      rw [plain]
      split <;> rfl

/-- A text starts with a simple selector that another text follows. -/
inductive ReadsSimple : List Char → Simple → List Char → Prop where
  | id (rest : List Char) (value : String) (ident : requireIdent (readIdent rest).1 = .ok value) :
      ReadsSimple ('#' :: rest) (.id value) (readIdent rest).2
  | className (rest : List Char) (name : String)
      (ident : requireIdent (readIdent rest).1 = .ok name) :
      ReadsSimple ('.' :: rest) (.className name) (readIdent rest).2
  | hasAttribute (rest inner after : List Char) (test : AttributeTest)
      (bracket : readBracket '[' ']' rest = some (inner, after))
      (own : readAttribute inner = .ok test) :
      ReadsSimple ('[' :: rest) (.hasAttribute test) after
  | pseudoElement (rest : List Char) (p : PseudoText) (found : readPseudo rest = .ok p)
      (element : p.IsElement) :
      ReadsSimple (':' :: rest) (.pseudoElement (String.ofList p.name)) p.after
  | pseudoClass (rest : List Char) (p : PseudoText) (pseudo : PseudoClass)
      (found : readPseudo rest = .ok p) (plain : ¬p.IsElement) (meaning : p.meaning = .ok pseudo) :
      ReadsSimple (':' :: rest) (.pseudoClass pseudo) p.after

variable {s after : List Char} {simple : Simple}

theorem readsSimple_of_readSimple (read : readSimple s = .ok (simple, after)) :
    ReadsSimple s simple after := by
  unfold readSimple at read
  split at read
  · obtain ⟨value, ident, same⟩ := bind_eq_ok.1 read
    cases same
    exact .id _ value ident
  · obtain ⟨name, ident, same⟩ := bind_eq_ok.1 read
    cases same
    exact .className _ name ident
  · split at read
    · cases read
    · next inner after bracket =>
        obtain ⟨test, own, same⟩ := bind_eq_ok.1 read
        cases same
        exact .hasAttribute _ inner after test bracket own
  · obtain ⟨p, found, read⟩ := bind_eq_ok.1 read
    split at read
    · next element =>
        cases read
        exact .pseudoElement _ p found (by simpa [PseudoText.IsElement] using element)
    · next plain =>
        obtain ⟨pseudo, meaning, same⟩ := bind_eq_ok.1 read
        cases same
        exact .pseudoClass _ p pseudo found (by simpa [PseudoText.IsElement] using plain) meaning
  · cases read

theorem ReadsSimple.read (reads : ReadsSimple s simple after) :
    readSimple s = .ok (simple, after) := by
  cases reads with
  | id rest value ident =>
      rw [readSimple, ident]
      rfl
  | className rest name ident =>
      rw [readSimple, ident]
      rfl
  | hasAttribute rest inner after test bracket own =>
      rw [readSimple, bracket]
      dsimp only
      rw [own]
      rfl
  | pseudoElement rest p found element =>
      rw [readSimple, found]
      exact if_pos (by simpa [PseudoText.IsElement] using element)
  | pseudoClass rest p pseudo found plain meaning =>
      rw [readSimple, found]
      refine (if_neg (by simpa [PseudoText.IsElement] using plain)).trans ?_
      rw [meaning]
      rfl

theorem readSimples_of_readsSimple {compound : Compound} (reads : ReadsSimple s simple after)
    (goes : ¬IsOver compound s) :
    readSimples compound s = readSimples (compound.adding simple) after := by
  have nonempty : s ≠ [] := by
    rintro rfl
    cases reads
  rw [readSimples_eq compound nonempty, if_neg goes, reads.read]
  rfl

theorem length_of_readSimple (read : readSimple s = .ok (simple, after)) :
    after.length < s.length := by
  cases readsSimple_of_readSimple read with
  | id rest value ident => exact Nat.lt_succ_of_le (length_readIdent_le rest)
  | className rest name ident => exact Nat.lt_succ_of_le (length_readIdent_le rest)
  | hasAttribute rest inner after test bracket own =>
      have total := length_readBalanced bracket
      rw [List.length_cons]
      omega
  | pseudoElement rest p found element =>
      exact Nat.lt_succ_of_le (within_of_readPseudo found).1
  | pseudoClass rest p pseudo found plain meaning =>
      exact Nat.lt_succ_of_le (within_of_readPseudo found).1

/-- A text adds what makes one compound another. -/
inductive ReadsSimples : Compound → List Char → Compound → Prop where
  | done (compound : Compound) : ReadsSimples compound [] compound
  | add (compound next : Compound) (s after : List Char) (simple : Simple)
      (first : ReadsSimple s simple after) (more : ReadsSimples (compound.adding simple) after next) :
      ReadsSimples compound s next

theorem readsSimples_of_readSimples {compound next : Compound}
    (read : readSimples compound s = .ok next) : ReadsSimples compound s next := by
  induction length : s.length using Nat.strongRecOn generalizing compound s with
  | ind n ih =>
      subst length
      rcases eq_or_ne s [] with rfl | nonempty
      · rw [readSimples_nil] at read
        cases read
        exact .done _
      · rw [readSimples_eq compound nonempty] at read
        split at read
        · cases read
        · obtain ⟨⟨simple, after⟩, first, more⟩ := bind_eq_ok.1 read
          exact .add compound next s after simple (readsSimple_of_readSimple first)
            (ih after.length (length_of_readSimple first) more rfl)

end Selector

end ComputedStyle
