import ComputedStyle.Proofs.Selector.Placement
import ComputedStyle.Proofs.Selector.Reading
import ComputedStyle.Proofs.Text.Nesting
import ComputedStyle.Stylesheet.StaticSelector

/-!
Selectors that select nothing in a static document, and the texts they are read from.

A compound with a pseudo-element or a pseudo-class that depends on interaction selects no node
(`Compound.isDead`). Such a compound comes from every text in which a colon that introduces one stands
outside brackets and is not escaped (`demandsState`).
-/

namespace ComputedStyle

def PseudoClass.isDead : PseudoClass → Bool
  | .dynamic _ => true
  | .unsupported _ => true
  | _ => false

/-- No node has all that the compound asks for. -/
def Compound.isDead (compound : Compound) : Bool :=
  compound.pseudoElement.isSome || compound.pseudoClasses.any (·.isDead)

theorem Compound.isDead_adding {compound : Compound} (dead : compound.isDead) (simple : Simple) :
    (compound.adding simple).isDead := by
  cases simple with
  | pseudoElement name => rfl
  | pseudoClass pseudo =>
      simp only [adding, isDead, List.any_append, Bool.or_eq_true] at dead ⊢
      exact dead.imp_right .inl
  | _ => exact dead

theorem PseudoClass.not_holdsFor_of_isDead {pseudo : PseudoClass} (dead : pseudo.isDead)
    (doc : Document) (id : NodeId) : pseudo.holdsFor doc id = false := by
  cases pseudo with
  | dynamic => rfl
  | unsupported => rfl
  | _ => cases dead

theorem PseudoClass.not_allHold_of_isDead {pseudos : List PseudoClass}
    (dead : pseudos.any (·.isDead)) (doc : Document) (id : NodeId) :
    allHold doc id pseudos = false := by
  induction pseudos with
  | nil => cases dead
  | cons pseudo rest ih =>
      rw [allHold, Bool.and_eq_false_iff]
      rw [List.any_cons, Bool.or_eq_true] at dead
      rcases dead with own | later
      · exact .inl (not_holdsFor_of_isDead own doc id)
      · exact .inr (ih later)

theorem Compound.not_holdsFor_of_isDead {compound : Compound} (dead : compound.isDead)
    (doc : Document) (id : NodeId) : compound.holdsFor doc id = false := by
  rw [Bool.eq_false_iff]
  intro holds
  obtain ⟨_, _, noElement, _, _, _, _, all⟩ := Compound.holdsFor_iff.1 holds
  rw [isDead, noElement, Option.isSome_none, Bool.false_or] at dead
  rw [PseudoClass.not_allHold_of_isDead dead] at all
  cases all

def ComplexSelector.IsDead (selector : ComplexSelector) : Prop :=
  ∃ compound ∈ selector.compounds, compound.isDead

theorem ComplexSelector.IsDead.not_holdsFor {selector : ComplexSelector} (dead : selector.IsDead)
    {doc : Document} (tree : doc.Consistent) (id : NodeId) :
    selector.holdsFor doc id = false := by
  rw [Bool.eq_false_iff]
  intro holds
  obtain ⟨compound, member, dead⟩ := dead
  obtain ⟨i, found⟩ := List.mem_iff_getElem?.1 member
  obtain ⟨node, placement⟩ := (placed_iff_placement tree selector.subject selector.context id).1
    ((selector.holdsFor_iff_placed tree id).1 holds)
  have placed := placement.holds i compound found
  rw [compound.not_holdsFor_of_isDead dead] at placed
  cases placed

namespace StaticSelector

open Text Selector

/-- Whether what follows a colon makes it introduce a pseudo-element or a dynamic pseudo-class. -/
def introducesState (rest : List Char) : Bool :=
  rest.head? == some ':' ||
    String.ofList (lower (rest.takeWhile isNameChar)) ∈
      StaticSelector.elementNames ++ StaticSelector.dynamicNames

/-- Whether a colon that is not escaped, and stands outside brackets, introduces a pseudo-element or a
dynamic pseudo-class. -/
def demandsState : List Char → Bool
  | [] => false
  | '\\' :: _ :: rest => demandsState rest
  | '[' :: rest =>
      match _found : readBracket '[' ']' rest with
      | some (_, after) => demandsState after
      | none => false
  | '(' :: rest =>
      match _found : readBracket '(' ')' rest with
      | some (_, after) => demandsState after
      | none => false
  | ':' :: rest => introducesState rest || demandsState rest
  | _ :: rest => demandsState rest
termination_by s => s.length
decreasing_by
  · simp only [List.length_cons]; omega
  · have := length_readBalanced _found
    simp only [List.length_cons]; omega
  · have := length_readBalanced _found
    simp only [List.length_cons]; omega
  · simp only [List.length_cons]; omega
  · simp only [List.length_cons]; omega

/-- A character that means nothing to `demandsState`. -/
def IsPlain (c : Char) : Prop :=
  c ≠ '\\' ∧ c ≠ '[' ∧ c ≠ '(' ∧ c ≠ ':'

theorem demandsState_cons_of_isPlain {c : Char} (plain : IsPlain c) (s : List Char) :
    demandsState (c :: s) = demandsState s := by
  obtain ⟨escape, square, round, colon⟩ := plain
  rw [demandsState.eq_def]
  split <;> simp_all

theorem demandsState_escaped (c : Char) (s : List Char) :
    demandsState ('\\' :: c :: s) = demandsState s := by
  rw [demandsState]

theorem demandsState_colon (s : List Char) :
    demandsState (':' :: s) = (introducesState s || demandsState s) := by
  rw [demandsState]

theorem isPlain_of_isIdentChar {c : Char} (ident : isIdentChar c) : IsPlain c := by
  refine ⟨?_, ?_, ?_, ?_⟩ <;> (rintro rfl; revert ident; decide)

theorem isPlain_of_isBlank {c : Char} (blank : isBlank c) : IsPlain c := by
  refine ⟨?_, ?_, ?_, ?_⟩ <;> (rintro rfl; revert blank; decide)

theorem demandsState_bracket {opener closer : Char}
    (pair : (opener, closer) ∈ [('[', ']'), ('(', ')')]) {s inner after : List Char}
    (found : readBracket opener closer s = some (inner, after)) (t : List Char) :
    demandsState (opener :: s ++ t) = demandsState (after ++ t) := by
  have longer : readBracket opener closer (s ++ t) = some (inner, after ++ t) :=
    readBalanced_append found t
  simp only [List.mem_pair, Prod.mk.injEq] at pair
  rcases pair with ⟨rfl, rfl⟩ | ⟨rfl, rfl⟩
  all_goals
    rw [List.cons_append, demandsState]
    split
    · next same =>
        rw [longer] at same
        cases same
        rfl
    · next missing =>
        rw [longer] at missing
        cases missing

theorem demandsState_readIdent (s t : List Char) :
    demandsState (s ++ t) = demandsState ((readIdent s).2 ++ t) := by
  fun_induction readIdent s with
  | case1 c rest ident after same ih =>
      rw [same] at ih
      exact (demandsState_escaped c (rest ++ t)).trans ih
  | case2 c rest _ ident_ ident after same ih =>
      rw [same] at ih
      exact (demandsState_cons_of_isPlain (isPlain_of_isIdentChar ident_) (rest ++ t)).trans ih
  | case3 => rfl
  | case4 => rfl

theorem demandsState_readTag (s t : List Char) :
    demandsState (s ++ t) = demandsState ((readTag s).2 ++ t) := by
  cases s with
  | nil => rfl
  | cons c rest =>
      rw [readTag]
      split
      · next star =>
          obtain rfl : c = '*' := by simpa using star
          exact demandsState_cons_of_isPlain (by simp [IsPlain]) (rest ++ t)
      · split
        · exact demandsState_readIdent (c :: rest) t
        · rfl

/-- A text that cannot go on with a name or a second colon. -/
def IsBoundary (t : List Char) : Prop :=
  ∀ c rest, t = c :: rest → isNameChar c = false ∧ c ≠ ':'

theorem introducesState_append {t : List Char} (boundary : IsBoundary t) (s : List Char) :
    introducesState (s ++ t) = introducesState s := by
  have ends : t.takeWhile isNameChar = [] := by
    cases t with
    | nil => rfl
    | cons c rest => rw [List.takeWhile_cons, (boundary c rest rfl).1, if_neg Bool.false_ne_true]
  have name : (s ++ t).takeWhile isNameChar = s.takeWhile isNameChar := by
    rw [List.takeWhile_append, ends, List.append_nil]
    split
    · next whole => exact ((List.takeWhile_prefix _).eq_of_length whole).symm
    · rfl
  have head : ((s ++ t).head? == some ':') = (s.head? == some ':') := by
    cases s with
    | cons c rest => rfl
    | nil =>
        cases t with
        | nil => rfl
        | cons c rest => simpa using (boundary c rest rfl).2
  rw [introducesState, introducesState, name, head]

theorem readPseudoName_eq_ok {doubled : Bool} {s : List Char} {p : PseudoText}
    (h : readPseudoName doubled s = .ok p) :
    p.doubled = doubled ∧ p.name = lower (readIdent s).1 ∧
      ∀ t, demandsState (s ++ t) = demandsState (p.after ++ t) := by
  unfold readPseudoName at h
  split at h
  · cases h
  · split at h
    · next inside opens =>
        split at h
        · next arguments after found =>
            cases h
            refine ⟨rfl, rfl, fun t => ?_⟩
            rw [demandsState_readIdent, opens, demandsState_bracket (by decide) found]
        · cases h
    · cases h
      exact ⟨rfl, rfl, demandsState_readIdent s⟩

/-- The names that stand for something in a static document. -/
def supportedNames : List String :=
  ["root", "first-child", "last-child", "only-child", "first-of-type", "last-of-type", "not",
    "nth-child", "nth-last-child", "nth-of-type"]

theorem isDead_ite_dynamic (name : String) :
    (if name ∈ Selector.dynamicNames then PseudoClass.dynamic name
      else .unsupported name).isDead := by
  split <;> rfl

theorem isDead_of_meaning {p : PseudoText} {pseudo : PseudoClass} (meaning : p.meaning = .ok pseudo)
    (other : String.ofList p.name ∉ supportedNames) : pseudo.isDead := by
  unfold PseudoText.meaning at meaning
  split at meaning
  · cases meaning
    unfold plainPseudoClass
    split
    case h_7 => exact isDead_ite_dynamic _
    all_goals simp_all [supportedNames]
  · split at meaning
    · next negates => simp [negates, supportedNames] at other
    · unfold functionalPseudoClass at meaning
      split at meaning
      case h_4 =>
        cases meaning
        exact isDead_ite_dynamic _
      all_goals simp_all [supportedNames]

theorem takeWhile_prefix_readIdent (s : List Char) :
    s.takeWhile isNameChar <+: (readIdent s).1 := by
  fun_induction readIdent s with
  | case1 c rest ident after same ih =>
      rw [List.takeWhile_cons_of_neg (by decide)]
      exact List.nil_prefix
  | case2 c rest _ plain ident after same ih =>
      rw [same] at ih
      rw [List.takeWhile_cons]
      split
      · exact List.cons_prefix_cons.2 ⟨rfl, ih⟩
      · exact List.nil_prefix
  | case3 c rest _ other =>
      have plain : ¬isNameChar c := by
        simp only [isNameChar, isIdentChar, Bool.or_eq_true, not_or] at other ⊢
        exact ⟨other.1.1.1, other.1.1.2⟩
      rw [List.takeWhile_cons_of_neg plain]
  | case4 => exact List.nil_prefix

theorem not_prefix_supportedNames :
    ∀ name ∈ StaticSelector.elementNames ++ StaticSelector.dynamicNames,
      ∀ supported ∈ supportedNames, ¬name.toList <+: supported.toList := by
  decide +kernel

theorem isDead_of_introducesState {s : List Char} {p : PseudoText} {pseudo : PseudoClass}
    (read : readPseudo s = .ok p) (single : ¬p.IsElement) (meaning : p.meaning = .ok pseudo)
    (state : introducesState s) : pseudo.isDead := by
  apply isDead_of_meaning meaning
  intro supported
  rw [introducesState, Bool.or_eq_true, decide_eq_true_eq] at state
  unfold readPseudo at read
  split at read
  · exact single (.inl (readPseudoName_eq_ok read).1)
  · next apart =>
      obtain ⟨_, name, _⟩ := readPseudoName_eq_ok read
      rcases state with doubled | listed
      · cases s with
        | nil => cases doubled
        | cons c rest => exact apart rest (by simpa using doubled)
      · refine not_prefix_supportedNames _ listed _ supported ?_
        rw [String.toList_ofList, String.toList_ofList, name]
        exact (takeWhile_prefix_readIdent s).map Char.toLower

theorem isDead_of_readsSimples {compound next : Compound} {s : List Char}
    (reads : ReadsSimples compound s next) (dead : compound.isDead) : next.isDead := by
  induction reads with
  | done => exact dead
  | add compound next s after simple first more ih => exact ih (Compound.isDead_adding dead simple)

theorem not_introducesState {rest : List Char} {p : PseudoText} {pseudo : PseudoClass}
    (found : readPseudo rest = .ok p) (plain : ¬p.IsElement) (meaning : p.meaning = .ok pseudo)
    (alive : pseudo.isDead = false) : introducesState rest = false := by
  rw [Bool.eq_false_iff]
  intro state
  rw [isDead_of_introducesState found plain meaning state] at alive
  cases alive

theorem demandsState_of_readsSimple {s after t : List Char} {simple : Simple}
    (reads : ReadsSimple s simple after) {compound : Compound}
    (alive : (compound.adding simple).isDead = false) (boundary : IsBoundary t) :
    demandsState (s ++ t) = demandsState (after ++ t) := by
  cases reads with
  | id rest value ident =>
      rw [List.cons_append, demandsState_cons_of_isPlain (by simp [IsPlain]), demandsState_readIdent]
  | className rest name ident =>
      rw [List.cons_append, demandsState_cons_of_isPlain (by simp [IsPlain]), demandsState_readIdent]
  | hasAttribute rest inner after test bracket own => exact demandsState_bracket (by decide) bracket t
  | pseudoElement rest p found element => cases alive
  | pseudoClass rest p pseudo found plain meaning =>
      simp only [Compound.adding, Compound.isDead, List.any_append, List.any_cons, List.any_nil,
        Bool.or_false, Bool.or_eq_false_iff] at alive
      have silent := not_introducesState found plain meaning alive.2.2
      have name : readPseudoName false rest = .ok p := by
        unfold readPseudo at found
        split at found
        · exact absurd (.inl (readPseudoName_eq_ok found).1) plain
        · exact found
      rw [List.cons_append, demandsState_colon, introducesState_append boundary, silent,
        Bool.false_or, (readPseudoName_eq_ok name).2.2]

/-- Where what is read is not dead, the text demands no state: what follows it decides. -/
theorem demandsState_of_readsSimples {compound next : Compound} {s t : List Char}
    (reads : ReadsSimples compound s next) (alive : next.isDead = false) (boundary : IsBoundary t) :
    demandsState (s ++ t) = demandsState t := by
  induction reads with
  | done => rfl
  | add compound next s after simple first more ih =>
      have own : (compound.adding simple).isDead = false := by
        rw [Bool.eq_false_iff]
        intro dead
        rw [isDead_of_readsSimples more dead] at alive
        cases alive
      exact (demandsState_of_readsSimple first own boundary).trans (ih alive)

theorem isBoundary_nil : IsBoundary [] := by
  intro c rest same
  cases same

theorem isNameChar_of_isBlank {c : Char} (blank : isBlank c) : isNameChar c = false := by
  rw [Bool.eq_false_iff]
  intro name
  simp only [isNameChar, Char.isAlphanum, Char.isAlpha, Char.isUpper, Char.isLower, Char.isDigit,
    Bool.or_eq_true, Bool.and_eq_true, decide_eq_true_eq, UInt32.le_iff_toNat_le, ge_iff_le,
    beq_iff_eq] at name
  simp only [isBlank, Bool.or_eq_true, Bool.and_eq_true, decide_eq_true_eq, beq_iff_eq] at blank
  rcases name with name | rfl
  · have : c.toNat = c.val.toNat := rfl
    have : 'A'.val.toNat = 65 := rfl
    have : 'Z'.val.toNat = 90 := rfl
    have : 'a'.val.toNat = 97 := rfl
    have : 'z'.val.toNat = 122 := rfl
    have : '0'.val.toNat = 48 := rfl
    have : '9'.val.toNat = 57 := rfl
    omega
  · revert blank
    decide

theorem isBoundary_of_isBlank {c : Char} (blank : isBlank c) (t : List Char) :
    IsBoundary (c :: t) := by
  rintro _ _ ⟨⟩
  exact ⟨isNameChar_of_isBlank blank, (isPlain_of_isBlank blank).2.2.2⟩

theorem combinatorOf?_eq_some {c : Char} {combinator : Combinator}
    (found : Scan.combinatorOf? c = some combinator) : c = '>' ∨ c = '+' ∨ c = '~' := by
  unfold Scan.combinatorOf? at found
  split at found
  · exact .inl rfl
  · exact .inr (.inl rfl)
  · exact .inr (.inr rfl)
  · cases found

theorem isBoundary_of_combinator {c : Char} {combinator : Combinator}
    (found : Scan.combinatorOf? c = some combinator) (t : List Char) : IsBoundary (c :: t) := by
  rintro _ _ ⟨⟩
  rcases combinatorOf?_eq_some found with rfl | rfl | rfl <;> decide

theorem isPlain_of_combinator {c : Char} {combinator : Combinator}
    (found : Scan.combinatorOf? c = some combinator) : IsPlain c := by
  rcases combinatorOf?_eq_some found with rfl | rfl | rfl <;> simp [IsPlain]

/-- Blanks around a text do not count, whatever must hold of what follows, as long as it holds of
every text that begins with a blank. -/
theorem demandsState_append_of_trim {P : List Char → Prop}
    (blanks : ∀ b t, isBlank b → P (b :: t)) {s : List Char}
    (core : ∀ t, P t → demandsState (trim s ++ t) = demandsState t) :
    ∀ t, P t → demandsState (s ++ t) = demandsState t := by
  induction s using trim_induction with
  | core =>
      rw [trim_trim] at core
      exact core
  | left b s blank ih =>
      intro t holds
      rw [trim_cons_of_isBlank blank] at core
      rw [List.cons_append, demandsState_cons_of_isPlain (isPlain_of_isBlank blank)]
      exact ih core t holds
  | right b s blank ih =>
      intro t holds
      rw [trim_concat_of_isBlank blank] at core
      rw [List.append_assoc, List.singleton_append, ih core _ (blanks b t blank),
        demandsState_cons_of_isPlain (isPlain_of_isBlank blank)]

theorem demandsState_append_of_blank {s : List Char} (empty : trim s = []) (t : List Char) :
    demandsState (s ++ t) = demandsState t :=
  demandsState_append_of_trim (P := fun _ => True) (fun _ _ _ => trivial)
    (fun t _ => by rw [empty, List.nil_append]) t trivial

theorem demandsState_of_readCompound {s : List Char} {compound : Compound}
    (h : readCompound s = .ok compound) (alive : compound.isDead = false) {t : List Char}
    (boundary : IsBoundary t) : demandsState (trim s ++ t) = demandsState t := by
  rw [readCompound, bind_eq_ok] at h
  obtain ⟨read, simples, h⟩ := h
  split at h
  · cases h
  · cases h
    rw [demandsState_readTag]
    exact demandsState_of_readsSimples (readsSimples_of_readSimples simples) alive boundary

/-- A reader of a complex selector that has read a dead compound. -/
def HasDead (scan : Scan) : Prop :=
  ∃ selector, scan.read = some selector ∧ selector.IsDead

/-- Either a dead compound has been read, or state is demanded by what has not been read yet. -/
def Owes (scan : Scan) (rest : List Char) : Prop :=
  HasDead scan ∨ demandsState (scan.buffer.reverse ++ rest)

theorem hasDead_join {scan next : Scan} {compound : Compound} (h : scan.join compound = .ok next)
    (dead : HasDead scan ∨ compound.isDead) : HasDead next := by
  unfold Scan.join at h
  split at h
  · next unfiltered _ =>
      cases h
      refine ⟨_, rfl, compound, by simp [ComplexSelector.compounds], dead.resolve_left ?_⟩
      rintro ⟨selector, found, _⟩
      cases unfiltered.symm.trans found
  · cases h
  · next pending left read =>
      cases h
      refine ⟨_, rfl, ?_⟩
      rcases dead with ⟨selector, found, other, member, dead⟩ | dead
      · cases read.symm.trans found
        refine ⟨other, ?_, dead⟩
        simp only [ComplexSelector.compounds, List.map_cons, List.reverse_cons,
          List.mem_append] at member ⊢
        exact .inl member
      · exact ⟨compound, by simp [ComplexSelector.compounds], dead⟩

theorem owes_flush {scan next : Scan} {t : List Char} (h : scan.flush = .ok next)
    (boundary : IsBoundary t) (owes : Owes scan t) : HasDead next ∨ demandsState t := by
  obtain ⟨empty, rfl⟩ | ⟨compound, read, joined⟩ := Scan.flush_cases h
  · refine owes.imp id fun demands => ?_
    rwa [demandsState_append_of_blank (List.isEmpty_iff.1 empty)] at demands
  · cases alive : compound.isDead with
    | true => exact .inl (hasDead_join joined (.inr alive))
    | false =>
        refine owes.imp (fun dead => hasDead_join joined (.inl dead)) fun demands => ?_
        rwa [demandsState_append_of_trim (fun _ rest blank => isBoundary_of_isBlank blank rest)
          (fun t boundary => ?_) t boundary] at demands
        rw [← demandsState_of_readCompound read alive boundary, trim_trim]

/-- A debt is kept by every character, or paid by a dead compound. -/
theorem owes_step {scan next : Scan} {c : Char} {rest : List Char} (h : scan.step c = .ok next)
    (owes : Owes scan (c :: rest)) : Owes next rest := by
  obtain rfl | ⟨combinator, flushed, found, flush, rfl⟩ | ⟨blank, empty, rfl⟩ |
    ⟨blank, flushed, flush, rfl⟩ := Scan.step_cases h
  · refine owes.imp id fun demands => ?_
    rwa [List.reverse_cons, List.append_assoc]
  · -- What the buffer demanded is a dead compound now; else the demand comes after it.
    have kept := owes_flush flush (isBoundary_of_combinator found rest) owes
    rw [demandsState_cons_of_isPlain (isPlain_of_combinator found)] at kept
    rw [Owes, Scan.buffer_flush flush]
    exact kept
  · refine owes.imp id fun demands => ?_
    have blanks := demandsState_append_of_blank (List.isEmpty_iff.1 empty)
    rw [blanks, demandsState_cons_of_isPlain (isPlain_of_isBlank blank)] at demands
    rwa [blanks]
  · have kept := owes_flush flush (isBoundary_of_isBlank blank rest) owes
    rw [demandsState_cons_of_isPlain (isPlain_of_isBlank blank)] at kept
    rw [Owes, Scan.buffer_flush flush]
    exact kept

/-- A text that demands state is read as a dead selector, if it can be read. -/
theorem isDead_of_readComplex {s : List Char} {selector : ComplexSelector}
    (h : readComplex s = .ok selector) (demands : demandsState (trim s)) : selector.IsDead := by
  rw [readComplex, bind_eq_ok] at h
  obtain ⟨scan, run, finish⟩ := h
  have start : Owes {} (trim s) := .inr demands
  have owes : Owes scan [] :=
    foldlM_ok_rest (motive := Owes) (fun _ _ _ _ owes step => owes_step step owes) (trim s) start
      run
  unfold Scan.finish at finish
  split at finish
  · cases finish
  · rw [bind_eq_ok] at finish
    obtain ⟨flushed, flush, finish⟩ := finish
    split at finish
    · cases finish
    · obtain ⟨found, read, dead⟩ : HasDead flushed :=
        (owes_flush flush isBoundary_nil owes).resolve_right (by simp [demandsState])
      rw [read] at finish
      cases finish
      exact dead

end StaticSelector

end ComputedStyle
