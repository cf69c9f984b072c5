import Mathlib
import ComputedStyle.Proofs.Except
import ComputedStyle.Proofs.Selector.Dynamic
import ComputedStyle.Proofs.Selector.Formula
import ComputedStyle.Proofs.Text.Nested
import ComputedStyle.Selector.Printing

namespace ComputedStyle

open Text Number

namespace Selector

section Readers

variable {c : Char} {s rest : List Char}

/-- An identifier ends here. -/
def EndsIdent (rest : List Char) : Prop :=
  ∀ c ∈ rest.head?, isIdentChar c = false ∧ c ≠ '\\'

theorem endsIdent_nil : EndsIdent [] := by
  intro c first
  cases first

theorem endsIdent_cons (other : isIdentChar c = false) (plain : c ≠ '\\') : EndsIdent (c :: rest) := by
  rintro _ ⟨⟩
  exact ⟨other, plain⟩

theorem isBare_of_isIdentChar (ident : isIdentChar c) : IsBare c := by
  intro held
  simp only [List.mem_cons, List.not_mem_nil, or_false] at held
  rcases held with rfl | rfl | rfl | rfl | rfl | rfl <;> revert ident <;> decide

theorem readIdent_append {ident : List Char} (all : ∀ c ∈ ident, isIdentChar c)
    (ends : EndsIdent rest) : readIdent (ident ++ rest) = (ident, rest) := by
  induction ident with
  | nil =>
      cases rest with
      | nil => rfl
      | cons c later =>
          obtain ⟨other, plain⟩ := ends c rfl
          rw [List.nil_append, readIdent, if_neg (by rw [other]; decide)]
          rintro d tail rfl
          exact absurd rfl plain
  | cons c others ih =>
      obtain ⟨own, later⟩ := List.forall_mem_cons.1 all
      rw [List.cons_append, readIdent, if_pos own, ih later]
      rintro d tail rfl
      exact absurd own (by decide)

/-- What is read between brackets, with a text before it. -/
def within (s : List Char) (read : Option (List Char × List Char)) :
    Option (List Char × List Char) :=
  read.map fun (inner, after) => (s ++ inner, after)

theorem within_nil (read : Option (List Char × List Char)) : within [] read = read := by
  cases read <;> rfl

theorem within_within (t : List Char) (read : Option (List Char × List Char)) :
    within s (within t read) = within (s ++ t) read := by
  cases read <;> simp [within]

variable {opener closer : Char} {state : Nesting} {n : Nat}

theorem readBalanced_cons
    (open_ : (state.quote.isNone && c == closer && state.depth == 1) = false) :
    readBalanced opener closer state (c :: rest) =
      within [c] (readBalanced opener closer (state.step ⟨[opener], [closer]⟩ c) rest) := by
  rw [readBalanced, if_neg (by rw [open_]; decide)]
  rfl

theorem readBalanced_quoted {value : List Char} (inside : '"' ∉ value) :
    readBalanced opener closer ⟨some '"', n⟩ (value ++ '"' :: rest) =
      within (value ++ ['"']) (readBalanced opener closer ⟨none, n⟩ rest) := by
  induction value with
  | nil =>
      rw [List.nil_append, readBalanced_cons rfl]
      rfl
  | cons c others ih =>
      obtain ⟨other, later⟩ := not_or.1 (List.mem_cons.not.1 inside)
      have same : Nesting.step ⟨[opener], [closer]⟩ ⟨some '"', n⟩ c = ⟨some '"', n⟩ := by
        simp [Nesting.step, Ne.symm other]
      rw [List.cons_append, readBalanced_cons rfl, same, ih later, within_within]
      rfl

theorem readBalanced_nested {kind : Char → Prop} (nested : Nested kind s)
    (pair : (opener, closer) ∈ [('(', ')'), ('[', ']')]) (n : Nat) (rest : List Char) :
    readBalanced opener closer ⟨none, n + 1⟩ (s ++ rest) =
      within s (readBalanced opener closer ⟨none, n + 1⟩ rest) := by
  induction nested generalizing n rest with
  | nil => exact (within_nil _).symm
  | plain c s _ bare _ ih =>
      simp only [IsBare, List.mem_cons, List.not_mem_nil, or_false, not_or] at bare
      rw [List.cons_append, readBalanced_cons]
      · have same : Nesting.step ⟨[opener], [closer]⟩ ⟨none, n + 1⟩ c = ⟨none, n + 1⟩ := by
          rcases List.mem_pair.1 pair with ⟨⟨⟩⟩ | ⟨⟨⟩⟩ <;> simp [Nesting.step, bare]
        rw [same, ih, within_within]
        rfl
      · rcases List.mem_pair.1 pair with ⟨⟨⟩⟩ | ⟨⟨⟩⟩ <;> simp [bare]
  | quoted value s inside _ ih =>
      rw [List.cons_append, List.append_assoc, List.cons_append, readBalanced_cons]
      · have opens : Nesting.step ⟨[opener], [closer]⟩ ⟨none, n + 1⟩ '"' = ⟨some '"', n + 1⟩ := rfl
        rw [opens, readBalanced_quoted inside, ih, within_within, within_within]
        simp
      · rcases List.mem_pair.1 pair with ⟨⟨⟩⟩ | ⟨⟨⟩⟩ <;> rfl
  | round inner s _ _ ihInner ih =>
      rw [List.cons_append, List.append_assoc, List.cons_append, readBalanced_cons]
      · rcases List.mem_pair.1 pair with ⟨⟨⟩⟩ | ⟨⟨⟩⟩
        · have opens : Nesting.step ⟨['('], [')']⟩ ⟨none, n + 1⟩ '(' = ⟨none, n + 2⟩ := rfl
          have closes : Nesting.step ⟨['('], [')']⟩ ⟨none, n + 2⟩ ')' = ⟨none, n + 1⟩ := rfl
          rw [opens, ihInner, readBalanced_cons (by simp), closes, ih]
          simp [within_within]
        · have opens : Nesting.step ⟨['['], [']']⟩ ⟨none, n + 1⟩ '(' = ⟨none, n + 1⟩ := rfl
          have closes : Nesting.step ⟨['['], [']']⟩ ⟨none, n + 1⟩ ')' = ⟨none, n + 1⟩ := rfl
          rw [opens, ihInner, readBalanced_cons (by simp), closes, ih]
          simp [within_within]
      · rcases List.mem_pair.1 pair with ⟨⟨⟩⟩ | ⟨⟨⟩⟩ <;> rfl
  | square inner s _ _ ihInner ih =>
      rw [List.cons_append, List.append_assoc, List.cons_append, readBalanced_cons]
      · rcases List.mem_pair.1 pair with ⟨⟨⟩⟩ | ⟨⟨⟩⟩
        · have opens : Nesting.step ⟨['('], [')']⟩ ⟨none, n + 1⟩ '[' = ⟨none, n + 1⟩ := rfl
          have closes : Nesting.step ⟨['('], [')']⟩ ⟨none, n + 1⟩ ']' = ⟨none, n + 1⟩ := rfl
          rw [opens, ihInner, readBalanced_cons (by simp), closes, ih]
          simp [within_within]
        · have opens : Nesting.step ⟨['['], [']']⟩ ⟨none, n + 1⟩ '[' = ⟨none, n + 2⟩ := rfl
          have closes : Nesting.step ⟨['['], [']']⟩ ⟨none, n + 2⟩ ']' = ⟨none, n + 1⟩ := rfl
          rw [opens, ihInner, readBalanced_cons (by simp), closes, ih]
          simp [within_within]
      · rcases List.mem_pair.1 pair with ⟨⟨⟩⟩ | ⟨⟨⟩⟩ <;> rfl

theorem readBracket_nested {kind : Char → Prop} (nested : Nested kind s)
    (pair : (opener, closer) ∈ [('(', ')'), ('[', ']')]) (rest : List Char) :
    readBracket opener closer (s ++ closer :: rest) = some (s, rest) := by
  have ends : readBalanced opener closer ⟨none, 1⟩ (closer :: rest) = some ([], rest) := by
    rw [readBalanced]
    simp
  rw [readBracket, readBalanced_nested nested pair 0, ends]
  simp [within]

end Readers

section Attributes

variable {test : AttributeTest} {comparison : AttributeComparison}

theorem isIdentChar_apart {c d : Char} (ident : isIdentChar c) (other : isIdentChar d = false) :
    c ≠ d := by
  rintro rfl
  rw [other] at ident
  cases ident

theorem isTrimmed_of_isIdent {name : String} (ident : IsIdent name) : IsTrimmed name.toList := by
  constructor
  · exact fun c first => (ident.2 c (List.mem_of_head? first)).2
  · exact fun c last => (ident.2 c (List.mem_of_getLast? last)).2

theorem readAttributeName_of_normal (ident : IsLowerIdent test.name) :
    readAttributeName test.name.toList = some test.name := by
  have all : test.name.toList.all isIdentChar :=
    List.all_eq_true.2 fun c member => (ident.1.2 c member).1
  have nonempty : test.name.toList.isEmpty = false := List.isEmpty_eq_false_iff.2 ident.1.1
  rw [readAttributeName, ident.2, all, nonempty]
  simp

theorem operatorOf?_of_isIdentChar {c : Char} (ident : isIdentChar c) : operatorOf? c = none := by
  unfold operatorOf?
  split
  all_goals first | rfl | (revert ident; decide)

theorem splitOperator_append (ident : IsIdent test.name)
    (ascii : ∀ c ∈ test.name.toList, c.toNat < 0x80) (operator : AttributeOperator) :
    splitOperator (test.name.toList ++ operator.mark?.toList) = .ok (test.name.toList, operator) := by
  cases operator with
  | equals =>
      rw [AttributeOperator.mark?, Option.toList_none, List.append_nil]
      unfold splitOperator
      split
      · next empty => exact absurd (List.getLast?_eq_none_iff.1 empty) ident.1
      · next c last =>
          have member := List.mem_of_getLast? last
          have plain := operatorOf?_of_isIdentChar (ident.2 c member).1
          rw [if_neg (Nat.not_le_of_lt (ascii c member)), plain]
  | _ =>
      unfold splitOperator
      simp [AttributeOperator.mark?, operatorOf?]

theorem readCaseFlag_flag : readCaseFlag (trim comparison.flag) = some comparison.ignoresCase := by
  rw [AttributeComparison.flag]
  cases comparison.ignoresCase <;> cbv

theorem isTrimmed_value (comparison : AttributeComparison) :
    IsTrimmed ('"' :: (comparison.value.toList ++ '"' :: comparison.flag)) := by
  refine ⟨fun c first => by cases first; rfl, fun c last => ?_⟩
  rw [← List.cons_append, List.getLast?_append_of_ne_nil _ (List.cons_ne_nil _ _)] at last
  rw [AttributeComparison.flag] at last
  split at last
  · cases last
    rfl
  · cases last
    rfl

theorem isTrimmed_inner (ident : IsIdent test.name) : IsTrimmed test.inner := by
  have name := isTrimmed_of_isIdent ident
  rw [AttributeTest.inner]
  cases test.comparison with
  | none =>
      rw [Option.map_none, Option.getD_none, List.append_nil]
      exact name
  | some comparison =>
      have value := isTrimmed_value comparison
      have parts : test.name.toList ++ comparison.text =
          test.name.toList ++ (comparison.operator.mark?.toList ++ ['=']) ++
            '"' :: (comparison.value.toList ++ '"' :: comparison.flag) := by
        simp [AttributeComparison.text]
      rw [Option.map_some, Option.getD_some, parts]
      exact isTrimmed_append name value ident.1 (List.cons_ne_nil _ _) _

theorem not_mem_name (ident : IsIdent test.name) {c : Char} (other : isIdentChar c = false) :
    c ∉ test.name.toList :=
  fun member => isIdentChar_apart (ident.2 c member).1 other rfl

theorem equals_not_mem_mark (operator : AttributeOperator) : '=' ∉ operator.mark?.toList := by
  cases operator <;> decide

theorem readAttribute_inner (normal : test.IsNormal) : readAttribute test.inner = .ok test := by
  have ident := normal.name.1
  have name := readAttributeName_of_normal normal.name
  rw [readAttribute, trim_of_isTrimmed (isTrimmed_inner ident)]
  obtain ⟨own, comparison?⟩ := test
  cases comparison? with
  | none =>
      have whole : AttributeTest.inner ⟨own, none⟩ = own.toList := List.append_nil _
      have free : splitOnce '=' own.toList = none :=
        splitOnce_eq_none (not_mem_name ident rfl)
      rw [whole, free, name]
      rfl
  | some comparison =>
      obtain ⟨operator, value, ignoresCase⟩ := comparison
      have parts : AttributeTest.inner ⟨own, some ⟨operator, value, ignoresCase⟩⟩ =
          (own.toList ++ operator.mark?.toList) ++ '=' :: '"' :: (value.toList ++ '"' ::
            AttributeComparison.flag ⟨operator, value, ignoresCase⟩) := by
        simp [AttributeTest.inner, AttributeComparison.text]
      have free : '=' ∉ own.toList ++ operator.mark?.toList := by
        intro member
        rcases List.mem_append.1 member with inName | inMark
        · exact not_mem_name ident rfl inName
        · exact equals_not_mem_mark operator inMark
      have quoted := splitOnce_append (normal.value _ rfl)
        (AttributeComparison.flag ⟨operator, value, ignoresCase⟩)
      have operatorRead := splitOperator_append ident normal.ascii operator
      have flag := @readCaseFlag_flag ⟨operator, value, ignoresCase⟩
      dsimp only at quoted operatorRead name
      rw [parts, splitOnce_append free]
      simp only [operatorRead, trim_of_isTrimmed (isTrimmed_of_isIdent ident), name, readable,
        trim_of_isTrimmed (isTrimmed_value ⟨operator, value, ignoresCase⟩), readValue, quoted, flag,
        bind, Except.bind, beq_self_eq_true, Bool.true_or, if_true, pure, Except.pure]
      simp

theorem nested_inner (normal : test.IsNormal) : Nested (fun _ => True) test.inner := by
  have name : Nested (fun _ => True) test.name.toList :=
    .of_plain (fun _ _ => trivial) fun c member =>
      isBare_of_isIdentChar (normal.name.1.2 c member).1
  rw [AttributeTest.inner]
  cases own : test.comparison with
  | none => simpa using name
  | some comparison =>
      have flag : Nested (fun _ => True) comparison.flag := by
        rw [AttributeComparison.flag]
        split
        · exact .plain _ _ trivial (by decide) (.plain _ _ trivial (by decide) (.nil _))
        · exact .nil _
      have mark : Nested (fun _ => True) (comparison.operator.mark?.toList ++ ['=']) := by
        refine .of_plain (fun _ _ => trivial) ?_
        cases comparison.operator <;> simp [AttributeOperator.mark?, IsBare]
      have parts : comparison.text = (comparison.operator.mark?.toList ++ ['=']) ++
          '"' :: (comparison.value.toList ++ '"' :: comparison.flag) := by
        simp [AttributeComparison.text]
      rw [Option.map_some, Option.getD_some, parts]
      exact name.append (mark.append (.quoted _ _ (normal.value comparison own) flag))

theorem readBracket_attribute (normal : test.IsNormal) (rest : List Char) :
    readBracket '[' ']' (test.inner ++ ']' :: rest) = some (test.inner, rest) :=
  readBracket_nested (nested_inner normal) (by decide) rest

end Attributes

section Simples

variable {compound : Compound} {pseudo : PseudoClass} {name : String} {s t rest : List Char}

/-- Here the text of a compound ends, or another simple selector starts. -/
def StartsSimple (rest : List Char) : Prop :=
  ∀ c ∈ rest.head?, c ∈ ['#', '.', '[', ':']

theorem startsSimple_nil : StartsSimple [] :=
  nofun

theorem startsSimple_append (first : StartsSimple s) (second : StartsSimple t) :
    StartsSimple (s ++ t) := by
  cases s with
  | nil => exact second
  | cons c others => exact first

theorem startsSimple_flatMap {α : Type} {f : α → List Char} (each : ∀ a, StartsSimple (f a))
    (items : List α) : StartsSimple (items.flatMap f) := by
  induction items with
  | nil => exact startsSimple_nil
  | cons a others ih => exact startsSimple_append (each a) ih

theorem StartsSimple.endsIdent (starts : StartsSimple rest) : EndsIdent rest := by
  intro c first
  have listed := starts c first
  simp only [List.mem_cons, List.not_mem_nil, or_false] at listed
  rcases listed with rfl | rfl | rfl | rfl <;> decide

theorem StartsSimple.ne_round (starts : StartsSimple rest) (inside : List Char) :
    rest ≠ '(' :: inside := by
  rintro rfl
  have listed := starts '(' rfl
  revert listed
  decide

instance : DecidablePred IsIdent := fun name =>
  decidable_of_iff (name.toList ≠ [] ∧ name.toList.all fun c => isIdentChar c && !isBlank c)
    (by simp [IsIdent])

instance : DecidablePred IsLowerIdent := fun name =>
  inferInstanceAs (Decidable (IsIdent name ∧ _))

theorem readIdent_name (ident : IsIdent name) (ends : EndsIdent rest) :
    readIdent (name.toList ++ rest) = (name.toList, rest) :=
  readIdent_append (fun c member => (ident.2 c member).1) ends

theorem requireIdent_name (ident : IsIdent name) : requireIdent name.toList = .ok name := by
  rw [requireIdent, List.isEmpty_eq_false_iff.2 ident.1]
  simp

theorem readsSimple_id (ident : IsIdent name) (ends : EndsIdent rest) :
    ReadsSimple ('#' :: (name.toList ++ rest)) (.id name) rest := by
  have read := readIdent_name ident ends
  have reads := ReadsSimple.id (name.toList ++ rest) name (by rw [read, requireIdent_name ident])
  rwa [read] at reads

theorem readsSimple_class (ident : IsIdent name) (ends : EndsIdent rest) :
    ReadsSimple ('.' :: (name.toList ++ rest)) (.className name) rest := by
  have read := readIdent_name ident ends
  have reads := ReadsSimple.className (name.toList ++ rest) name
    (by rw [read, requireIdent_name ident])
  rwa [read] at reads

theorem readsSimple_attribute {test : AttributeTest} (normal : test.IsNormal) (rest : List Char) :
    ReadsSimple (test.text ++ rest) (.hasAttribute test) rest := by
  rw [AttributeTest.text, List.cons_append, List.append_assoc, List.singleton_append]
  exact .hasAttribute _ test.inner rest test (readBracket_attribute normal rest)
    (readAttribute_inner normal)

theorem not_isOver {c : Char} (other : c ≠ ':') : ¬IsOver compound (c :: rest) :=
  fun ended => other (Option.some.inj ended.2)

theorem not_isOver_of_none (open_ : compound.pseudoElement = none) : ¬IsOver compound rest := by
  rw [IsOver, open_]
  exact fun ended => Bool.false_ne_true ended.1

/-- A name with its argument, if it has one, is read whole. -/
theorem readPseudoName_text (ident : IsLowerIdent name) {argument : Option (List Char)}
    (nested : ∀ inner, argument = some inner → Nested (fun _ => True) inner)
    (starts : StartsSimple rest) (doubled : Bool) :
    readPseudoName doubled (name.toList ++ (bracketed argument ++ rest)) =
      .ok ⟨doubled, name.toList, argument, rest⟩ := by
  have nonempty : name.toList.isEmpty = false := List.isEmpty_eq_false_iff.2 ident.1.1
  cases argument with
  | none =>
      have read := readIdent_name ident.1 starts.endsIdent
      have whole : bracketed none ++ rest = rest := rfl
      rw [whole, readPseudoName, read, nonempty, if_neg Bool.false_ne_true]
      split
      · next inside same => exact absurd same (starts.ne_round inside)
      · rw [ident.2]
  | some inner =>
      have whole : bracketed (some inner) ++ rest = '(' :: (inner ++ ')' :: rest) := by
        simp [bracketed]
      have ends : EndsIdent ('(' :: (inner ++ ')' :: rest)) := endsIdent_cons rfl (by decide)
      have read := readIdent_name ident.1 ends
      have inside : readBracket '(' ')' (inner ++ ')' :: rest) = some (inner, rest) :=
        readBracket_nested (nested inner rfl) (by decide) rest
      rw [whole, readPseudoName, read, nonempty, if_neg Bool.false_ne_true]
      simp only [inside, ident.2]

theorem readPseudo_text (ident : IsLowerIdent name) {argument : Option (List Char)}
    (nested : ∀ inner, argument = some inner → Nested (fun _ => True) inner)
    (starts : StartsSimple rest) :
    readPseudo (name.toList ++ (bracketed argument ++ rest)) =
      .ok ⟨false, name.toList, argument, rest⟩ := by
  unfold readPseudo
  split
  · next after same =>
      cases own : name.toList with
      | nil => exact absurd own ident.1.1
      | cons c others =>
          rw [own] at same
          cases same
          have colon := (ident.1.2 ':' (by simp [own])).1
          cases colon
  · exact readPseudoName_text ident nested starts false

/-- A pseudo-class with its argument, if it has one, is read as what they mean. -/
theorem readSimples_pseudo {argument : Option (List Char)} (open_ : compound.pseudoElement = none)
    (ident : IsLowerIdent name) (plain : name ∉ elementNames)
    (nested : ∀ inner, argument = some inner → Nested (fun _ => True) inner)
    (starts : StartsSimple rest)
    (meaning : PseudoText.meaning ⟨false, name.toList, argument, rest⟩ = .ok pseudo) :
    readSimples compound (':' :: (name.toList ++ (bracketed argument ++ rest))) =
      readSimples { compound with pseudoClasses := compound.pseudoClasses ++ [pseudo] } rest := by
  have other : ¬PseudoText.IsElement ⟨false, name.toList, argument, rest⟩ := by
    simpa [PseudoText.IsElement] using plain
  exact readSimples_of_readsSimple
    (.pseudoClass _ _ pseudo (readPseudo_text ident nested starts) other meaning)
    (not_isOver_of_none open_)

theorem readSimples_pseudoElement (open_ : compound.pseudoElement = none)
    (ident : IsLowerIdent name) :
    readSimples compound (':' :: ':' :: name.toList) =
      .ok { compound with pseudoElement := some name } := by
  have read : readPseudo (':' :: name.toList) = .ok ⟨true, name.toList, none, []⟩ := by
    have own : readPseudoName true (name.toList ++ (bracketed none ++ [])) =
        .ok ⟨true, name.toList, none, []⟩ :=
      readPseudoName_text ident (by rintro _ ⟨⟩) startsSimple_nil true
    rwa [bracketed, Option.map_none, Option.getD_none, List.append_nil, List.append_nil] at own
  rw [readSimples_of_readsSimple (.pseudoElement _ _ read (.inl rfl)) (not_isOver_of_none open_),
    readSimples_nil, Compound.adding, String.ofList_toList]

theorem readSimples_ids {ids : List String} (idents : ∀ id ∈ ids, IsIdent id)
    (starts : StartsSimple rest) :
    readSimples compound ((ids.flatMap fun id => '#' :: id.toList) ++ rest) =
      readSimples { compound with ids := compound.ids ++ ids } rest := by
  induction ids generalizing compound with
  | nil =>
      cases compound
      rw [List.flatMap_nil, List.nil_append, List.append_nil]
  | cons id others ih =>
      obtain ⟨own, later⟩ := List.forall_mem_cons.1 idents
      have tail := startsSimple_append
        (startsSimple_flatMap (f := fun id : String => '#' :: id.toList)
          (fun _ => by rintro _ ⟨⟩; decide) others) starts
      rw [List.flatMap_cons, List.append_assoc, List.cons_append,
        readSimples_of_readsSimple (readsSimple_id own tail.endsIdent) (not_isOver (by decide)),
        Compound.adding, ih later]
      simp

theorem readSimples_classes {classes : List String} (idents : ∀ name ∈ classes, IsIdent name)
    (starts : StartsSimple rest) :
    readSimples compound ((classes.flatMap fun name => '.' :: name.toList) ++ rest) =
      readSimples { compound with classes := compound.classes ++ classes } rest := by
  induction classes generalizing compound with
  | nil =>
      cases compound
      rw [List.flatMap_nil, List.nil_append, List.append_nil]
  | cons name others ih =>
      obtain ⟨own, later⟩ := List.forall_mem_cons.1 idents
      have tail := startsSimple_append
        (startsSimple_flatMap (f := fun name : String => '.' :: name.toList)
          (fun _ => by rintro _ ⟨⟩; decide) others) starts
      rw [List.flatMap_cons, List.append_assoc, List.cons_append,
        readSimples_of_readsSimple (readsSimple_class own tail.endsIdent) (not_isOver (by decide)),
        Compound.adding, ih later]
      simp

theorem readSimples_attributes {attributes : List AttributeTest}
    (normal : ∀ test ∈ attributes, test.IsNormal) :
    readSimples compound (attributes.flatMap AttributeTest.text ++ rest) =
      readSimples { compound with attributes := compound.attributes ++ attributes } rest := by
  induction attributes generalizing compound with
  | nil =>
      cases compound
      rw [List.flatMap_nil, List.nil_append, List.append_nil]
  | cons test others ih =>
      obtain ⟨own, later⟩ := List.forall_mem_cons.1 normal
      rw [List.flatMap_cons, List.append_assoc,
        readSimples_of_readsSimple (readsSimple_attribute own _) (not_isOver (by decide)),
        Compound.adding, ih later]
      simp

/-- What reading the text of a pseudo-class rests on. -/
structure ReadsBack (pseudo : PseudoClass) : Prop where
  ident : IsLowerIdent pseudo.name
  plain : pseudo.name ∉ elementNames
  nested : ∀ inner, pseudo.argument? = some inner → Nested (fun _ => True) inner
  meaning : ∀ rest, PseudoText.meaning ⟨false, pseudo.name.toList, pseudo.argument?, rest⟩ =
    .ok pseudo

theorem startsSimple_textAll (pseudos : List PseudoClass) :
    StartsSimple (PseudoClass.textAll pseudos) := by
  cases pseudos with
  | nil => exact startsSimple_nil
  | cons pseudo others =>
      rw [PseudoClass.textAll]
      rintro _ ⟨⟩
      decide

theorem readSimples_pseudos {pseudos : List PseudoClass}
    (each : ∀ pseudo ∈ pseudos, ReadsBack pseudo) (open_ : compound.pseudoElement = none)
    (starts : StartsSimple rest) :
    readSimples compound (PseudoClass.textAll pseudos ++ rest) =
      readSimples { compound with pseudoClasses := compound.pseudoClasses ++ pseudos } rest := by
  induction pseudos generalizing compound with
  | nil =>
      cases compound
      rw [PseudoClass.textAll, List.nil_append, List.append_nil]
  | cons pseudo others ih =>
      obtain ⟨own, later⟩ := List.forall_mem_cons.1 each
      have tail := startsSimple_append (startsSimple_textAll others) starts
      rw [PseudoClass.textAll, List.cons_append, List.cons_append, List.append_assoc,
        List.append_assoc,
        readSimples_pseudo open_ own.ident own.plain own.nested tail (own.meaning _)]
      have more := @ih { compound with pseudoClasses := compound.pseudoClasses ++ [pseudo] }
        later open_
      dsimp only at more ⊢
      rw [more, List.append_assoc, List.singleton_append]

end Simples

end Selector

end ComputedStyle
