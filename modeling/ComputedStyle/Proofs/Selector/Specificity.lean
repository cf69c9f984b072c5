import Mathlib
import ComputedStyle.Proofs.Selector.Printing

/-!
What a specificity counts.

A simple selector counts in one of three ranks, and `*` in none; `:not` counts as what it negates does.
A specificity holds these numbers, each up to the greatest that it can hold, so a selector never counts
for less than with one simple selector taken away. Only the lists of a single compound may not be
longer than that: their lengths start again from zero beyond it.
-/

namespace ComputedStyle

/-- What simple selectors are told apart by in the cascade. -/
inductive Rank where
  | ids
  | classes
  | types
deriving DecidableEq, Repr

def Specificity.count (s : Specificity) : Rank → Nat
  | .ids => s.ids
  | .classes => s.classes
  | .types => s.types

inductive SimpleSelector where
  | type (tag : String)
  | id (name : String)
  | className (name : String)
  | attributeTest (test : AttributeTest)
  | pseudoClass (pseudo : PseudoClass)
  | pseudoElement (name : String)

def SimpleSelector.rank? : SimpleSelector → Option Rank
  | type tag => if tag = "*" then none else some .types
  | id _ => some .ids
  | className _ => some .classes
  | attributeTest _ => some .classes
  | pseudoClass _ => some .classes
  | pseudoElement _ => some .types

mutual

/-- The simple selectors of a compound; those that `:not` negates stand in its place. -/
def Compound.simples : Compound → List SimpleSelector
  | ⟨tag, ids, classes, attributes, pseudoClasses, pseudoElement⟩ =>
      tag.toList.map .type ++ ids.map .id ++ classes.map .className ++
        attributes.map .attributeTest ++ PseudoClass.simplesAll pseudoClasses ++
        pseudoElement.toList.map .pseudoElement

def PseudoClass.simples : PseudoClass → List SimpleSelector
  | .not inner => inner.simples
  | pseudo => [.pseudoClass pseudo]

def PseudoClass.simplesAll : List PseudoClass → List SimpleSelector
  | [] => []
  | pseudo :: rest => pseudo.simples ++ PseudoClass.simplesAll rest

end

mutual

/-- Whether no list of a compound, or of one that it negates, is longer than can be counted. -/
def Compound.isCountable : Compound → Bool
  | ⟨_, ids, classes, attributes, pseudoClasses, _⟩ =>
      ids.length ≤ Specificity.countLimit &&
        classes.length + attributes.length ≤ Specificity.countLimit &&
        PseudoClass.allCountable pseudoClasses

def PseudoClass.isCountable : PseudoClass → Bool
  | .not inner => inner.isCountable
  | _ => true

def PseudoClass.allCountable : List PseudoClass → Bool
  | [] => true
  | pseudo :: rest => pseudo.isCountable && PseudoClass.allCountable rest

end

def countRank (rank : Rank) (simples : List SimpleSelector) : Nat :=
  simples.countP fun simple => simple.rank? = some rank

namespace ComplexSelector

def simples (selector : ComplexSelector) : List SimpleSelector :=
  selector.compounds.flatMap Compound.simples

def isCountable (selector : ComplexSelector) : Bool :=
  selector.compounds.all Compound.isCountable

end ComplexSelector

section Counting

open Specificity

theorem Specificity.count_add (a b : Specificity) (rank : Rank) :
    (a.add b).count rank = min countLimit (a.count rank + b.count rank) := by
  cases rank <;> rfl

theorem countRank_append (rank : Rank) (first second : List SimpleSelector) :
    countRank rank (first ++ second) = countRank rank first + countRank rank second :=
  List.countP_append

theorem countRank_map (own : Rank) {f : α → SimpleSelector} (each : ∀ a, (f a).rank? = some own)
    (rank : Rank) (items : List α) :
    countRank rank (items.map f) = if own = rank then items.length else 0 := by
  have same : ∀ a, ((f a).rank? = some rank) ↔ own = rank := fun a => by rw [each, Option.some.injEq]
  split
  · next own_ => simp [countRank, List.countP_map, Function.comp_def, same, own_]
  · next other => simp [countRank, List.countP_map, Function.comp_def, same, other]

theorem countRank_type (rank : Rank) (tag : Option String) :
    countRank rank (tag.toList.map .type) =
      if .types = rank ∧ (tag.filter (· != "*")).isSome then 1 else 0 := by
  cases tag with
  | none => simp [countRank]
  | some name =>
      by_cases star : name = "*" <;> simp [countRank, SimpleSelector.rank?, star]

/-- What a compound counts itself, and what its pseudo-classes count. -/
theorem countRank_simples (compound : Compound) (rank : Rank) :
    countRank rank compound.simples =
      Specificity.count ⟨compound.ids.length, compound.classes.length + compound.attributes.length,
          (if compound.type?.isSome then 1 else 0) +
            if compound.pseudoElement.isSome then 1 else 0⟩ rank +
        countRank rank (PseudoClass.simplesAll compound.pseudoClasses) := by
  obtain ⟨tag, ids, classes, attributes, pseudoClasses, pseudoElement⟩ := compound
  have element : pseudoElement.toList.length = if pseudoElement.isSome then 1 else 0 := by
    cases pseudoElement <;> rfl
  rw [Compound.simples]
  simp only [countRank_append, countRank_type]
  rw [countRank_map .ids fun _ => rfl, countRank_map .classes fun _ => rfl,
    countRank_map .classes fun _ => rfl, countRank_map .types fun _ => rfl, element]
  cases rank
  · simp [Specificity.count]
  · simp [Specificity.count]
  · simp [Specificity.count, Compound.type?]
    omega

mutual

theorem Compound.count_specificity (compound : Compound) (countable : compound.isCountable)
    (rank : Rank) :
    compound.specificity.count rank = min countLimit (countRank rank compound.simples) :=
  match compound, countable with
  | ⟨tag, ids, classes, attributes, pseudoClasses, pseudoElement⟩, countable => by
      simp only [Compound.isCountable, Bool.and_eq_true, decide_eq_true_eq] at countable
      obtain ⟨⟨fewIds, fewClasses⟩, nested⟩ := countable
      have whole : ∀ n, n ≤ countLimit → n % 2 ^ 16 = n := fun n few =>
        Nat.mod_eq_of_lt (Nat.lt_of_le_of_lt few (by decide))
      rw [Compound.specificity, whole _ fewIds, whole _ fewClasses, countRank_simples]
      refine PseudoClass.count_addAll pseudoClasses nested _ rank ?_
      cases rank
      · exact fewIds
      · exact fewClasses
      · dsimp only [Specificity.count]
        split <;> split <;> decide

theorem PseudoClass.count_specificity (pseudo : PseudoClass) (countable : pseudo.isCountable)
    (rank : Rank) :
    pseudo.specificity.count rank = min countLimit (countRank rank pseudo.simples) :=
  match pseudo with
  | .not inner => inner.count_specificity countable rank
  | .root | .firstChild | .lastChild | .onlyChild | .firstOfType | .lastOfType | .nthChild _
  | .nthLastChild _ | .nthOfType _ | .dynamic _ | .unsupported _ => by
      cases rank <;> rfl

theorem PseudoClass.count_addAll (pseudos : List PseudoClass)
    (countable : PseudoClass.allCountable pseudos) (sum : Specificity) (rank : Rank)
    (bound : sum.count rank ≤ countLimit) :
    (PseudoClass.addAll sum pseudos).count rank =
      min countLimit (sum.count rank + countRank rank (PseudoClass.simplesAll pseudos)) :=
  match pseudos, countable with
  | [], _ => (Nat.min_eq_right bound).symm
  | pseudo :: rest, countable => by
      simp only [PseudoClass.allCountable, Bool.and_eq_true] at countable
      have own := pseudo.count_specificity countable.1 rank
      have later := PseudoClass.count_addAll rest countable.2 (sum.add pseudo.specificity) rank
        (by rw [count_add]; exact Nat.min_le_left _ _)
      rw [PseudoClass.addAll, later, count_add, own, PseudoClass.simplesAll, countRank_append]
      omega

end

theorem foldl_add_specificity (compounds : List Compound)
    (countable : compounds.all Compound.isCountable) (sum : Specificity) (rank : Rank)
    (bound : sum.count rank ≤ countLimit) :
    (compounds.foldl (fun sum compound => sum.add compound.specificity) sum).count rank =
      min countLimit (sum.count rank + countRank rank (compounds.flatMap Compound.simples)) := by
  induction compounds generalizing sum with
  | nil => exact (Nat.min_eq_right bound).symm
  | cons compound rest ih =>
      rw [List.all_cons, Bool.and_eq_true] at countable
      rw [List.foldl_cons, ih countable.2 _ (by rw [count_add]; exact Nat.min_le_left _ _),
        count_add, compound.count_specificity countable.1, List.flatMap_cons, countRank_append]
      omega

theorem ComplexSelector.count_specificity {selector : ComplexSelector}
    (countable : selector.isCountable) (rank : Rank) :
    selector.specificity.count rank = min countLimit (countRank rank selector.simples) := by
  have sum := foldl_add_specificity selector.compounds countable .zero rank
    (by cases rank <;> exact Nat.zero_le _)
  have zero : Specificity.zero.count rank = 0 := by cases rank <;> rfl
  rwa [zero, Nat.zero_add] at sum

end Counting

/-- A compound with one more simple selector, its own or one in a compound that it negates. -/
inductive Compound.Grows : Compound → Compound → Prop where
  | tag (compound : Compound) (name : String) (free : compound.tag = none) :
      Grows compound { compound with tag := some name }
  | id (compound : Compound) (before after : List String) (name : String)
      (own : compound.ids = before ++ after) :
      Grows compound { compound with ids := before ++ name :: after }
  | className (compound : Compound) (before after : List String) (name : String)
      (own : compound.classes = before ++ after) :
      Grows compound { compound with classes := before ++ name :: after }
  | attributeTest (compound : Compound) (before after : List AttributeTest) (test : AttributeTest)
      (own : compound.attributes = before ++ after) :
      Grows compound { compound with attributes := before ++ test :: after }
  | pseudoClass (compound : Compound) (before after : List PseudoClass) (pseudo : PseudoClass)
      (own : compound.pseudoClasses = before ++ after) :
      Grows compound { compound with pseudoClasses := before ++ pseudo :: after }
  | pseudoElement (compound : Compound) (name : String) (free : compound.pseudoElement = none) :
      Grows compound { compound with pseudoElement := some name }
  | negated (compound inner grown : Compound) (before after : List PseudoClass)
      (own : compound.pseudoClasses = before ++ .not inner :: after) (grows : Grows inner grown) :
      Grows compound { compound with pseudoClasses := before ++ .not grown :: after }

/-- A selector in which one compound has one more simple selector. -/
structure ComplexSelector.Grows (selector grown : ComplexSelector) : Prop where
  combinators : grown.combinators = selector.combinators
  compounds : ∃ before compound larger after, compound.Grows larger ∧
    selector.compounds = before ++ compound :: after ∧ grown.compounds = before ++ larger :: after

section Growing

theorem PseudoClass.simplesAll_append (first second : List PseudoClass) :
    simplesAll (first ++ second) = simplesAll first ++ simplesAll second := by
  induction first with
  | nil => rfl
  | cons pseudo rest ih => rw [List.cons_append, simplesAll, simplesAll, ih, List.append_assoc]

theorem PseudoClass.allCountable_append (first second : List PseudoClass) :
    allCountable (first ++ second) = (allCountable first && allCountable second) := by
  induction first with
  | nil => rfl
  | cons pseudo rest ih => rw [List.cons_append, allCountable, allCountable, ih, Bool.and_assoc]

/-- All that a compound asks for is asked for by another one too. -/
structure Compound.IsWithin (compound grown : Compound) : Prop where
  tag : compound.tag.toList.Sublist grown.tag.toList
  ids : compound.ids.Sublist grown.ids
  classes : compound.classes.Sublist grown.classes
  attributes : compound.attributes.Sublist grown.attributes
  pseudoClasses : (PseudoClass.simplesAll compound.pseudoClasses).Sublist
    (PseudoClass.simplesAll grown.pseudoClasses)
  countable : PseudoClass.allCountable grown.pseudoClasses →
    PseudoClass.allCountable compound.pseudoClasses
  pseudoElement : compound.pseudoElement.toList.Sublist grown.pseudoElement.toList

namespace Compound

variable {compound grown : Compound}

theorem IsWithin.refl (compound : Compound) : compound.IsWithin compound :=
  ⟨.refl _, .refl _, .refl _, .refl _, .refl _, id, .refl _⟩

theorem IsWithin.sublist (within : compound.IsWithin grown) :
    compound.simples.Sublist grown.simples := by
  obtain ⟨tag, ids, classes, attributes, pseudoClasses, -, pseudoElement⟩ := within
  cases compound
  cases grown
  rw [simples, simples]
  exact (((((tag.map _).append (ids.map _)).append (classes.map _)).append
    (attributes.map _)).append pseudoClasses).append (pseudoElement.map _)

theorem IsWithin.isCountable (within : compound.IsWithin grown) (countable : grown.isCountable) :
    compound.isCountable := by
  have ids := within.ids.length_le
  have classes := within.classes.length_le
  have attributes := within.attributes.length_le
  have pseudoClasses := within.countable
  cases compound
  cases grown
  simp only [Compound.isCountable, Bool.and_eq_true, decide_eq_true_eq] at *
  exact ⟨⟨by omega, by omega⟩, pseudoClasses countable.2⟩

theorem Grows.isWithin (grows : compound.Grows grown) : compound.IsWithin grown := by
  have insert {α : Type} (a : α) (before after : List α) :
      (before ++ after).Sublist (before ++ a :: after) :=
    (List.sublist_cons_self a after).append_left before
  induction grows with
  | tag compound name free => exact { IsWithin.refl compound with tag := by simp [free] }
  | id compound before after name own =>
      exact { IsWithin.refl compound with ids := own ▸ insert name before after }
  | className compound before after name own =>
      exact { IsWithin.refl compound with classes := own ▸ insert name before after }
  | attributeTest compound before after test own =>
      exact { IsWithin.refl compound with attributes := own ▸ insert test before after }
  | pseudoElement compound name free =>
      exact { IsWithin.refl compound with pseudoElement := by simp [free] }
  | pseudoClass compound before after pseudo own =>
      refine { IsWithin.refl compound with pseudoClasses := ?_, countable := ?_ }
      · rw [own, PseudoClass.simplesAll_append, PseudoClass.simplesAll_append,
          PseudoClass.simplesAll]
        exact (List.sublist_append_right _ _).append_left _
      · simp only [own, PseudoClass.allCountable_append, PseudoClass.allCountable,
          Bool.and_eq_true]
        exact fun parts => ⟨parts.1, parts.2.2⟩
  | negated compound inner grown before after own _ ih =>
      refine { IsWithin.refl compound with pseudoClasses := ?_, countable := ?_ }
      · rw [own, PseudoClass.simplesAll_append, PseudoClass.simplesAll_append,
          PseudoClass.simplesAll, PseudoClass.simplesAll]
        exact (ih.sublist.append_right _).append_left _
      · simp only [own, PseudoClass.allCountable_append, PseudoClass.allCountable,
          PseudoClass.isCountable, Bool.and_eq_true]
        exact fun parts => ⟨parts.1, ih.isCountable parts.2.1, parts.2.2⟩

end Compound

variable {selector grown : ComplexSelector}

theorem ComplexSelector.Grows.isCountable (grows : selector.Grows grown)
    (countable : grown.isCountable) : selector.isCountable := by
  obtain ⟨before, compound, larger, after, own, parts, larger_⟩ := grows.compounds
  rw [ComplexSelector.isCountable, larger_, List.all_append, List.all_cons, Bool.and_eq_true,
    Bool.and_eq_true] at countable
  rw [ComplexSelector.isCountable, parts, List.all_append, List.all_cons, Bool.and_eq_true,
    Bool.and_eq_true]
  exact ⟨countable.1, own.isWithin.isCountable countable.2.1, countable.2.2⟩

theorem ComplexSelector.Grows.countRank_le (grows : selector.Grows grown) (rank : Rank) :
    countRank rank selector.simples ≤ countRank rank grown.simples := by
  obtain ⟨before, compound, larger, after, own, parts, larger_⟩ := grows.compounds
  have sublist : selector.simples.Sublist grown.simples := by
    rw [ComplexSelector.simples, ComplexSelector.simples, parts, larger_, List.flatMap_append,
      List.flatMap_append, List.flatMap_cons, List.flatMap_cons]
    exact (own.isWithin.sublist.append_right _).append_left _
  exact sublist.countP_le

end Growing

section Order

namespace Specificity

variable {a b : Specificity}

theorem lt_iff : a.lt b ↔ a.toList < b.toList := by
  simp only [lt, toList, List.cons_lt_cons_iff, Bool.or_eq_true, Bool.and_eq_true,
    decide_eq_true_eq, beq_iff_eq, List.lt_irrefl, and_false, or_false]

theorem toList_injective (same : a.toList = b.toList) : a = b := by
  cases a
  cases b
  simpa [toList] using same

theorem toList_le_of_count_le (each : ∀ rank, a.count rank ≤ b.count rank) :
    a.toList ≤ b.toList := by
  have ids := each .ids
  have classes := each .classes
  have types := each .types
  simp only [count] at ids classes types
  rw [← not_lt, ← lt_iff]
  simp only [lt, Bool.or_eq_true, Bool.and_eq_true, decide_eq_true_eq, beq_iff_eq]
  omega

theorem toList_max : (a.max b).toList = Max.max a.toList b.toList := by
  rw [Specificity.max]
  split
  · next less => exact (max_eq_right (lt_iff.1 less).le).symm
  · next notLess => exact (max_eq_left (not_lt.1 (mt lt_iff.2 notLess))).symm

theorem zero_toList_le (a : Specificity) : zero.toList ≤ a.toList :=
  toList_le_of_count_le fun rank => by cases rank <;> exact Nat.zero_le _

theorem max_eq (a b : Specificity) : a.max b = a ∨ a.max b = b := by
  rw [Specificity.max]
  split
  · exact .inr rfl
  · exact .inl rfl

end Specificity

/-- The greatest specificity from a start on is at least the start and that of every member, and is
one of them. -/
theorem foldl_max_specificity (members : List ComplexSelector) (start : Specificity) :
    let most := members.foldl (fun most member => most.max member.specificity) start
    start.toList ≤ most.toList ∧ (∀ member ∈ members, member.specificity.toList ≤ most.toList) ∧
      (most = start ∨ ∃ member ∈ members, most = member.specificity) := by
  induction members generalizing start with
  | nil => exact ⟨le_rfl, nofun, .inl rfl⟩
  | cons first rest ih =>
      obtain ⟨above, each, own⟩ := ih (start.max first.specificity)
      rw [Specificity.toList_max] at above
      refine ⟨(le_max_left _ _).trans above, ?_, ?_⟩
      · exact List.forall_mem_cons.2 ⟨(le_max_right _ _).trans above, each⟩
      · rcases own with start_ | ⟨member, listed, own⟩
        · rcases Specificity.max_eq start first.specificity with same | same
          · exact .inl (start_.trans same)
          · exact .inr ⟨first, List.mem_cons_self, start_.trans same⟩
        · exact .inr ⟨member, List.mem_cons_of_mem _ listed, own⟩

namespace SelectorGroup

theorem exists_specificity {group : SelectorGroup} (nonempty : group.members ≠ []) :
    ∃ member ∈ group.members, group.specificity = member.specificity := by
  obtain ⟨-, each, own⟩ := foldl_max_specificity group.members .zero
  rcases own with zero | own
  · obtain ⟨first, rest, members⟩ := List.exists_cons_of_ne_nil nonempty
    refine ⟨first, by simp [members], ?_⟩
    have above := each first (by simp [members])
    rw [zero] at above
    have same := le_antisymm above first.specificity.zero_toList_le
    rw [specificity, zero]
    exact (Specificity.toList_injective same).symm
  · exact own

theorem members_ne_nil_of_read {text : String} {group : SelectorGroup}
    (found : read text = .ok group) : group.members ≠ [] := by
  rw [read, bind_eq_ok] at found
  obtain ⟨whole, -, found⟩ := found
  split at found
  · cases found
  · next nonempty =>
      cases found
      simpa using nonempty

end SelectorGroup

end Order

/-- A component of a specificity is the number of simple selectors of its rank, up to the greatest
that it holds, so one more simple selector never lowers a specificity; that of a group is the greatest
of its members. -/
theorem specificity_counts (selector : ComplexSelector) (text : String) (group : SelectorGroup) :
    (selector.isCountable →
      (∀ rank, selector.specificity.count rank =
        min Specificity.countLimit (countRank rank selector.simples)) ∧
      ∀ fewer : ComplexSelector, fewer.Grows selector →
        (∀ rank, fewer.specificity.count rank ≤ selector.specificity.count rank) ∧
          fewer.specificity.toList ≤ selector.specificity.toList) ∧
    (SelectorGroup.read text = .ok group →
      specificityOf text = .ok group.specificity ∧
        (∃ member ∈ group.members, group.specificity = member.specificity) ∧
        ∀ member ∈ group.members, member.specificity.toList ≤ group.specificity.toList) := by
  constructor
  · intro countable
    refine ⟨ComplexSelector.count_specificity countable, fun fewer grows => ?_⟩
    have each : ∀ rank, fewer.specificity.count rank ≤ selector.specificity.count rank := by
      intro rank
      rw [ComplexSelector.count_specificity countable,
        ComplexSelector.count_specificity (grows.isCountable countable)]
      exact min_le_min_left _ (grows.countRank_le rank)
    exact ⟨each, Specificity.toList_le_of_count_le each⟩
  · intro found
    refine ⟨by rw [specificityOf, found], ?_, (foldl_max_specificity group.members .zero).2.1⟩
    exact SelectorGroup.exists_specificity (SelectorGroup.members_ne_nil_of_read found)

/-- What `:not` negates counts, and `*` does not. -/
theorem specificity_counts_negated :
    let subject (ids : List String) : Compound :=
      ⟨some "q", [], [], [], [.not ⟨none, ids, ["c"], [], [], none⟩], some "after"⟩
    let left : Compound := ⟨some "*", [], ["a"], [], [.root], none⟩
    let selector : ComplexSelector := ⟨subject ["b"], [(.child, left)]⟩
    let grown : ComplexSelector := ⟨subject ["b", "d"], [(.child, left)]⟩
    let group : SelectorGroup :=
      ⟨[⟨⟨some "p", [], [], [], [], none⟩, []⟩, ⟨⟨none, ["a"], [], [], [], none⟩, []⟩], 0⟩
    (grown.isCountable ∧ grown.specificity.count .ids =
        min Specificity.countLimit (countRank .ids grown.simples)) ∧
      (selector.Grows grown ∧ selector.specificity.toList ≤ grown.specificity.toList) ∧
      SelectorGroup.read "p, #a" = .ok group ∧ specificityOf "p, #a" = .ok ⟨1, 0, 0⟩ := by
  intro subject left selector grown group
  have grows : selector.Grows grown :=
    ⟨rfl, [left], subject ["b"], subject ["b", "d"], [],
      .negated _ _ _ [] [] rfl (.id _ ["b"] [] "d" rfl), rfl, rfl⟩
  have found : SelectorGroup.read "p, #a" = .ok group := by
    cbv
  obtain ⟨counts, most⟩ := specificity_counts grown "p, #a" group
  obtain ⟨exact_, monotone⟩ := counts rfl
  exact ⟨⟨rfl, exact_ .ids⟩, ⟨grows, (monotone selector grows).2⟩, found, (most found).1⟩

def evenSelector (n : Nat) : ComplexSelector :=
  ⟨⟨none, [], List.replicate n "a", List.replicate n ⟨"a", none⟩, [], none⟩, []⟩

def evenText (n : Nat) : String :=
  String.ofList ((List.replicate n ".a".toList).flatten ++ (List.replicate n "[a]".toList).flatten)

theorem read_evenText {n : Nat} (positive : 0 < n) :
    SelectorGroup.read (evenText n) = .ok ⟨[evenSelector n], 0⟩ := by
  have test : AttributeTest.IsNormal ⟨"a", none⟩ :=
    ⟨by decide, List.forall_mem_singleton.2 (by decide), by rintro _ ⟨⟩⟩
  have classes : ∀ name ∈ List.replicate n "a", IsIdent name := fun name member => by
    rw [List.eq_of_mem_replicate member]
    decide
  have attributes : ∀ test ∈ List.replicate n (⟨"a", none⟩ : AttributeTest), test.IsNormal :=
    fun _ member => List.eq_of_mem_replicate member ▸ test
  have filled : (evenSelector n).subject.isEmpty = false := by
    simp [evenSelector, Compound.isEmpty, positive.ne']
  have text : (evenSelector n).subject.text =
      (List.replicate n ".a".toList).flatten ++ (List.replicate n "[a]".toList).flatten := by
    have own : AttributeTest.text ⟨"a", none⟩ = "[a]".toList := by decide
    simp [evenSelector, Compound.text, PseudoClass.textAll, List.flatMap_replicate, own]
  have untagged : ∀ name, (evenSelector n).subject.tag = some name → name = "*" ∨ IsLowerIdent name :=
    by rintro _ ⟨⟩
  have ids : ∀ id ∈ (evenSelector n).subject.ids, IsIdent id := List.forall_mem_nil _
  have pseudos : ∀ pseudo ∈ (evenSelector n).subject.pseudoClasses, Selector.ReadsBack pseudo :=
    List.forall_mem_nil _
  have whole : ∀ name, (evenSelector n).subject.pseudoElement = some name → IsLowerIdent name :=
    by rintro _ ⟨⟩
  rw [evenText, ← text]
  exact SelectorGroup.read_nested
    (Selector.nested_text untagged ids classes attributes pseudos whole)
    (Selector.readCompound_text untagged ids classes attributes pseudos whole filled)

theorem countRank_evenSelector (n : Nat) :
    countRank .classes (evenSelector n).simples = n + n := by
  have own : (evenSelector n).simples = (evenSelector n).subject.simples := by
    simp [evenSelector, ComplexSelector.simples, ComplexSelector.compounds]
  rw [own, countRank_simples]
  simp [evenSelector, PseudoClass.simplesAll, Specificity.count, countRank]

theorem specificity_evenSelector (n : Nat) :
    (evenSelector n).specificity.count .classes = (n + n) % 2 ^ 16 := by
  have below : (n + n) % 2 ^ 16 ≤ Specificity.countLimit :=
    Nat.le_of_lt_succ (Nat.mod_lt _ (by decide))
  simpa [evenSelector, ComplexSelector.specificity, ComplexSelector.compounds, Compound.specificity,
    PseudoClass.addAll, Specificity.add, Specificity.zero, Specificity.count] using below

/-- Classes and attribute tests that are one more than the greatest count start it again from zero. -/
theorem specificity_wraps :
    SelectorGroup.read (evenText (2 ^ 15)) = .ok ⟨[evenSelector (2 ^ 15)], 0⟩ ∧
      countRank .classes (evenSelector (2 ^ 15)).simples = Specificity.countLimit + 1 ∧
      (evenSelector (2 ^ 15)).specificity.count .classes = 0 :=
  ⟨read_evenText (by decide), countRank_evenSelector _, specificity_evenSelector _⟩

end ComputedStyle
