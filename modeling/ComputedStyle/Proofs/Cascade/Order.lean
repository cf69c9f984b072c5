import ComputedStyle.Cascade
import ComputedStyle.Proofs.RuleSet.Candidates

namespace ComputedStyle

namespace Rule

/-- Origin and specificity. -/
def strength (rule : Rule) : List Nat :=
  rule.origin.rank :: rule.specificity.toList

/-- Origin, specificity, place in the set. -/
def cascadeKey (rule : Rule) : List Nat :=
  rule.strength ++ [rule.id]

theorem weaker_iff {a b : Rule} : a.weaker b ↔ a.strength < b.strength := by
  simp only [weaker, strength, Specificity.lt, Specificity.toList, List.cons_lt_cons_iff,
    Bool.or_eq_true, Bool.and_eq_true, decide_eq_true_eq, beq_iff_eq, List.lt_irrefl, and_false,
    or_false]

theorem cascadeKey_lt_iff {a b : Rule} :
    a.cascadeKey < b.cascadeKey ↔
      a.strength < b.strength ∨ a.strength = b.strength ∧ a.id < b.id := by
  simp only [cascadeKey, strength, Specificity.toList, List.cons_append, List.nil_append,
    List.cons_lt_cons_iff, List.cons.injEq, List.lt_irrefl, and_false, or_false, and_true]
  grind

theorem not_weaker {a b : Rule} : (!b.weaker a) = true ↔ a.strength ≤ b.strength := by
  rw [Bool.not_eq_true', ← Bool.not_eq_true, weaker_iff, not_lt]

theorem precedes_iff {a b : Rule} : a.precedes b ↔ a.cascadeKey < b.cascadeKey := by
  rw [cascadeKey_lt_iff, precedes, Bool.or_eq_true, Bool.and_eq_true, weaker_iff, not_weaker,
    decide_eq_true_iff]
  constructor
  · rintro (less | ⟨notAbove, before⟩)
    · exact .inl less
    · rcases notAbove.lt_or_eq with less | same
      · exact .inl less
      · exact .inr ⟨same, before⟩
  · rintro (less | ⟨same, before⟩)
    · exact .inl less
    · exact .inr ⟨same.le, before⟩

end Rule

namespace Cascade

theorem not_weaker_trans (a b c : Rule) (first : (!b.weaker a) = true)
    (second : (!c.weaker b) = true) : (!c.weaker a) = true :=
  Rule.not_weaker.2 ((Rule.not_weaker.1 first).trans (Rule.not_weaker.1 second))

theorem not_weaker_total (a b : Rule) : (!b.weaker a || !a.weaker b) = true := by
  rw [Bool.or_eq_true, Rule.not_weaker, Rule.not_weaker]
  exact le_total a.strength b.strength

theorem perm_inOrder (rules : List Rule) : (inOrder rules).Perm rules :=
  List.mergeSort_perm rules _

theorem pairwise_strength_inOrder (rules : List Rule) :
    (inOrder rules).Pairwise fun a b => a.strength ≤ b.strength :=
  (List.pairwise_mergeSort not_weaker_trans not_weaker_total rules).imp Rule.not_weaker.1

theorem filter_inOrder (rules : List Rule) (strength : List Nat) :
    (inOrder rules).filter (·.strength = strength) = rules.filter (·.strength = strength) := by
  have level : (rules.filter (·.strength = strength)).Pairwise fun a b => (!b.weaker a) = true := by
    refine List.pairwise_of_forall_mem_list fun a memberA b memberB => ?_
    have sameA : a.strength = strength := by simpa using (List.mem_filter.1 memberA).2
    have sameB : b.strength = strength := by simpa using (List.mem_filter.1 memberB).2
    exact Rule.not_weaker.2 (sameA.trans sameB.symm).le
  have kept : (rules.filter (·.strength = strength)).Sublist (inOrder rules) :=
    List.sublist_mergeSort not_weaker_trans not_weaker_total level List.filter_sublist
  have sub := kept.filter (·.strength = strength)
  simp only [List.filter_filter, Bool.and_self] at sub
  have sameLength := ((perm_inOrder rules).filter (·.strength = strength)).length_eq
  exact (sub.eq_of_length sameLength.symm).symm

theorem pairwise_inOrder {rules : List Rule} (ascending : rules.Pairwise fun a b => a.id < b.id) :
    (inOrder rules).Pairwise fun a b => a.cascadeKey < b.cascadeKey := by
  refine List.pairwise_iff_forall_sublist.2 fun {a b} sub => ?_
  have notAbove := List.pairwise_iff_forall_sublist.1 (pairwise_strength_inOrder rules) sub
  rw [Rule.cascadeKey_lt_iff]
  rcases notAbove.lt_or_eq with less | same
  · exact .inl less
  · have level := sub.filter (·.strength = b.strength)
    rw [filter_inOrder] at level
    have pair : [a, b].filter (·.strength = b.strength) = [a, b] := by simp [same]
    rw [pair] at level
    have before : [a, b].Sublist rules := level.trans List.filter_sublist
    exact .inr ⟨same, List.pairwise_iff_forall_sublist.1 ascending before⟩

end Cascade

end ComputedStyle
