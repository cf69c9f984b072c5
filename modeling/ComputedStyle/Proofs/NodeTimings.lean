import Mathlib.Order.Bounds.Basic
import Mathlib.Data.List.Induction
import ComputedStyle.Metrics

namespace ComputedStyle.NodeTimings

theorem setOf_mem_append {α : Type} (times others : List α) :
    {time | time ∈ times ++ others} = {time | time ∈ times} ∪ {time | time ∈ others} :=
  Set.ext fun _ => List.mem_append

theorem setOf_mem_singleton {α : Type} (time : α) : {other | other ∈ [time]} = {time} :=
  Set.ext fun _ => List.mem_singleton

variable {τ : Type} [LinearOrder τ] [Zero τ]

/-- The times one after the other. -/
def ofTimes [Add τ] (times : List τ) : NodeTimings τ :=
  times.foldl record empty

/-- What timings tell of some times, in whatever order these came. -/
structure Gathers (timings : NodeTimings τ) (times : List τ) : Prop where
  count : timings.count = times.length
  unset : times = [] → timings.least = 0 ∧ timings.greatest = 0
  least : times ≠ [] → IsLeast {time | time ∈ times} timings.least
  greatest : times ≠ [] → IsGreatest {time | time ∈ times} timings.greatest

variable {timings other : NodeTimings τ} {times others : List τ}

theorem gathers_empty : (empty : NodeTimings τ).Gathers [] where
  count := rfl
  unset _ := ⟨rfl, rfl⟩
  least nonempty := absurd rfl nonempty
  greatest nonempty := absurd rfl nonempty

theorem Gathers.count_eq_zero_iff (gathers : timings.Gathers times) :
    timings.count = 0 ↔ times = [] := by
  rw [gathers.count, List.length_eq_zero_iff]

theorem Gathers.perm (gathers : timings.Gathers times) (same : times.Perm others) :
    timings.Gathers others := by
  have members : {time | time ∈ times} = {time | time ∈ others} := Set.ext fun _ => same.mem_iff
  have empty : times = [] ↔ others = [] :=
    ⟨fun empty => (empty ▸ same).symm.eq_nil, fun empty => (empty ▸ same).eq_nil⟩
  exact
    { count := gathers.count.trans same.length_eq
      unset := fun empty_ => gathers.unset (empty.2 empty_)
      least := fun nonempty => members ▸ gathers.least (mt empty.1 nonempty)
      greatest := fun nonempty => members ▸ gathers.greatest (mt empty.1 nonempty) }

/-- Timings of the same times agree, apart from the total. -/
theorem Gathers.agree (gathers : timings.Gathers times) (gathers' : other.Gathers times) :
    timings.count = other.count ∧ timings.least = other.least ∧
      timings.greatest = other.greatest := by
  refine ⟨gathers.count.trans gathers'.count.symm, ?_⟩
  cases times with
  | nil =>
      obtain ⟨least, greatest⟩ := gathers.unset rfl
      obtain ⟨least', greatest'⟩ := gathers'.unset rfl
      exact ⟨least.trans least'.symm, greatest.trans greatest'.symm⟩
  | cons time rest =>
      have nonempty : time :: rest ≠ [] := List.cons_ne_nil _ _
      exact ⟨(gathers.least nonempty).unique (gathers'.least nonempty),
        (gathers.greatest nonempty).unique (gathers'.greatest nonempty)⟩

section Parts

variable [Add τ]

theorem Gathers.record (gathers : timings.Gathers times) (time : τ) :
    (timings.record time).Gathers (times ++ [time]) where
  count := by rw [List.length_append, ← gathers.count]; rfl
  unset empty := absurd (List.append_eq_nil_iff.1 empty).2 (List.cons_ne_nil _ _)
  least _ := by
    simp only [NodeTimings.record, gathers.count_eq_zero_iff, setOf_mem_append,
      setOf_mem_singleton]
    split
    · next empty => simp [empty]
    · next nonempty => exact (gathers.least nonempty).union isLeast_singleton
  greatest _ := by
    simp only [NodeTimings.record, gathers.count_eq_zero_iff, setOf_mem_append,
      setOf_mem_singleton]
    split
    · next empty => simp [empty]
    · next nonempty => exact (gathers.greatest nonempty).union isGreatest_singleton

/-- An empty side is passed over; else the lesser and the greater bound stand for both. -/
theorem Gathers.absorb (gathers : timings.Gathers times) (gathers' : other.Gathers others) :
    (timings.absorb other).Gathers (times ++ others) := by
  unfold NodeTimings.absorb
  simp only [gathers.count_eq_zero_iff, gathers'.count_eq_zero_iff]
  split
  · next empty => rwa [empty, List.append_nil]
  split
  · next empty => rwa [empty, List.nil_append]
  · next nonempty' nonempty =>
      exact
        { count := by rw [List.length_append, ← gathers.count, ← gathers'.count]
          unset := fun empty => absurd (List.append_eq_nil_iff.1 empty).1 nonempty
          least := fun _ =>
            setOf_mem_append times others ▸ (gathers.least nonempty).union (gathers'.least nonempty')
          greatest := fun _ =>
            setOf_mem_append times others ▸
              (gathers.greatest nonempty).union (gathers'.greatest nonempty') }

theorem gathers_ofTimes (times : List τ) : (ofTimes times).Gathers times := by
  induction times using List.reverseRecOn with
  | nil => exact gathers_empty
  | append_singleton before time ih =>
      rw [ofTimes, List.foldl_append]
      exact ih.record time

theorem Gathers.foldl_absorb (gathers : timings.Gathers times) (chunks : List (List τ)) :
    ((chunks.map ofTimes).foldl NodeTimings.absorb timings).Gathers (times ++ chunks.flatten) := by
  induction chunks generalizing timings times with
  | nil => rwa [List.flatten_nil, List.append_nil]
  | cons chunk chunks ih =>
      rw [List.flatten_cons, ← List.append_assoc]
      exact ih (gathers.absorb (gathers_ofTimes chunk))

end Parts

end ComputedStyle.NodeTimings
