import Mathlib.Algebra.BigOperators.Group.List.Basic
import Mathlib.Data.List.Induction
import Mathlib.Data.List.Perm.Basic
import ComputedStyle.Proofs.Dictionary
import ComputedStyle.Proofs.Json
import ComputedStyle.Proofs.NodeTimings

namespace ComputedStyle

open Number

variable {τ : Type}

/-- The record that a call makes. -/
def MetricsCall.event? : MetricsCall τ → Option (MetricsEvent τ)
  | record event => some event
  | _ => none

namespace MetricsEvent

def phase? : MetricsEvent τ → Option String
  | span name _ => some name
  | count _ _ => none

/-- The time recorded for the phase of a name. -/
def time? (name : String) : MetricsEvent τ → Option τ
  | span other time => if name = other then some time else none
  | count _ _ => none

/-- The value added to the counter of a name. -/
def value? (name : String) : MetricsEvent τ → Option Nat
  | span _ _ => none
  | count other value => if name = other then some value else none

section Records

variable (name : String) (events : List (MetricsEvent τ))

def phaseNames : List String :=
  events.filterMap MetricsEvent.phase?

def timesOf : List τ :=
  events.filterMap (MetricsEvent.time? name)

def valuesOf : List Nat :=
  events.filterMap (MetricsEvent.value? name)

/-- The times of a phase, added up in order; none if the phase is not recorded. -/
def timeSum? [Zero τ] [Add τ] : Option (TimeSum τ) :=
  if (timesOf name events).isEmpty then none
  else some ⟨(timesOf name events).foldl (· + ·) 0, (timesOf name events).length⟩

/-- The values of a counter, added up as far as counts go; none if the counter is not recorded. -/
def valueSum? : Option Nat :=
  if (valuesOf name events).isEmpty then none
  else some (min counterLimit (valuesOf name events).sum)

end Records

end MetricsEvent

open MetricsEvent

/-- What metrics tell of the records so far. -/
structure Metrics.Reports [Zero τ] [Add τ] (metrics : Metrics τ) (events : List (MetricsEvent τ)) :
    Prop where
  phaseOrder : metrics.phaseOrder = (phaseNames events).eraseDups
  phaseTotals : ∀ name, metrics.phaseTotals.get? name = timeSum? name events
  counters : ∀ name, metrics.counters.get? name = valueSum? name events
  spanTotals : metrics.sink.spanTotals = metrics.phaseTotals
  countTotals : metrics.sink.countTotals = metrics.counters
  stream : metrics.sink.buffered ++ metrics.sink.written = events.reverse

namespace MetricsEvent

section Step

variable {name other : String} {time : τ} {value : Nat} {events : List (MetricsEvent τ)}

theorem mem_phaseNames_iff : name ∈ phaseNames events ↔ timesOf name events ≠ [] := by
  induction events with
  | nil => simp [phaseNames, timesOf]
  | cons event rest ih =>
      cases event with
      | span other time =>
          by_cases same : name = other
          · simp [phaseNames, timesOf, MetricsEvent.phase?, MetricsEvent.time?, same]
          · simpa [phaseNames, timesOf, MetricsEvent.phase?, MetricsEvent.time?, same] using ih
      | count other value =>
          simpa [phaseNames, timesOf, MetricsEvent.phase?, MetricsEvent.time?] using ih

theorem phaseNames_span :
    phaseNames (events ++ [.span name time]) = phaseNames events ++ [name] := by
  simp [phaseNames, MetricsEvent.phase?]

theorem phaseNames_count : phaseNames (events ++ [.count name value]) = phaseNames events := by
  simp [phaseNames, MetricsEvent.phase?]

theorem timesOf_span : timesOf other (events ++ [.span name time]) =
    timesOf other events ++ if other = name then [time] else [] := by
  split
  · next same => simp [timesOf, MetricsEvent.time?, same]
  · next different => simp [timesOf, MetricsEvent.time?, different]

theorem timesOf_count : timesOf other (events ++ [.count name value]) = timesOf other events := by
  simp [timesOf, MetricsEvent.time?]

theorem valuesOf_span : valuesOf other (events ++ [.span name time]) = valuesOf other events := by
  simp [valuesOf, MetricsEvent.value?]

theorem valuesOf_count : valuesOf other (events ++ [.count name value]) =
    valuesOf other events ++ if other = name then [value] else [] := by
  split
  · next same => simp [valuesOf, MetricsEvent.value?, same]
  · next different => simp [valuesOf, MetricsEvent.value?, different]

theorem valueSum?_count : valueSum? other (events ++ [.count name value]) =
    if other = name then some (min counterLimit ((valueSum? name events).getD 0 + value))
    else valueSum? other events := by
  rw [valueSum?, valuesOf_count]
  split
  · next same =>
      subst same
      cases values : valuesOf other events with
      | nil => simp [valueSum?, values]
      | cons first rest =>
          simp only [valueSum?, values, List.cons_append, List.isEmpty_cons, Bool.false_eq_true,
            if_false, List.sum_cons, List.sum_append, List.sum_nil, Option.getD_some]
          congr 1
          omega
  · simp [valueSum?]

variable [Zero τ] [Add τ]

theorem timeSum?_span : timeSum? other (events ++ [.span name time]) =
    if other = name then
      some ⟨((timeSum? name events).getD ⟨0, 0⟩).total + time,
        ((timeSum? name events).getD ⟨0, 0⟩).count + 1⟩
    else timeSum? other events := by
  rw [timeSum?, timesOf_span]
  split
  · next same =>
      subst same
      cases times : timesOf other events with
      | nil => simp [timeSum?, times]
      | cons first rest => simp [timeSum?, times]
  · simp [timeSum?]

theorem timeSum?_count : timeSum? other (events ++ [.count name value]) =
    timeSum? other events := by
  rw [timeSum?, timesOf_count, ← timeSum?]

end Step

theorem valueSum?_span {name other : String} {time : τ} {events : List (MetricsEvent τ)} :
    valueSum? other (events ++ [.span name time]) = valueSum? other events := by
  rw [valueSum?, valuesOf_span, ← valueSum?]

theorem valueSum?_perm {events others : List (MetricsEvent τ)} (same : others.Perm events)
    (name : String) : valueSum? name others = valueSum? name events := by
  have values : (valuesOf name others).Perm (valuesOf name events) := same.filterMap _
  rw [valueSum?, valueSum?, values.isEmpty_eq, values.sum_eq]

end MetricsEvent

namespace Metrics

section Calls

variable [Zero τ] [Add τ] {metrics : Metrics τ} {events : List (MetricsEvent τ)}

theorem Reports.contains_iff (reports : metrics.Reports events) {name : String} :
    metrics.phaseTotals.contains name ↔ name ∈ phaseNames events := by
  rw [Dictionary.contains, reports.phaseTotals, mem_phaseNames_iff, timeSum?]
  cases timesOf name events <;> simp

theorem reports_empty : (empty : Metrics τ).Reports [] where
  phaseOrder := rfl
  phaseTotals _ := rfl
  counters _ := rfl
  spanTotals := rfl
  countTotals := rfl
  stream := rfl

theorem Reports.recordPhase (reports : metrics.Reports events) (name : String) (time : τ) :
    (metrics.recordPhase name time).Reports (events ++ [.span name time]) where
  phaseOrder := by
    rw [phaseNames_span, eraseDups_append_singleton, ← reports.phaseOrder, Metrics.recordPhase]
    by_cases seen : name ∈ phaseNames events
    · simp [reports.contains_iff.2 seen, seen]
    · have new : metrics.phaseTotals.contains name = false :=
        Bool.eq_false_iff.2 fun held => seen (reports.contains_iff.1 held)
      simp [new, seen]
  phaseTotals other := by
    rw [timeSum?_span, ← reports.phaseTotals, ← reports.phaseTotals]
    exact Dictionary.get?_insert _ _ _ _
  counters other := by
    rw [valueSum?_span]
    exact reports.counters other
  spanTotals := congrArg (TimeSum.add name time) reports.spanTotals
  countTotals := reports.countTotals
  stream := by
    rw [List.reverse_append, ← reports.stream]
    rfl

theorem Reports.addCount (reports : metrics.Reports events) (name : String) (value : Nat) :
    (metrics.addCount name value).Reports (events ++ [.count name value]) where
  phaseOrder := by
    rw [phaseNames_count]
    exact reports.phaseOrder
  phaseTotals other := by
    rw [timeSum?_count]
    exact reports.phaseTotals other
  counters other := by
    rw [valueSum?_count, ← reports.counters, ← reports.counters]
    exact Dictionary.get?_insert _ _ _ _
  spanTotals := reports.spanTotals
  countTotals := congrArg (addValue name value) reports.countTotals
  stream := by
    rw [List.reverse_append, ← reports.stream]
    rfl

theorem Reports.flush (reports : metrics.Reports events) : metrics.flush.Reports events :=
  { reports with stream := reports.stream }

variable [Min τ] [Max τ]

theorem Reports.recordNode (reports : metrics.Reports events) (time : τ) :
    (metrics.recordNode time).Reports events :=
  { reports with }

theorem Reports.recordNodes (reports : metrics.Reports events) (timings : NodeTimings τ) :
    (metrics.recordNodes timings).Reports events :=
  { reports with }

/-- A call adds its record, if it makes one, to both copies of the sums. -/
theorem Reports.call (reports : metrics.Reports events) (call : MetricsCall τ) :
    (metrics.call call).Reports (events ++ call.event?.toList) := by
  have unrecorded : events ++ [] = events := List.append_nil events
  cases call with
  | record event =>
      cases event with
      | span name time => exact reports.recordPhase name time
      | count name value => exact reports.addCount name value
  | node time => exact unrecorded.symm ▸ reports.recordNode time
  | nodes timings => exact unrecorded.symm ▸ reports.recordNodes timings
  | flush => exact unrecorded.symm ▸ reports.flush

theorem reports_ofCalls (calls : List (MetricsCall τ)) :
    (ofCalls calls).Reports (calls.filterMap MetricsCall.event?) := by
  induction calls using List.reverseRecOn with
  | nil => exact reports_empty
  | append_singleton before call ih =>
      have step := ih.call call
      rw [ofCalls, List.foldl_append, ← ofCalls, List.filterMap_append]
      cases made : call.event? with
      | none => simpa [made] using step
      | some event => simpa [made] using step

end Calls

theorem rankedCounters_descend (metrics : Metrics τ) :
    metrics.rankedCounters.Pairwise fun a b => b.2 ≤ a.2 := by
  refine (List.pairwise_mergeSort (fun a b c first second => ?_) (fun a b => ?_)
    metrics.sink.countTotals.entries).imp of_decide_eq_true
  · rw [decide_eq_true_eq] at first second ⊢
    exact le_trans second first
  · rw [Bool.or_eq_true, decide_eq_true_eq, decide_eq_true_eq]
    exact le_total b.2 a.2

section Readings

variable [Zero τ] [Add τ] {metrics other : Metrics τ} {events : List (MetricsEvent τ)}

theorem Reports.phases (reports : metrics.Reports events) :
    metrics.phases = (phaseNames events).eraseDups.map fun name =>
      ⟨name, (timesOf name events).foldl (· + ·) 0, (timesOf name events).length⟩ := by
  rw [Metrics.phases, reports.phaseOrder, ← List.filterMap_eq_map]
  refine List.filterMap_congr fun name member => ?_
  have nonempty : timesOf name events ≠ [] := mem_phaseNames_iff.1 (List.mem_eraseDups.1 member)
  rw [reports.phaseTotals, timeSum?, if_neg (by simpa using nonempty)]
  rfl

theorem Reports.counters_perm {others : List (MetricsEvent τ)}
    (reports : metrics.Reports events) (reports' : other.Reports others)
    (same : others.Perm events) : other.counters = metrics.counters :=
  Dictionary.ext_get fun name => by
    rw [reports.counters, reports'.counters, valueSum?_perm same]

/-- The ranking is drawn from the sums beside the file, which are those beside the counters. -/
theorem Reports.rankedCounters_perm (reports : metrics.Reports events) :
    metrics.rankedCounters.Perm metrics.counters.entries := by
  rw [rankedCounters, reports.countTotals]
  exact List.mergeSort_perm _ _

end Readings

theorem Reports.eventLines {metrics : Metrics Double} {events : List (MetricsEvent Double)}
    (reports : metrics.Reports events) : metrics.eventLines = events.map MetricsEvent.line := by
  rw [Metrics.eventLines, MetricsSink.flush, reports.stream, List.reverse_reverse]

@[simp] theorem isOneLine_milliseconds (time : Double) :
    Text.IsOneLine (milliseconds time).render :=
  isOneLine_fixed 3 time

theorem isOneLine_line (event : MetricsEvent Double) : Text.IsOneLine event.line := by
  cases event with
  | span name time => exact JsonValue.isOneLine_renderObject (by simp)
  | count name value => exact JsonValue.isOneLine_renderObject (by simp)

theorem isOneLine_rankedPhaseLine (rank : Nat) (phase : PhaseTiming Double) :
    Text.IsOneLine (rankedPhaseLine rank phase) :=
  JsonValue.isOneLine_renderObject (by simp)

theorem isOneLine_rankedCounterLine (rank : Nat) (counter : String × Nat) :
    Text.IsOneLine (rankedCounterLine rank counter) :=
  JsonValue.isOneLine_renderObject (by simp)

theorem isOneLine_eventLines (metrics : Metrics Double) :
    ∀ line ∈ metrics.eventLines, Text.IsOneLine line :=
  List.forall_mem_map.2 fun event _ => isOneLine_line event

theorem isOneLine_rankingLines (metrics : Metrics Double) :
    ∀ line ∈ metrics.rankingLines, Text.IsOneLine line := fun line member => by
  rcases List.mem_append.1 member with phase | counter
  · obtain ⟨i, inside, rfl⟩ := List.mem_mapIdx.1 phase
    exact isOneLine_rankedPhaseLine _ _
  · obtain ⟨i, inside, rfl⟩ := List.mem_mapIdx.1 counter
    exact isOneLine_rankedCounterLine _ _

/-- The phases come in the order in which they first occur, each once and with all its records. A
counter is the sum of its values, as far as counts go, whatever the order of the calls. The sums beside
the file are the same, it has a line for each record, and its ranking lists those very counters. Of the
times of nodes it does not matter in which parts they were gathered: what was recorded before and the
parts, empty ones too, agree with all their times recorded one by one. -/
theorem bookkept (calls : List (MetricsCall Double)) :
    let metrics := ofCalls calls
    let events := calls.filterMap MetricsCall.event?
    (metrics.phases = (phaseNames events).eraseDups.map fun name =>
      ⟨name, (timesOf name events).foldl (· + ·) 0, (timesOf name events).length⟩) ∧
    (metrics.phases.map PhaseTiming.name).Nodup ∧
    (∀ name, metrics.counters.get? name =
      if (valuesOf name events).isEmpty then none
      else some (min counterLimit (valuesOf name events).sum)) ∧
    (∀ others : List (MetricsCall Double), others.Perm calls →
      (ofCalls others).counters = metrics.counters) ∧
    (metrics.sink.spanTotals = metrics.phaseTotals ∧
      metrics.sink.countTotals = metrics.counters) ∧
    metrics.eventLines = events.map MetricsEvent.line ∧
    (∀ line ∈ metrics.eventLines ++ metrics.rankingLines, '\n' ∉ line.toList) ∧
    (∃ ranked : List (String × Nat), ranked.Perm metrics.counters.entries ∧
      (ranked.map Prod.fst).Nodup ∧ (ranked.Pairwise fun a b => b.2 ≤ a.2) ∧
      metrics.rankingLines = metrics.phaseRanking ++
        ranked.mapIdx fun i counter => rankedCounterLine (i + 1) counter) ∧
    ∀ {τ : Type} [LinearOrder τ] [Zero τ] [Add τ] (before times : List τ) (chunks : List (List τ)),
      times.Perm (before ++ chunks.flatten) →
      let gathered :=
        (chunks.map NodeTimings.ofTimes).foldl NodeTimings.absorb (NodeTimings.ofTimes before)
      gathered.count = (NodeTimings.ofTimes times).count ∧
        gathered.least = (NodeTimings.ofTimes times).least ∧
        gathered.greatest = (NodeTimings.ofTimes times).greatest := by
  intro metrics events
  have reports : metrics.Reports events := reports_ofCalls calls
  refine ⟨reports.phases, ?_, reports.counters, fun others same => ?_,
    ⟨reports.spanTotals, reports.countTotals⟩, reports.eventLines, fun line member => ?_,
    ⟨metrics.rankedCounters, reports.rankedCounters_perm, ?_, metrics.rankedCounters_descend, rfl⟩,
    fun before times chunks same => ?_⟩
  · rw [reports.phases, List.map_map]
    exact (List.map_id' _).symm ▸ nodup_eraseDups _
  · exact reports.counters_perm (reports_ofCalls others) (same.filterMap _)
  · rcases List.mem_append.1 member with event | ranked
    · exact (metrics.isOneLine_eventLines line event).newline_not_mem
    · exact (metrics.isOneLine_rankingLines line ranked).newline_not_mem
  · exact (reports.rankedCounters_perm.map Prod.fst).nodup_iff.2
      (Dictionary.keys_nodup metrics.counters.ascending)
  · have gathered := (NodeTimings.gathers_ofTimes before).foldl_absorb chunks
    exact gathered.agree ((NodeTimings.gathers_ofTimes times).perm same)

/-- A counter that stops, with its calls turned round, and times in parts of which one is empty. -/
theorem bookkept_shuffled :
    let calls : List (MetricsCall Double) :=
      [.record (.count "b" counterLimit), .nodes .empty, .record (.count "a" 2), .flush,
        .record (.count "b" 1)]
    (calls.reverse.Perm calls ∧
      (ofCalls calls.reverse).counters = (ofCalls calls).counters) ∧
    ([1, 2, 3].Perm ([3] ++ [[], [2, 1]].flatten) ∧
      (([[], [2, 1]].map NodeTimings.ofTimes).foldl NodeTimings.absorb (.ofTimes [3])).least =
        (NodeTimings.ofTimes [1, 2, 3]).least) :=
  ⟨⟨List.reverse_perm _, (bookkept _).2.2.2.1 _ (List.reverse_perm _)⟩,
    by decide, ((bookkept []).2.2.2.2.2.2.2.2 [3] [1, 2, 3] [[], [2, 1]] (by decide)).2.1⟩

end Metrics

end ComputedStyle
