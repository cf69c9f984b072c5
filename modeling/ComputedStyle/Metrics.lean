import ComputedStyle.Dictionary
import ComputedStyle.Json
import ComputedStyle.Number.Decimal

namespace ComputedStyle

open Number

/-- The greatest count; counts stop there. -/
def counterLimit : Nat := 2 ^ 64 - 1

/-- Times of single nodes, gathered. -/
structure NodeTimings (τ : Type) where
  count : Nat
  total : τ
  least : τ
  greatest : τ
deriving DecidableEq, Repr

namespace NodeTimings

variable {τ : Type}

def empty [Zero τ] : NodeTimings τ := ⟨0, 0, 0, 0⟩

def record [Add τ] [Min τ] [Max τ] (timings : NodeTimings τ) (time : τ) : NodeTimings τ where
  count := timings.count + 1
  total := timings.total + time
  least := if timings.count = 0 then time else min timings.least time
  greatest := if timings.count = 0 then time else max timings.greatest time

/-- Adds timings that were gathered elsewhere. -/
def absorb [Add τ] [Min τ] [Max τ] (timings other : NodeTimings τ) : NodeTimings τ :=
  if other.count = 0 then timings
  else if timings.count = 0 then other
  else
    { count := timings.count + other.count
      total := timings.total + other.total
      least := min timings.least other.least
      greatest := max timings.greatest other.greatest }

/-- The mean time; zero when nothing was recorded. -/
def average (timings : NodeTimings Double) : Double :=
  if timings.count = 0 then 0 else timings.total / .ofNat timings.count

end NodeTimings

/-- The time spent in a phase over all its records. -/
structure PhaseTiming (τ : Type) where
  name : String
  total : τ
  count : Nat
deriving DecidableEq, Repr

/-- What one record of a phase or a counter is. -/
inductive MetricsEvent (τ : Type) where
  | span (name : String) (time : τ)
  | count (name : String) (value : Nat)
deriving DecidableEq, Repr

/-- Times added up, and how many there were. -/
structure TimeSum (τ : Type) where
  total : τ
  count : Nat
deriving DecidableEq, Repr

def TimeSum.add {τ : Type} [Zero τ] [Add τ] (name : String) (time : τ)
    (sums : Dictionary (TimeSum τ)) : Dictionary (TimeSum τ) :=
  let before := (sums.get? name).getD ⟨0, 0⟩
  sums.insert name ⟨before.total + time, before.count + 1⟩

def addValue (name : String) (value : Nat) (counts : Dictionary Nat) : Dictionary Nat :=
  counts.insert name (min counterLimit ((counts.get? name).getD 0 + value))

/-- What the file of the metrics is written from, where there is one. It keeps sums of its own for the
ranking. -/
structure MetricsSink (τ : Type) where
  spanTotals : Dictionary (TimeSum τ)
  countTotals : Dictionary Nat
  /-- The records in the file, the latest first. -/
  written : List (MetricsEvent τ)
  /-- The records after them, the latest first. -/
  buffered : List (MetricsEvent τ)

namespace MetricsSink

variable {τ : Type}

def empty : MetricsSink τ := ⟨.empty, .empty, [], []⟩

def record [Zero τ] [Add τ] (sink : MetricsSink τ) (event : MetricsEvent τ) : MetricsSink τ :=
  let sink := { sink with buffered := event :: sink.buffered }
  match event with
  | .span name time => { sink with spanTotals := TimeSum.add name time sink.spanTotals }
  | .count name value => { sink with countTotals := addValue name value sink.countTotals }

/-- Hands on to the file what waits for it. -/
def flush (sink : MetricsSink τ) : MetricsSink τ :=
  { sink with written := sink.buffered ++ sink.written, buffered := [] }

end MetricsSink

/-- What can be told to the metrics of a pass. -/
inductive MetricsCall (τ : Type) where
  | record (event : MetricsEvent τ)
  | node (time : τ)
  /-- Times of nodes that were gathered elsewhere. -/
  | nodes (timings : NodeTimings τ)
  | flush

structure Metrics (τ : Type) where
  /-- The names of the phases in the order in which they first occur. -/
  phaseOrder : List String
  phaseTotals : Dictionary (TimeSum τ)
  nodes : NodeTimings τ
  counters : Dictionary Nat
  sink : MetricsSink τ

namespace Metrics

variable {τ : Type}

def empty [Zero τ] : Metrics τ := ⟨[], .empty, .empty, .empty, .empty⟩

/-- Adds a time to the phase of a name; a new name comes last. -/
def recordPhase [Zero τ] [Add τ] (metrics : Metrics τ) (name : String) (time : τ) : Metrics τ :=
  { metrics with
    phaseOrder :=
      if metrics.phaseTotals.contains name then metrics.phaseOrder
      else metrics.phaseOrder ++ [name]
    phaseTotals := TimeSum.add name time metrics.phaseTotals
    sink := metrics.sink.record (.span name time) }

/-- Adds to a counter. -/
def addCount [Zero τ] [Add τ] (metrics : Metrics τ) (name : String) (value : Nat) : Metrics τ :=
  { metrics with
    counters := addValue name value metrics.counters
    sink := metrics.sink.record (.count name value) }

def recordNode [Add τ] [Min τ] [Max τ] (metrics : Metrics τ) (time : τ) : Metrics τ :=
  { metrics with nodes := metrics.nodes.record time }

def recordNodes [Add τ] [Min τ] [Max τ] (metrics : Metrics τ) (timings : NodeTimings τ) :
    Metrics τ :=
  { metrics with nodes := metrics.nodes.absorb timings }

def flush (metrics : Metrics τ) : Metrics τ :=
  { metrics with sink := metrics.sink.flush }

def record [Zero τ] [Add τ] (metrics : Metrics τ) : MetricsEvent τ → Metrics τ
  | .span name time => metrics.recordPhase name time
  | .count name value => metrics.addCount name value

def ofRecords [Zero τ] [Add τ] [Min τ] [Max τ] (records : List (MetricsEvent τ))
    (nodeTimes : List τ) : Metrics τ :=
  nodeTimes.foldl recordNode (records.foldl record empty)

def call [Zero τ] [Add τ] [Min τ] [Max τ] (metrics : Metrics τ) : MetricsCall τ → Metrics τ
  | .record event => metrics.record event
  | .node time => metrics.recordNode time
  | .nodes timings => metrics.recordNodes timings
  | .flush => metrics.flush

def ofCalls [Zero τ] [Add τ] [Min τ] [Max τ] (calls : List (MetricsCall τ)) : Metrics τ :=
  calls.foldl call empty

/-- The phases in the order in which they first occur. -/
def phases (metrics : Metrics τ) : List (PhaseTiming τ) :=
  metrics.phaseOrder.filterMap fun name =>
    (metrics.phaseTotals.get? name).map fun sum => ⟨name, sum.total, sum.count⟩

def phase? (metrics : Metrics τ) (name : String) : Option (PhaseTiming τ) :=
  metrics.phases.find? (·.name = name)

def counter (metrics : Metrics τ) (name : String) : Nat :=
  (metrics.counters.get? name).getD 0

/-- The time of all phases together. -/
def total [Zero τ] [Add τ] (metrics : Metrics τ) : τ :=
  metrics.phases.foldl (fun sum phase => sum + phase.total) 0

/-- The counters with the greatest first; equal ones are ordered by name. -/
def rankedCounters (metrics : Metrics τ) : List (String × Nat) :=
  metrics.sink.countTotals.entries.mergeSort fun a b => b.2 ≤ a.2

/-- The phases with the longest first; equal ones are ordered by name. -/
def rankedPhases (metrics : Metrics Double) : List (PhaseTiming Double) :=
  let byName := metrics.sink.spanTotals.entries.map fun (name, sum) =>
    (⟨name, sum.total, sum.count⟩ : PhaseTiming Double)
  byName.mergeSort fun a b => !a.total.lt b.total

/-- A time in milliseconds with three places. -/
def milliseconds (time : Double) : JsonValue :=
  .number (time.fixed 3)

end Metrics

/-- The line of a record. -/
def MetricsEvent.line : MetricsEvent Double → String
  | span name time =>
      JsonValue.renderObject [("type", .text "perf.span"), ("name", .text name),
        ("unit", .text "ms"), ("ms", Metrics.milliseconds time)]
  | count name value =>
      JsonValue.renderObject [("type", .text "perf.count"), ("name", .text name),
        ("value", .nat value)]

namespace Metrics

/-- The lines that the file holds once everything is written. -/
def eventLines (metrics : Metrics Double) : List String :=
  metrics.sink.flush.written.reverse.map MetricsEvent.line

def rankedPhaseLine (rank : Nat) (phase : PhaseTiming Double) : String :=
  let average := if phase.count = 0 then 0 else phase.total / .ofNat phase.count
  JsonValue.renderObject [("type", .text "perf.hot.span"), ("rank", .nat rank),
    ("name", .text phase.name), ("ms", milliseconds phase.total), ("count", .nat phase.count),
    ("avg_ms", milliseconds average)]

def rankedCounterLine (rank : Nat) (counter : String × Nat) : String :=
  JsonValue.renderObject [("type", .text "perf.hot.count"), ("rank", .nat rank),
    ("name", .text counter.1), ("value", .nat counter.2)]

def phaseRanking (metrics : Metrics Double) : List String :=
  metrics.rankedPhases.mapIdx fun i phase => rankedPhaseLine (i + 1) phase

def counterRanking (metrics : Metrics Double) : List String :=
  metrics.rankedCounters.mapIdx fun i counter => rankedCounterLine (i + 1) counter

/-- The ranking that is written when a pass is over: phases, then counters, each from rank one. -/
def rankingLines (metrics : Metrics Double) : List String :=
  metrics.phaseRanking ++ metrics.counterRanking

end Metrics

end ComputedStyle
