import ComputedStyle.Config
import ComputedStyle.Html.Page
import ComputedStyle.StyledDocument
import ComputedStyle.Trace

/-!
The engine: style passes under fixed settings.

An engine keeps the indexes of the rule sets it has met, found again by their fingerprints, and the
events of its trace. What it cannot choose, the fate of chunks and the times that things take, comes
from the `Conditions` of a pass; the styled document does not depend on them.
-/

namespace ComputedStyle

open Number

inductive EngineError where
  | configuration (error : ConfigError)
  /-- The trace cannot be written. -/
  | io (cause : String)
deriving DecidableEq, Repr

def EngineError.message : EngineError → String
  | configuration error => "invalid configuration: " ++ error.message
  | io cause => "io error: " ++ cause

/-- How the cascade of a pass went. -/
inductive StyleMode where
  | sequential
  | parallel
  | parallelWithRecovery
  | sequentialFallback
deriving DecidableEq, Repr

/-- The cascade of a pass, in one run over the tree or in chunks. -/
inductive CascadeRun where
  | whole (batch : Cascade.Batch)
  | chunked (run : Parallel.Run)

namespace CascadeRun

def batch : CascadeRun → Cascade.Batch
  | whole batch => batch
  | chunked run => run.batch

def mode : CascadeRun → StyleMode
  | whole _ => .sequential
  | chunked run =>
      match run.outcome with
      | .parallel => .parallel
      | .recovered _ => .parallelWithRecovery
      | .fallback _ => .sequentialFallback

/-- How many chunks missed the deadline. -/
def recomputed : CascadeRun → Nat
  | whole _ => 0
  | chunked run =>
      match run.outcome with
      | .recovered chunks => chunks
      | _ => 0

def fallbackReason? : CascadeRun → Option String
  | whole _ => none
  | chunked run =>
      match run.outcome with
      | .fallback reason => some reason
      | _ => none

def events (doc : Document) : CascadeRun → List TraceEvent
  | whole batch => Trace.mergeEvents doc batch.results
  | chunked run => Trace.runEvents doc run

/-- What is measured, given the time of each phase. -/
def records (time : String → Double) : CascadeRun → List (MetricsEvent Double)
  | whole _ => [.span "cascade" (time "cascade")]
  | chunked run =>
      [.span "parallel.partition" (time "parallel.partition"),
        .span "parallel.collect" (time "parallel.collect")] ++
      match run.outcome with
      | .parallel => [.span "parallel.merge" (time "parallel.merge")]
      | .recovered chunks =>
          [.count "parallel.recomputed_chunks" chunks,
            .span "parallel.merge" (time "parallel.merge")]
      | .fallback _ => [.count "parallel.fallbacks" 1, .span "cascade" (time "cascade")]

end CascadeRun

structure StyleReport where
  mode : StyleMode
  rules : Nat
  nodes : Nat
  elements : Nat
  skipped : Nat
  unparsed : Nat
  recomputed : Nat
  /-- Whether the index was there from an earlier pass. -/
  indexReused : Bool
  fallbackReason : Option String
  /-- None unless the settings ask for it. -/
  metrics : Option (Metrics Double)

structure StylePass where
  styled : StyledDocument
  report : StyleReport

/-- What an engine cannot choose. -/
structure Conditions where
  /-- What happens to so many chunks. -/
  dispatch : Nat → Parallel.Dispatch
  phaseTime : String → Double
  nodeTime : NodeId → Double

namespace Config

/-- Whether a tree is matched in chunks. -/
def usesChunks (config : Config) (doc : Document) : Bool :=
  config.parallel && config.minNodesForParallel ≤ doc.size

/-- Runs the cascade over a tree. -/
def cascade (config : Config) (dispatch : Nat → Parallel.Dispatch) (set : RuleSet)
    (index : RuleIndex) (doc : Document) : CascadeRun :=
  if config.usesChunks doc then
    let chunks := (Parallel.chunksFor config.workers doc).length
    .chunked (Parallel.run config.workers set index doc (dispatch chunks))
  else .whole (Cascade.matchNodes set index doc doc.preorder)

/-- The rules before those of any author. -/
def baseRules (config : Config) : Except StyleError RuleSet :=
  if config.userAgentDefaults then RuleSet.userAgentDefaults else .ok .empty

/-- The rules of style sheets after the base rules. -/
def compile (config : Config) (sheets : List String) : Except StyleError RuleSet := do
  (← config.baseRules).addSheets .author sheets

/-- The trace of compiling style sheets, also where that fails. -/
def compileEvents (config : Config) (sheets : List String) : List TraceEvent :=
  match config.baseRules with
  | .ok set => Trace.sheetsEvents set .author sheets
  | .error _ => []

def style (config : Config) (doc : Document) (cascade : CascadeRun) :
    Except StyleFault StyledDocument :=
  StyledDocument.ofDeclared (Cascade.merge doc cascade.batch.results)
    (config.percentageBase.map Length.ofPoints) config.borderWidths

end Config

structure Engine where
  config : Config
  /-- Indexes by the fingerprints of their rule sets. -/
  indexes : List (List UInt8 × RuleIndex) := []
  /-- In order; empty if the settings name no trace. -/
  trace : List TraceEvent := []
  /-- Of the last pass, as far as it went; empty if the settings ask for none. -/
  metrics : Metrics Double := .empty

namespace Engine

/-- An engine with valid settings whose trace can be written; `fault?` tells why a path cannot. -/
def new (config : Config) (fault? : String → Option String) : Except EngineError Engine :=
  match config.error? with
  | some error => .error (.configuration error)
  | none =>
      match config.tracePath.bind fault? with
      | some cause => .error (.io cause)
      | none => .ok { config }

variable (engine : Engine)

/-- Adds events to the trace, if there is one. -/
def log (events : List TraceEvent) : Engine :=
  if engine.config.tracePath.isSome then { engine with trace := engine.trace ++ events }
  else engine

/-- The number of rule sets whose index is kept. -/
def cachedIndexes : Nat :=
  engine.indexes.length

/-- The index of a rule set, and whether it was kept; a new one is kept from now on. -/
def indexFor (set : RuleSet) : Engine × RuleIndex × Bool :=
  let key := set.fingerprint
  match engine.indexes.lookup key with
  | some index => (engine, index, true)
  | none =>
      let index := RuleIndex.build set
      ({ engine with indexes := (key, index) :: engine.indexes }, index, false)

/-- Compiles style sheets; a fault leaves the trace up to it. -/
def compile (sheets : List String) : Engine × Except StyleError RuleSet :=
  (engine.log (engine.config.compileEvents sheets), engine.config.compile sheets)

/-- Keeps the metrics of a pass in place of those before, if the settings ask for them. -/
def measure (metrics : Metrics Double) : Engine :=
  if engine.config.metrics then { engine with metrics } else engine

/-- The times of the phases of a pass: those before it, the cascade, and some steps after. -/
def phaseRecords (conditions : Conditions) (before : List String) (cascade : CascadeRun)
    (steps : List StyleStep) : List (MetricsEvent Double) :=
  let span (name : String) : MetricsEvent Double := .span name (conditions.phaseTime name)
  before.map span ++ [span "index"] ++ cascade.records conditions.phaseTime ++
    steps.map fun step => span step.name

/-- What is counted at the end of a pass. -/
def countRecords (set : RuleSet) (cascade : CascadeRun) (indexReused : Bool) :
    List (MetricsEvent Double) :=
  let stats := cascade.batch.stats
  [.count "rules" set.size, .count "nodes" stats.nodes,
    .count "candidates" stats.candidates, .count "matches" stats.matched,
    .count "index.cache_hits" (if indexReused then 1 else 0),
    .count "fallbacks" (if cascade.mode = .sequentialFallback then 1 else 0)]

def nodeTimes (conditions : Conditions) (cascade : CascadeRun) : List Double :=
  cascade.batch.results.map fun result => conditions.nodeTime result.1

/-- Styles a tree; `before` names the phases that came before. A fault leaves the index, the trace
of the cascade, and the metrics of what was done before it. -/
def run (conditions : Conditions) (before : List String) (doc : Document) (set : RuleSet) :
    Engine × Except StyleError StylePass :=
  let (engine, index, indexReused) := engine.indexFor set
  let cascade := engine.config.cascade conditions.dispatch set index doc
  let stats := cascade.batch.stats
  let times := nodeTimes conditions cascade
  let engine := engine.log (cascade.events doc)
  match engine.config.style doc cascade with
  | .error fault =>
      (engine.measure (.ofRecords (phaseRecords conditions before cascade fault.step.earlier) times),
        .error (.color fault.error))
  | .ok styled =>
      let records :=
        phaseRecords conditions before cascade StyleStep.all ++ countRecords set cascade indexReused
      let engine := engine.log [Trace.summarize engine.trace stats.nodes]
      let engine := engine.measure (.ofRecords records times)
      (engine, .ok {
        styled
        report := {
          mode := cascade.mode
          rules := set.size
          nodes := stats.nodes
          elements := stats.elements
          skipped := set.skipped.length
          unparsed := set.unparsed
          recomputed := cascade.recomputed
          indexReused
          fallbackReason := cascade.fallbackReason?
          metrics := if engine.config.metrics then some engine.metrics else none } })

def styleWithRules (conditions : Conditions) (doc : Document) (set : RuleSet) :
    Engine × Except StyleError StylePass :=
  engine.run conditions [] doc set

def styleTree (conditions : Conditions) (doc : Document) (sheets : List String) :
    Engine × Except StyleError StylePass :=
  match engine.compile sheets with
  | (engine, .error error) => (engine.measure .empty, .error error)
  | (engine, .ok set) => engine.run conditions ["parse"] doc set

/-- Styles an HTML text by its own style sheets and one more. -/
def styleHtml (conditions : Conditions) (text extra : String) :
    Engine × Except StyleError StylePass :=
  match Html.Page.read text with
  | .error error => (engine.measure .empty, .error (.document error))
  | .ok page => engine.styleTree conditions page.document (page.sheets ++ [extra])

end Engine

end ComputedStyle
