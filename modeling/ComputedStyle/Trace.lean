import ComputedStyle.Json
import ComputedStyle.Metrics
import ComputedStyle.Parallel

namespace ComputedStyle

inductive TraceEvent where
  /-- A rule of a sheet, and whether it was added. -/
  | rule (selector : String) (parsed : Bool) (specificity : Specificity)
  | skippedRule (prelude reason : String)
  /-- The rules that match an element, by its path. -/
  | node (path : String) (rules : List RuleId)
  | timeout (pending total : Nat)
  | fallback (reason : String)
  | summary (context : String) (counts : Dictionary Nat)

namespace TraceEvent

/-- The members of an event's line. -/
def members : TraceEvent → List (String × JsonValue)
  | rule selector parsed specificity =>
      [("type", .text "css.rule"), ("selector", .text selector), ("parsed", .flag parsed),
        ("specificity", .numbers specificity.toList)]
  | skippedRule prelude reason =>
      [("type", .text "css.rule_skipped"), ("prelude", .text prelude), ("reason", .text reason)]
  | node path rules =>
      [("type", .text "cascade.node"), ("path", .text path), ("rules", .numbers rules)]
  | timeout pending total =>
      [("type", .text "parallel.timeout"), ("pending", .nat pending), ("total", .nat total)]
  | fallback reason => [("type", .text "parallel.fallback"), ("reason", .text reason)]
  | summary context counts =>
      [("type", .text "debug.summary"), ("context", .text context),
        ("counts", .counts counts.entries)]

def line (event : TraceEvent) : String :=
  JsonValue.renderObject event.members

/-- What an event adds to which count. -/
def count? : TraceEvent → Option (String × Nat)
  | rule _ parsed _ => if parsed then none else some ("css.selector_unparsed", 1)
  | skippedRule _ _ => some ("css.rule_skipped", 1)
  | node _ rules => some ("cascade.matches", rules.length)
  | _ => none

def isSummary : TraceEvent → Bool
  | summary _ _ => true
  | _ => false

end TraceEvent

namespace Trace

def addCount (counts : Dictionary Nat) (count : String × Nat) : Dictionary Nat :=
  counts.insert count.1 (min counterLimit ((counts.get? count.1).getD 0 + count.2))

def countsOf (events : List TraceEvent) : Dictionary Nat :=
  (events.filterMap TraceEvent.count?).foldl addCount .empty

def sinceSummary (events : List TraceEvent) : List TraceEvent :=
  (events.reverse.takeWhile (!·.isSummary)).reverse

/-- The summary of the events so far, with the number of nodes that were styled. -/
def summarize (events : List TraceEvent) (nodes : Nat) : TraceEvent :=
  .summary "style" (addCount (countsOf (sinceSummary events)) ("style.nodes", nodes))

/-- The events of adding the rules of a sheet; none follow a rule that cannot be read at all. -/
def sourceEvents (set : RuleSet) (origin : Origin) : List SourceRule → List TraceEvent
  | [] => []
  | source :: rest =>
      match set.addRule source.selector source.declarations origin with
      | .error _ => []
      | .ok (next, id) =>
          let specificity := ((id.bind next.get?).map Rule.specificity).getD .zero
          .rule source.selector id.isSome specificity :: sourceEvents next origin rest

/-- The events of adding a sheet: what it skips, then its rules. A sheet that cannot be read has
none. -/
def sheetEvents (set : RuleSet) (css : String) (origin : Origin) : List TraceEvent :=
  match Stylesheet.read css with
  | .error _ => []
  | .ok sheet =>
      (sheet.skipped.map fun skipped => .skippedRule skipped.prelude skipped.reason.label) ++
        sourceEvents (set.noteSheet sheet) origin sheet.rules

/-- The events of adding sheets one after another. -/
def sheetsEvents (set : RuleSet) (origin : Origin) : List String → List TraceEvent
  | [] => []
  | css :: rest =>
      sheetEvents set css origin ++
        match set.addSheet css origin with
        | .ok next => sheetsEvents next origin rest
        | .error _ => []

def mergeEvents (doc : Document) (results : List (NodeId × NodeCascade)) : List TraceEvent :=
  results.filterMap fun (id, cascade) =>
    if doc.isElement id then some (.node (doc.path id) cascade.matched) else none

/-- The events of a run in chunks. -/
def runEvents (doc : Document) (run : Parallel.Run) : List TraceEvent :=
  (match run.outcome with
    | .parallel => []
    | .recovered chunks => [.timeout chunks run.chunks]
    | .fallback reason => [.fallback reason]) ++ mergeEvents doc run.batch.results

end Trace

end ComputedStyle
