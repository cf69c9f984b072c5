import ComputedStyle.Length.Units

namespace ComputedStyle

open Number

structure Config where
  /-- Match trees that are large enough in chunks. -/
  parallel : Bool := true
  workers : Nat := 4
  /-- Gather timings and counters. -/
  metrics : Bool := false
  /-- Smaller trees are never matched in chunks. -/
  minNodesForParallel : Nat := 64
  /-- How long to wait for the chunks, in nanoseconds. -/
  chunkTimeout : Nat := 300 * 10 ^ 9
  /-- The points that a whole percentage stands for. -/
  percentageBase : Option Single := none
  borderWidths : BorderWidths := .css
  userAgentDefaults : Bool := false
  tracePath : Option String := none
  metricsPath : Option String := none
deriving DecidableEq

inductive ConfigError where
  | noWorkers
  | noTimeout
  | baseNotFinite (base : Single)
deriving DecidableEq, Repr

def ConfigError.message : ConfigError → String
  | noWorkers => "workers must be at least 1"
  | noTimeout => "chunk_timeout must be non-zero"
  | baseNotFinite base => "percentage_base must be finite, got " ++ base.fixed 0

namespace Config

/-- A switch in the environment: `1`, `true`, `yes`, `on`, or their opposites, in any case. -/
def readFlag? (raw : String) : Option Bool :=
  match (Text.trimmed raw).toLower with
  | "1" => some true
  | "true" => some true
  | "yes" => some true
  | "on" => some true
  | "0" => some false
  | "false" => some false
  | "no" => some false
  | "off" => some false
  | _ => none

/-- A positive number of workers that fits in 64 bits. -/
def readWorkers? (raw : String) : Option Nat :=
  ((readInt? (Text.trim raw.toList)).filter fun n => 0 < n && n < 2 ^ 64).map Int.toNat

/-- A path that is not blank. -/
def readPath? (raw : String) : Option String :=
  let path := Text.trimmed raw
  if path.isEmpty then none else some path

/-- The default settings with what the environment says; a value that cannot be read changes
nothing. -/
def ofEnvironment (lookup : String → Option String) : Config :=
  let standard : Config := {}
  { standard with
    parallel := ((lookup "DOCSTYLE_PARALLEL").bind readFlag?).getD standard.parallel
    workers := ((lookup "DOCSTYLE_WORKERS").bind readWorkers?).getD standard.workers
    metrics := ((lookup "DOCSTYLE_MONITOR").bind readFlag?).getD standard.metrics
    tracePath := (lookup "DOCSTYLE_DEBUG_PATH").bind readPath? }

/-- The first thing that is wrong with some settings. -/
def error? (config : Config) : Option ConfigError :=
  if config.workers = 0 then some .noWorkers
  else if config.chunkTimeout = 0 then some .noTimeout
  else
    match config.percentageBase with
    | some base => if base.isFinite then none else some (.baseNotFinite base)
    | none => none

def isValid (config : Config) : Bool :=
  config.error?.isNone

end Config

end ComputedStyle
