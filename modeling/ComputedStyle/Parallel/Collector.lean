import ComputedStyle.Parallel

namespace ComputedStyle.Parallel

/-- What a collector hears next. -/
inductive Signal where
  /-- A worker sends the batch of a chunk. -/
  | arrived (chunk : Nat)
  /-- The matching of a chunk panics. -/
  | panicked (chunk : Nat) (message : String)
  | timeout
  /-- No worker is left that could send anything. -/
  | disconnected
deriving DecidableEq, Repr

/-- What happens once a tree is split: there are no workers, or they send messages. -/
inductive Schedule where
  | noPool (cause : String)
  | pool (signals : List Signal)
deriving DecidableEq, Repr

/-- The text of a failure. -/
def workerFault (cause : String) : String :=
  "style worker failed: " ++ cause

/-- Whether all of so many chunks have arrived. -/
def allIn (total : Nat) (order : List Nat) : Bool :=
  (List.range total).all order.contains

/-- How many of so many chunks have arrived. -/
def arrivedCount (total : Nat) (order : List Nat) : Nat :=
  (List.range total).countP order.contains

/-- Listens to the signals after some chunks have arrived; when there are no more of them, the
deadline passes. -/
def listen (total : Nat) (order : List Nat) : List Signal → Dispatch
  | [] => if allIn total order then .complete order else .deadline order
  | signal :: rest =>
      if allIn total order then .complete order
      else
        match signal with
        | .arrived chunk => listen total (order ++ [chunk]) rest
        | .panicked chunk message =>
            .failed (workerFault ("chunk " ++ toString chunk ++ " panicked: " ++ message))
        | .timeout => .deadline order
        | .disconnected =>
            .failed (workerFault ("workers stopped after " ++
              toString (arrivedCount total order) ++ " of " ++ toString total ++ " chunks"))

/-- What a schedule comes to for so many chunks. -/
def Schedule.dispatch (total : Nat) : Schedule → Dispatch
  | noPool cause => .failed (workerFault ("thread pool: " ++ cause))
  | pool signals => listen total [] signals

end ComputedStyle.Parallel
