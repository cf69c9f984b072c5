import ComputedStyle.Cascade

/-!
The cascade in chunks.

A tree's nodes are split into chunks that may be matched anywhere and arrive in any order. What
happened to them is a `Dispatch`; a run restores the order of the chunks, so it merges the same
results as `Cascade.apply` for every dispatch that lets all chunks arrive, and for every other one
recomputes what is missing.
-/

namespace ComputedStyle.Parallel

/-- A node with its path. -/
structure NodeKey where
  id : NodeId
  path : String
deriving DecidableEq, Repr

structure Chunk where
  index : Nat
  keys : List NodeKey
deriving DecidableEq, Repr

/-- Cuts a list into runs of given lengths. -/
def runs : List Nat → List α → List (List α)
  | [], _ => []
  | n :: lengths, xs => xs.take n :: runs lengths (xs.drop n)

/-- The lengths of `count` runs over `total` elements; the first runs take what is left over. -/
def runLengths (total count : Nat) : List Nat :=
  (List.range count).map fun i => total / count + if i < total % count then 1 else 0

/-- Splits nodes into at most `count` chunks in their order, as even as can be. -/
def partition (doc : Document) (ids : List NodeId) (count : Nat) : List Chunk :=
  let paths := doc.paths
  let keys := ids.map fun id => (⟨id, paths[id]?.getD ""⟩ : NodeKey)
  let chunkCount := min (max count 1) ids.length
  (runs (runLengths ids.length chunkCount) keys).mapIdx Chunk.mk

/-- What happened to the chunks of a run. -/
inductive Dispatch where
  /-- All chunks arrived, in this order. -/
  | complete (order : List Nat)
  /-- These chunks arrived before the deadline, in this order. -/
  | deadline (order : List Nat)
  /-- A worker failed. -/
  | failed (reason : String)
deriving DecidableEq, Repr

/-- How a run ended. -/
inductive Outcome where
  | parallel
  /-- Some chunks missed the deadline and were matched again. -/
  | recovered (chunks : Nat)
  /-- A worker failed and the whole tree was matched again. -/
  | fallback (reason : String)
deriving DecidableEq, Repr

def matchChunk (set : RuleSet) (index : RuleIndex) (doc : Document) (chunk : Chunk) :
    Cascade.Batch :=
  Cascade.matchNodes set index doc (chunk.keys.map NodeKey.id)

/-- Puts a batch at its place among batches in ascending order; a batch with the same number is
replaced. -/
def insertBatch (number : Nat) (batch : Cascade.Batch) :
    List (Nat × Cascade.Batch) → List (Nat × Cascade.Batch)
  | [] => [(number, batch)]
  | entry :: rest =>
      if number = entry.1 then (number, batch) :: rest
      else if number < entry.1 then (number, batch) :: entry :: rest
      else entry :: insertBatch number batch rest

def collect (work : Chunk → Cascade.Batch) (chunks : List Chunk) (order : List Nat) :
    List (Nat × Cascade.Batch) :=
  order.foldl (fun batches number =>
    match chunks[number]? with
    | some chunk => insertBatch chunk.index (work chunk) batches
    | none => batches) []

def missing (chunks : List Chunk) (batches : List (Nat × Cascade.Batch)) : List Chunk :=
  chunks.filter fun chunk => (batches.lookup chunk.index).isNone

/-- Adds the batches of chunks that are matched here. -/
def recompute (work : Chunk → Cascade.Batch) (chunks : List Chunk)
    (batches : List (Nat × Cascade.Batch)) : List (Nat × Cascade.Batch) :=
  chunks.foldl (fun batches chunk => insertBatch chunk.index (work chunk) batches) batches

/-- What a run gives: how it ended, how many chunks there were, and the results to merge in
order. -/
structure Run where
  outcome : Outcome
  chunks : Nat
  batch : Cascade.Batch

/-- One batch of the results and counts of several. -/
def joinBatches (batches : List (Nat × Cascade.Batch)) : Cascade.Batch :=
  ⟨batches.flatMap (·.2.results), .sum (batches.map (·.2.stats))⟩

/-- The chunks of a tree for a number of workers, at least one. -/
def chunksFor (workers : Nat) (doc : Document) : List Chunk :=
  partition doc doc.preorder (max workers 1)

/-- Matches a tree in chunks for a number of workers. -/
def run (workers : Nat) (set : RuleSet) (index : RuleIndex) (doc : Document)
    (dispatch : Dispatch) : Run :=
  let chunks := chunksFor workers doc
  let work := matchChunk set index doc
  match dispatch with
  | .complete order => ⟨.parallel, chunks.length, joinBatches (collect work chunks order)⟩
  | .deadline order =>
      let arrived := collect work chunks order
      let late := missing chunks arrived
      ⟨.recovered late.length, chunks.length, joinBatches (recompute work late arrived)⟩
  | .failed reason =>
      ⟨.fallback reason, chunks.length, Cascade.matchNodes set index doc doc.preorder⟩

/-- The cascade over a whole tree in chunks. -/
def apply (workers : Nat) (set : RuleSet) (index : RuleIndex) (doc : Document)
    (dispatch : Dispatch) : Document × Run :=
  let result := run workers set index doc dispatch
  (Cascade.merge doc result.batch.results, result)

/-- The dispatch in which every chunk arrives in its turn. -/
def inTurn (chunks : Nat) : Dispatch :=
  .complete (List.range chunks)

end ComputedStyle.Parallel
