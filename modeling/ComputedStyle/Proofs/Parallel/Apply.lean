import ComputedStyle.Parallel.Collector
import ComputedStyle.Proofs.Parallel.Batches
import ComputedStyle.Trace

namespace ComputedStyle

/-- Whether an event is that of a node. -/
def TraceEvent.isNode : TraceEvent → Bool
  | node _ _ => true
  | _ => false

namespace Parallel

open Cascade

/-- A dispatch that is complete has all chunks. -/
def Dispatch.Possible (total : Nat) : Dispatch → Prop
  | complete order => ∀ number < total, number ∈ order
  | deadline _ => True
  | failed _ => True

theorem mem_of_allIn {total : Nat} {order : List Nat} (complete : allIn total order) :
    ∀ number < total, number ∈ order := by
  intro number bound
  have arrived := List.all_eq_true.1 complete number (List.mem_range.2 bound)
  simpa using arrived

theorem possible_listen (total : Nat) (order : List Nat) (signals : List Signal) :
    (listen total order signals).Possible total := by
  induction signals generalizing order with
  | nil =>
      unfold listen
      split
      · next complete => exact mem_of_allIn complete
      · trivial
  | cons signal rest ih =>
      unfold listen
      split
      · next complete => exact mem_of_allIn complete
      · cases signal with
        | arrived chunk => exact ih (order ++ [chunk])
        | panicked chunk message => trivial
        | timeout => trivial
        | disconnected => trivial

theorem possible_dispatch (total : Nat) (schedule : Schedule) :
    (schedule.dispatch total).Possible total := by
  cases schedule with
  | noPool cause => trivial
  | pool signals => exact possible_listen total [] signals

variable {set : RuleSet} {index : RuleIndex} {doc : Document}

theorem numbered_chunksFor (workers : Nat) (doc : Document) : Numbered (chunksFor workers doc) :=
  fun _ _ found => index_partition found

theorem joinBatches_map (chunks : List Chunk) :
    joinBatches (chunks.map fun chunk => (chunk.index, matchChunk set index doc chunk)) =
      matchNodes set index doc (chunks.flatMap Chunk.ids) := by
  induction chunks with
  | nil => rfl
  | cons chunk rest ih =>
      rw [List.flatMap_cons, matchNodes_append, ← ih]
      simp only [joinBatches, List.map_cons, List.flatMap_cons, CascadeStats.sum_cons]
      rfl

theorem join_chunksFor (workers : Nat) (doc : Document) :
    joinBatches ((chunksFor workers doc).map fun chunk =>
      (chunk.index, matchChunk set index doc chunk)) = matchNodes set index doc doc.preorder := by
  rw [joinBatches_map, chunksFor, flatMap_partition]

/-- All chunks have batches once the missing ones are matched again. -/
theorem recompute_missing {work : Chunk → Batch} {chunks : List Chunk} (numbered : Numbered chunks)
    (order : List Nat) :
    recompute work (missing chunks (collect work chunks order)) (collect work chunks order) =
      chunks.map fun chunk => (chunk.index, work chunk) := by
  have held : Collected work chunks (collect work chunks order) := collected_collect order
  refine (held.recompute fun chunk member => (List.mem_filter.1 member).1).eq_all numbered ?_
  intro chunk member
  rw [mem_numbers_recompute]
  cases found : (collect work chunks order).lookup chunk.index with
  | none =>
      refine .inl (List.mem_map.2 ⟨chunk, List.mem_filter.2 ⟨member, ?_⟩, rfl⟩)
      rw [found, Option.isNone_none]
  | some batch =>
      obtain ⟨before, after, split, _⟩ := List.lookup_eq_some_iff.1 found
      exact .inr (List.mem_map.2 ⟨(chunk.index, batch), by simp [split], rfl⟩)

/-- Whatever happened to the chunks, a run merges the cascade of the whole tree. -/
theorem batch_run (workers : Nat) {dispatch : Dispatch}
    (possible : dispatch.Possible (chunksFor workers doc).length) :
    (run workers set index doc dispatch).batch = matchNodes set index doc doc.preorder := by
  have numbered := numbered_chunksFor workers doc
  cases dispatch with
  | complete order =>
      let work := matchChunk set index doc
      let chunks := chunksFor workers doc
      have held : Collected work chunks (collect work chunks order) := collected_collect order
      have all := held.eq_all numbered fun chunk member => by
        have bound := (List.getElem?_eq_some_iff.1 (numbered.getElem?_index member)).1
        exact (mem_numbers_collect numbered).2 ⟨possible chunk.index bound, bound⟩
      rw [run, all, join_chunksFor]
  | deadline order => rw [run, recompute_missing numbered, join_chunksFor]
  | failed reason => rfl

theorem isNode_of_mem_mergeEvents {results : List (NodeId × NodeCascade)} {event : TraceEvent}
    (member : event ∈ Trace.mergeEvents doc results) : event.isNode := by
  obtain ⟨result, _, found⟩ := List.mem_filterMap.1 member
  dsimp only at found
  split at found
  · cases found
    rfl
  · cases found

theorem nodeEvents_run (doc : Document) (run : Run) :
    (Trace.runEvents doc run).filter TraceEvent.isNode =
      Trace.mergeEvents doc run.batch.results := by
  have nodes : (Trace.mergeEvents doc run.batch.results).filter TraceEvent.isNode =
      Trace.mergeEvents doc run.batch.results :=
    List.filter_eq_self.2 fun _ => isNode_of_mem_mergeEvents
  rw [Trace.runEvents, List.filter_append, nodes]
  cases run.outcome with
  | parallel => rfl
  | recovered chunks => rfl
  | fallback reason => rfl

theorem mergeEvents_matchNodes (nodes : List NodeId) :
    Trace.mergeEvents doc (matchNodes set index doc nodes).results =
      (nodes.filter doc.isElement).map fun id =>
        .node (doc.path id) (ofNode set index doc id).matched := by
  induction nodes with
  | nil => rfl
  | cons node rest ih =>
      have first : (matchNodes set index doc (node :: rest)).results =
          (node, ofNode set index doc node) :: (matchNodes set index doc rest).results := rfl
      rw [first, Trace.mergeEvents, List.filterMap_cons, ← Trace.mergeEvents, ih]
      cases element : doc.isElement node with
      | true => simp [element]
      | false => simp [element]

/-- Under every schedule, a run in chunks leaves the tree that the cascade over the whole tree
leaves, with the same counts; it merges the result of every node once, in document order, which fills
in what the node does not declare itself; and it traces the same nodes, every element once. -/
theorem apply_eq_sequential (edits : List Edit) (set : RuleSet) (given : Option RuleIndex)
    (workers : Nat) (schedule : Schedule) :
    let doc := Document.ofEdits edits
    let index := given.getD (.build set)
    let dispatch := schedule.dispatch (chunksFor workers doc).length
    let (next, run) := apply workers set index doc dispatch
    let (sequential, stats) := Cascade.apply set index doc
    let events := (Trace.runEvents doc run).filter TraceEvent.isNode
    next = sequential ∧ run.batch.stats = stats ∧
      (run.batch.results.map Prod.fst = doc.preorder ∧ doc.preorder.Perm doc.ids) ∧
      (∀ id, next.node? id = (doc.node? id).map (mergedNode · (ofNode set index doc id))) ∧
      (∀ id name, (next.declared id).get? name =
        ((doc.declared id).get? name).or ((ofNode set index doc id).declarations.get? name)) ∧
      events = Trace.mergeEvents doc (matchNodes set index doc doc.preorder).results ∧
      events = doc.elements.map fun id =>
        .node (doc.path id) (ofNode set index doc id).matched := by
  intro doc index dispatch
  have tree := Document.consistent_ofEdits edits
  have same : (run workers set index doc dispatch).batch = matchNodes set index doc doc.preorder :=
    batch_run workers (possible_dispatch _ schedule)
  have events := nodeEvents_run doc (run workers set index doc dispatch)
  rw [same] at events
  have next : merge doc (run workers set index doc dispatch).batch.results =
      (Cascade.apply set index doc).1 :=
    congrArg (fun batch : Batch => merge doc batch.results) same
  refine ⟨next, congrArg Batch.stats same, ⟨?_, tree.preorder_perm_ids⟩, fun id => ?_,
    fun id name => ?_, events, ?_⟩
  · rw [same, matchNodes, List.map_map]
    exact List.map_id' doc.preorder
  · rw [next]
    exact node?_apply tree id
  · rw [next]
    exact get?_declared_apply tree id name
  · exact events.trans (mergeEvents_matchNodes doc.preorder)

end Parallel

end ComputedStyle
