import ComputedStyle.Proofs.Document.Path
import ComputedStyle.Proofs.Parallel.Chunks

/-!
Chunks are even.

`partition?` cuts chunk after chunk off a list, and stops where a slice would reach past the end or a
node would have no path. For nodes of a tree it never does, and gives the chunks of `partition`: as
many as are asked for, as far as there are nodes, none of them empty and their lengths at most one
apart (`partition_balanced`).
-/

namespace ComputedStyle.Parallel

variable {α : Type} {total count start index length : Nat} {lengths : List Nat}

/-- `length` elements from `start` on; none if there are not so many. -/
def slice? (xs : List α) (start length : Nat) : Option (List α) :=
  if start + length ≤ xs.length then some ((xs.drop start).take length) else none

def key? (paths : Array String) (id : NodeId) : Option NodeKey :=
  (paths[id]?).map (NodeKey.mk id)

/-- Chunks of given lengths, the first of them from `start` on with the number `index`. -/
def cut? (paths : Array String) (ids : List NodeId) :
    (index start : Nat) → (lengths : List Nat) → Option (List Chunk)
  | _, _, [] => some []
  | index, start, length :: lengths => do
      let keys ← (← slice? ids start length).mapM (key? paths)
      return ⟨index, keys⟩ :: (← cut? paths ids (index + 1) (start + length) lengths)

/-- The chunks of nodes, unless a slice or a path is missing. -/
def partition? (doc : Document) (ids : List NodeId) (count : Nat) : Option (List Chunk) :=
  if ids.isEmpty then some []
  else cut? doc.paths ids 0 0 (runLengths ids.length (max 1 (min count ids.length)))

theorem length_runLengths : (runLengths total count).length = count := by
  rw [runLengths, List.length_map, List.length_range]

theorem length_mem_runLengths (member : length ∈ runLengths total count) :
    length = total / count ∨ length = total / count + 1 := by
  obtain ⟨i, -, rfl⟩ := List.mem_map.1 member
  split
  · exact .inr rfl
  · exact .inl rfl

theorem map_length_runs {xs : List α} (enough : lengths.sum ≤ xs.length) :
    (runs lengths xs).map List.length = lengths := by
  induction lengths generalizing xs with
  | nil => rfl
  | cons n rest ih =>
      rw [List.sum_cons] at enough
      have later : rest.sum ≤ (xs.drop n).length := by
        rw [List.length_drop]
        omega
      rw [runs, List.map_cons, ih later, List.length_take, min_eq_left (by omega)]

theorem slice?_of_le {xs : List α} (inside : start + length ≤ xs.length) :
    slice? xs start length = some ((xs.drop start).take length) :=
  if_pos inside

theorem mapM_key? {paths : Array String} {path : NodeId → String} {ids : List NodeId}
    (known : ∀ id ∈ ids, paths[id]? = some (path id)) :
    ids.mapM (key? paths) = some (ids.map fun id => ⟨id, path id⟩) := by
  induction ids with
  | nil => rfl
  | cons id rest ih =>
      obtain ⟨own, others⟩ := List.forall_mem_cons.1 known
      rw [List.mapM_cons, ih others, key?, own]
      rfl

/-- Slices as long as the runs of a list end where the list does. -/
theorem cut?_eq {paths : Array String} {path : NodeId → String} {ids : List NodeId}
    (known : ∀ id ∈ ids, paths[id]? = some (path id))
    (enough : start + lengths.sum ≤ ids.length) :
    cut? paths ids index start lengths =
      some ((runs lengths ((ids.drop start).map fun id => ⟨id, path id⟩)).mapIdx
        fun i keys => ⟨index + i, keys⟩) := by
  induction lengths generalizing index start with
  | nil => rfl
  | cons length rest ih =>
      rw [List.sum_cons] at enough
      have own : ∀ id ∈ (ids.drop start).take length, paths[id]? = some (path id) :=
        fun id member => known id (List.mem_of_mem_drop (List.mem_of_mem_take member))
      rw [cut?, slice?_of_le (by omega), Option.bind_eq_bind, Option.bind_some, mapM_key? own,
        ih (by omega), runs, List.mapIdx_cons, ← List.map_take, ← List.map_drop, List.drop_drop]
      simp [Nat.add_assoc, Nat.add_comm 1]

section Partition

variable {doc : Document} {ids : List NodeId}

theorem partition_eq (known : ∀ id ∈ ids, doc.paths[id]? = some (doc.path id)) (count : Nat) :
    partition doc ids count =
      (runs (runLengths ids.length (min (max count 1) ids.length))
        (ids.map fun id => ⟨id, doc.path id⟩)).mapIdx Chunk.mk := by
  have keys : (ids.map fun id => (⟨id, doc.paths[id]?.getD ""⟩ : NodeKey)) =
      ids.map fun id => ⟨id, doc.path id⟩ :=
    List.map_congr_left fun id member => by rw [known id member, Option.getD_some]
  rw [partition, keys]

theorem partition?_eq (known : ∀ id ∈ ids, doc.paths[id]? = some (doc.path id)) (count : Nat) :
    partition? doc ids count = some (partition doc ids count) := by
  rw [partition_eq known, partition?]
  split
  · next empty =>
      rw [List.isEmpty_iff.1 empty, List.length_nil, Nat.min_zero]
      rfl
  · next given =>
      have positive : 0 < ids.length := List.length_pos_iff.2 (by simpa using given)
      have same : max 1 (min count ids.length) = min (max count 1) ids.length := by omega
      have total := sum_runLengths_min ids.length count
      rw [same, cut?_eq known (by omega)]
      simp

/-- Each chunk is as long as the run it is made of. -/
theorem lengths_partition (doc : Document) (ids : List NodeId) (count : Nat) :
    (partition doc ids count).map (fun chunk => chunk.keys.length) =
      runLengths ids.length (min (max count 1) ids.length) := by
  let keys := ids.map fun id => (⟨id, doc.paths[id]?.getD ""⟩ : NodeKey)
  have enough : (runLengths ids.length (min (max count 1) ids.length)).sum ≤ keys.length := by
    rw [sum_runLengths_min, List.length_map]
  calc (partition doc ids count).map (fun chunk => chunk.keys.length)
      = ((partition doc ids count).map Chunk.keys).map List.length := by
        rw [List.map_map]
        rfl
    _ = runLengths ids.length (min (max count 1) ids.length) := by
        rw [partition, keys_mapIdx, map_length_runs enough]

theorem length_partition (doc : Document) (ids : List NodeId) (count : Nat) :
    (partition doc ids count).length = min (max count 1) ids.length := by
  rw [← List.length_map (f := fun chunk => chunk.keys.length), lengths_partition, length_runLengths]

theorem map_index_partition (doc : Document) (ids : List NodeId) (count : Nat) :
    (partition doc ids count).map Chunk.index = List.range (partition doc ids count).length := by
  refine List.ext_getElem? fun i => ?_
  rw [List.getElem?_map]
  cases found : (partition doc ids count)[i]? with
  | none =>
      rw [Option.map_none, eq_comm, List.getElem?_eq_none_iff, List.length_range]
      exact List.getElem?_eq_none_iff.1 found
  | some chunk =>
      rw [Option.map_some, index_partition found, eq_comm]
      exact List.getElem?_range (List.getElem?_eq_some_iff.1 found).1

theorem flatMap_keys (known : ∀ id ∈ ids, doc.paths[id]? = some (doc.path id)) (count : Nat) :
    (partition doc ids count).flatMap Chunk.keys = ids.map fun id => ⟨id, doc.path id⟩ := by
  have total : (runLengths ids.length (min (max count 1) ids.length)).sum =
      (ids.map fun id => (⟨id, doc.path id⟩ : NodeKey)).length := by
    rw [sum_runLengths_min, List.length_map]
  rw [List.flatMap_def, partition_eq known, keys_mapIdx, flatten_runs total]

theorem length_keys {chunk : Chunk} {count : Nat} (member : chunk ∈ partition doc ids count) :
    let share := ids.length / min (max count 1) ids.length
    chunk.keys.length = share ∨ chunk.keys.length = share + 1 := by
  apply length_mem_runLengths
  rw [← lengths_partition doc]
  exact List.mem_map_of_mem member

end Partition

/-- The chunks of nodes of a tree hold the nodes in their order, each with its path. There are as many
as are asked for, at least one and at most as many as nodes; none is empty, no two of them differ by
more than one node, and no slice reaches past the end. -/
theorem partition_balanced (edits : List Edit) (ids : List NodeId)
    (known : ∀ id ∈ ids, id < (Document.ofEdits edits).size) (count : Nat) :
    let doc := Document.ofEdits edits
    let chunks := partition doc ids count
    partition? doc ids count = some chunks ∧
      chunks.length = min (max count 1) ids.length ∧
      chunks.map Chunk.index = List.range chunks.length ∧
      (∀ chunk ∈ chunks, chunk.keys ≠ []) ∧
      chunks.flatMap Chunk.keys = (ids.map fun id => ⟨id, doc.path id⟩) ∧
      ∀ a ∈ chunks, ∀ b ∈ chunks, a.keys.length ≤ b.keys.length + 1 := by
  intro doc chunks
  have paths : ∀ id ∈ ids, doc.paths[id]? = some (doc.path id) := fun id member =>
    (Document.consistent_ofEdits edits).paths_spec.2 id (known id member)
  refine ⟨partition?_eq paths count, length_partition doc ids count, ?_, ?_, ?_, ?_⟩
  · exact map_index_partition doc ids count
  · intro chunk member empty
    have positive : 0 < ids.length / min (max count 1) ids.length := by
      have several : 0 < chunks.length := List.length_pos_of_mem member
      rw [length_partition] at several
      exact Nat.div_pos (Nat.min_le_right _ _) several
    have zero : chunk.keys.length = 0 := by rw [empty, List.length_nil]
    rcases length_keys member with own | own <;> omega
  · exact flatMap_keys paths count
  · intro a first b second
    rcases length_keys first with own | own <;> rcases length_keys second with other | other <;> omega

/-- Five nodes, some of them twice, in three chunks. -/
theorem partition_balanced_repeated :
    let edits : List Edit := [.addElement none "p", .addElement (some 0) "b", .addText 1 "t"]
    let doc := Document.ofEdits edits
    (∀ id ∈ [2, 0, 2, 1, 0], id < doc.size) ∧
      partition? doc [2, 0, 2, 1, 0] 3 = some
        [⟨0, [⟨2, "/p/b[0]/#text[0]"⟩, ⟨0, "/p"⟩]⟩, ⟨1, [⟨2, "/p/b[0]/#text[0]"⟩, ⟨1, "/p/b[0]"⟩]⟩,
          ⟨2, [⟨0, "/p"⟩]⟩] := by
  intro edits doc
  have known : ∀ id ∈ [2, 0, 2, 1, 0], id < doc.size := by decide +kernel
  have chunks : partition doc [2, 0, 2, 1, 0] 3 =
      [⟨0, [⟨2, "/p/b[0]/#text[0]"⟩, ⟨0, "/p"⟩]⟩, ⟨1, [⟨2, "/p/b[0]/#text[0]"⟩, ⟨1, "/p/b[0]"⟩]⟩,
        ⟨2, [⟨0, "/p"⟩]⟩] := by
    decide +kernel
  have cut := (partition_balanced edits [2, 0, 2, 1, 0] known 3).1
  exact ⟨known, chunks ▸ cut⟩

end ComputedStyle.Parallel
