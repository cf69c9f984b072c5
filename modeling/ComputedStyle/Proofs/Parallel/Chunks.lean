import ComputedStyle.Parallel
import ComputedStyle.Proofs.Cascade.Apply

namespace ComputedStyle.Parallel

def Chunk.ids (chunk : Chunk) : List NodeId :=
  chunk.keys.map NodeKey.id

theorem flatten_runs {lengths : List Nat} {xs : List α} (total : lengths.sum = xs.length) :
    (runs lengths xs).flatten = xs := by
  induction lengths generalizing xs with
  | nil => exact (List.eq_nil_of_length_eq_zero total.symm).symm
  | cons n lengths ih =>
      rw [List.sum_cons] at total
      have rest : lengths.sum = (xs.drop n).length := by
        rw [List.length_drop]
        omega
      rw [runs, List.flatten_cons, ih rest, List.take_append_drop]

theorem sum_even_runs (base extra count : Nat) :
    ((List.range count).map fun i => base + if i < extra then 1 else 0).sum =
      count * base + min count extra := by
  induction count with
  | zero => simp
  | succ count ih =>
      rw [List.range_succ, List.map_append, List.sum_append, ih, List.map_singleton,
        List.sum_singleton, Nat.succ_mul]
      split <;> omega

theorem sum_runLengths {total count : Nat} (positive : 0 < count) :
    (runLengths total count).sum = total := by
  have extra : total % count < count := Nat.mod_lt total positive
  rw [runLengths, sum_even_runs, min_eq_right extra.le]
  exact Nat.div_add_mod total count

/-- There are no more chunks than nodes, and their lengths add up to the number of nodes. -/
theorem sum_runLengths_min (total count : Nat) :
    (runLengths total (min (max count 1) total)).sum = total := by
  rcases Nat.eq_zero_or_pos total with zero | positive
  · rw [zero, Nat.min_zero]
    rfl
  · exact sum_runLengths (lt_min (lt_max_of_lt_right Nat.one_pos) positive)

theorem keys_mapIdx (cuts : List (List NodeKey)) :
    (cuts.mapIdx Chunk.mk).map Chunk.keys = cuts := by
  refine List.ext_getElem? fun i => ?_
  rw [List.getElem?_map, List.getElem?_mapIdx, Option.map_map]
  exact Option.map_id'

theorem flatMap_partition (doc : Document) (ids : List NodeId) (count : Nat) :
    (partition doc ids count).flatMap Chunk.ids = ids := by
  let keys := ids.map fun id => (⟨id, doc.paths[id]?.getD ""⟩ : NodeKey)
  let chunkCount := min (max count 1) ids.length
  have total : (runLengths ids.length chunkCount).sum = keys.length := by
    rw [List.length_map, sum_runLengths_min]
  calc (partition doc ids count).flatMap Chunk.ids
      = ((partition doc ids count).map Chunk.keys).flatten.map NodeKey.id := by
        rw [List.map_flatten, List.map_map]
        rfl
    _ = keys.map NodeKey.id := by
        rw [partition, keys_mapIdx, flatten_runs total]
    _ = ids := by
        rw [List.map_map]
        exact List.map_id' ids

theorem index_partition {doc : Document} {ids : List NodeId} {count i : Nat} {chunk : Chunk}
    (found : (partition doc ids count)[i]? = some chunk) : chunk.index = i := by
  rw [partition, List.getElem?_mapIdx, Option.map_eq_some_iff] at found
  obtain ⟨keys, _, rfl⟩ := found
  rfl

end ComputedStyle.Parallel
