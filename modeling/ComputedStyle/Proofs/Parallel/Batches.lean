import ComputedStyle.Proofs.Parallel.Chunks

namespace ComputedStyle.Parallel

open Cascade

section Insert

variable {number : Nat} {batch : Batch} {batches : List (Nat × Batch)}

theorem mem_insertBatch {entry : Nat × Batch} (member : entry ∈ insertBatch number batch batches) :
    entry = (number, batch) ∨ entry ∈ batches := by
  induction batches with
  | nil => exact .inl (List.mem_singleton.1 member)
  | cons head rest ih =>
      unfold insertBatch at member
      split at member
      · rcases List.mem_cons.1 member with fresh | old
        · exact .inl fresh
        · exact .inr (List.mem_cons_of_mem _ old)
      · split at member
        · exact List.mem_cons.1 member
        · rcases List.mem_cons.1 member with first | later
          · exact .inr (first ▸ List.mem_cons_self)
          · exact (ih later).imp_right (List.mem_cons_of_mem _)

theorem pairwise_insertBatch (ascending : batches.Pairwise fun a b => a.1 < b.1) :
    (insertBatch number batch batches).Pairwise fun a b => a.1 < b.1 := by
  induction batches with
  | nil => exact List.pairwise_singleton _ _
  | cons head rest ih =>
      obtain ⟨below, ascending'⟩ := List.pairwise_cons.1 ascending
      unfold insertBatch
      split
      · next same =>
          refine List.pairwise_cons.2 ⟨fun entry member => ?_, ascending'⟩
          exact same ▸ below entry member
      · next different =>
          split
          · next less =>
              refine List.pairwise_cons.2 ⟨fun entry member => ?_, ascending⟩
              rcases List.mem_cons.1 member with rfl | later
              · exact less
              · exact less.trans (below entry later)
          · next notLess =>
              refine List.pairwise_cons.2 ⟨fun entry member => ?_, ih ascending'⟩
              rcases mem_insertBatch member with rfl | old
              · exact Nat.lt_of_le_of_ne (Nat.not_lt.1 notLess) (Ne.symm different)
              · exact below entry old

theorem mem_numbers_insertBatch {other : Nat} :
    other ∈ (insertBatch number batch batches).map Prod.fst ↔
      other = number ∨ other ∈ batches.map Prod.fst := by
  induction batches with
  | nil => simp [insertBatch]
  | cons head rest ih =>
      unfold insertBatch
      split
      · next same => simp [same]
      · split
        · simp
        · rw [List.map_cons, List.mem_cons, ih, List.map_cons, List.mem_cons]
          exact or_left_comm

end Insert

variable {work : Chunk → Batch} {chunks : List Chunk}

/-- What is held of the batches: each belongs to a chunk, and they are in order. -/
structure Collected (work : Chunk → Batch) (chunks : List Chunk) (batches : List (Nat × Batch)) :
    Prop where
  ascending : batches.Pairwise fun a b => a.1 < b.1
  genuine : ∀ entry ∈ batches, ∃ chunk ∈ chunks, entry = (chunk.index, work chunk)

theorem collected_nil : Collected work chunks [] where
  ascending := .nil
  genuine := nofun

theorem Collected.insert {batches : List (Nat × Batch)} (held : Collected work chunks batches)
    {chunk : Chunk} (member : chunk ∈ chunks) :
    Collected work chunks (insertBatch chunk.index (work chunk) batches) where
  ascending := pairwise_insertBatch held.ascending
  genuine entry inside := by
    rcases mem_insertBatch inside with rfl | old
    · exact ⟨chunk, member, rfl⟩
    · exact held.genuine entry old

/-- One step of `collect`. -/
def collectOne (work : Chunk → Batch) (chunks : List Chunk) (batches : List (Nat × Batch))
    (number : Nat) : List (Nat × Batch) :=
  match chunks[number]? with
  | some chunk => insertBatch chunk.index (work chunk) batches
  | none => batches

theorem collect_eq_foldl (order : List Nat) :
    collect work chunks order = order.foldl (collectOne work chunks) [] := rfl

theorem Collected.collectOne {batches : List (Nat × Batch)} (held : Collected work chunks batches)
    (number : Nat) : Collected work chunks (collectOne work chunks batches number) := by
  unfold Parallel.collectOne
  split
  · next chunk found => exact held.insert (List.mem_of_getElem? found)
  · exact held

theorem collected_collect (order : List Nat) :
    Collected work chunks (collect work chunks order) := by
  rw [collect_eq_foldl]
  exact List.foldlRecOn order _ collected_nil fun _ held number _ => held.collectOne number

theorem Collected.recompute {batches : List (Nat × Batch)} (held : Collected work chunks batches)
    {late : List Chunk} (sub : ∀ chunk ∈ late, chunk ∈ chunks) :
    Collected work chunks (recompute work late batches) := by
  unfold Parallel.recompute
  refine List.foldlRecOn late _ held fun batches (held : Collected work chunks batches) => ?_
  exact fun chunk member => held.insert (sub chunk member)

/-- Chunks numbered by their places. -/
def Numbered (chunks : List Chunk) : Prop :=
  ∀ (i : Nat) (chunk : Chunk), chunks[i]? = some chunk → chunk.index = i

theorem Numbered.getElem?_index (numbered : Numbered chunks) {chunk : Chunk}
    (member : chunk ∈ chunks) : chunks[chunk.index]? = some chunk := by
  obtain ⟨i, found⟩ := List.mem_iff_getElem?.1 member
  rwa [numbered i chunk found]

theorem Numbered.pairwise (numbered : Numbered chunks) :
    chunks.Pairwise fun a b => a.index < b.index := by
  refine List.pairwise_iff_getElem.2 fun i j boundI boundJ less => ?_
  rw [numbered i _ (List.getElem?_eq_getElem boundI),
    numbered j _ (List.getElem?_eq_getElem boundJ)]
  exact less

theorem mem_numbers_collectOne (numbered : Numbered chunks) {batches : List (Nat × Batch)}
    {arrived number : Nat} :
    number ∈ (collectOne work chunks batches arrived).map Prod.fst ↔
      number ∈ batches.map Prod.fst ∨ number = arrived ∧ number < chunks.length := by
  unfold collectOne
  cases found : chunks[arrived]? with
  | none =>
      have outside : chunks.length ≤ arrived := List.getElem?_eq_none_iff.1 found
      have never : ¬(number = arrived ∧ number < chunks.length) := by omega
      exact (or_iff_left never).symm
  | some chunk =>
      have inside : arrived < chunks.length := (List.getElem?_eq_some_iff.1 found).1
      have bound : number = arrived ∧ number < chunks.length ↔ number = arrived := by
        constructor
        · exact And.left
        · rintro rfl
          exact ⟨rfl, inside⟩
      rw [mem_numbers_insertBatch, numbered arrived chunk found, bound]
      exact or_comm

theorem mem_numbers_collect (numbered : Numbered chunks) {order : List Nat} {number : Nat} :
    number ∈ (collect work chunks order).map Prod.fst ↔
      number ∈ order ∧ number < chunks.length := by
  rw [collect_eq_foldl]
  induction order using List.reverseRecOn with
  | nil => simp
  | append_singleton order arrived ih =>
      rw [List.foldl_append, List.foldl_cons, List.foldl_nil, mem_numbers_collectOne numbered, ih,
        List.mem_append, List.mem_singleton, or_and_right]

theorem mem_numbers_recompute {late : List Chunk} {batches : List (Nat × Batch)} {number : Nat} :
    number ∈ (recompute work late batches).map Prod.fst ↔
      number ∈ late.map Chunk.index ∨ number ∈ batches.map Prod.fst := by
  unfold recompute
  induction late generalizing batches with
  | nil => simp
  | cons chunk rest ih =>
      rw [List.foldl_cons, ih, mem_numbers_insertBatch, List.map_cons, List.mem_cons]
      exact or_left_comm.trans or_assoc.symm

/-- Once each chunk has a batch, the batches are those of all chunks in order. -/
theorem Collected.eq_all {batches : List (Nat × Batch)} (held : Collected work chunks batches)
    (numbered : Numbered chunks)
    (complete : ∀ chunk ∈ chunks, chunk.index ∈ batches.map Prod.fst) :
    batches = chunks.map fun chunk => (chunk.index, work chunk) := by
  have ordered : (chunks.map fun chunk => (chunk.index, work chunk)).Pairwise
      fun a b => a.1 < b.1 := List.pairwise_map.2 numbered.pairwise
  have distinct {entries : List (Nat × Batch)} (ascending : entries.Pairwise fun a b => a.1 < b.1) :
      entries.Nodup := ascending.imp fun less same => Nat.ne_of_lt less (congrArg Prod.fst same)
  have same : batches.Perm (chunks.map fun chunk => (chunk.index, work chunk)) := by
    refine (List.perm_ext_iff_of_nodup (distinct held.ascending) (distinct ordered)).2 ?_
    intro entry
    constructor
    · intro inside
      obtain ⟨chunk, member, rfl⟩ := held.genuine entry inside
      exact List.mem_map.2 ⟨chunk, member, rfl⟩
    · intro inside
      obtain ⟨chunk, member, rfl⟩ := List.mem_map.1 inside
      obtain ⟨entry, found, number⟩ := List.mem_map.1 (complete chunk member)
      obtain ⟨other, member', rfl⟩ := held.genuine entry found
      have equal : other = chunk := by
        have index : other.index = chunk.index := number
        have place := numbered.getElem?_index member'
        rw [index, numbered.getElem?_index member] at place
        exact (Option.some.inj place).symm
      exact equal ▸ found
  exact same.eq_of_pairwise (fun a b _ _ less greater => absurd less (Nat.lt_asymm greater))
    held.ascending ordered

end ComputedStyle.Parallel
