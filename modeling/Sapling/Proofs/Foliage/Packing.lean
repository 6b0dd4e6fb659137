import Mathlib.Algebra.Order.BigOperators.Group.List
import Mathlib.Algebra.Order.Floor.Div
import Mathlib.Algebra.Order.Ring.Nat
import Sapling.Foliage.Batcher

/-! How leaves are packed: cutting a list into pieces loses nothing, and a batch takes the rows of one
piece without turning a leaf away. -/
namespace Sapling

namespace Batch

/-! ## Pieces -/

private theorem chunks_cons {size : Nat} (room : 0 < size) (first : α) (rest : List α) :
    chunks size (first :: rest) =
      (first :: rest).take size :: chunks size ((first :: rest).drop size) := by
  obtain ⟨less, rfl⟩ := Nat.exists_eq_add_of_lt room
  rw [Nat.zero_add, chunks, List.take_succ_cons, List.drop_succ_cons, Nat.add_sub_cancel]

private theorem flatten_chunks (size : Nat) (items : List α) : (chunks size items).flatten = items := by
  induction items using chunks.induct size with
  | case1 => rw [chunks, List.flatten_nil]
  | case2 first rest ih =>
    rw [chunks, List.flatten_cons, ih, List.cons_append, List.take_append_drop]

/-- Each piece begins where the ones before it end, and only the last one may be short. -/
theorem getElem?_chunks {size : Nat} (room : 0 < size) (items : List α) (i : Nat) :
    (chunks size items)[i]? =
      if i * size < items.length then some ((items.drop (i * size)).take size) else none := by
  induction i generalizing items with
  | zero =>
    cases items with
    | nil => simp [chunks]
    | cons first rest => simp [chunks_cons room]
  | succ i ih =>
    cases items with
    | nil => simp [chunks]
    | cons first rest =>
      rw [chunks_cons room, List.getElem?_cons_succ, ih, List.drop_drop, List.length_drop,
        Nat.add_mul, Nat.one_mul, Nat.add_comm size]
      simp only [Nat.lt_sub_iff_add_lt]

/-- There is a piece for each full size of items in front of some item. -/
theorem lt_length_chunks {size : Nat} (room : 0 < size) (items : List α) (i : Nat) :
    i < (chunks size items).length ↔ i * size < items.length := by
  have past : items.length ≤ i * size ↔ (chunks size items).length ≤ i := by
    rw [← List.getElem?_eq_none_iff (l := chunks size items), getElem?_chunks room]
    split <;> simp_all
  rw [← Nat.not_le, ← past, Nat.not_le]

private theorem length_chunks {size : Nat} (room : 0 < size) (items : List α) :
    (chunks size items).length = items.length ⌈/⌉ size := by
  refine eq_of_forall_lt_iff fun i => ?_
  rw [lt_length_chunks room, ← not_le, ← not_le, ceilDiv_le_iff_le_mul room, Nat.mul_comm]

/-! ## Rows -/

/-- What a batch says of one leaf. -/
structure Row where
  data : Vec4
  rotation : Quat
  scale : Float32
  color : Color
  matrix : Mat4

/-- The row of a leaf: its place and picture, how it is turned, its size and color, and the map of the
leaf's own space into that of the tree. -/
def Row.ofLeaf (leaf : Leaf) : Row where
  data := ⟨leaf.position.x, leaf.position.y, leaf.position.z, leaf.variant.toFloat32⟩
  rotation := leaf.rotation
  scale := leaf.scale
  color := leaf.color
  matrix := .ofParts ⟨leaf.scale, leaf.scale, leaf.scale⟩ leaf.rotation leaf.position

/-- All arrays have one entry for each leaf. -/
structure Aligned (batch : Batch) : Prop where
  rotations : batch.rotations.size = batch.count
  scales : batch.scales.size = batch.count
  colors : batch.colors.size = batch.count
  matrices : batch.matrices.size = batch.count

/-- Entry `i` of each array, if there is one in all of them. -/
def row? (batch : Batch) (i : Nat) : Option Row := do
  let data ← batch.data[i]?
  let rotation ← batch.rotations[i]?
  let scale ← batch.scales[i]?
  let color ← batch.colors[i]?
  let matrix ← batch.matrices[i]?
  some { data, rotation, scale, color, matrix }

def rows (batch : Batch) : List Row := (List.range batch.count).filterMap batch.row?

theorem Aligned.length_rows {batch : Batch} (aligned : batch.Aligned) :
    batch.rows.length = batch.count := by
  have each : ∀ i ∈ List.range batch.count, (batch.row? i).isSome := by
    intro i below
    have below : i < batch.count := List.mem_range.mp below
    have data : i < batch.data.size := below
    simp [row?, data, aligned.rotations, aligned.scales, aligned.colors, aligned.matrices, below]
  rw [rows, List.length_filterMap_eq_countP, List.countP_eq_length.mpr each, List.length_range]

/-- The arrays of the batch describe these leaves, in order. -/
structure Holds (batch : Batch) (leaves : List Leaf) : Prop where
  count : batch.count = leaves.length
  aligned : batch.Aligned
  rows : batch.rows = leaves.map Row.ofLeaf

private theorem holds_empty (capacity : Nat) : Holds { capacity } [] := ⟨rfl, ⟨rfl, rfl, rfl, rfl⟩, rfl⟩

/-! ## Adding a leaf -/

/-- A batch with one more row, whether or not there is room for it. -/
def withRow (batch : Batch) (leaf : Leaf) : Batch where
  capacity := batch.capacity
  data := batch.data.push (dataOf leaf)
  rotations := batch.rotations.push leaf.rotation
  scales := batch.scales.push leaf.scale
  colors := batch.colors.push leaf.color
  matrices := batch.matrices.push leaf.modelMatrix

theorem push?_eq (batch : Batch) (leaf : Leaf) :
    batch.push? leaf = if batch.isFull then none else some (batch.withRow leaf) := rfl

private theorem isFull_iff (batch : Batch) : batch.isFull = true ↔ batch.capacity ≤ batch.count := by
  rw [isFull, decide_eq_true_iff]

private theorem push?_of_room {batch : Batch} (room : batch.count < batch.capacity) (leaf : Leaf) :
    batch.push? leaf = some (batch.withRow leaf) := by
  rw [push?_eq, if_neg]
  rw [isFull_iff]
  exact Nat.not_le.mpr room

theorem count_withRow (batch : Batch) (leaf : Leaf) : (batch.withRow leaf).count = batch.count + 1 :=
  Array.size_push _

private theorem Aligned.withRow {batch : Batch} (aligned : batch.Aligned) (leaf : Leaf) :
    (batch.withRow leaf).Aligned where
  rotations := by rw [count_withRow, ← aligned.rotations]; exact Array.size_push _
  scales := by rw [count_withRow, ← aligned.scales]; exact Array.size_push _
  colors := by rw [count_withRow, ← aligned.colors]; exact Array.size_push _
  matrices := by rw [count_withRow, ← aligned.matrices]; exact Array.size_push _

/-- The rows of before stay, and the last one is that of the new leaf. -/
theorem Aligned.row_withRow {batch : Batch} (aligned : batch.Aligned) (leaf : Leaf) (i : Nat) :
    (batch.withRow leaf).row? i =
      if i = batch.count then some (.ofLeaf leaf) else batch.row? i := by
  have data : batch.data.size = batch.count := rfl
  simp only [row?, Batch.withRow, Array.getElem?_push, data, aligned.rotations, aligned.scales,
    aligned.colors, aligned.matrices]
  by_cases last : i = batch.count
  · simp only [if_pos last]
    rfl
  · simp only [if_neg last]

private theorem Aligned.rows_withRow {batch : Batch} (aligned : batch.Aligned) (leaf : Leaf) :
    (batch.withRow leaf).rows = batch.rows ++ [.ofLeaf leaf] := by
  have kept : (List.range batch.count).filterMap (batch.withRow leaf).row? = batch.rows := by
    refine List.filterMap_congr fun i below => ?_
    rw [aligned.row_withRow, if_neg (Nat.ne_of_lt (List.mem_range.mp below))]
  have added : (batch.withRow leaf).row? batch.count = some (.ofLeaf leaf) := by
    rw [aligned.row_withRow, if_pos rfl]
  rw [rows, count_withRow, List.range_succ, List.filterMap_append, kept,
    List.filterMap_cons_some added, List.filterMap_nil]

private theorem Holds.withRow {batch : Batch} {leaves : List Leaf} (holds : batch.Holds leaves)
    (leaf : Leaf) : (batch.withRow leaf).Holds (leaves ++ [leaf]) where
  count := by rw [count_withRow, holds.count, List.length_append, List.length_singleton]
  aligned := holds.aligned.withRow leaf
  rows := by rw [holds.aligned.rows_withRow, holds.rows, List.map_append, List.map_singleton]

/-! ## Filling a batch -/

/-- As long as there is room for all leaves, none of them is turned away. -/
theorem Holds.fill {batch : Batch} {leaves : List Leaf} (holds : batch.Holds leaves)
    (more : List Leaf) (room : leaves.length + more.length ≤ batch.capacity) :
    ∃ filled : Batch, more.foldlM push? batch = some filled ∧
      more.foldl (fun batch leaf => (batch.push? leaf).getD batch) batch = filled ∧
      filled.capacity = batch.capacity ∧ filled.Holds (leaves ++ more) := by
  induction more generalizing batch leaves with
  | nil => exact ⟨batch, rfl, rfl, rfl, by rwa [List.append_nil]⟩
  | cons leaf more ih =>
    have pushed : batch.push? leaf = some (batch.withRow leaf) := by
      apply push?_of_room
      rw [holds.count]
      exact Nat.lt_of_lt_of_le (Nat.lt_add_of_pos_right (Nat.succ_pos _)) room
    have still : (leaves ++ [leaf]).length + more.length ≤ (batch.withRow leaf).capacity := by
      rw [List.length_append, List.length_singleton, Nat.add_assoc, Nat.add_comm 1]
      exact room
    obtain ⟨filled, all, folded, capacity, held⟩ := ih (holds.withRow leaf) still
    refine ⟨filled, ?_, ?_, capacity, by simpa using held⟩
    · rw [List.foldlM_cons, pushed]
      exact all
    · rw [List.foldl_cons, pushed]
      exact folded

theorem holds_ofLeaves {capacity : Nat} {leaves : List Leaf} (room : leaves.length ≤ capacity) :
    (ofLeaves capacity leaves).Holds leaves ∧ (ofLeaves capacity leaves).capacity = capacity ∧
      leaves.foldlM push? { capacity } = some (ofLeaves capacity leaves) := by
  obtain ⟨filled, all, folded, same, held⟩ :=
    (holds_empty capacity).fill leaves (by simpa using room)
  subst folded
  exact ⟨held, same, all⟩

/-! ## Packing -/

variable {capacity : Nat}

private theorem length_le_of_mem_chunks (room : 0 < capacity) {leaves piece : List α}
    (mem : piece ∈ chunks capacity leaves) : piece.length ≤ capacity := by
  obtain ⟨i, found⟩ := List.mem_iff_getElem?.mp mem
  rw [getElem?_chunks room] at found
  split at found
  · cases found
    exact List.length_take_le _ _
  · cases found

/-- As few batches are filled as can hold the leaves. -/
theorem length_pack (room : 0 < capacity) (leaves : List Leaf) :
    (pack capacity leaves).length = leaves.length ⌈/⌉ capacity := by
  rw [pack, List.length_map, length_chunks room]

/-- Batch `i` holds the leaves from place `i * capacity` on, as many as it has room for. -/
theorem holds_pack (room : 0 < capacity) {leaves : List Leaf} {i : Nat} {batch : Batch}
    (packed : (pack capacity leaves)[i]? = some batch) : i * capacity < leaves.length ∧
      batch.capacity = capacity ∧ batch.Holds ((leaves.drop (i * capacity)).take capacity) := by
  rw [pack, List.getElem?_map, getElem?_chunks room] at packed
  split at packed
  · cases packed
    have held := holds_ofLeaves (List.length_take_le capacity (leaves.drop (i * capacity)))
    exact ⟨‹_›, held.2.1, held.1⟩
  · cases packed

/-- The rows of all batches, one after the other, are those of the leaves in order. -/
theorem rows_pack (room : 0 < capacity) (leaves : List Leaf) :
    (pack capacity leaves).flatMap rows = leaves.map Row.ofLeaf := by
  have each : ∀ piece ∈ chunks capacity leaves,
      (ofLeaves capacity piece).rows = piece.map Row.ofLeaf := fun _ mem =>
    (holds_ofLeaves (length_le_of_mem_chunks room mem)).1.rows
  rw [pack, List.flatMap_map, List.flatMap_congr each, List.flatMap_def, ← List.map_flatten,
    flatten_chunks]

/-- Packing with pushes that must succeed comes to the same batches. -/
theorem mapM_chunks (room : 0 < capacity) (leaves : List Leaf) :
    (chunks capacity leaves).mapM (·.foldlM push? { capacity }) = some (pack capacity leaves) := by
  have each : ∀ piece ∈ chunks capacity leaves,
      piece.foldlM push? { capacity } = some (ofLeaves capacity piece) := fun _ mem =>
    (holds_ofLeaves (length_le_of_mem_chunks room mem)).2.2
  rw [pack]
  generalize chunks capacity leaves = pieces at each
  induction pieces with
  | nil => rfl
  | cons piece pieces ih =>
    rw [List.mapM_cons, each piece List.mem_cons_self,
      ih fun other mem => each other (List.mem_cons_of_mem _ mem)]
    rfl

end Batch

/-! ## Clusters

Clusters only add leaves, as many as they were asked for. -/

namespace Batcher

/-- Adds a cluster around each anchor, of the size that goes with it. -/
def addClusters (batcher : Batcher) (clusters : List (Anchor × Nat)) (spread : Spread) : Batcher :=
  clusters.foldl (fun batcher (anchor, count) => batcher.addCluster anchor count spread) batcher

/-- Clusters added in two rounds are as added in one. -/
theorem addClusters_append (batcher : Batcher) (before after : List (Anchor × Nat))
    (spread : Spread) :
    batcher.addClusters (before ++ after) spread =
      (batcher.addClusters before spread).addClusters after spread :=
  List.foldl_append

private theorem leaves_placeInCluster (spread : Spread) (anchor : Anchor) (batcher : Batcher) :
    ∃ leaf, (placeInCluster spread anchor batcher).leaves = batcher.leaves.push leaf := ⟨_, rfl⟩

/-- The leaves of before stay where they are, and as many as asked for come after them. -/
theorem leaves_addCluster (batcher : Batcher) (anchor : Anchor) (count : Nat) (spread : Spread) :
    ∃ more : List Leaf, more.length = count ∧
      (batcher.addCluster anchor count spread).leaves.toList = batcher.leaves.toList ++ more := by
  change ∃ more : List Leaf, more.length = count ∧
    (Nat.repeat (placeInCluster spread anchor) count batcher).leaves.toList =
      batcher.leaves.toList ++ more
  induction count with
  | zero => exact ⟨[], rfl, (List.append_nil _).symm⟩
  | succ count ih =>
    obtain ⟨more, length, leaves⟩ := ih
    obtain ⟨leaf, last⟩ :=
      leaves_placeInCluster spread anchor (Nat.repeat (placeInCluster spread anchor) count batcher)
    refine ⟨more ++ [leaf], by simp [length], ?_⟩
    rw [Nat.repeat, last, Array.toList_push, leaves, List.append_assoc]

/-- A cluster adds as many leaves as it was asked for. -/
theorem leafCount_addCluster (batcher : Batcher) (anchor : Anchor) (count : Nat) (spread : Spread) :
    (batcher.addCluster anchor count spread).leafCount = batcher.leafCount + count := by
  obtain ⟨more, length, leaves⟩ := batcher.leaves_addCluster anchor count spread
  simp only [leafCount, ← Array.length_toList, leaves, List.length_append, length]

theorem leafCount_addLeaves (batcher : Batcher) (placements : List Placement) :
    (batcher.addLeaves placements).leafCount = batcher.leafCount + placements.length := by
  change (placements.foldl place batcher).leafCount = batcher.leafCount + placements.length
  induction placements generalizing batcher with
  | nil => rfl
  | cons placement placements ih =>
    have first : (batcher.place placement).leafCount = batcher.leafCount + 1 := Array.size_push _
    rw [List.foldl_cons, ih, first, List.length_cons, Nat.add_assoc, Nat.add_comm 1]

theorem leafCount_addClusters (clusters : List (Anchor × Nat)) (batcher : Batcher)
    (spread : Spread) :
    (batcher.addClusters clusters spread).leafCount =
      batcher.leafCount + (clusters.map Prod.snd).sum := by
  induction clusters generalizing batcher with
  | nil => rfl
  | cons cluster clusters ih =>
    have first := batcher.leafCount_addCluster cluster.1 cluster.2 spread
    change ((batcher.addCluster cluster.1 cluster.2 spread).addClusters clusters spread).leafCount = _
    rw [ih, first, List.map_cons, List.sum_cons, Nat.add_assoc]

end Batcher

end Sapling
