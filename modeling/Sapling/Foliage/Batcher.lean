import Sapling.Foliage.Leaf
import Sapling.Mesh.Basic
import Sapling.Turtle.Skeleton
/-!
The foliage of a tree: all leaves in the order they came, the generator that shapes them, and the batches
they are drawn in. Whatever changes the leaves packs them anew.
-/
namespace Sapling

open Sapling.Random

/-! ## Batches

Batches of leaves for instanced drawing: parallel arrays with one row for each leaf, never longer than
the capacity of the batch.
-/

/-- Leaves as parallel arrays (`LeafBatch`). -/
structure Batch where
  capacity : Nat
  /-- Position and picture. -/
  data : Array Vec4 := #[]
  rotations : Array Quat := #[]
  scales : Array Float32 := #[]
  colors : Array Color := #[]
  matrices : Array Mat4 := #[]
deriving DecidableEq

namespace Batch

/-- How many leaves the batch holds (`count`). -/
def count (batch : Batch) : Nat := batch.data.size

/-- There is no room left (`is_full`). -/
def isFull (batch : Batch) : Bool := batch.capacity ≤ batch.count

/-- There is no leaf (`is_empty`). -/
def isEmpty (batch : Batch) : Bool := batch.data.isEmpty

/-- The first array's row of a leaf. -/
def dataOf (leaf : Leaf) : Vec4 :=
  ⟨leaf.position.x, leaf.position.y, leaf.position.z, leaf.variant.toFloat32⟩

/-- Adds the row of a leaf, unless the batch is full (`push`). -/
def push? (batch : Batch) (leaf : Leaf) : Option Batch :=
  if batch.isFull then none
  else
    some { batch with
      data := batch.data.push (dataOf leaf)
      rotations := batch.rotations.push leaf.rotation
      scales := batch.scales.push leaf.scale
      colors := batch.colors.push leaf.color
      matrices := batch.matrices.push leaf.modelMatrix }

/-- Adds the rows of leaves for as long as there is room. -/
def ofLeaves (capacity : Nat) (leaves : List Leaf) : Batch :=
  leaves.foldl (fun batch leaf => (batch.push? leaf).getD batch) { capacity }

/-- Pieces of `size` items, the last of which may be shorter. -/
def chunks (size : Nat) : List α → List (List α)
  | [] => []
  | a :: rest => (a :: rest.take (size - 1)) :: chunks size (rest.drop (size - 1))
termination_by items => items.length
decreasing_by
  simp only [List.length_drop, List.length_cons]
  omega

/-- All leaves, packed in order into as few batches as hold them. -/
def pack (capacity : Nat) (leaves : List Leaf) : List Batch :=
  (chunks capacity leaves).map (ofLeaves capacity)

/-! ### Digests -/

def digestData (encode : Digest.Encoding) (batch : Batch) : UInt64 :=
  batch.data.foldl (fun h d => Digest.singles encode h [d.x, d.y, d.z, d.w]) Digest.start

def digestRotations (encode : Digest.Encoding) (batch : Batch) : UInt64 :=
  batch.rotations.foldl (fun h q => Digest.singles encode h [q.x, q.y, q.z, q.w]) Digest.start

def digestScales (encode : Digest.Encoding) (batch : Batch) : UInt64 :=
  batch.scales.foldl (Digest.single encode) Digest.start

def digestColors (encode : Digest.Encoding) (batch : Batch) : UInt64 :=
  batch.colors.foldl (fun h c => Digest.singles encode h c.toList) Digest.start

def digestMatrices (encode : Digest.Encoding) (batch : Batch) : UInt64 :=
  batch.matrices.foldl (fun h m => Digest.singles encode h m.toList) Digest.start

end Batch

/-! ## The foliage of a tree

The foliage of a tree: all leaves in the order they came, the generator that shapes them, and the batches
they are drawn in. Whatever changes the leaves packs them anew.
-/

/-- The leaves of a tree (`LeafBatcher`). -/
structure Batcher where
  settings : LeafSettings
  generator : Generator
  leaves : Array Leaf := #[]
  /-- The leaves as they were packed last. The work is left until somebody asks for the batches. -/
  packed : Thunk (List Batch) := .pure []

/-- A renderer that draws batches of leaves (`InstancedDrawSink`). -/
class InstanceSink (σ : Type) where
  drawInstanced : Batch → InstanceProperties → σ → σ

namespace Batcher

/-- A batcher without leaves, for settings that hold up to a check (`new`). -/
def checked (settings : LeafSettings) (generator : Generator) : Except ConfigError Batcher := do
  settings.validate
  return { settings, generator }

/-- Draws with the batcher's generator. -/
def draw (batcher : Batcher) (d : Draw α) : α × Batcher :=
  let (a, generator) := d.run batcher.generator
  (a, { batcher with generator })

/-- Adds a leaf at a place. The batches stay as they are. -/
def place (batcher : Batcher) (placement : Placement) : Batcher :=
  let (leaf, batcher) := batcher.draw (batcher.settings.drawLeaf placement)
  { batcher with leaves := batcher.leaves.push leaf }

/-- Packs all leaves anew (`rebuild_batches`). -/
def rebuild (batcher : Batcher) : Batcher :=
  { batcher with
    packed := .mk fun _ =>
      Batch.pack batcher.settings.maxLeavesPerBatch.toNat batcher.leaves.toList }

/-- Adds a leaf at a place (`add_leaf`). -/
def addLeaf (batcher : Batcher) (placement : Placement) : Batcher := (batcher.place placement).rebuild

/-- Adds leaves at places, in order, and packs them once (`add_leaves`). -/
def addLeaves (batcher : Batcher) (placements : List Placement) : Batcher :=
  (placements.foldl place batcher).rebuild

/-- Adds one leaf of the cluster around an anchor. The batches stay as they are. -/
def placeInCluster (spread : Spread) (anchor : Anchor) (batcher : Batcher) : Batcher :=
  let (placement, batcher) := batcher.draw (spread.place anchor.position anchor.direction)
  batcher.place placement

/-- Adds `count` leaves around an anchor and packs them once (`add_leaf_cluster`). -/
def addCluster (batcher : Batcher) (anchor : Anchor) (count : Nat) (spread : Spread) : Batcher :=
  (Nat.repeat (placeInCluster spread anchor) count batcher).rebuild

/-- Takes all leaves away; the generator goes on where it is (`clear`). -/
def clear (batcher : Batcher) : Batcher := { batcher with leaves := #[], packed := .pure [] }

/-- The leaves as they were packed last (`batches`). -/
def batches (batcher : Batcher) : List Batch := batcher.packed.get

/-- How many leaves there are (`leaf_count`). -/
def leafCount (batcher : Batcher) : Nat := batcher.leaves.size

/-- How many batches they fill (`batch_count`). -/
def batchCount (batcher : Batcher) : Nat := batcher.batches.length

/-- Draws every batch that is not empty (`submit`). Gives the number of draws too. -/
def submit [InstanceSink σ] (batcher : Batcher) (sink : σ) : Nat × σ :=
  (batcher.batches.filter (!·.isEmpty)).foldl (fun (draws, sink) batch =>
    (draws + 1, InstanceSink.drawInstanced batch batcher.settings.properties sink)) (0, sink)

end Batcher

end Sapling
