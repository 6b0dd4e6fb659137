import Sapling.Proofs.Foliage.Packing
import Sapling.Proofs.Settings.Checks
import Sapling.Scene.Recording

/-! Whatever is done to a batcher, its batches are its leaves cut into pieces: no leaf is lost, doubled or
moved, and only the last batch has room left. -/
namespace Sapling

open Sapling.Random

/-- Accepted settings give each batch room for a leaf. -/
theorem LeafSettings.capacity_pos {settings : LeafSettings} (valid : settings.validate = .ok ()) :
    0 < settings.maxLeavesPerBatch.toNat :=
  Nat.pos_of_ne_zero fun vanishes => (validate_ok_iff.mp valid).maxLeavesPerBatch (UInt64.toNat_inj.mp vanishes)

namespace Batcher

/-- What can be done to a batcher. -/
inductive Change where
  | addLeaf (placement : Placement)
  | addLeaves (placements : List Placement)
  | addCluster (anchor : Anchor) (count : Nat) (spread : Spread)
  | clear
  | rebuild

def apply (batcher : Batcher) : Change → Batcher
  | .addLeaf placement => batcher.addLeaf placement
  | .addLeaves placements => batcher.addLeaves placements
  | .addCluster anchor count spread => batcher.addCluster anchor count spread
  | .clear => batcher.clear
  | .rebuild => batcher.rebuild

def run (batcher : Batcher) (changes : List Change) : Batcher := changes.foldl apply batcher

/-! ## What every change keeps -/

/-- The batches are those of the leaves there are. -/
def Packed (batcher : Batcher) : Prop :=
  batcher.batches = Batch.pack batcher.settings.maxLeavesPerBatch.toNat batcher.leaves.toList

private theorem packed_rebuild (batcher : Batcher) : batcher.rebuild.Packed := rfl

theorem packed_clear (batcher : Batcher) : batcher.clear.Packed := by
  change [] = Batch.pack _ []
  rw [Batch.pack, Batch.chunks, List.map_nil]

private theorem settings_placeAll (placements : List Placement) (batcher : Batcher) :
    (placements.foldl place batcher).settings = batcher.settings := by
  induction placements generalizing batcher with
  | nil => rfl
  | cons placement placements ih => exact ih (batcher.place placement)

private theorem settings_cluster (spread : Spread) (anchor : Anchor) (count : Nat) (batcher : Batcher) :
    (Nat.repeat (placeInCluster spread anchor) count batcher).settings = batcher.settings := by
  induction count with
  | zero => rfl
  | succ count ih => exact ih

private theorem packed_apply (batcher : Batcher) (change : Change) : (batcher.apply change).Packed := by
  cases change with
  | addLeaf placement => exact packed_rebuild _
  | addLeaves placements => exact packed_rebuild _
  | addCluster anchor count spread => exact packed_rebuild _
  | clear => exact batcher.packed_clear
  | rebuild => exact packed_rebuild _

private theorem settings_apply (batcher : Batcher) (change : Change) :
    (batcher.apply change).settings = batcher.settings := by
  cases change with
  | addLeaf placement => rfl
  | addLeaves placements => exact settings_placeAll placements batcher
  | addCluster anchor count spread => exact settings_cluster spread anchor count batcher
  | clear => rfl
  | rebuild => rfl

/-- Any changes leave the batches in step with the leaves, and the settings alone. -/
theorem run_keeps {batcher : Batcher} (packed : batcher.Packed) (changes : List Change) :
    (batcher.run changes).Packed ∧ (batcher.run changes).settings = batcher.settings := by
  induction changes generalizing batcher with
  | nil => exact ⟨packed, rfl⟩
  | cons change changes ih =>
    have later := ih (batcher.packed_apply change)
    exact ⟨later.1, later.2.trans (batcher.settings_apply change)⟩

private theorem of_checked {settings : LeafSettings} {generator : Generator} {batcher : Batcher}
    (accepted : checked settings generator = .ok batcher) :
    settings.validate = .ok () ∧ batcher.settings = settings ∧ batcher.Packed := by
  unfold checked at accepted
  cases valid : settings.validate with
  | error fault =>
    rw [valid] at accepted
    cases accepted
  | ok _ =>
    rw [valid] at accepted
    cases accepted
    exact ⟨rfl, rfl, packed_clear { settings, generator }⟩

/-! ## Drawing -/

private theorem foldl_draws [InstanceSink σ] (properties : InstanceProperties) (batches : List Batch)
    (draws : Nat) (sink : σ) :
    batches.foldl (fun (draws, sink) batch =>
        (draws + 1, InstanceSink.drawInstanced batch properties sink)) (draws, sink) =
      (draws + batches.length,
        batches.foldl (fun sink batch => InstanceSink.drawInstanced batch properties sink) sink) := by
  induction batches generalizing draws sink with
  | nil => rfl
  | cons batch batches ih =>
    rw [List.foldl_cons, ih, List.foldl_cons, List.length_cons, Nat.add_assoc, Nat.add_comm 1]

/-- Every batch is drawn if none is empty. -/
theorem submit_eq [InstanceSink σ] {batcher : Batcher}
    (filled : ∀ batch ∈ batcher.batches, batch.count ≠ 0) (sink : σ) :
    batcher.submit sink = (batcher.batchCount, batcher.batches.foldl (fun sink batch =>
      InstanceSink.drawInstanced batch batcher.settings.properties sink) sink) := by
  have all : batcher.batches.filter (!·.isEmpty) = batcher.batches := by
    refine List.filter_eq_self.mpr fun batch mem => ?_
    simpa [Batch.isEmpty, Batch.count] using filled batch mem
  rw [submit, all, foldl_draws, Nat.zero_add, batchCount]

end Batcher

/-- A scene counts the draws and their instances and logs each of them. -/
theorem Recording.drawAll (batches : List Batch) (properties : InstanceProperties) (scene : Recording) :
    batches.foldl (fun scene batch => InstanceSink.drawInstanced batch properties scene) scene =
      { scene with
        instancedDraws := scene.instancedDraws + batches.length
        instancesDrawn := scene.instancesDrawn + (batches.map Batch.count).sum
        events := scene.events ++
          batches.map fun batch => SceneEvent.instancedDraw batch.count properties.data } := by
  induction batches generalizing scene with
  | nil => simp
  | cons batch batches ih =>
    rw [List.foldl_cons, ih]
    simp [InstanceSink.drawInstanced, drawInstanced, Nat.add_assoc, Nat.add_comm 1]

namespace Batcher

/-! ## Batches and leaves -/

/-- The batches are the leaves in order, cut into pieces of the given length. -/
structure InPieces (batcher : Batcher) (capacity : Nat) : Prop where
  count : batcher.batchCount = batcher.leafCount ⌈/⌉ capacity
  /-- Only the last batch may have room left. -/
  full (i : Nat) (batch : Batch) : batcher.batches[i]? = some batch → i + 1 < batcher.batchCount →
    batch.count = capacity
  bounds (batch : Batch) : batch ∈ batcher.batches → 1 ≤ batch.count ∧ batch.count ≤ capacity
  aligned (batch : Batch) : batch ∈ batcher.batches → batch.Aligned
  rows : batcher.batches.flatMap Batch.rows = batcher.leaves.toList.map Batch.Row.ofLeaf
  /-- Packing the leaves anew turns none of them away. -/
  pushed : (Batch.chunks capacity batcher.leaves.toList).mapM (·.foldlM Batch.push? { capacity }) =
    some batcher.batches

/-- Every batch holds its piece of the leaves. -/
theorem Packed.holds {batcher : Batcher} (packed : batcher.Packed) {capacity : Nat}
    (same : batcher.settings.maxLeavesPerBatch.toNat = capacity) (room : 0 < capacity) {i : Nat}
    {batch : Batch} (found : batcher.batches[i]? = some batch) :
    i * capacity < batcher.leafCount ∧
      batch.Holds ((batcher.leaves.toList.drop (i * capacity)).take capacity) := by
  rw [packed, same] at found
  obtain ⟨starts, -, held⟩ := Batch.holds_pack room found
  exact ⟨starts, held⟩

private theorem Packed.lt_batchCount {batcher : Batcher} (packed : batcher.Packed) {capacity : Nat}
    (same : batcher.settings.maxLeavesPerBatch.toNat = capacity) (room : 0 < capacity) (i : Nat) :
    i < batcher.batchCount ↔ i * capacity < batcher.leafCount := by
  rw [batchCount, packed, same, Batch.pack, List.length_map, Batch.lt_length_chunks room]
  rfl

/-- Batches in step with the leaves are the leaves in pieces of one size, one row each. -/
theorem Packed.inPieces {batcher : Batcher} (packed : batcher.Packed) {capacity : Nat}
    (same : batcher.settings.maxLeavesPerBatch.toNat = capacity) (room : 0 < capacity) :
    batcher.InPieces capacity where
  count := by
    rw [batchCount, packed, same, Batch.length_pack room, leafCount, Array.length_toList]
  full i batch found more := by
    have here := (packed.holds same room found).2.count
    have next := (packed.lt_batchCount same room (i + 1)).mp more
    rw [List.length_take, List.length_drop, Array.length_toList, ← leafCount] at here
    rw [Nat.add_mul, Nat.one_mul] at next
    omega
  bounds batch mem := by
    obtain ⟨i, found⟩ := List.mem_iff_getElem?.mp mem
    obtain ⟨starts, held⟩ := packed.holds same room found
    have here := held.count
    rw [List.length_take, List.length_drop, Array.length_toList, ← leafCount] at here
    omega
  aligned batch mem := by
    obtain ⟨i, found⟩ := List.mem_iff_getElem?.mp mem
    exact (packed.holds same room found).2.aligned
  rows := by rw [packed, same, Batch.rows_pack room]
  pushed := by rw [packed, same, Batch.mapM_chunks room]

/-- Every leaf is one instance of one batch. -/
theorem InPieces.sum_counts {batcher : Batcher} {capacity : Nat} (pieces : batcher.InPieces capacity) :
    (batcher.batches.map Batch.count).sum = batcher.leafCount := by
  have lengths : batcher.batches.map Batch.count = batcher.batches.map fun batch => batch.rows.length :=
    List.map_congr_left fun batch mem => (pieces.aligned batch mem).length_rows.symm
  have rows := congrArg List.length pieces.rows
  rw [List.length_flatMap, List.length_map, Array.length_toList] at rows
  rw [lengths, rows, leafCount]

/-- After all changes to a batcher with checked settings, its batches are its leaves cut into pieces of
the capacity. Drawing them makes one draw of each, with as many instances as there are leaves. A batch
turns a leaf away only when it is full, and then stays as it is. -/
theorem batches_are_pieces {settings : LeafSettings} {generator : Generator} {batcher : Batcher}
    (accepted : checked settings generator = .ok batcher) (changes : List Change) :
    let now := batcher.run changes
    now.InPieces settings.maxLeavesPerBatch.toNat ∧
    (∀ scene : Recording, now.submit scene = (now.batchCount, { scene with
      instancedDraws := scene.instancedDraws + now.batchCount
      instancesDrawn := scene.instancesDrawn + now.leafCount
      events := scene.events ++ now.batches.map fun batch =>
        SceneEvent.instancedDraw batch.count settings.properties.data })) ∧
    ∀ (batch : Batch) (leaf : Leaf), (batch.push? leaf = none ↔ batch.isFull) ∧
      (batch.isFull → (batch.push? leaf).getD batch = batch) := by
  intro now
  obtain ⟨valid, same, start⟩ := of_checked accepted
  obtain ⟨packed, kept⟩ := run_keeps start changes
  have kept : now.settings = settings := kept.trans same
  have pieces : now.InPieces settings.maxLeavesPerBatch.toNat :=
    packed.inPieces (by rw [kept]) (LeafSettings.capacity_pos valid)
  refine ⟨pieces, fun scene => ?_, fun batch leaf => ?_⟩
  · have filled : ∀ batch ∈ now.batches, batch.count ≠ 0 := fun batch mem =>
      Nat.ne_of_gt (pieces.bounds batch mem).1
    rw [submit_eq filled, Recording.drawAll, pieces.sum_counts, kept]
    rfl
  · have refused : batch.push? leaf = none ↔ batch.isFull := by
      rw [Batch.push?_eq]
      split <;> simp [*]
    refine ⟨refused, fun full => ?_⟩
    rw [refused.mpr full, Option.getD_none]

/-- Settings for batches of two. -/
def pairs : LeafSettings := { maxLeavesPerBatch := 2 }

/-- Three leaves at one place and a cluster of two more. -/
def fiveLeaves : List Change :=
  let up : Vec3 := ⟨0, 1, 0⟩
  [.addLeaves [⟨.zero, up⟩, ⟨.zero, up⟩, ⟨.zero, up⟩], .addCluster ⟨.zero, up⟩ 2 (.sphere 1)]

theorem five_leaves_in_pairs :
    let batcher : Batcher := { settings := pairs, generator := .ofSeed 7 }
    let now := batcher.run fiveLeaves
    checked pairs (.ofSeed 7) = .ok batcher ∧ now.leafCount = 5 ∧ now.InPieces 2 ∧
      now.batchCount = 3 ∧ (now.submit Recording.empty).2.instancesDrawn = 5 := by
  intro batcher now
  have accepted : checked pairs (.ofSeed 7) = .ok batcher := rfl
  have leaves : now.leafCount = 5 :=
    (leafCount_addCluster ..).trans (congrArg (· + 2) (leafCount_addLeaves ..))
  obtain ⟨pieces, drawn, -⟩ := batches_are_pieces accepted fiveLeaves
  refine ⟨accepted, leaves, pieces, ?_, ?_⟩
  · rw [pieces.count, leaves]
    rfl
  · rw [drawn]
    exact congrArg (0 + ·) leaves

/-! ## Stages

Leaves that come in stages. Batches are made anew of all leaves, so it does not matter when they were
packed before: what a batcher becomes depends on the leaves that are placed and on their order alone.
-/

open Sapling.Random

variable {one other : Batcher}

/-! ### Packing once or often -/

/-- Batchers that differ at most in how their leaves were packed last. -/
structure Alike (one other : Batcher) : Prop where
  settings : one.settings = other.settings
  generator : one.generator = other.generator
  leaves : one.leaves = other.leaves

private theorem alike_rebuild (batcher : Batcher) : Alike batcher.rebuild batcher := ⟨rfl, rfl, rfl⟩

private theorem Alike.rebuild_eq (alike : Alike one other) : one.rebuild = other.rebuild := by
  obtain ⟨settings, generator, leaves, packed⟩ := one
  obtain ⟨rfl, rfl, rfl⟩ := alike
  rfl

private theorem generator_place (batcher : Batcher) (placement : Placement) :
    (batcher.place placement).generator =
      ((batcher.settings.drawLeaf placement).run batcher.generator).2 := by
  rw [Batcher.place, draw]
  rcases (batcher.settings.drawLeaf placement).run batcher.generator with ⟨leaf, generator⟩
  rfl

/-- A placed leaf comes after all leaves there are. -/
theorem leaves_place (batcher : Batcher) (placement : Placement) :
    (batcher.place placement).leaves =
      batcher.leaves.push ((batcher.settings.drawLeaf placement).run batcher.generator).1 := by
  rw [Batcher.place, draw]
  rcases (batcher.settings.drawLeaf placement).run batcher.generator with ⟨leaf, generator⟩
  rfl

/-- A leaf of a cluster draws its placement first and its looks after it. -/
theorem placeInCluster_eq (spread : Spread) (anchor : Anchor) (batcher : Batcher) :
    batcher.placeInCluster spread anchor =
      (batcher.draw (spread.place anchor.position anchor.direction)).2.place
        (batcher.draw (spread.place anchor.position anchor.direction)).1 := by
  rw [Batcher.placeInCluster]

/-- Placing a leaf looks at the settings, the generator and the leaves, never at the batches. -/
theorem Alike.place (alike : Alike one other) (placement : Placement) :
    Alike (one.place placement) (other.place placement) where
  settings := alike.settings
  generator := by rw [generator_place, generator_place, alike.settings, alike.generator]
  leaves := by rw [leaves_place, leaves_place, alike.settings, alike.generator, alike.leaves]

private theorem Alike.draw (alike : Alike one other) (d : Draw α) :
    (one.draw d).1 = (other.draw d).1 ∧ Alike (one.draw d).2 (other.draw d).2 := by
  rw [Batcher.draw, Batcher.draw, alike.generator]
  exact ⟨rfl, alike.settings, rfl, alike.leaves⟩

private theorem Alike.placeInCluster (alike : Alike one other) (spread : Spread) (anchor : Anchor) :
    Alike (one.placeInCluster spread anchor) (other.placeInCluster spread anchor) := by
  obtain ⟨same, after⟩ := alike.draw (spread.place anchor.position anchor.direction)
  rw [placeInCluster_eq, placeInCluster_eq, same]
  exact after.place _

private theorem Alike.placeAll (alike : Alike one other) (placements : List Placement) :
    Alike (placements.foldl Batcher.place one) (placements.foldl Batcher.place other) := by
  induction placements generalizing one other with
  | nil => exact alike
  | cons placement placements ih => exact ih (alike.place placement)

private theorem Alike.cluster (alike : Alike one other) (spread : Spread) (anchor : Anchor) (count : Nat) :
    Alike (Nat.repeat (Batcher.placeInCluster spread anchor) count one)
      (Nat.repeat (Batcher.placeInCluster spread anchor) count other) := by
  induction count with
  | zero => exact alike
  | succ count ih => exact ih.placeInCluster spread anchor

/-- A batcher whose batches are up to date does not change when it is packed once more. -/
theorem Packed.rebuild_eq {batcher : Batcher} (packed : batcher.Packed) : batcher.rebuild = batcher := by
  obtain ⟨settings, generator, leaves, batches⟩ := batcher
  have same : batches = .mk fun _ => Batch.pack settings.maxLeavesPerBatch.toNat leaves.toList :=
    Thunk.ext packed
  rw [same]
  rfl

/-! ### Stages -/

private theorem repeat_placeInCluster_add (spread : Spread) (anchor : Anchor) (count more : Nat)
    (batcher : Batcher) :
    Nat.repeat (placeInCluster spread anchor) (count + more) batcher =
      Nat.repeat (placeInCluster spread anchor) more
        (Nat.repeat (placeInCluster spread anchor) count batcher) := by
  induction more with
  | zero => rfl
  | succ more ih => exact congrArg (placeInCluster spread anchor) ih

/-- A cluster that grows in two stages. -/
theorem addCluster_add (batcher : Batcher) (anchor : Anchor) (spread : Spread) (count more : Nat) :
    (batcher.addCluster anchor count spread).addCluster anchor more spread =
      batcher.addCluster anchor (count + more) spread := by
  have first := alike_rebuild (Nat.repeat (placeInCluster spread anchor) count batcher)
  calc (batcher.addCluster anchor count spread).addCluster anchor more spread
    _ = (Nat.repeat (placeInCluster spread anchor) more
          (Nat.repeat (placeInCluster spread anchor) count batcher)).rebuild :=
      (first.cluster spread anchor more).rebuild_eq
    _ = batcher.addCluster anchor (count + more) spread := by
      rw [← repeat_placeInCluster_add]
      rfl

private theorem addLeaves_append (batcher : Batcher) (placements more : List Placement) :
    (batcher.addLeaves placements).addLeaves more = batcher.addLeaves (placements ++ more) := by
  have first := alike_rebuild (placements.foldl place batcher)
  calc (batcher.addLeaves placements).addLeaves more
    _ = (more.foldl place (placements.foldl place batcher)).rebuild := (first.placeAll more).rebuild_eq
    _ = batcher.addLeaves (placements ++ more) := by
      rw [← List.foldl_append]
      rfl

/-- Leaves that are added one after the other are those that are added at once. -/
theorem Packed.foldl_addLeaf {batcher : Batcher} (packed : batcher.Packed)
    (placements : List Placement) : placements.foldl addLeaf batcher = batcher.addLeaves placements := by
  induction placements generalizing batcher with
  | nil => exact packed.rebuild_eq.symm
  | cons placement placements ih =>
    calc placements.foldl addLeaf (batcher.addLeaf placement)
      _ = (batcher.addLeaves [placement]).addLeaves placements := ih (packed_rebuild _)
      _ = batcher.addLeaves (placement :: placements) := addLeaves_append ..

/-! ### Clusters in one point -/

/-- In one point nothing is drawn for the places of leaves. -/
theorem placeInCluster_point (anchor : Anchor) (batcher : Batcher) :
    placeInCluster .point anchor batcher =
      batcher.place ⟨anchor.position, anchor.direction.normalizeOrUp⟩ := rfl

private theorem addCluster_point (batcher : Batcher) (anchor : Anchor) (count : Nat) :
    batcher.addCluster anchor count .point =
      batcher.addLeaves (.replicate count ⟨anchor.position, anchor.direction.normalizeOrUp⟩) := by
  refine congrArg rebuild ?_
  induction count with
  | zero => rfl
  | succ count ih =>
    rw [List.replicate_succ', List.foldl_append, ← ih]
    exact placeInCluster_point ..

/-- Leaves can be added in any stages. Two clusters around one anchor are one of both sizes, leaves that are added
one after the other are those that are added at once, and a cluster in one point consists of leaves that
are added there with one normal. Each time leaves, batches and the state of the generator are the same. -/
theorem stages_add_up {batcher : Batcher} (packed : batcher.Packed) :
    (∀ anchor spread count more,
      (batcher.addCluster anchor count spread).addCluster anchor more spread =
        batcher.addCluster anchor (count + more) spread) ∧
    (∀ placements, batcher.addLeaves placements = placements.foldl addLeaf batcher) ∧
    ∀ anchor count, batcher.addCluster anchor count .point =
      batcher.addLeaves (.replicate count ⟨anchor.position, anchor.direction.normalizeOrUp⟩) :=
  ⟨batcher.addCluster_add, fun placements => (packed.foldl_addLeaf placements).symm,
    batcher.addCluster_point⟩

/-- A twig that already has two leaves, one of them facing nowhere. -/
theorem stages_on_twig :
    let twig : Batcher := ({ settings := {}, generator := .ofSeed 7 } : Batcher).run
      [.addLeaves [⟨.zero, ⟨0, 1, 0⟩⟩, ⟨.zero, .zero⟩]]
    let tip : Anchor := ⟨⟨1, 2, 0⟩, ⟨3, 0, 4⟩⟩
    twig.Packed ∧
    (twig.addCluster tip 2 (.sphere 0.5)).addCluster tip 3 (.sphere 0.5) =
      twig.addCluster tip 5 (.sphere 0.5) ∧
    twig.addLeaves [⟨.zero, .unitY⟩, ⟨⟨1, 0, 0⟩, .zero⟩] =
      (twig.addLeaf ⟨.zero, .unitY⟩).addLeaf ⟨⟨1, 0, 0⟩, .zero⟩ ∧
    twig.addCluster tip 2 .point = twig.addLeaves (.replicate 2 ⟨⟨1, 2, 0⟩, ⟨0.6, 0, 0.8⟩⟩) := by
  intro twig tip
  have accepted : checked {} (.ofSeed 7) = .ok { settings := {}, generator := .ofSeed 7 } := rfl
  have packed : twig.Packed := (run_keeps (of_checked accepted).2.2 _).1
  have along : tip.direction.normalizeOrUp = ⟨0.6, 0, 0.8⟩ := by decide +kernel
  obtain ⟨clusters, leaves, point⟩ := stages_add_up packed
  exact ⟨packed, clusters tip (.sphere 0.5) 2 3, leaves _, along ▸ point tip 2⟩

end Batcher

end Sapling
