import Sapling.Proofs.Foliage.Batches
import Sapling.Proofs.Random.Extents
import Sapling.Proofs.Random.Integers
import Sapling.Proofs.Scalar.Words
import Sapling.Proofs.Settings.Samples

/-! How leaves look. A leaf is drawn in a fixed order: its direction, its turn, its size, its color and its
picture. The leaves of a batcher are those that its settings can give, whatever is done to it. -/
namespace Sapling

open Sapling.Random
open Sapling.Random Sapling.Scalar

namespace LeafSettings

variable {settings : LeafSettings}

/-! ## Parts of a leaf -/

/-- The number of the last picture. -/
def lastVariant (settings : LeafSettings) : UInt32 :=
  if settings.atlasVariations = 0 then 0 else settings.atlasVariations - 1

private theorem toNat_lastVariant (settings : LeafSettings) :
    settings.lastVariant.toNat + 1 = max settings.atlasVariations.toNat 1 := by
  unfold lastVariant
  split
  · rename_i vanishes
    rw [vanishes]
    rfl
  · rename_i nonzero
    have least : (1 : UInt32) ≤ settings.atlasVariations :=
      UInt32.le_iff_toNat_le.mpr (Nat.pos_of_ne_zero fun vanishes => nonzero (UInt32.toNat_inj.mp vanishes))
    have least' := UInt32.le_iff_toNat_le.mp least
    rw [UInt32.toNat_sub_of_le _ _ least]
    rw [UInt32.toNat_one] at least' ⊢
    omega

/-- The generator after the direction and the turn of a leaf. -/
def turned (settings : LeafSettings) (g : Generator) : Generator :=
  (settings.drawJitter.run (Random.direction.run g).2).2

/-- The generator after the size of a leaf. -/
def sized (settings : LeafSettings) (g : Generator) : Generator :=
  ((inRange settings.sizeVariation).run (settings.turned g)).2

/-- The generator after the color of a leaf. -/
def colored (settings : LeafSettings) (g : Generator) : Generator :=
  (settings.drawColor.run (settings.sized g)).2

/-- A leaf by its parts, each drawn where the one before left the generator. -/
theorem drawLeaf_parts (settings : LeafSettings) (placement : Placement) (g : Generator) :
    let leaf := ((settings.drawLeaf placement).run g).1
    leaf.position = placement.position ∧
    leaf.scale = ((inRange settings.sizeVariation).run (settings.turned g)).1 * settings.leafSize ∧
    leaf.color = (settings.drawColor.run (settings.sized g)).1 ∧
    leaf.variant = ((integer 0 settings.lastVariant).run (settings.colored g)).1 :=
  ⟨rfl, rfl, rfl, rfl⟩

private theorem drawColor_parts (settings : LeafSettings) (g : Generator) :
    let red := (inRange settings.tint.r).run g
    let green := (inRange settings.tint.g).run red.2
    (settings.drawColor.run g).1 = .rgb red.1 green.1 ((inRange settings.tint.b).run green.2).1 := rfl

/-! ## Words of a leaf -/

/-- How many words the size and the color of a leaf take. -/
def lookWords (settings : LeafSettings) : Nat :=
  settings.sizeSample.words + (settings.redSample.words + settings.greenSample.words +
    settings.blueSample.words)

namespace Accepted

private theorem turned_eq (accepted : settings.Accepted) (g : Generator) :
    settings.turned g = (Random.direction.run g).2.skip 3 := by
  have turn := accepted.turn_sound
  have once : settings.turnSample.words = 1 := if_pos accepted.turn_narrow
  change (settings.turnSample.draw.run (settings.turnSample.draw.run
    (settings.turnSample.draw.run (Random.direction.run g).2).2).2).2 = _
  rw [turn.after, turn.after, turn.after, once]
  rfl

private theorem colored_eq (accepted : settings.Accepted) (g : Generator) :
    settings.colored g = (settings.turned g).skip settings.lookWords := by
  have size : settings.sizeSample.Sound := accepted.sizeVariation.sound
  have red : settings.redSample.Sound := accepted.red.sound
  have green : settings.greenSample.Sound := accepted.green.sound
  have blue : settings.blueSample.Sound := accepted.blue.sound
  change (settings.blueSample.draw.run (settings.greenSample.draw.run (settings.redSample.draw.run
    (settings.sizeSample.draw.run (settings.turned g)).2).2).2).2 = _
  rw [blue.after, green.after, red.after, size.after]
  simp only [Generator.skip_skip, lookWords, Nat.add_assoc]

end Accepted

/-- A draw that accepts its first candidate leaves the generator behind it. -/
theorem reject_of_accepted {candidate : Draw α} {accept : α → Option β} {fallback b : β} {attempts : Nat}
    {g : Generator} (many : 0 < attempts) (accepted : accept (candidate.run g).1 = some b) :
    (reject candidate accept fallback attempts).run g = (b, (candidate.run g).2) := by
  obtain ⟨more, rfl⟩ := Nat.exists_eq_succ_of_ne_zero (Nat.ne_of_gt many)
  rw [reject, StateT.run_bind]
  simp only [bind, accepted]
  rfl

/-- A generator whose first three words make a direction, whatever comes after them. -/
def pointing (rest : Nat → UInt32) : Generator := ⟨fun i => if i < 3 then 0xA0000000 else rest i, 0⟩

theorem position_pointing (rest : Nat → UInt32) (words : Nat) :
    ((pointing rest).skip words).position = words := Nat.zero_add words

private theorem inUnitCube_run (g : Generator) :
    let first := (between (-1) 1).run g
    let second := (between (-1) 1).run first.2
    let third := (between (-1) 1).run second.2
    inUnitCube.run g = (⟨first.1, second.1, third.1⟩, third.2) := rfl

private theorem inUnitCube_pointing (rest : Nat → UInt32) :
    inUnitCube.run (pointing rest) = (⟨0.25, 0.25, 0.25⟩, (pointing rest).skip 3) := by
  have part : coarseFractionOfWord 0xA0000000 * (1 - -1) + -1 = 0.25 := by decide +kernel
  have early (words : Nat) (few : words < 3) : (between (-1) 1).run ((pointing rest).skip words) =
      (0.25, (pointing rest).skip (words + 1)) := by
    have word : ((pointing rest).skip words).stream words = 0xA0000000 := if_pos few
    rw [between_run, position_pointing, word, part, Generator.skip_skip]
  have first : (between (-1) 1).run (pointing rest) = _ := early 0 (by decide)
  rw [inUnitCube_run, first, early 1 (by decide), early 2 (by decide)]

private theorem direction_pointing (rest : Nat → UInt32) :
    (Random.direction.run (pointing rest)).2 = (pointing rest).skip 3 := by
  have many : 0 < attemptBound := by decide
  have cube := inUnitCube_pointing rest
  have inside : (⟨0.25, 0.25, 0.25⟩ : Vec3).lengthSquared ≤ 1 := by decide +kernel
  have ball : inUnitBall.run (pointing rest) = (⟨0.25, 0.25, 0.25⟩, (pointing rest).skip 3) := by
    rw [inUnitBall, reject_of_accepted many (b := ⟨0.25, 0.25, 0.25⟩), cube]
    rw [cube]
    exact if_pos inside
  obtain ⟨along, found⟩ : ∃ along, (⟨0.25, 0.25, 0.25⟩ : Vec3).normalize? = some along :=
    Option.isSome_iff_exists.mp (by decide +kernel)
  rw [Random.direction, reject_of_accepted many (b := along), ball]
  rw [ball, found]

/-- The words that follow are drawn as they are given. -/
theorem stream_pointing (rest : Nat → UInt32) {i : Nat} (later : 3 ≤ i) :
    (pointing rest).stream i = rest i := if_neg (Nat.not_lt.mpr later)

private theorem Accepted.turned_pointing (accepted : settings.Accepted) (rest : Nat → UInt32) :
    settings.turned (pointing rest) = (pointing rest).skip 6 := by
  rw [accepted.turned_eq, direction_pointing, Generator.skip_skip]

private theorem Accepted.colored_pointing (accepted : settings.Accepted) (rest : Nat → UInt32) :
    settings.colored (pointing rest) = (pointing rest).skip (6 + settings.lookWords) := by
  rw [accepted.colored_eq, accepted.turned_pointing, Generator.skip_skip]

/-! ## Leaves that settings give -/

/-- A leaf that is drawn for some words of a generator. -/
def Gives (settings : LeafSettings) (leaf : Leaf) : Prop :=
  ∃ placement g, ((settings.drawLeaf placement).run g).1 = leaf

private theorem Gives.variant_lt {leaf : Leaf} (given : settings.Gives leaf) :
    leaf.variant.toNat < max settings.atlasVariations.toNat 1 := by
  obtain ⟨placement, g, rfl⟩ := given
  have all : (0 : UInt32) ≤ settings.lastVariant := UInt32.zero_le
  have below := (integer_bounds all (settings.colored g)).2
  rw [← toNat_lastVariant]
  exact Nat.lt_succ_of_le (UInt32.le_iff_toNat_le.mp below)

/-- Every picture is that of some leaf. -/
theorem Accepted.gives_variant (accepted : settings.Accepted) {variant : UInt32}
    (below : variant ≤ settings.lastVariant) : ∃ leaf, settings.Gives leaf ∧ leaf.variant = variant := by
  have above : (0 : UInt32) ≤ variant := UInt32.zero_le
  obtain ⟨first, reached⟩ := integer_reaches above below
  let rest := fun i => if i = 6 + settings.lookWords then first else 0
  refine ⟨_, ⟨⟨.zero, .zero⟩, pointing rest, rfl⟩, ?_⟩
  rw [(drawLeaf_parts ..).2.2.2, accepted.colored_pointing]
  refine reached _ ?_ ?_
  · rw [position_pointing]
    exact (stream_pointing rest (by omega)).trans (if_pos rfl)
  · rw [position_pointing]
    exact (stream_pointing rest (by omega)).trans (if_neg (by omega))

end LeafSettings

/-! ## Leaves of a batcher -/

namespace Batcher

/-- All leaves look as the settings of the batcher allow. -/
def Genuine (batcher : Batcher) : Prop := ∀ leaf ∈ batcher.leaves, batcher.settings.Gives leaf

variable {batcher : Batcher}

private theorem Genuine.place (genuine : batcher.Genuine) (placement : Placement) :
    (batcher.place placement).Genuine := by
  intro leaf mem
  rw [leaves_place, Array.mem_push] at mem
  rcases mem with old | rfl
  · exact genuine leaf old
  · exact ⟨placement, batcher.generator, rfl⟩

private theorem Genuine.placeInCluster (genuine : batcher.Genuine) (spread : Spread) (anchor : Anchor) :
    (batcher.placeInCluster spread anchor).Genuine := by
  have drawn : (batcher.draw (spread.place anchor.position anchor.direction)).2.Genuine := genuine
  rw [placeInCluster_eq]
  exact drawn.place _

private theorem Genuine.apply (genuine : batcher.Genuine) (change : Change) : (batcher.apply change).Genuine := by
  cases change with
  | addLeaf placement => exact genuine.place placement
  | addLeaves placements =>
    have all : (placements.foldl Batcher.place batcher).Genuine := by
      induction placements generalizing batcher with
      | nil => exact genuine
      | cons placement placements ih => exact ih (genuine.place placement)
    exact all
  | addCluster anchor count spread =>
    have all : (Nat.repeat (Batcher.placeInCluster spread anchor) count batcher).Genuine := by
      induction count with
      | zero => exact genuine
      | succ count ih => exact ih.placeInCluster spread anchor
    exact all
  | clear => exact nofun
  | rebuild => exact genuine

private theorem Genuine.run (genuine : batcher.Genuine) (changes : List Change) :
    (batcher.run changes).Genuine := by
  induction changes generalizing batcher with
  | nil => exact genuine
  | cons change changes ih => exact ih (genuine.apply change)

/-- What holds for all leaves of all batchers with some settings holds for all leaves that the settings
give, and the other way round. -/
theorem forall_leaves_iff {settings : LeafSettings} {property : Leaf → Prop} :
    (∀ generator changes, ∀ leaf ∈ (({ settings, generator } : Batcher).run changes).leaves,
      property leaf) ↔ ∀ leaf, settings.Gives leaf → property leaf := by
  constructor
  · rintro all leaf ⟨placement, generator, rfl⟩
    refine all generator [.addLeaf placement] _ ?_
    exact Array.mem_push_self
  · intro all generator changes leaf mem
    have start : ({ settings, generator } : Batcher).Genuine := nofun
    have same : (({ settings, generator } : Batcher).run changes).settings = settings :=
      (run_keeps (packed_clear { settings, generator }) changes).2
    have given := start.run changes leaf mem
    rw [same] at given
    exact all leaf given

end Batcher

/-! ## Rows

Leaves read back from the rows of their batches. A row keeps everything but the number of the picture bit for
bit. That number stands there as a single-precision one, so it can be read back as long as it has no more
than 24 bits.
-/

namespace Batch.Row

/-- The leaf that a row describes. -/
def leaf (row : Row) : Leaf where
  position := ⟨row.data.x, row.data.y, row.data.z⟩
  rotation := row.rotation
  scale := row.scale
  color := row.color
  variant := row.data.w.toUInt32

/-- Whatever the row of a leaf loses, it loses of the number of its picture. -/
theorem leaf_ofLeaf (leaf : Leaf) :
    (ofLeaf leaf).leaf = { leaf with variant := leaf.variant.toFloat32.toUInt32 } := rfl

private theorem leaf_ofLeaf_eq_iff (leaf : Leaf) :
    (ofLeaf leaf).leaf = leaf ↔ leaf.variant.toFloat32.toUInt32 = leaf.variant := by
  rw [leaf_ofLeaf]
  exact ⟨congrArg Leaf.variant, fun same => by rw [same]⟩

private theorem map_leaf_eq_iff (leaves : List Leaf) :
    (leaves.map ofLeaf).map leaf = leaves ↔ ∀ leaf ∈ leaves, (ofLeaf leaf).leaf = leaf := by
  induction leaves with
  | nil => exact iff_of_true rfl nofun
  | cons leaf leaves ih => rw [List.map_cons, List.map_cons, List.cons_eq_cons, ih, List.forall_mem_cons]

end Batch.Row

namespace LeafSettings

variable {settings : LeafSettings}

private theorem rows_run (valid : settings.validate = .ok ()) (generator : Generator)
    (changes : List Batcher.Change) :
    let now := ({ settings, generator } : Batcher).run changes
    now.batches.flatMap Batch.rows = now.leaves.toList.map Batch.Row.ofLeaf := by
  intro now
  obtain ⟨packed, kept⟩ := Batcher.run_keeps (Batcher.packed_clear { settings, generator }) changes
  exact (packed.inPieces (congrArg (·.maxLeavesPerBatch.toNat) kept) (capacity_pos valid)).rows

/-- The first word that is not read back from its number. -/
theorem lost_word : (16777217 : UInt32).toFloat32.toUInt32 ≠ 16777217 := by decide +kernel

/-- All leaves of accepted settings can be read back if and only if no picture has a number of more than 24 bits. -/
theorem all_read_back_iff (accepted : settings.Accepted) :
    (∀ leaf, settings.Gives leaf → (Batch.Row.ofLeaf leaf).leaf = leaf) ↔
      settings.atlasVariations.toNat ≤ 2 ^ 24 + 1 := by
  constructor
  · intro all
    by_contra many
    have last := settings.toNat_lastVariant
    have first : (16777217 : UInt32) ≤ settings.lastVariant := by
      rw [UInt32.le_iff_toNat_le, show (16777217 : UInt32).toNat = 2 ^ 24 + 1 from rfl]
      omega
    obtain ⟨leaf, given, variant⟩ := accepted.gives_variant first
    have kept := (Batch.Row.leaf_ofLeaf_eq_iff leaf).mp (all leaf given)
    rw [variant] at kept
    exact lost_word kept
  · intro few leaf given
    have below := given.variant_lt
    exact (Batch.Row.leaf_ofLeaf_eq_iff leaf).mpr (Scalar.toUInt32_of_small (by omega))

/-- What the rows of a batcher with accepted settings tell of its leaves. There is one row for each leaf, in order,
and from it the place, the turn, the size and the color are read back bit for bit. Pictures have numbers
below that of pictures, of which there is at least one. All leaves can be read back, whatever words are
drawn, if and only if there are no more than `2 ^ 24 + 1` pictures: the next picture's number is rounded to that of
another. -/
theorem rows_tell_leaves_iff (valid : settings.validate = .ok ()) :
    (∀ generator changes,
      let now := ({ settings, generator } : Batcher).run changes
      now.batches.flatMap Batch.rows = now.leaves.toList.map Batch.Row.ofLeaf ∧
      ∀ leaf ∈ now.leaves, leaf.variant.toNat < max settings.atlasVariations.toNat 1 ∧
        (Batch.Row.ofLeaf leaf).leaf = { leaf with variant := leaf.variant.toFloat32.toUInt32 }) ∧
    ((∀ generator changes,
      let now := ({ settings, generator } : Batcher).run changes
      (now.batches.flatMap Batch.rows).map Batch.Row.leaf = now.leaves.toList) ↔
      settings.atlasVariations.toNat ≤ 2 ^ 24 + 1) := by
  refine ⟨fun generator changes => ⟨rows_run valid generator changes, fun leaf mem => ⟨?_, rfl⟩⟩, ?_⟩
  · exact (Batcher.forall_leaves_iff.mpr fun _ given => given.variant_lt) generator changes leaf mem
  · rw [← all_read_back_iff (validate_ok_iff.mp valid), ← Batcher.forall_leaves_iff]
    refine forall₂_congr fun generator changes => ?_
    have rows := rows_run valid generator changes
    dsimp only at rows ⊢
    rw [rows, Batch.Row.map_leaf_eq_iff]
    simp only [Array.mem_toList_iff]

/-- All leaves with one of the four usual pictures come back from their rows. With as many pictures as there can be,
the first leaf of the seed below comes back with another one. -/
theorem large_pictures_are_lost :
    let usual : LeafSettings := {}
    let many : LeafSettings := { atlasVariations := 4294967295 }
    let lost := ((many.drawLeaf ⟨.zero, .unitY⟩).run (.ofSeed 0)).1
    usual.validate = .ok () ∧
    (∀ generator changes,
      let now := ({ settings := usual, generator } : Batcher).run changes
      (now.batches.flatMap Batch.rows).map Batch.Row.leaf = now.leaves.toList) ∧
    many.validate = .ok () ∧
    (¬ ∀ generator changes,
      let now := ({ settings := many, generator } : Batcher).run changes
      (now.batches.flatMap Batch.rows).map Batch.Row.leaf = now.leaves.toList) ∧
    lost.variant = 527549474 ∧ (Batch.Row.ofLeaf lost).leaf.variant = 527549472 := by
  intro usual many lost
  have few : ({} : LeafSettings).validate = .ok () := rfl
  have valid : ({ atlasVariations := 4294967295 } : LeafSettings).validate = .ok () := rfl
  have drawn : lost.variant = 527549474 := by decide +kernel
  have stored : (527549474 : UInt32).toFloat32.toUInt32 = 527549472 := by decide +kernel
  refine ⟨few, (rows_tell_leaves_iff few).2.mpr (by decide), valid, ?_, drawn, ?_⟩
  · rw [(rows_tell_leaves_iff valid).2]
    decide
  · rw [Batch.Row.leaf_ofLeaf, drawn]
    exact stored

end LeafSettings

/-! ## Sizes

Sizes and colors of leaves. Colors and factors stay in their ranges, and rounding keeps the order of products
with the size that the factors are taken of. What is not checked is that the products are numbers of the
format: the smallest may vanish and the largest may be infinite.
-/

/-- An opaque color of the ranges. -/
structure TintRanges.Covers (tint : TintRanges) (color : Color) : Prop where
  red : tint.r.1 ≤ color.r ∧ color.r ≤ tint.r.2
  green : tint.g.1 ≤ color.g ∧ color.g ≤ tint.g.2
  blue : tint.b.1 ≤ color.b ∧ color.b ≤ tint.b.2
  alpha : color.a = 1

private theorem Span.draw_within {ends : Float32 × Float32} (span : Span ends) (g : Generator) :
    ends.1 ≤ ((inRange ends).run g).1 ∧ ((inRange ends).run g).1 ≤ ends.2 := by
  obtain ⟨low, most, high⟩ := inRange_bounds span.sound span.high g
  exact ⟨low, Scalar.le_trans most high⟩

namespace LeafSettings

variable {settings : LeafSettings}

/-- The smallest size of a leaf. -/
def smallest (settings : LeafSettings) : Float32 := settings.sizeVariation.1 * settings.leafSize

/-- The size that no leaf is larger than. -/
def largest (settings : LeafSettings) : Float32 := settings.sizeVariation.2 * settings.leafSize

/-- The largest size that is drawn. It may be below the one that no leaf is larger than, since the scale of a
range is rounded. -/
def largestDrawn (settings : LeafSettings) : Float32 :=
  greatest settings.sizeVariation * settings.leafSize

namespace Accepted

private theorem tint_covers (accepted : settings.Accepted) (g : Generator) :
    settings.tint.Covers (settings.drawColor.run g).1 := by
  rw [drawColor_parts]
  exact ⟨accepted.red.draw_within _, accepted.green.draw_within _, accepted.blue.draw_within _, rfl⟩

/-- Products with the size are in the order of the factors. -/
theorem scale_mono (accepted : settings.Accepted) {factor factor' : Float32} (finite : factor.isFinite)
    (finite' : factor'.isFinite) (ordered : factor ≤ factor') :
    factor * settings.leafSize ≤ factor' * settings.leafSize :=
  product_mono finite finite' accepted.leafSize.finite ordered
    (accepted.leafSize.nonneg.value_nonneg accepted.leafSize.finite)

private theorem scale_bounds (accepted : settings.Accepted) (g : Generator) :
    let scale := ((inRange settings.sizeVariation).run g).1 * settings.leafSize
    settings.smallest ≤ scale ∧ scale ≤ settings.largestDrawn ∧ settings.largestDrawn ≤ settings.largest := by
  have span := accepted.sizeVariation
  obtain ⟨low, most, high⟩ := inRange_bounds span.sound span.high g
  have top := (between_of_le span.low span.high (Scalar.le_trans low most) high).finite
  have drawn := (between_of_le span.low top low most).finite
  exact ⟨accepted.scale_mono span.low drawn low, accepted.scale_mono drawn top most,
    accepted.scale_mono top span.high high⟩

/-- A leaf whose size is drawn with a given word. -/
theorem gives_scale (accepted : settings.Accepted) (word : UInt32) : ∃ leaf, settings.Gives leaf ∧
    ∃ g : Generator, g.stream g.position = word ∧
      leaf.scale = ((inRange settings.sizeVariation).run g).1 * settings.leafSize := by
  let g := pointing fun _ => word
  have later : g.stream 6 = word := stream_pointing (fun _ => word) (by decide)
  refine ⟨_, ⟨⟨.zero, .zero⟩, g, rfl⟩, settings.turned g, ?_, (drawLeaf_parts ..).2.1⟩
  rw [accepted.turned_pointing, position_pointing]
  exact later

/-- The smallest size is drawn too. -/
theorem gives_smallest (accepted : settings.Accepted) :
    ∃ leaf, settings.Gives leaf ∧ leaf.scale = settings.smallest := by
  obtain ⟨leaf, given, g, word, scale⟩ := accepted.gives_scale 0
  have place := inRange_first accepted.sizeVariation.sound accepted.sizeVariation.high word
  have away := accepted.smallest.level_pos
  refine ⟨leaf, given, ?_⟩
  rw [scale, eq_of_level_eq place (by omega)]
  rfl

private theorem gives_largestDrawn (accepted : settings.Accepted) :
    ∃ leaf, settings.Gives leaf ∧ leaf.scale = settings.largestDrawn := by
  obtain ⟨leaf, given, g, word, scale⟩ := accepted.gives_scale 0xFFFFFFFF
  refine ⟨leaf, given, ?_⟩
  rw [scale, inRange_last accepted.sizeVariation.sound accepted.sizeVariation.high word]
  rfl

/-- All sizes are positive and finite if and only if the outermost ones are. -/
theorem all_positive_iff (accepted : settings.Accepted) :
    (∀ leaf, settings.Gives leaf → Positive leaf.scale) ↔
      0 < settings.smallest ∧ settings.largestDrawn.isFinite := by
  constructor
  · intro all
    obtain ⟨small, given, least⟩ := accepted.gives_smallest
    obtain ⟨large, given', most⟩ := accepted.gives_largestDrawn
    exact ⟨least ▸ (all small given).above, most ▸ (all large given').finite⟩
  · rintro ⟨smallestPos, bounded⟩ leaf ⟨placement, g, rfl⟩
    obtain ⟨least, most, -⟩ := accepted.scale_bounds (settings.turned g)
    rw [← (drawLeaf_parts settings placement g).2.1] at least most
    have above := lt_iff.mp smallestPos
    have least := le_iff.mp least
    have positive := lt_iff.mpr ⟨above.1, least.2.1, Int.lt_of_lt_of_le above.2.2 least.2.2⟩
    have up := le_iff.mpr ⟨above.1, least.2.1, Int.le_of_lt (lt_iff.mp positive).2.2⟩
    exact ⟨(between_of_le rfl bounded up most).finite, positive⟩

end Accepted

/-- What the sizes and colors of leaves with accepted settings are, whatever words are drawn. Sizes lie between the
products of the size with the two ends of its range, and colors lie in their ranges and are opaque. That
all sizes are positive and finite is left to the settings: it holds if and only if the smallest product
does not vanish and the largest that is drawn is not infinite. -/
theorem looks_in_range_iff (valid : settings.validate = .ok ()) :
    (∀ generator changes, ∀ leaf ∈ (({ settings, generator } : Batcher).run changes).leaves,
      settings.smallest ≤ leaf.scale ∧ leaf.scale ≤ settings.largest ∧ settings.tint.Covers leaf.color) ∧
    ((∀ generator changes, ∀ leaf ∈ (({ settings, generator } : Batcher).run changes).leaves,
      Positive leaf.scale) ↔ 0 < settings.smallest ∧ settings.largestDrawn.isFinite) := by
  have accepted := validate_ok_iff.mp valid
  constructor
  · rw [Batcher.forall_leaves_iff]
    rintro leaf ⟨placement, g, rfl⟩
    obtain ⟨-, scale, color, -⟩ := drawLeaf_parts settings placement g
    obtain ⟨least, most, last⟩ := accepted.scale_bounds (settings.turned g)
    rw [scale, color]
    exact ⟨least, Scalar.le_trans most last, accepted.tint_covers _⟩
  · rw [Batcher.forall_leaves_iff, accepted.all_positive_iff]

/-- Sizes of the usual settings are positive and finite. Where the size and its factors are all as large as
`1e20` the sizes are infinite, and where they are all as small as `1e-30` there is nothing left of them. -/
theorem extreme_sizes_are_accepted :
    let usual : LeafSettings := {}
    let large : LeafSettings := { leafSize := 1e20, sizeVariation := (1e20, 1e20) }
    let small : LeafSettings := { leafSize := 1e-30, sizeVariation := (1e-30, 1e-30) }
    (usual.validate = .ok () ∧
      ∀ generator changes, ∀ leaf ∈ (({ settings := usual, generator } : Batcher).run changes).leaves,
        Positive leaf.scale) ∧
    (large.validate = .ok () ∧
      ¬ ∀ generator changes, ∀ leaf ∈ (({ settings := large, generator } : Batcher).run changes).leaves,
        Positive leaf.scale) ∧
    small.validate = .ok () ∧
      ¬ ∀ generator changes, ∀ leaf ∈ (({ settings := small, generator } : Batcher).run changes).leaves,
        Positive leaf.scale := by
  have valid : ({} : LeafSettings).validate = .ok () := rfl
  have valid' : ({ leafSize := 1e20, sizeVariation := (1e20, 1e20) } : LeafSettings).validate = .ok () := rfl
  have valid'' : ({ leafSize := 1e-30, sizeVariation := (1e-30, 1e-30) } : LeafSettings).validate = .ok () :=
    rfl
  refine ⟨⟨valid, (looks_in_range_iff valid).2.mpr (by decide +kernel)⟩, ⟨valid', ?_⟩, valid'', ?_⟩
  · rw [(looks_in_range_iff valid').2]
    decide +kernel
  · rw [(looks_in_range_iff valid'').2]
    decide +kernel

end LeafSettings

end Sapling
