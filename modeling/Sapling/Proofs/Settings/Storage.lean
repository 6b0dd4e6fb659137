import Sapling.Proofs.Data.Omission
import Sapling.Proofs.Grammar.Tables
import Sapling.Proofs.Settings.Numbers
import Sapling.Transform

/-! Settings are read back as they were stored. Most structures have a default for each of their fields,
so any of those may be left out of what is stored: what is read then has the defaults in their places, and
is the same otherwise. -/
namespace Sapling

open Data Data.Codec Data.Fields

/-! ## Turtle -/

namespace ControlJitter

/-- The settings with defaults for fields that were left out. -/
def withDefaults (gone : Omission) (control : ControlJitter) : ControlJitter :=
  let absent : ControlJitter := {}
  { lateral := gone.pick "lateral" absent.lateral control.lateral
    vertical := gone.pick "vertical" absent.vertical control.vertical }

private theorem readsBack {control : ControlJitter} (survive : ∀ x ∈ control.numbers, single.Faithful x)
    (gone : Omission) : codec.ReadsBack gone control (control.withDefaults gone) := by
  simp only [numbers, List.forall_mem_cons] at survive
  obtain ⟨lateral, low, high, -⟩ := survive
  exact read_next rfl <|
    read_next (optional_simple rfl (single_simple lateral) _) <|
    read_next (optional_simple rfl (range_simple low high) _) rfl

end ControlJitter

namespace Taper

def withDefaults (gone : Omission) (taper : Taper) : Taper :=
  let absent : Taper := {}
  { minWidth := gone.pick "min_width" absent.minWidth taper.minWidth
    maxWidth := gone.pick "max_width" absent.maxWidth taper.maxWidth
    exponent := gone.pick "exponent" absent.exponent taper.exponent
    maxHorizontalDistance := gone.pick "max_horizontal_distance" absent.maxHorizontalDistance
      taper.maxHorizontalDistance
    trunkWidth := gone.pick "trunk_width" absent.trunkWidth taper.trunkWidth }

private theorem readsBack {taper : Taper} (survive : ∀ x ∈ taper.numbers, single.Faithful x)
    (gone : Omission) : codec.ReadsBack gone taper (taper.withDefaults gone) := by
  simp only [numbers, List.forall_mem_append, List.forall_mem_cons] at survive
  obtain ⟨⟨minWidth, maxWidth, exponent, distance, -⟩, trunk⟩ := survive
  have trunkWidth : (option single).Simple taper.trunkWidth := option_simple fun width given => by
    have faithful := trunk width (Option.mem_toList.mpr given)
    obtain ⟨d, written, -⟩ := single_written faithful
    exact ⟨single_simple faithful, by rw [written]; trivial⟩
  exact read_next rfl <|
    read_next (optional_simple rfl (single_simple minWidth) _) <|
    read_next (optional_simple rfl (single_simple maxWidth) _) <|
    read_next (optional_simple rfl (single_simple exponent) _) <|
    read_next (optional_simple rfl (single_simple distance) _) <|
    read_next (optional_simple rfl trunkWidth _) rfl

end Taper

namespace TurtleSettings

def withDefaults (gone : Omission) (settings : TurtleSettings) : TurtleSettings :=
  let absent : TurtleSettings := {}
  { baseLength := gone.pick "base_length" absent.baseLength settings.baseLength
    lengthVariance := gone.pick "length_variance" absent.lengthVariance settings.lengthVariance
    baseAngle := gone.pick "base_angle" absent.baseAngle settings.baseAngle
    angleVariance := gone.pick "angle_variance" absent.angleVariance settings.angleVariance
    branchProbability := gone.pick "branch_probability" absent.branchProbability
      settings.branchProbability
    controlJitter := gone.pick "control_jitter" absent.controlJitter
      (settings.controlJitter.withDefaults (gone.within "control_jitter"))
    leafThreshold := gone.pick "leaf_threshold" absent.leafThreshold settings.leafThreshold
    taper := gone.pick "taper" absent.taper (settings.taper.withDefaults (gone.within "taper")) }

private theorem readsBack {settings : TurtleSettings}
    (survive : ∀ x ∈ settings.numbers, single.Faithful x) (gone : Omission) :
    codec.ReadsBack gone settings (settings.withDefaults gone) := by
  simp only [numbers, List.forall_mem_append, List.forall_mem_cons] at survive
  obtain ⟨⟨⟨length, lengthVariance, angle, angleVariance, probability, threshold, -⟩, control⟩,
    taper⟩ := survive
  exact read_next rfl <|
    read_next (optional_simple rfl (single_simple length) _) <|
    read_next (optional_simple rfl (single_simple lengthVariance) _) <|
    read_next (optional_simple rfl (single_simple angle) _) <|
    read_next (optional_simple rfl (single_simple angleVariance) _) <|
    read_next (optional_simple rfl (single_simple probability) _) <|
    read_next (optional_withoutFields rfl (ControlJitter.readsBack control _) _) <|
    read_next (optional_simple rfl (single_simple threshold) _) <|
    read_next (optional_withoutFields rfl (Taper.readsBack taper _) _) rfl

end TurtleSettings

/-! ## Leaves -/

namespace InstanceProperties

def withDefaults (gone : Omission) (properties : InstanceProperties) : InstanceProperties :=
  let absent : InstanceProperties := {}
  { data := gone.pick "data" absent.data properties.data
    rotation := gone.pick "rotation" absent.rotation properties.rotation
    scale := gone.pick "scale" absent.scale properties.scale
    color := gone.pick "color" absent.color properties.color }

private theorem readsBack (properties : InstanceProperties) (gone : Omission) :
    codec.ReadsBack gone properties (properties.withDefaults gone) :=
  read_next rfl <|
  read_next (optional_simple rfl (text_simple properties.data) _) <|
  read_next (optional_simple rfl (text_simple properties.rotation) _) <|
  read_next (optional_simple rfl (text_simple properties.scale) _) <|
  read_next (optional_simple rfl (text_simple properties.color) _) rfl

end InstanceProperties

namespace TintRanges

def withDefaults (gone : Omission) (tint : TintRanges) : TintRanges :=
  let absent : TintRanges := {}
  { r := gone.pick "r" absent.r tint.r
    g := gone.pick "g" absent.g tint.g
    b := gone.pick "b" absent.b tint.b }

private theorem readsBack {tint : TintRanges} (survive : ∀ x ∈ tint.numbers, single.Faithful x)
    (gone : Omission) : codec.ReadsBack gone tint (tint.withDefaults gone) := by
  simp only [numbers, List.forall_mem_cons] at survive
  obtain ⟨r, r', g, g', b, b', -⟩ := survive
  exact read_next rfl <|
    read_next (optional_simple rfl (range_simple r r') _) <|
    read_next (optional_simple rfl (range_simple g g') _) <|
    read_next (optional_simple rfl (range_simple b b') _) rfl

end TintRanges

namespace LeafSettings

def withDefaults (gone : Omission) (settings : LeafSettings) : LeafSettings :=
  let absent : LeafSettings := {}
  { leafSize := gone.pick "leaf_size" absent.leafSize settings.leafSize
    sizeVariation := gone.pick "size_variation" absent.sizeVariation settings.sizeVariation
    atlasVariations := gone.pick "atlas_variations" absent.atlasVariations settings.atlasVariations
    maxLeavesPerBatch := gone.pick "max_leaves_per_batch" absent.maxLeavesPerBatch
      settings.maxLeavesPerBatch
    tint := gone.pick "tint" absent.tint (settings.tint.withDefaults (gone.within "tint"))
    orientationJitterDegrees := gone.pick "orientation_jitter_degrees"
      absent.orientationJitterDegrees settings.orientationJitterDegrees
    properties := gone.pick "properties" absent.properties
      (settings.properties.withDefaults (gone.within "properties")) }

private theorem readsBack {settings : LeafSettings} (survive : ∀ x ∈ settings.numbers, single.Faithful x)
    (gone : Omission) : codec.ReadsBack gone settings (settings.withDefaults gone) := by
  simp only [numbers, List.forall_mem_append, List.forall_mem_cons] at survive
  obtain ⟨⟨size, least, most, turn, -⟩, tint⟩ := survive
  exact read_next rfl <|
    read_next (optional_simple rfl (single_simple size) _) <|
    read_next (optional_simple rfl (range_simple least most) _) <|
    read_next (optional_simple rfl (word32_simple settings.atlasVariations) _) <|
    read_next (optional_simple rfl (word64_simple settings.maxLeavesPerBatch) _) <|
    read_next (optional_withoutFields rfl (TintRanges.readsBack tint _) _) <|
    read_next (optional_simple rfl (single_simple turn) _) <|
    read_next (optional_withoutFields rfl (settings.properties.readsBack _) _) rfl

end LeafSettings

/-! ## Growth -/

namespace Spread

/-- Settling what a spread is stored as changes nothing, and all fields of its kind are found. -/
theorem faithful {spread : Spread} (survive : ∀ x ∈ spread.numbers, single.Faithful x) :
    codec.Faithful spread := by
  cases spread with
  | point => rfl
  | sphere radius =>
    simp only [numbers, List.forall_mem_cons] at survive
    have settled : (codec.write (sphere radius)).settle? = some (codec.write (sphere radius)) := by
      simp [codec, Value.settle?, Value.settleFields?, settle?_ofSingle survive.1]
    exact read_next settled <|
      read_next (required_eq (a := "sphere") rfl rfl) <|
      read_next (required_eq rfl survive.1) rfl
  | radial length thickness =>
    simp only [numbers, List.forall_mem_cons] at survive
    obtain ⟨byLength, byThickness, -⟩ := survive
    have settled : (codec.write (radial length thickness)).settle? =
        some (codec.write (radial length thickness)) := by
      simp [codec, Value.settle?, Value.settleFields?, settle?_ofSingle byLength,
        settle?_ofSingle byThickness]
    exact read_next settled <|
      read_next (required_eq (a := "radial") rfl rfl) <|
      read_next (required_eq rfl byLength) <|
      read_next (required_eq rfl byThickness) rfl

end Spread

namespace GrowthTiming

def withDefaults (gone : Omission) (timing : GrowthTiming) : GrowthTiming :=
  let absent : GrowthTiming := {}
  { totalGrowthTime := gone.pick "total_growth_time" absent.totalGrowthTime timing.totalGrowthTime
    parallelBranches := gone.pick "parallel_branches" absent.parallelBranches
      timing.parallelBranches
    branchOverlapDelay := gone.pick "branch_overlap_delay" absent.branchOverlapDelay
      timing.branchOverlapDelay
    overlapJitter := gone.pick "overlap_jitter" absent.overlapJitter timing.overlapJitter
    durationJitter := gone.pick "duration_jitter" absent.durationJitter timing.durationJitter
    settleDelay := gone.pick "settle_delay" absent.settleDelay timing.settleDelay
    leafClusterStagger := gone.pick "leaf_cluster_stagger" absent.leafClusterStagger
      timing.leafClusterStagger
    leavesPerCluster := gone.pick "leaves_per_cluster" absent.leavesPerCluster
      timing.leavesPerCluster
    leafSpread := gone.pick "leaf_spread" absent.leafSpread timing.leafSpread }

private theorem readsBack {timing : GrowthTiming} (survive : ∀ x ∈ timing.numbers, single.Faithful x)
    {gone : Omission} (whole : ∀ name path, gone ("leaf_spread" :: name :: path) = false) :
    codec.ReadsBack gone timing (timing.withDefaults gone) := by
  simp only [numbers, List.forall_mem_append, List.forall_mem_cons] at survive
  obtain ⟨⟨total, overlap, overlapLow, overlapHigh, durationLow, durationHigh, settleLow, settleHigh,
    stagger, -⟩, spread⟩ := survive
  exact read_next rfl <|
    read_next (optional_simple rfl (single_simple total) _) <|
    read_next (optional_simple rfl (word32_simple timing.parallelBranches) _) <|
    read_next (optional_simple rfl (single_simple overlap) _) <|
    read_next (optional_simple rfl (range_simple overlapLow overlapHigh) _) <|
    read_next (optional_simple rfl (range_simple durationLow durationHigh) _) <|
    read_next (optional_simple rfl (range_simple settleLow settleHigh) _) <|
    read_next (optional_simple rfl (single_simple stagger) _) <|
    read_next (optional_simple rfl
      (pair_simple (p := timing.leavesPerCluster) (word32_simple _).faithful
        (word32_simple _).faithful) _) <|
    read_next (optional_withoutFields rfl ((Spread.faithful spread).readsBack whole) _) rfl

end GrowthTiming

private theorem Color.faithful {color : Color} (survive : ∀ x ∈ color.toList, single.Faithful x) :
    codec.Faithful color := by
  simp only [toList, List.forall_mem_cons] at survive
  obtain ⟨r, g, b, a, -⟩ := survive
  exact read_next rfl <| read_next (required_eq rfl r) <| read_next (required_eq rfl g) <|
    read_next (required_eq rfl b) <| read_next (required_eq rfl a) rfl

namespace BarkPalette

def withDefaults (gone : Omission) (palette : BarkPalette) : BarkPalette :=
  let absent : BarkPalette := {}
  { baseColors := gone.pick "base_colors" absent.baseColors palette.baseColors
    colorVariance := gone.pick "color_variance" absent.colorVariance palette.colorVariance }

private theorem readsBack {palette : BarkPalette} (survive : ∀ x ∈ palette.numbers, single.Faithful x)
    (gone : Omission) : codec.ReadsBack gone palette (palette.withDefaults gone) := by
  rw [numbers, List.forall_mem_cons, List.forall_mem_flatMap] at survive
  have colors : (list Color.codec).Simple palette.baseColors :=
    list_simple fun color held => Color.faithful (survive.2 color held)
  exact read_next rfl <|
    read_next (optional_simple rfl colors _) <|
    read_next (optional_simple rfl (single_simple survive.1) _) rfl

end BarkPalette

namespace MeshSettings

def withDefaults (gone : Omission) (settings : MeshSettings) : MeshSettings :=
  let absent : MeshSettings := {}
  { curveSegments := gone.pick "curve_segments" absent.curveSegments settings.curveSegments
    radialSegments := gone.pick "radial_segments" absent.radialSegments settings.radialSegments }

private theorem readsBack (settings : MeshSettings) (gone : Omission) :
    codec.ReadsBack gone settings (settings.withDefaults gone) :=
  read_next rfl <|
  read_next (optional_simple rfl (word32_simple settings.curveSegments) _) <|
  read_next (optional_simple rfl (word32_simple settings.radialSegments) _) rfl

end MeshSettings

/-! ## Grammars -/

private theorem Preset.simple (preset : Preset) : codec.Simple preset := by
  cases preset <;> exact ⟨rfl, nofun⟩

private theorem Rule.faithful (rule : Rule) : codec.Faithful rule :=
  read_next rfl <|
  read_next (required_eq rfl (char_simple rule.symbol).faithful) <|
  read_next (required_eq rfl (chars_simple rule.replacement).faithful) rfl

namespace RuleSet

private theorem simple (table : RuleSet) : codec.Simple table := by
  obtain ⟨faithful, whole⟩ := list_simple (c := Rule.codec)
    fun rule (_ : rule ∈ table.rules) => rule.faithful
  refine ⟨?_, whole⟩
  change ((list Rule.codec).read? ((list Rule.codec).write table.rules)).map ofList = some table
  rw [Faithful] at faithful
  rw [faithful, Option.map_some, ofList_rules]

end RuleSet

namespace LSystem

def withDefaults (gone : Omission) (system : LSystem) : LSystem :=
  let absent : LSystem := {}
  { start := gone.pick "axiom" absent.start system.start
    rules := gone.pick "rules" absent.rules system.rules
    iterations := gone.pick "iterations" absent.iterations system.iterations }

private theorem readsBack (system : LSystem) (gone : Omission) :
    codec.ReadsBack gone system (system.withDefaults gone) :=
  read_next rfl <|
  read_next (optional_simple rfl (chars_simple system.start) _) <|
  read_next (optional_simple rfl (RuleSet.simple system.rules) _) <|
  read_next (optional_simple rfl (word32_simple system.iterations) _) rfl

end LSystem

namespace GrammarSettings

def withDefaults (gone : Omission) (settings : GrammarSettings) : GrammarSettings :=
  let absent : GrammarSettings := {}
  { preset := gone.pick "preset" absent.preset settings.preset
    start := gone.pick "axiom" absent.start settings.start
    rules := gone.pick "rules" absent.rules settings.rules
    iterations := gone.pick "iterations" absent.iterations settings.iterations }

private theorem readsBack (settings : GrammarSettings) (gone : Omission) :
    codec.ReadsBack gone settings (settings.withDefaults gone) :=
  have start : (option chars).Simple settings.start :=
    option_simple fun word _ => ⟨chars_simple word, trivial⟩
  have rules : (list chars).Simple settings.rules :=
    list_simple fun rule _ => (chars_simple rule).faithful
  have iterations : (option word32).Simple settings.iterations :=
    option_simple fun n _ => ⟨word32_simple n, trivial⟩
  read_next rfl <|
  read_next (optional_simple rfl settings.preset.simple _) <|
  read_next (optional_simple rfl start _) <|
  read_next (optional_simple rfl rules _) <|
  read_next (optional_simple rfl iterations _) rfl

end GrammarSettings

/-! ## Transforms -/

def Vec3.toList (v : Vec3) : List Float32 := [v.x, v.y, v.z]

def Quat.toList (q : Quat) : List Float32 := [q.x, q.y, q.z, q.w]

def Transform.numbers (t : Transform) : List Float32 :=
  t.position.toList ++ t.rotation.toList ++ t.scale.toList

private theorem Vec3.faithful {v : Vec3} (survive : ∀ x ∈ v.toList, single.Faithful x) :
    codec.Faithful v :=
  read_next (list_simple survive).faithful rfl

private theorem Quat.faithful {q : Quat} (survive : ∀ x ∈ q.toList, single.Faithful x) :
    codec.Faithful q :=
  read_next (list_simple survive).faithful rfl

private theorem Transform.faithful {t : Transform} (survive : ∀ x ∈ t.numbers, single.Faithful x) :
    codec.Faithful t := by
  simp only [numbers, List.forall_mem_append] at survive
  obtain ⟨⟨position, rotation⟩, scale⟩ := survive
  exact read_next rfl <|
    read_next (required_eq rfl (Vec3.faithful position)) <|
    read_next (required_eq rfl (Quat.faithful rotation)) <|
    read_next (required_eq rfl (Vec3.faithful scale)) rfl

/-! ## All settings -/

namespace TreeSettings

def withDefaults (gone : Omission) (settings : TreeSettings) : TreeSettings :=
  let absent : TreeSettings := {}
  { grammar := gone.pick "grammar" absent.grammar
      (settings.grammar.withDefaults (gone.within "grammar"))
    turtle := gone.pick "turtle" absent.turtle (settings.turtle.withDefaults (gone.within "turtle"))
    mesh := gone.pick "mesh" absent.mesh (settings.mesh.withDefaults (gone.within "mesh"))
    leaves := gone.pick "leaves" absent.leaves (settings.leaves.withDefaults (gone.within "leaves"))
    timing := gone.pick "timing" absent.timing (settings.timing.withDefaults (gone.within "timing"))
    bark := gone.pick "bark" absent.bark (settings.bark.withDefaults (gone.within "bark"))
    seed := gone.pick "seed" absent.seed settings.seed }

/-- The fields of a spread have no defaults, so none of them is left out. -/
def Spared (gone : Omission) : Prop :=
  ∀ name path, gone ("timing" :: "leaf_spread" :: name :: path) = false

private theorem readsBack {settings : TreeSettings}
    (survive : ∀ x ∈ settings.numbers, single.Faithful x) {gone : Omission} (spared : Spared gone) :
    codec.ReadsBack gone settings (settings.withDefaults gone) := by
  simp only [numbers, List.forall_mem_append] at survive
  obtain ⟨⟨⟨turtle, leaves⟩, timing⟩, bark⟩ := survive
  have seed : (option word64).Simple settings.seed :=
    option_simple fun n _ => ⟨word64_simple n, trivial⟩
  exact read_next rfl <|
    read_next (optional_withoutFields rfl (settings.grammar.readsBack _) _) <|
    read_next (optional_withoutFields rfl (TurtleSettings.readsBack turtle _) _) <|
    read_next (optional_withoutFields rfl (settings.mesh.readsBack _) _) <|
    read_next (optional_withoutFields rfl (LeafSettings.readsBack leaves _) _) <|
    read_next (optional_withoutFields rfl (GrowthTiming.readsBack timing spared) _) <|
    read_next (optional_withoutFields rfl (BarkPalette.readsBack bark _) _) <|
    read_next (optional_simple rfl seed _) rfl

end TreeSettings

/-- Settings, L-systems and transforms are read back as they were stored, if printing and reading keeps
their numbers, all of them finite. Any fields may be left out of stored settings and of a stored L-system,
apart from those of a spread and of what stands in lists: their defaults are read instead, and nothing
else changes. -/
theorem stored_values_read_back :
    (∀ settings : TreeSettings, (∀ x ∈ settings.numbers, x.isFinite) →
      (∀ x ∈ settings.numbers, x.isFinite → single.Faithful x) →
      TreeSettings.codec.Faithful settings ∧
      ∀ gone, TreeSettings.Spared gone →
        TreeSettings.codec.ReadsBack gone settings (settings.withDefaults gone)) ∧
    (∀ system : LSystem, LSystem.codec.Faithful system ∧
      ∀ gone, LSystem.codec.ReadsBack gone system (system.withDefaults gone)) ∧
    ∀ transform : Transform, (∀ x ∈ transform.numbers, x.isFinite) →
      (∀ x ∈ transform.numbers, x.isFinite → single.Faithful x) →
      Transform.codec.Faithful transform := by
  refine ⟨fun settings finite survive => ?_, fun system => ?_, fun transform finite survive => ?_⟩
  · have survive (x : Float32) (held : x ∈ settings.numbers) := survive x held (finite x held)
    have spared : TreeSettings.Spared .nothing := fun _ _ => rfl
    exact ⟨.of_readsBack (TreeSettings.readsBack survive spared),
      fun gone spared => TreeSettings.readsBack survive spared⟩
  · exact ⟨.of_readsBack (system.readsBack .nothing), fun gone => system.readsBack gone⟩
  · exact Transform.faithful fun x held => survive x held (finite x held)

/-- A bonsai is read back without two of its groups and two of its numbers, and a transform is too. -/
theorem bonsai_without_leaves_reads_back :
    let bonsai := TreeSettings.ofPreset .bonsai
    let gone : Omission := fun path => path ∈ [["leaves"], ["turtle", "taper"],
      ["turtle", "control_jitter", "lateral"], ["timing", "parallel_branches"]]
    let transform := Transform.atPosition ⟨0.1, 2, -3⟩
    TreeSettings.codec.Faithful bonsai ∧
    TreeSettings.codec.ReadsBack gone bonsai { bonsai with
      leaves := {}
      turtle := { bonsai.turtle with
        taper := {}
        controlJitter := { bonsai.turtle.controlJitter with lateral := 0.4 } }
      timing := { bonsai.timing with parallelBranches := 2 } } ∧
    Transform.codec.Faithful transform := by
  have finite : ∀ x ∈ (TreeSettings.ofPreset .bonsai).numbers, x.isFinite := by decide +kernel
  have survive : ∀ x ∈ (TreeSettings.ofPreset .bonsai).numbers,
      single.read? (single.write x) = some x := by decide +kernel
  have placed : ∀ x ∈ (Transform.atPosition ⟨0.1, 2, -3⟩).numbers,
      x.isFinite ∧ single.read? (single.write x) = some x := by decide +kernel
  obtain ⟨settings, -, transforms⟩ := stored_values_read_back
  obtain ⟨whole, partly⟩ := settings _ finite fun x held _ => survive x held
  exact ⟨whole, partly _ fun _ _ => by simp,
    transforms _ (fun x held => (placed x held).1) fun x held _ => (placed x held).2⟩

/-- Not every finite number is kept. The shortest decimal of this one lies so close to the middle
between it and its neighbour that it is rounded to the middle first, and then to the neighbour. -/
example : ¬ single.Faithful (Float32.ofBits 0x15AE43FD) := by
  unfold Faithful
  decide +kernel

end Sapling
