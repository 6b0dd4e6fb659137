import Sapling.ConfigError
import Sapling.Foliage.Leaf
import Sapling.Grammar.Preset
import Sapling.Mesh.Tube
import Sapling.Random.Sampling
import Sapling.Scene.Host
import Sapling.Turtle.Settings
/-!
All settings of a tree, and the style that some of the named trees bring along: among them the pace of its
growth and the tints of its bark.
-/
namespace Sapling

open Sapling.Random

/-! ## Pace

The pace of growth: how long branches take, how many grow at once, and how leaves follow. All times are
in seconds.
-/

/-- How fast a tree grows (`GrowthTiming`). -/
structure GrowthTiming where
  /-- Shared out evenly among all branches. -/
  totalGrowthTime : Float32 := 15
  /-- The most branches that grow at once. -/
  parallelBranches : UInt32 := 2
  /-- The time from one branch to the next, before jitter. -/
  branchOverlapDelay : Float32 := 0.2
  overlapJitter : Float32 × Float32 := (0.8, 1.2)
  durationJitter : Float32 × Float32 := (0.7, 1.3)
  /-- The time that a branch rests when it has grown. -/
  settleDelay : Float32 × Float32 := (0.1, 0.3)
  /-- The time from one leaf cluster to the next. -/
  leafClusterStagger : Float32 := 0.02
  leavesPerCluster : UInt32 × UInt32 := (3, 5)
  leafSpread : Spread := .point
deriving DecidableEq, Repr

namespace GrowthTiming

/-- The fields in the order in which their faults are reported (`validate`). The counts of leaves are compared
as numbers, after rounding. -/
def validate (timing : GrowthTiming) : Validation := do
  Ensure.positive "total_growth_time" timing.totalGrowthTime
  if timing.parallelBranches = 0 then throw (.nonPositive "parallel_branches" 0)
  Ensure.positive "branch_overlap_delay" timing.branchOverlapDelay
  Ensure.ordered "overlap_jitter" timing.overlapJitter
  Ensure.positive "overlap_jitter.min" timing.overlapJitter.1
  Ensure.finite "branch_overlap_delay * overlap_jitter"
    (timing.branchOverlapDelay * timing.overlapJitter.2)
  Ensure.ordered "duration_jitter" timing.durationJitter
  Ensure.positive "duration_jitter.min" timing.durationJitter.1
  Ensure.finite "total_growth_time * duration_jitter"
    (timing.totalGrowthTime * timing.durationJitter.2)
  Ensure.ordered "settle_delay" timing.settleDelay
  Ensure.nonNegative "settle_delay.min" timing.settleDelay.1
  Ensure.positive "leaf_cluster_stagger" timing.leafClusterStagger
  Ensure.ordered "leaves_per_cluster"
    (timing.leavesPerCluster.1.toFloat32, timing.leavesPerCluster.2.toFloat32)
  timing.leafSpread.validate

def codec : Data.Codec GrowthTiming where
  write timing := .record [("total_growth_time", .ofSingle timing.totalGrowthTime),
    ("parallel_branches", Data.Codec.word32.write timing.parallelBranches),
    ("branch_overlap_delay", .ofSingle timing.branchOverlapDelay),
    ("overlap_jitter", Data.Codec.range.write timing.overlapJitter),
    ("duration_jitter", Data.Codec.range.write timing.durationJitter),
    ("settle_delay", Data.Codec.range.write timing.settleDelay),
    ("leaf_cluster_stagger", .ofSingle timing.leafClusterStagger),
    ("leaves_per_cluster",
      (Data.Codec.pair .word32 .word32).write timing.leavesPerCluster),
    ("leaf_spread", Spread.codec.write timing.leafSpread)]
  read? v := do
    let fields ← Data.Fields.ofValue? 9 v
    let absent : GrowthTiming := {}
    let totalGrowthTime ← fields.optional 0 "total_growth_time" .single absent.totalGrowthTime
    let parallelBranches ← fields.optional 1 "parallel_branches" .word32 absent.parallelBranches
    let branchOverlapDelay ←
      fields.optional 2 "branch_overlap_delay" .single absent.branchOverlapDelay
    let overlapJitter ← fields.optional 3 "overlap_jitter" .range absent.overlapJitter
    let durationJitter ← fields.optional 4 "duration_jitter" .range absent.durationJitter
    let settleDelay ← fields.optional 5 "settle_delay" .range absent.settleDelay
    let leafClusterStagger ←
      fields.optional 6 "leaf_cluster_stagger" .single absent.leafClusterStagger
    let leavesPerCluster ←
      fields.optional 7 "leaves_per_cluster" (.pair .word32 .word32) absent.leavesPerCluster
    let leafSpread ← fields.optional 8 "leaf_spread" Spread.codec absent.leafSpread
    some ⟨totalGrowthTime, parallelBranches, branchOverlapDelay, overlapJitter, durationJitter,
      settleDelay, leafClusterStagger, leavesPerCluster, leafSpread⟩

end GrowthTiming

/-! ## Bark

The bark of branches: base colors, and for each branch one of them, darker and a little shifted.
-/

/-- The colors of bark (`BarkPalette`). -/
structure BarkPalette where
  baseColors : List Color := [.rgb 0.46 0.33 0.22, .rgb 0.40 0.29 0.19, .rgb 0.52 0.39 0.27]
  /-- How far tints stray from their base color. -/
  colorVariance : Float32 := 0.1
deriving DecidableEq, Repr

namespace BarkPalette

/-- The variance at which shifts have the sizes below (`NOMINAL_VARIANCE`). -/
def nominalVariance : Float32 := 0.1

/-- How far the hue strays to either side (`HUE_SHIFT`). -/
def hueShift : Float32 × Float32 := (-0.02, 0.02)

/-- How far the saturation strays, rather up than down (`SATURATION_SHIFT`). -/
def saturationShift : Float32 × Float32 := (-0.05, 0.1)

/-- How much darker a tint is than its base color (`DARKEN`). -/
def darkening : Float32 × Float32 := (0.1, 0.25)

/-- The variance is a number that is not negative (`validate`). -/
def validate (palette : BarkPalette) : Validation :=
  Ensure.nonNegative "bark.color_variance" palette.colorVariance

/-- Draws a tint for a base color. -/
def drawTint (palette : BarkPalette) (base : Color) : Draw Color := do
  let k := palette.colorVariance / nominalVariance
  let hsv := base.toHsv
  let hue := Scalar.clamp (hsv.hue + k * (← between hueShift.1 hueShift.2)) 0 1
  let saturation :=
    Scalar.clamp (hsv.saturation + k * (← between saturationShift.1 saturationShift.2)) 0 1
  let value := Scalar.clamp (hsv.value - k * (← between darkening.1 darkening.2)) 0 1
  return .ofHsv ⟨hue, saturation, value⟩

/-- Draws a base color and a tint for it (`pick`). Without base colors the bark is white, and nothing is
drawn. -/
def pick (palette : BarkPalette) : Draw Material := do
  if palette.baseColors.isEmpty then return {}
  let variant ← integer 0 (UInt32.ofNat (palette.baseColors.length - 1))
  let base := palette.baseColors[variant.toNat]?.getD .white
  return ⟨variant, ← palette.drawTint base⟩

def codec : Data.Codec BarkPalette where
  write palette := .record [("base_colors", (Data.Codec.list Color.codec).write palette.baseColors),
    ("color_variance", .ofSingle palette.colorVariance)]
  read? v := do
    let fields ← Data.Fields.ofValue? 2 v
    let absent : BarkPalette := {}
    let baseColors ← fields.optional 0 "base_colors" (.list Color.codec) absent.baseColors
    let colorVariance ← fields.optional 1 "color_variance" .single absent.colorVariance
    some ⟨baseColors, colorVariance⟩

end BarkPalette

/-! ## Trees

All settings of a tree, and the style that some of the named trees bring along. -/

/-- The fineness of every branch (`MeshSettings`). -/
structure MeshSettings where
  curveSegments : UInt32 := Tube.defaultCurveSegments
  radialSegments : UInt32 := Tube.defaultRadialSegments
deriving DecidableEq, Repr

namespace MeshSettings

/-- Branches are fine enough to be round (`validate`). -/
def validate (settings : MeshSettings) : Validation := do
  if settings.curveSegments < 1 then
    throw (.tooFewSegments "mesh.curve_segments" 1 settings.curveSegments)
  if settings.radialSegments < 3 then
    throw (.tooFewSegments "mesh.radial_segments" 3 settings.radialSegments)

def codec : Data.Codec MeshSettings where
  write settings := .record [
    ("curve_segments", Data.Codec.word32.write settings.curveSegments),
    ("radial_segments", Data.Codec.word32.write settings.radialSegments)]
  read? v := do
    let fields ← Data.Fields.ofValue? 2 v
    let absent : MeshSettings := {}
    let curveSegments ← fields.optional 0 "curve_segments" .word32 absent.curveSegments
    let radialSegments ← fields.optional 1 "radial_segments" .word32 absent.radialSegments
    some ⟨curveSegments, radialSegments⟩

end MeshSettings

/-- Everything that can be chosen about a tree (`TreeConfig`). -/
structure TreeSettings where
  grammar : GrammarSettings := {}
  turtle : TurtleSettings := {}
  mesh : MeshSettings := {}
  leaves : LeafSettings := {}
  timing : GrowthTiming := {}
  bark : BarkPalette := {}
  /-- The seed of all randomness. -/
  seed : Option UInt64 := none
deriving DecidableEq

/-- What a named tree changes in the settings (`GrowthStyle`). -/
structure GrowthStyle where
  baseLength : Float32
  lengthVariance : Float32
  baseAngle : Float32
  angleVariance : Float32
  branchProbability : Float32
  widths : Float32 × Float32
  barkVariance : Float32
  /-- The least and the greatest size of a leaf. -/
  leafSizes : Float32 × Float32
  totalGrowthTime : Float32
  parallelBranches : UInt32
  branchOverlapDelay : Float32
deriving DecidableEq, Repr

namespace GrowthStyle

/-- Short, crooked and quick (`GROWTH_STYLES`). -/
def bonsai : GrowthStyle where
  baseLength := 0.6
  lengthVariance := 0.2
  baseAngle := 35
  angleVariance := 20
  branchProbability := 0.95
  widths := (0.02, 0.07)
  barkVariance := 0.2
  leafSizes := (0.1, 0.25)
  totalGrowthTime := 8
  parallelBranches := 3
  branchOverlapDelay := 0.1

/-- The style of a named tree, if it has one of its own (`for_preset`). -/
def ofPreset? : Preset → Option GrowthStyle
  | .bonsai => some bonsai
  | _ => none

/-- Puts the style into settings (`apply`). Leaf sizes become the greatest size and a range of factors. -/
def apply (style : GrowthStyle) (settings : TreeSettings) : TreeSettings :=
  { settings with
    turtle := { settings.turtle with
      baseLength := style.baseLength
      lengthVariance := style.lengthVariance
      baseAngle := style.baseAngle
      angleVariance := style.angleVariance
      branchProbability := style.branchProbability
      taper := { settings.turtle.taper with
        minWidth := style.widths.1
        maxWidth := style.widths.2 } }
    bark := { settings.bark with colorVariance := style.barkVariance }
    leaves := { settings.leaves with
      leafSize := style.leafSizes.2
      sizeVariation := (style.leafSizes.1 / style.leafSizes.2, 1) }
    timing := { settings.timing with
      totalGrowthTime := style.totalGrowthTime
      parallelBranches := style.parallelBranches
      branchOverlapDelay := style.branchOverlapDelay } }

end GrowthStyle

namespace TreeSettings

/-- The usual settings with the grammar and the style of a named tree (`from_preset`). -/
def ofPreset (preset : Preset) : TreeSettings :=
  let settings : TreeSettings := { grammar := { preset } }
  match GrowthStyle.ofPreset? preset with
  | some style => style.apply settings
  | none => settings

/-- The groups of settings in the order in which their faults are reported (`validate`). -/
def validate (settings : TreeSettings) : Validation := do
  let _ ← settings.grammar.system
  settings.turtle.validate
  settings.mesh.validate
  settings.leaves.validate
  settings.timing.validate
  settings.bark.validate

/-- Settings are stored as a record of their groups. One that is left out is the usual one. -/
def codec : Data.Codec TreeSettings where
  write settings := .record [("grammar", GrammarSettings.codec.write settings.grammar),
    ("turtle", TurtleSettings.codec.write settings.turtle),
    ("mesh", MeshSettings.codec.write settings.mesh),
    ("leaves", LeafSettings.codec.write settings.leaves),
    ("timing", GrowthTiming.codec.write settings.timing),
    ("bark", BarkPalette.codec.write settings.bark),
    ("seed", (Data.Codec.option .word64).write settings.seed)]
  read? v := do
    let fields ← Data.Fields.ofValue? 7 v
    let absent : TreeSettings := {}
    let grammar ← fields.optional 0 "grammar" GrammarSettings.codec absent.grammar
    let turtle ← fields.optional 1 "turtle" TurtleSettings.codec absent.turtle
    let mesh ← fields.optional 2 "mesh" MeshSettings.codec absent.mesh
    let leaves ← fields.optional 3 "leaves" LeafSettings.codec absent.leaves
    let timing ← fields.optional 4 "timing" GrowthTiming.codec absent.timing
    let bark ← fields.optional 5 "bark" BarkPalette.codec absent.bark
    let seed ← fields.optional 6 "seed" (.option .word64) absent.seed
    some ⟨grammar, turtle, mesh, leaves, timing, bark, seed⟩

end TreeSettings

end Sapling
