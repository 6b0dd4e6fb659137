import Sapling.Random.Sampling
import Sapling.Transform
import Sapling.Turtle.Settings
/-!
The turtle that draws a tree: the symbols it obeys, where it stands and how it is turned, and the skeleton of
segments and leaf anchors that one step, one turn and one branch end add to.
-/
namespace Sapling

open Sapling.Random

/-! ## Commands

The symbols that the turtle obeys. All others mean nothing to it. -/

inductive Axis where
  | x
  | y
  | z
deriving DecidableEq, Repr

/-- What the turtle does at a symbol. -/
inductive Command where
  /-- One step along the direction of growth, leaving a segment behind. -/
  | forward
  /-- A turn by the settings' angle, one way or the other. -/
  | turn (axis : Axis) (positive : Bool)
  /-- Half a turn about the direction of growth. -/
  | turnAround
  /-- Begins a side branch. -/
  | openBranch
  /-- Ends a side branch and goes back to where it began. -/
  | closeBranch
deriving DecidableEq, Repr

/-- The meaning of a symbol. -/
def Command.ofSymbol? : Char → Option Command
  | 'F' => some .forward
  | '+' => some (.turn .z true)
  | '-' => some (.turn .z false)
  | '&' => some (.turn .x true)
  | '^' => some (.turn .x false)
  | '\\' => some (.turn .y true)
  | '/' => some (.turn .y false)
  | '|' => some .turnAround
  | '[' => some .openBranch
  | ']' => some .closeBranch
  | _ => none

/-! ## Poses

The turtle that draws a tree: where it stands and how it is turned. -/

/-- A place and how the turtle is turned there (`TurtleState`). -/
structure Pose where
  position : Vec3
  orientation : Quat
deriving DecidableEq, Repr

namespace Pose

/-- The pose at the origin of a tree. Its scale has no part in it. -/
def ofTransform (t : Transform) : Pose := ⟨t.position, t.rotation⟩

/-- The direction of growth: the turtle's own second axis (`heading`). -/
def heading (pose : Pose) : Vec3 := pose.orientation.rotate .unitY

/-- Turns about the turtle's own axes (`turn`). -/
def turn (pose : Pose) (rotation : Quat) : Pose :=
  { pose with orientation := (pose.orientation * rotation).normalize }

end Pose

/-! ## Skeletons

The skeleton of a tree: its segments and the anchors of its leaves, and how one step of the turtle, one
turn and one branch end add to it.
-/

/-- One piece of a branch, a curve from `start` to `tip` that bends towards `control` (`Segment`). -/
structure Segment where
  /-- The place of the segment in the order of drawing. -/
  index : Nat
  start : Vec3
  control : Vec3
  tip : Vec3
  thickness : Float32
deriving DecidableEq, Repr

namespace Segment

/-- How far start and tip are apart. -/
def length (s : Segment) : Float32 := s.start.distance s.tip

/-- The direction from start to tip, upward where they agree (`direction`). -/
def direction (s : Segment) : Vec3 := (s.tip - s.start).normalizeOrUp

end Segment

/-- A point where leaves may grow, and which way the branch leaves it (`LeafAnchor`). -/
structure Anchor where
  position : Vec3
  direction : Vec3
deriving DecidableEq, Repr

/-- What has been drawn so far. -/
structure Skeleton where
  segments : Array Segment := #[]
  anchors : Array Anchor := #[]
  /-- The greatest height of the origin and all segment tips. -/
  maxHeight : Float32
  /-- Steps that were not taken. -/
  skipped : Nat := 0
deriving DecidableEq

/-- The rotation about an axis. -/
def Axis.rotation (axis : Axis) (angle : Float32) : Quat :=
  match axis with
  | .x => .aboutX angle
  | .y => .aboutY angle
  | .z => .aboutZ angle

namespace TurtleSettings

/-- Draws the angle of a turn, in radians (`angle`). -/
def drawAngle (settings : TurtleSettings) : Draw Float32 := do
  return Scalar.toRadians (← jitter settings.baseAngle settings.angleVariance)

/-- Draws the rotation of a turn. -/
def drawTurn (settings : TurtleSettings) (axis : Axis) (positive : Bool) : Draw Quat := do
  let angle ← settings.drawAngle
  return axis.rotation (if positive then angle else -angle)

/-- Draws whether a step is left out. Where every step is taken, nothing is drawn. -/
def drawSkip (settings : TurtleSettings) : Draw Bool := do
  if settings.branchProbability < 1 then
    return settings.branchProbability ≤ (← fraction)
  else return false

/-- Draws the length of a step. -/
def drawLength (settings : TurtleSettings) : Draw Float32 := do
  return Scalar.max (← jitter settings.baseLength settings.lengthVariance) 0

/-- Draws how far a control point strays, along the turtle's axes. -/
def drawControlOffset (settings : TurtleSettings) : Draw Vec3 := do
  let x ← jitter 0 settings.controlJitter.lateral
  let y ← inRange settings.controlJitter.vertical
  let z ← jitter 0 settings.controlJitter.lateral
  return ⟨x, y, z⟩

end TurtleSettings

namespace Skeleton

/-- A step: the turtle moves on and leaves a segment behind, unless the step is left out (`forward`). -/
def forward (settings : TurtleSettings) (pose : Pose) (skeleton : Skeleton) :
    Draw (Pose × Skeleton) := do
  if ← settings.drawSkip then
    return (pose, { skeleton with skipped := skeleton.skipped + 1 })
  let length ← settings.drawLength
  let start := pose.position
  let tip := start + pose.heading * length
  let offset ← settings.drawControlOffset
  let control := (start + tip) * (0.5 : Float32) + pose.orientation.rotate offset
  let segment : Segment := ⟨skeleton.segments.size, start, control, tip, 0⟩
  return ({ pose with position := tip },
    { skeleton with
      segments := skeleton.segments.push segment
      maxHeight := Scalar.max skeleton.maxHeight tip.y })

/-- A branch whose tip is high enough, measured against the height reached so far, can carry leaves. -/
def carriesLeaves (settings : TurtleSettings) (base : Float32) (skeleton : Skeleton) (tip : Vec3) :
    Bool :=
  let treeHeight := skeleton.maxHeight - base
  !(treeHeight ≤ Scalar.epsilon) && settings.leafThreshold * treeHeight ≤ tip.y - base

/-- The end of a side branch: its tip becomes an anchor if it is high enough (`record_anchor_if_high_enough`). -/
def endBranch (settings : TurtleSettings) (base : Float32) (pose : Pose) (skeleton : Skeleton) :
    Skeleton :=
  if skeleton.carriesLeaves settings base pose.position then
    { skeleton with anchors := skeleton.anchors.push ⟨pose.position, pose.heading⟩ }
  else skeleton

/-- What a command does apart from branching: steps and turns. -/
def move (settings : TurtleSettings) (pose : Pose) (skeleton : Skeleton) :
    Command → Draw (Pose × Skeleton)
  | .forward => skeleton.forward settings pose
  | .turn axis positive => do
    return (pose.turn (← settings.drawTurn axis positive), skeleton)
  | .turnAround => return (pose.turn (.aboutY Scalar.pi), skeleton)
  | .openBranch | .closeBranch => return (pose, skeleton)

end Skeleton

/-- What one drawing met on its way (`InterpretStats`). -/
structure WalkStats where
  symbols : Nat := 0
  segments : Nat := 0
  skippedSegments : Nat := 0
  ignoredSymbols : Nat := 0
  /-- Branch ends without a beginning. -/
  unmatchedPops : Nat := 0
  /-- Branches still open at the end of the word. -/
  implicitCloses : Nat := 0
  anchors : Nat := 0
deriving DecidableEq, Repr

/-- A finished drawing (`Interpretation`). -/
structure Interpretation where
  segments : Array Segment
  anchors : Array Anchor
  /-- Where the turtle began. -/
  origin : Vec3
  maxHeight : Float32
  stats : WalkStats
deriving DecidableEq

namespace Interpretation

/-- How far the tree rises above its origin (`tree_height`). -/
def treeHeight (i : Interpretation) : Float32 := i.maxHeight - i.origin.y

/-- Nothing was drawn (`is_empty`). -/
def isEmpty (i : Interpretation) : Bool := i.segments.isEmpty

end Interpretation

namespace Taper

/-- Thickness for every segment, once the height of the tree is known; the first one may have a width of its
own (`apply_thickness`). -/
def thicken (taper : Taper) (origin : Vec3) (maxHeight : Float32) (segments : Array Segment) :
    Array Segment :=
  let tapered := segments.map fun s => { s with thickness := taper.width s.tip origin maxHeight }
  match taper.trunkWidth with
  | some width => tapered.modify 0 fun s => { s with thickness := width }
  | none => tapered

end Taper

end Sapling
