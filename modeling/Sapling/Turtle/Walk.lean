import Sapling.Turtle.Skeleton
/-!
The turtle's walk over a word. Poses to go back to are kept on a stack. A branch end without a beginning
is passed over, and branches that are open at the end of the word are ended there.
-/
namespace Sapling

open Sapling.Random

/-- The turtle on its way through a word, with all that is drawn and counted so far (`Walk`). -/
structure Walk where
  pose : Pose
  /-- Where the open branches began, the innermost first. -/
  saved : List Pose := []
  skeleton : Skeleton
  symbols : Nat := 0
  ignored : Nat := 0
  unmatched : Nat := 0
  implicit : Nat := 0
deriving DecidableEq

namespace Walk

/-- The walk before the first symbol. -/
def start (origin : Transform) : Walk :=
  { pose := .ofTransform origin, skeleton := { maxHeight := origin.position.y } }

/-- Ends the innermost open branch, if there is one (`pop`). -/
def closeBranch? (settings : TurtleSettings) (base : Float32) (walk : Walk) : Option Walk :=
  match walk.saved with
  | [] => none
  | pose :: saved =>
    some { walk with
      pose, saved, skeleton := walk.skeleton.endBranch settings base walk.pose }

/-- Obeys a command. -/
def obey (settings : TurtleSettings) (base : Float32) (walk : Walk) (command : Command) : Draw Walk :=
  match command with
  | .openBranch => return { walk with saved := walk.pose :: walk.saved }
  | .closeBranch =>
    return (walk.closeBranch? settings base).getD { walk with unmatched := walk.unmatched + 1 }
  | command => do
    let (pose, skeleton) ← walk.skeleton.move settings walk.pose command
    return { walk with pose, skeleton }

/-- Reads a symbol (`step`). -/
def step (settings : TurtleSettings) (base : Float32) (walk : Walk) (symbol : Char) : Draw Walk :=
  let walk := { walk with symbols := walk.symbols + 1 }
  match Command.ofSymbol? symbol with
  | some command => walk.obey settings base command
  | none => return { walk with ignored := walk.ignored + 1 }

/-- Ends the open branches from the innermost outward (`close_open_brackets`). -/
def closeAll (settings : TurtleSettings) (base : Float32) (walk : Walk) : Walk :=
  go walk.saved walk
where
  /-- Ends as many branches as poses are given. -/
  go : List Pose → Walk → Walk
    | [], walk => walk
    | _ :: rest, walk =>
      match walk.closeBranch? settings base with
      | some walk => go rest { walk with implicit := walk.implicit + 1 }
      | none => walk

/-- What the walk has met so far. -/
def stats (walk : Walk) : WalkStats where
  symbols := walk.symbols
  segments := walk.skeleton.segments.size
  skippedSegments := walk.skeleton.skipped
  ignoredSymbols := walk.ignored
  unmatchedPops := walk.unmatched
  implicitCloses := walk.implicit
  anchors := walk.skeleton.anchors.size

/-- The drawing of a walk that is over. -/
def finish (walk : Walk) (settings : TurtleSettings) (origin : Vec3) : Interpretation where
  segments := settings.taper.thicken origin walk.skeleton.maxHeight walk.skeleton.segments
  anchors := walk.skeleton.anchors
  origin := origin
  maxHeight := walk.skeleton.maxHeight
  stats := walk.stats

end Walk

namespace TurtleSettings

/-- Draws a word from an origin (`interpret`). -/
def interpret (settings : TurtleSettings) (word : List Char) (origin : Transform) :
    Draw Interpretation := do
  let base := origin.position.y
  let walk ← word.foldlM (Walk.step settings base) (.start origin)
  return (walk.closeAll settings base).finish settings origin.position

/-- Settings that have been checked, ready to draw with (`new`). -/
def checked (settings : TurtleSettings) : Except ConfigError TurtleSettings := do
  settings.validate
  return settings

end TurtleSettings

end Sapling
