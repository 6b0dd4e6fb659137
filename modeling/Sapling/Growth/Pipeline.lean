import Sapling.Growth.Scheduler
import Sapling.Turtle.Walk
/-!
From settings to trees. A pipeline has one generator, which runs on from tree to tree.
-/
namespace Sapling

open Sapling.Random

/-- Settings with the L-system that they describe and the generator for their trees (`TreePipeline`). -/
structure Pipeline where
  settings : TreeSettings
  system : LSystem
  generator : Generator

namespace Pipeline

/-- A pipeline for settings that hold up to a check (`new`). -/
def checked (settings : TreeSettings) (seed : UInt64) : Except ConfigError Pipeline := do
  settings.validate
  let system ← settings.grammar.system
  settings.turtle.validate
  return { settings, system, generator := .ofSeed seed }

/-- The word of the tree (`generate`). -/
def generate (pipeline : Pipeline) : Word := pipeline.system.generate

/-- Draws a tree from an origin (`interpret`). -/
def interpret (pipeline : Pipeline) (origin : Transform) : Interpretation × Pipeline :=
  let (interpretation, generator) :=
    (pipeline.settings.turtle.interpret pipeline.generate origin).run pipeline.generator
  (interpretation, { pipeline with generator })

/-- Draws a tree and makes a scheduler that lets it grow (`grow`). -/
def grow (pipeline : Pipeline) (origin : Transform) : Except ConfigError Scheduler × Pipeline :=
  let (interpretation, pipeline) := pipeline.interpret origin
  let (treeGenerator, generator) := fork.run pipeline.generator
  (Scheduler.checked interpretation pipeline.settings treeGenerator, { pipeline with generator })

end Pipeline

end Sapling
