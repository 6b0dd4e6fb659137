import Sapling.Color
import Sapling.Command.Arguments
import Sapling.Command.Program
import Sapling.ConfigError
import Sapling.Data.Codec
import Sapling.Data.Json
import Sapling.Data.Value
import Sapling.Data.Yaml
import Sapling.Decimal
import Sapling.Foliage.Batcher
import Sapling.Foliage.Leaf
import Sapling.Geometry.Orientation
import Sapling.Grammar.LSystem
import Sapling.Grammar.Preset
import Sapling.Grammar.Rule
import Sapling.Growth.Pipeline
import Sapling.Growth.Scheduler
import Sapling.Growth.Settings
import Sapling.Main
import Sapling.Mesh.Basic
import Sapling.Mesh.Obj
import Sapling.Mesh.Tube
import Sapling.Random.Generator
import Sapling.Random.Sampling
import Sapling.Scalar
import Sapling.Scene.Host
import Sapling.Scene.Outline
import Sapling.Scene.Recording
import Sapling.Text
import Sapling.Transform
import Sapling.Turtle.Settings
import Sapling.Turtle.Skeleton
import Sapling.Turtle.Walk
import Sapling.Proofs.Color.RoundTrip
import Sapling.Proofs.Foliage.Batches
import Sapling.Proofs.Foliage.Looks
import Sapling.Proofs.Foliage.Packing
import Sapling.Proofs.Geometry.Looking
import Sapling.Proofs.Geometry.Ratios
import Sapling.Proofs.Grammar.Balance
import Sapling.Proofs.Grammar.Counting
import Sapling.Proofs.Grammar.Passes
import Sapling.Proofs.Grammar.Resolution
import Sapling.Proofs.Grammar.RuleText
import Sapling.Proofs.Grammar.Tables
import Sapling.Proofs.Growth.Admission
import Sapling.Proofs.Growth.FinalScene
import Sapling.Proofs.Growth.Load
import Sapling.Proofs.Growth.Neighbours
import Sapling.Proofs.Growth.Pacing
import Sapling.Proofs.Growth.Progress
import Sapling.Proofs.Growth.Protocol
import Sapling.Proofs.Growth.Standstill
import Sapling.Proofs.Growth.Tints
import Sapling.Proofs.Mesh.Cylinder
import Sapling.Proofs.Mesh.Fineness
import Sapling.Proofs.Mesh.Finiteness
import Sapling.Proofs.Mesh.ObjText
import Sapling.Proofs.Mesh.Surface
import Sapling.Proofs.Mesh.Sweep
import Sapling.Proofs.Mesh.Triangles
import Sapling.Proofs.Random.Extents
import Sapling.Proofs.Scene.Ancestry
import Sapling.Proofs.Scene.Combined
import Sapling.Proofs.Scene.History
import Sapling.Proofs.Scene.Replay
import Sapling.Proofs.Settings.Samples
import Sapling.Proofs.Settings.Storage
import Sapling.Proofs.Turtle.Counts
import Sapling.Proofs.Turtle.Drawing
import Sapling.Proofs.Turtle.Forest
import Sapling.Proofs.Turtle.Parents
import Sapling.Proofs.Turtle.Statistics
import Sapling.Proofs.Turtle.Steps
import Sapling.Proofs.Turtle.Thickness
import Sapling.Proofs.Turtle.Tidying
