import Sapling.Color
import Sapling.Mesh.Basic
import Sapling.Transform
/-!
Scenes that a tree is built into. A host hands out the ids of nodes; a node that has a parent moves
along with it.
-/
namespace Sapling

/-- The number of a node (`NodeId`). It means something only to the host that gave it. -/
structure NodeId where
  value : Nat
deriving DecidableEq, Repr

/-- The bark of a branch: one of the base textures and a tint (`BranchMaterial`). -/
structure Material where
  variant : UInt32 := 0
  tint : Color := .white
deriving DecidableEq, Repr

/-- A state `σ` that takes nodes, meshes and transforms (`SceneHost`). -/
class SceneHost (σ : Type) where
  /-- Makes a node, under a parent or at the top. -/
  createNode : Option NodeId → σ → NodeId × σ
  /-- Gives a node a mesh in place of any it had. -/
  attachMesh : NodeId → Mesh → Material → σ → σ
  /-- Places a node relative to its parent. -/
  setTransform : NodeId → Transform → σ → σ

end Sapling
