import Sapling.Foliage.Batcher
import Sapling.Scene.Host
/-!
A scene kept in memory, with a log of all that was done to it. Nodes are numbered in the order of their
creation. A call that names an unknown node changes nothing, and an unknown parent counts as none.
-/
namespace Sapling

/-- A node of the scene (`SceneNode`). -/
structure SceneNode where
  parent : Option NodeId := none
  transform : Transform := .identity
  mesh : Option (Mesh × Material) := none
deriving DecidableEq

/-- An entry of the log (`SceneEvent`). -/
inductive SceneEvent where
  | nodeCreated (id : NodeId) (parent : Option NodeId)
  | meshAttached (id : NodeId) (vertices triangles : Nat) (material : Material)
  | transformSet (id : NodeId) (old new : Transform)
  | instancedDraw (instances : Nat) (dataProperty : String)
deriving DecidableEq, Repr

/-- Nodes with the log of how they were made (`RecordingScene`). -/
structure Recording where
  /-- The node with number `i` is at place `i`. -/
  nodes : Array SceneNode := #[]
  events : Array SceneEvent := #[]
  instancedDraws : Nat := 0
  instancesDrawn : Nat := 0
deriving DecidableEq

namespace Recording

/-- A scene to which nothing was done yet. -/
def empty : Recording := {}

/-- The node with a number (`node`). -/
def node? (scene : Recording) (id : NodeId) : Option SceneNode := scene.nodes[id.value]?

/-- How many nodes there are (`node_count`). -/
def nodeCount (scene : Recording) : Nat := scene.nodes.size

/-- The numbers of all nodes, in the order of their creation. -/
def ids (scene : Recording) : List NodeId := (List.range scene.nodeCount).map NodeId.mk

/-- The meshes of all nodes that have one. -/
def meshes (scene : Recording) : List (Mesh × Material) := scene.nodes.toList.filterMap (·.mesh)

/-- How many nodes have a mesh (`mesh_count`). -/
def meshCount (scene : Recording) : Nat := scene.meshes.length

/-- How many triangles all meshes have (`triangle_count`). -/
def triangleCount (scene : Recording) : Nat :=
  scene.meshes.foldl (fun count (mesh, _) => count + mesh.triangleCount) 0

/-- The nodes under a node, in the order of their creation (`children`). -/
def children (scene : Recording) (id : NodeId) : List NodeId :=
  scene.ids.filter fun child => (scene.node? child).any (·.parent = some id)

/-! ## Calls -/

/-- Adds an entry to the log. -/
def log (scene : Recording) (event : SceneEvent) : Recording :=
  { scene with events := scene.events.push event }

/-- The parent, if it is a node of the scene. -/
def known (scene : Recording) (parent : Option NodeId) : Option NodeId :=
  parent.filter fun id => id.value < scene.nodeCount

/-- Makes a node with the next number, and logs the parent that it got (`create_node`). -/
def createNode (scene : Recording) (parent : Option NodeId) : NodeId × Recording :=
  let id : NodeId := ⟨scene.nodeCount⟩
  let parent := scene.known parent
  (id, { scene with
    nodes := scene.nodes.push { parent }
    events := scene.events.push (.nodeCreated id parent) })

/-- Changes a node and adds an entry to the log, if there is such a node. -/
def update (scene : Recording) (id : NodeId) (change : SceneNode → SceneNode)
    (event : SceneNode → SceneEvent) : Recording :=
  match scene.node? id with
  | none => scene
  | some node =>
    { scene with
      nodes := scene.nodes.modify id.value change
      events := scene.events.push (event node) }

/-- Gives a node a mesh, and logs its size (`attach_mesh`). -/
def attachMesh (scene : Recording) (id : NodeId) (mesh : Mesh) (material : Material) : Recording :=
  scene.update id (fun node => { node with mesh := some (mesh, material) }) fun _ =>
    .meshAttached id mesh.vertexCount mesh.triangleCount material

/-- Places a node, and logs where it was before (`set_transform`). -/
def setTransform (scene : Recording) (id : NodeId) (transform : Transform) : Recording :=
  scene.update id (fun node => { node with transform }) fun node =>
    .transformSet id node.transform transform

/-- Counts a batch that is drawn, and logs it (`draw_instanced`). -/
def drawInstanced (scene : Recording) (batch : Batch) (properties : InstanceProperties) : Recording :=
  { scene with
    instancedDraws := scene.instancedDraws + 1
    instancesDrawn := scene.instancesDrawn + batch.count
    events := scene.events.push (.instancedDraw batch.count properties.data) }

/-- Takes the entries out of the log (`drain_events`). -/
def drainEvents (scene : Recording) : List SceneEvent × Recording :=
  (scene.events.toList, { scene with events := #[] })

instance : SceneHost Recording where
  createNode parent scene := scene.createNode parent
  attachMesh id mesh material scene := scene.attachMesh id mesh material
  setTransform id transform scene := scene.setTransform id transform

instance : InstanceSink Recording where
  drawInstanced batch properties scene := scene.drawInstanced batch properties

/-! ## World space -/

/-- Multiplies the matrices of at most `steps` nodes on the way up from a node. -/
def climb (scene : Recording) : (steps : Nat) → Option NodeId → Mat4 → Mat4
  | 0, _, matrix => matrix
  | steps + 1, current, matrix =>
    match current.bind scene.node? with
    | none => matrix
    | some node => scene.climb steps node.parent (node.transform.toMatrix * matrix)

/-- The way from a node's own space to that of the scene (`world_matrix`). Parents come before their children,
so the way up from node `i` has at most `i + 1` nodes. -/
def worldMatrix (scene : Recording) (id : NodeId) : Mat4 :=
  scene.climb (id.value + 1) (some id) .identity

/-- A mesh moved by a matrix. Normals keep their length, and those that vanish point upward. -/
def placed (matrix : Mat4) (mesh : Mesh) : Mesh :=
  mesh.transform matrix.transformPoint fun normal => (matrix.transformVector normal).normalizeOrUp

/-- All meshes of the scene in its space, as one (`combined_mesh`). -/
def combinedMesh (scene : Recording) : Mesh :=
  scene.ids.foldl (fun combined id =>
    match (scene.node? id).bind (·.mesh) with
    | none => combined
    | some (mesh, _) => combined.merge (placed (scene.worldMatrix id) mesh)) .empty

/-! ## Digest -/

/-- Feeds a placement. -/
def digestTransform (encode : Digest.Encoding) (digest : UInt64) (t : Transform) : UInt64 :=
  Digest.singles encode digest [t.position.x, t.position.y, t.position.z, t.rotation.x, t.rotation.y,
    t.rotation.z, t.rotation.w, t.scale.x, t.scale.y, t.scale.z]

/-- Feeds a mesh and its texture, but not its tint. -/
def digestMesh (encode : Digest.Encoding) (digest : UInt64) (mesh : Mesh) (material : Material) :
    UInt64 :=
  let sized := Digest.longWord digest (UInt64.ofNat mesh.vertexCount)
  Digest.word (mesh.digestVertices encode sized) material.variant

/-- Feeds a node; the largest word stands for no parent. -/
def digestNode (encode : Digest.Encoding) (digest : UInt64) (id : NodeId) (node : SceneNode) : UInt64 :=
  let numbered := Digest.longWord digest (UInt64.ofNat id.value)
  let parent := match node.parent with
    | some parent => UInt64.ofNat parent.value
    | none => 0xffffffffffffffff
  let moved := digestTransform encode (Digest.longWord numbered parent) node.transform
  match node.mesh with
  | some (mesh, material) => digestMesh encode moved mesh material
  | none => moved

/-- The digest of all nodes: parents, transforms, meshes and textures (`state_hash`). -/
def digest (encode : Digest.Encoding) (scene : Recording) : UInt64 :=
  scene.ids.foldl (fun digest id =>
    match scene.node? id with
    | some node => digestNode encode digest id node
    | none => digest) Digest.start

end Recording

end Sapling
