import Sapling.Scene.Recording

/-! The history of a scene: the calls that make it, what each does to the nodes, and what can be told of the
nodes from the log alone. -/
namespace Sapling

/-! ## Nodes after calls

What each call does to the nodes of a recording, and to no others. -/

namespace Recording

/-- Nodes are numbered in the order in which they are created. -/
theorem createNode_id (scene : Recording) (parent : Option NodeId) :
    (scene.createNode parent).1 = ⟨scene.nodes.size⟩ := rfl

/-- A new node comes after all others. It has a parent only if that one is there. -/
theorem createNode_nodes (scene : Recording) (parent : Option NodeId) :
    (scene.createNode parent).2.nodes = scene.nodes.push { parent := scene.known parent } := rfl

/-- A change of a node that is not there leaves the scene as it is. -/
theorem update_unknown {scene : Recording} {id : NodeId} (unknown : scene.node? id = none)
    (change : SceneNode → SceneNode) (event : SceneNode → SceneEvent) :
    scene.update id change event = scene := by
  rw [update, unknown]

/-- A change of a node that is there is made and logged. -/
theorem update_known {scene : Recording} {id : NodeId} (found : scene.node? id = some node)
    (change : SceneNode → SceneNode) (event : SceneNode → SceneEvent) :
    scene.update id change event = { scene with
      nodes := scene.nodes.modify id.value change
      events := scene.events.push (event node) } := by
  rw [update, found]

/-- A change of one node leaves the others alone. -/
theorem update_nodes (scene : Recording) (id : NodeId) (change : SceneNode → SceneNode)
    (event : SceneNode → SceneEvent) :
    (scene.update id change event).nodes = scene.nodes.modify id.value change := by
  unfold update node?
  cases found : scene.nodes[id.value]? with
  | none =>
    have outside := Array.getElem?_eq_none_iff.mp found
    apply Array.ext'
    rw [Array.toList_modify, List.modify_eq_self outside]
  | some node => rfl

theorem attachMesh_nodes (scene : Recording) (id : NodeId) (mesh : Mesh) (material : Material) :
    (scene.attachMesh id mesh material).nodes =
      scene.nodes.modify id.value fun node => { node with mesh := some (mesh, material) } :=
  update_nodes ..

/-- Placing a node changes nothing but its transform. -/
theorem setTransform_nodes (scene : Recording) (id : NodeId) (transform : Transform) :
    (scene.setTransform id transform).nodes =
      scene.nodes.modify id.value fun node => { node with transform } :=
  update_nodes ..

theorem createNode_size (scene : Recording) (parent : Option NodeId) :
    (scene.createNode parent).2.nodes.size = scene.nodes.size + 1 := by
  rw [createNode_nodes, Array.size_push]

theorem attachMesh_size (scene : Recording) (id : NodeId) (mesh : Mesh) (material : Material) :
    (scene.attachMesh id mesh material).nodes.size = scene.nodes.size := by
  rw [attachMesh_nodes, Array.size_modify]

theorem setTransform_size (scene : Recording) (id : NodeId) (transform : Transform) :
    (scene.setTransform id transform).nodes.size = scene.nodes.size := by
  rw [setTransform_nodes, Array.size_modify]

/-- A change to the node that was made last. -/
theorem push_modify_last (nodes : Array SceneNode) (node : SceneNode)
    (change : SceneNode → SceneNode) :
    (nodes.push node).modify nodes.size change = nodes.push (change node) := by
  apply Array.ext_getElem?
  intro place
  rw [Array.getElem?_modify, Array.getElem?_push, Array.getElem?_push]
  by_cases last : nodes.size = place
  · simp [last]
  · simp [last, Ne.symm last]

/-- Nodes that all have meshes of one size have as many meshes, and triangles to match. -/
theorem meshes_of_uniform {nodes : List SceneNode} {triangles : Nat}
    (uniform : ∀ node ∈ nodes, ∃ mesh material,
      node.mesh = some (mesh, material) ∧ mesh.triangleCount = triangles) (start : Nat) :
    (nodes.filterMap (·.mesh)).length = nodes.length ∧
    (nodes.filterMap (·.mesh)).foldl (fun count (mesh, _) => count + mesh.triangleCount) start =
      start + nodes.length * triangles := by
  induction nodes generalizing start with
  | nil => simp
  | cons node nodes ih =>
    obtain ⟨mesh, material, known, size⟩ := uniform node List.mem_cons_self
    obtain ⟨count, sum⟩ :=
      ih (fun other member => uniform other (List.mem_cons_of_mem _ member)) (start + triangles)
    rw [List.filterMap_cons_some known, List.length_cons, List.length_cons, List.foldl_cons]
    refine ⟨congrArg (· + 1) count, ?_⟩
    dsimp only
    rw [size, sum, Nat.succ_mul]
    omega

/-- The digest is one of the nodes alone. -/
theorem digest_congr {scene other : Recording} (same : scene.nodes = other.nodes)
    (encode : Digest.Encoding) : scene.digest encode = other.digest encode := by
  simp only [digest, ids, nodeCount, node?, same]

end Recording

/-! ## Histories

The history of a scene: the calls that make it, and what can be told of its nodes from the log alone.
-/

/-- A call to a recording scene. -/
inductive SceneCall where
  | createNode (parent : Option NodeId)
  | attachMesh (id : NodeId) (mesh : Mesh) (material : Material)
  | setTransform (id : NodeId) (transform : Transform)
  | drawInstanced (batch : Batch) (properties : InstanceProperties)
  | drainEvents

namespace SceneCall

/-- The call makes a node. -/
def creates : SceneCall → Bool
  | createNode _ => true
  | _ => false

/-- The call changes the scene: it names no unknown node, and does more than take the log. -/
def Effective (scene : Recording) : SceneCall → Prop
  | createNode _ => True
  | attachMesh id .. => (scene.node? id).isSome
  | setTransform id _ => (scene.node? id).isSome
  | drawInstanced .. => True
  | drainEvents => False

end SceneCall

/-- A scene together with all entries that have been drained from its log, and the ids of the nodes
that were made, as they were given back. -/
structure History where
  scene : Recording := .empty
  drained : List SceneEvent := []
  made : List NodeId := []

namespace History

def perform (h : History) : SceneCall → History
  | .createNode parent =>
    let (id, scene) := h.scene.createNode parent
    { h with scene, made := h.made ++ [id] }
  | .attachMesh id mesh material => { h with scene := h.scene.attachMesh id mesh material }
  | .setTransform id transform => { h with scene := h.scene.setTransform id transform }
  | .drawInstanced batch properties => { h with scene := h.scene.drawInstanced batch properties }
  | .drainEvents =>
    let (events, scene) := h.scene.drainEvents
    { h with scene, drained := h.drained ++ events }

/-- The history of calls to an empty scene. -/
def ofCalls (calls : List SceneCall) : History := calls.foldl perform {}

/-- A history goes on from the calls before. -/
theorem ofCalls_append (calls later : List SceneCall) :
    ofCalls (calls ++ later) = later.foldl perform (ofCalls calls) := List.foldl_append

theorem ofCalls_concat (calls : List SceneCall) (call : SceneCall) :
    ofCalls (calls ++ [call]) = (ofCalls calls).perform call := ofCalls_append calls [call]

/-- All entries ever made, the oldest first. -/
def events (h : History) : List SceneEvent := h.drained ++ h.scene.events.toList

end History

/-- What the log tells of a node: of its mesh, the size and the material. -/
structure NodeSummary where
  parent : Option NodeId := none
  transform : Transform := .identity
  mesh : Option (Nat × Nat × Material) := none
deriving DecidableEq, Repr

namespace NodeSummary

def ofNode (node : SceneNode) : NodeSummary where
  parent := node.parent
  transform := node.transform
  mesh := node.mesh.map fun (mesh, material) => (mesh.vertexCount, mesh.triangleCount, material)

/-- What is told of each id after one more entry. -/
def replayEvent (known : NodeId → Option NodeSummary) : SceneEvent → NodeId → Option NodeSummary
  | .nodeCreated id parent => fun other => if other = id then some { parent } else known other
  | .meshAttached id vertices triangles material => fun other =>
    if other = id then (known id).map fun node => { node with mesh := some (vertices, triangles, material) }
    else known other
  | .transformSet id _ new => fun other =>
    if other = id then (known id).map fun node => { node with transform := new } else known other
  | .instancedDraw .. => known

/-- What a whole log tells of each id, when there is nothing before it. -/
def replay (events : List SceneEvent) : NodeId → Option NodeSummary :=
  events.foldl replayEvent fun _ => none

end NodeSummary

end Sapling
