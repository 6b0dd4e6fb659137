import Sapling.Proofs.Mesh.Triangles
import Sapling.Proofs.Scene.History

/-! The meshes of a scene as one. Each node that has a mesh adds it, moved to where the node is, and the nodes
add theirs in the order of their numbers, so that no triangle is lost or joined to vertices of another mesh. -/
namespace Sapling.Recording

/-- A vertex with its place and its direction moved; its texture stays. -/
def movedBy (matrix : Mat4) (x : Vertex) : Vertex :=
  { x with
    position := matrix.transformPoint x.position
    normal := (matrix.transformVector x.normal).normalizeOrUp }

private theorem facets?_placed (matrix : Mat4) (mesh : Mesh) :
    (placed matrix mesh).facets? = mesh.facets?.map (List.map (Facet.map (movedBy matrix))) :=
  Mesh.facets?_transform ..

variable (scene : Recording)

/-- The mesh of a node. -/
def meshOf? (id : NodeId) : Option Mesh := ((scene.node? id).bind (·.mesh)).map (·.1)

/-- The facets that a node adds to the scene, in the space of the scene. -/
def facetsOf? (id : NodeId) : Option (List Facet) :=
  match scene.meshOf? id with
  | none => some []
  | some mesh => mesh.facets?.map (List.map (Facet.map (movedBy (scene.worldMatrix id))))

/-- The meshes of all nodes that have one, in the space of the scene. -/
def placedMeshes : List Mesh :=
  scene.ids.filterMap fun id => (scene.meshOf? id).map (placed (scene.worldMatrix id))

private theorem combinedMesh_eq : scene.combinedMesh = Mesh.join scene.placedMeshes := by
  rw [Mesh.join, placedMeshes, List.foldl_filterMap, combinedMesh]
  congr 1
  funext combined id
  unfold meshOf?
  cases (scene.node? id).bind (·.mesh) <;> rfl

private theorem nodes_of_ids : scene.ids.map scene.node? = scene.nodes.toList.map some := by
  apply List.ext_getElem
  · simp [ids, nodeCount]
  · intro place inside inside'
    simp only [List.length_map, Array.length_toList] at inside'
    simp [ids, node?, inside']

private theorem meshes_of_ids : scene.ids.filterMap scene.meshOf? = scene.meshes.map (·.1) := by
  have found : scene.meshOf? = (fun node => (node.bind (·.mesh)).map (·.1)) ∘ scene.node? := rfl
  rw [found, ← List.filterMap_map, nodes_of_ids, List.filterMap_map, meshes, List.map_filterMap]
  rfl

private theorem triangleCount_eq : scene.triangleCount = (scene.meshes.map (·.1.triangleCount)).sum := by
  rw [triangleCount, List.sum_eq_foldl, List.foldl_map]

/-- What does not depend on the places of vertices can be told of the meshes before they are placed. -/
theorem map_placedMeshes (measure : Mesh → Nat)
    (same : ∀ matrix mesh, measure (placed matrix mesh) = measure mesh) :
    scene.placedMeshes.map measure = scene.meshes.map (measure ·.1) := by
  calc scene.placedMeshes.map measure
    _ = (scene.ids.filterMap scene.meshOf?).map measure := by
      rw [placedMeshes, List.map_filterMap, List.map_filterMap]
      simp only [Option.map_map, Function.comp_def, same]
    _ = scene.meshes.map (measure ·.1) := by rw [meshes_of_ids, List.map_map]; rfl

private theorem whole_placedMeshes {scene : Recording} (whole : ∀ held ∈ scene.meshes, held.1.Whole) :
    ∀ mesh ∈ scene.placedMeshes, mesh.Whole := by
  intro mesh mem
  obtain ⟨id, known, standing⟩ := List.mem_filterMap.mp mem
  obtain ⟨own, found, rfl⟩ := Option.map_eq_some_iff.mp standing
  have listed : own ∈ scene.meshes.map (·.1) :=
    scene.meshes_of_ids ▸ List.mem_filterMap.mpr ⟨id, known, found⟩
  obtain ⟨held, mem', rfl⟩ := List.mem_map.mp listed
  exact (whole held mem').transform ..

/-- Nodes without a mesh have no facets to add. -/
theorem facets_placedMeshes : (scene.placedMeshes.mapM Mesh.facets?).map List.flatten =
    (scene.ids.mapM scene.facetsOf?).map List.flatten := by
  rw [placedMeshes]
  generalize scene.ids = ids
  induction ids with
  | nil => rfl
  | cons id ids ih =>
    rw [flatten_mapM_cons, ← ih]
    cases found : scene.meshOf? id with
    | none =>
      have nothing : scene.facetsOf? id = some [] := by rw [facetsOf?, found]
      rw [List.filterMap_cons_none (by rw [found]; rfl), nothing]
      exact Option.map_id'.symm
    | some mesh =>
      have added : scene.facetsOf? id = (placed (scene.worldMatrix id) mesh).facets? := by
        rw [facetsOf?, found, facets?_placed]
      rw [List.filterMap_cons_some (by rw [found]; rfl), flatten_mapM_cons, added]

/-- The combined mesh of a scene has the vertices and the triangles of all meshes, and no index leaves it.
Its triangles are those of the nodes, in the order of their numbers; each corner is the vertex it was, moved
by the matrix of its node. Nothing depends on how meshes are grouped when they are merged, an empty one makes
no difference, and as long as the vertices can be numbered no index overflows. -/
theorem combined_mesh_loses_nothing :
    (∀ scene : Recording, (∀ held ∈ scene.meshes, held.1.Whole) →
      (scene.meshes.map (·.1.vertexCount)).sum ≤ UInt32.size →
      let combined := scene.combinedMesh
      combined.vertexCount = (scene.meshes.map (·.1.vertexCount)).sum ∧
      combined.triangleCount = scene.triangleCount ∧ combined.InRange ∧
      ∃ facets, combined.facets? = some facets ∧ facets.length = combined.triangleCount ∧
        (scene.ids.mapM scene.facetsOf?).map List.flatten = some facets) ∧
    (∀ m n o : Mesh, (m.merge n).merge o = m.merge (n.merge o)) ∧
    (∀ m : Mesh, Mesh.empty.merge m = m ∧ m.merge .empty = m) ∧
    ∀ m n : Mesh, m.Whole → n.Whole → m.vertexCount + n.vertexCount ≤ UInt32.size →
      (m.merge n).Whole ∧ (m.merge n).indices.toList.map UInt32.toNat =
        m.indices.toList.map UInt32.toNat ++ n.indices.toList.map (m.vertexCount + ·.toNat) := by
  refine ⟨fun scene whole few => ?_, Mesh.merge_assoc, fun m => ⟨m.empty_merge, m.merge_empty⟩, ?_⟩
  · intro combined
    have counts := scene.map_placedMeshes Mesh.vertexCount fun _ _ => Mesh.vertexCount_transform ..
    have sizes := scene.map_placedMeshes Mesh.triangleCount fun _ _ => Mesh.triangleCount_transform ..
    have joined : combined = Mesh.join scene.placedMeshes := scene.combinedMesh_eq
    obtain ⟨safe, triangles, facets⟩ := Mesh.join_whole (whole_placedMeshes whole) (counts ▸ few)
    rw [← joined] at safe triangles facets
    obtain ⟨all, found, length⟩ := safe.inRange.facets
    refine ⟨?_, ?_, safe.inRange, all, found, length, ?_⟩
    · rw [joined, Mesh.vertexCount_join, counts]
    · rw [triangles, sizes, triangleCount_eq]
    · rw [← facets_placedMeshes, ← facets, found]
  · intro m n whole whole' few
    exact ⟨whole.merge whole' few, Mesh.indices_merge whole'.inRange few⟩

/-- Two leaves, one under the other, with a node between them that has no mesh. -/
def leafStem : Recording :=
  let calls : List SceneCall :=
    [.createNode none, .attachMesh ⟨0⟩ leafQuad {}, .setTransform ⟨0⟩ (.atPosition ⟨0, 2, 0⟩),
      .createNode (some ⟨0⟩), .createNode (some ⟨1⟩), .attachMesh ⟨2⟩ leafQuad {}]
  (History.ofCalls calls).scene

theorem combined_mesh_of_leafStem :
    (∀ held ∈ leafStem.meshes, held.1.Whole) ∧
    (leafStem.meshes.map (·.1.vertexCount)).sum = 16 ∧ leafStem.combinedMesh.vertexCount = 16 ∧
    leafStem.combinedMesh.triangleCount = 8 ∧
    (∃ facets, leafStem.combinedMesh.facets? = some facets ∧ facets.length = 8) ∧
    leafQuad.Whole ∧ (leafQuad.merge leafQuad).indices.toList.map UInt32.toNat =
      [0, 1, 2, 2, 3, 0, 4, 6, 5, 6, 4, 7, 8, 9, 10, 10, 11, 8, 12, 14, 13, 14, 12, 15] := by
  have whole : ∀ held ∈ leafStem.meshes, held.1.Whole := by decide
  have count : (leafStem.meshes.map (·.1.vertexCount)).sum = 16 := by decide
  have few : (leafStem.meshes.map (·.1.vertexCount)).sum ≤ UInt32.size := by
    rw [count]
    decide
  have size : leafStem.triangleCount = 8 := by decide
  have leaf : leafQuad.Whole := by decide
  obtain ⟨scenes, -, -, indices⟩ := combined_mesh_loses_nothing
  obtain ⟨vertices, triangles, -, facets, found, length, -⟩ := scenes leafStem whole few
  exact ⟨whole, count, vertices.trans count, triangles.trans size,
    ⟨facets, found, length.trans (triangles.trans size)⟩, leaf,
    (indices leafQuad leafQuad leaf leaf (by decide)).2.trans (by decide)⟩

end Sapling.Recording
