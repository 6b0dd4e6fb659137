import Sapling.Proofs.Growth.FrameRate
import Sapling.Proofs.Mesh.Cylinder
import Sapling.Proofs.Settings.Checks

/-! The scene of a complete growth. It has the root and one node for each segment, in the order of the
segments, and each of these stands under the root with the mesh of its segment, in its full size. -/
namespace Sapling.Scheduler

open Sapling.Random

/-- Settings of meshes that hold up to the check are fine enough for tubes. -/
theorem fine_of_valid {settings : MeshSettings} (valid : settings.validate = .ok ()) :
    1 ≤ settings.curveSegments ∧ 3 ≤ settings.radialSegments := by
  have accepted := MeshSettings.validate_ok_iff.mp valid
  exact ⟨UInt32.not_lt.mp accepted.curveSegments, UInt32.not_lt.mp accepted.radialSegments⟩

/-- A branch that has grown to its end is neither turned nor scaled. -/
theorem fullGrown_eq (fresh : Scheduler) (segment : Segment) :
    fresh.fullGrown segment = ⟨segment.start - fresh.interpretation.origin, .identity, .one⟩ := by
  have whole : smoothstep 1 = 1 := by decide
  rw [fullGrown, whole]
  rfl

/-- The node of each segment when the growth is complete, by the settings of the tree. -/
theorem final_branch {fresh s : Scheduler} {scene : Recording} (built : Built fresh s scene s.tasks)
    (accounts : Accounts s s.tasks) (same : SameTree fresh s) (complete : s.phase = .complete)
    {segment : Segment} (found : fresh.interpretation.segments[index]? = some segment) :
    s.owner? index = some (branchNode index) ∧
    scene.node? (branchNode index) =
      some (fresh.standing index segment
        ⟨segment.start - fresh.interpretation.origin, .identity, .one⟩) := by
  have all := accounts.all_started same complete
  have inside := (Array.getElem?_eq_some_iff.mp found).1
  refine ⟨built.owner (all ▸ inside), ?_⟩
  change scene.nodes[index + 1]? = _
  rw [built.final accounts same complete, finalNode?, found, ← fullGrown_eq]
  rfl

/-- The scene of a complete growth has a mesh for each segment, and no other. -/
theorem final_meshes {fresh s : Scheduler} {scene : Recording} (built : Built fresh s scene s.tasks)
    (accounts : Accounts s s.tasks) (same : SameTree fresh s) (complete : s.phase = .complete)
    (along : 1 ≤ fresh.mesh.curveSegments) (around : 3 ≤ fresh.mesh.radialSegments) :
    scene.nodeCount = 1 + fresh.interpretation.segments.size ∧
    scene.meshCount = fresh.interpretation.segments.size ∧
    scene.triangleCount = fresh.interpretation.segments.size *
      (4 * fresh.mesh.curveSegments.toNat * fresh.mesh.radialSegments.toNat) := by
  have final := built.final accounts same complete
  have size : scene.nodes.size = fresh.interpretation.segments.size + 1 := by
    rw [(built.root (built.rooted complete)).2.1, accounts.all_started same complete]
  obtain ⟨root, branches, shape⟩ : ∃ root branches, scene.nodes.toList = root :: branches :=
    List.exists_cons_of_length_pos (by rw [Array.length_toList]; omega)
  have listed : ∀ place, (root :: branches)[place]? = fresh.finalNode? place := by
    intro place
    rw [← shape, Array.getElem?_toList, final]
  have bare : root.mesh = none := by
    rw [Option.some.inj (listed 0)]
  have length : branches.length = fresh.interpretation.segments.size := by
    have both := congrArg List.length shape
    rw [Array.length_toList, List.length_cons] at both
    omega
  have uniform : ∀ node ∈ branches, ∃ mesh material, node.mesh = some (mesh, material) ∧
      mesh.triangleCount = 4 * fresh.mesh.curveSegments.toNat * fresh.mesh.radialSegments.toNat := by
    intro node member
    obtain ⟨index, there⟩ := List.mem_iff_getElem?.mp member
    have stands := (listed (index + 1)).symm.trans there
    obtain ⟨segment, found, rfl⟩ := Option.map_eq_some_iff.mp stands
    obtain ⟨fine, fine'⟩ := (fresh.tubeOf segment).fields_of_fine along around
    exact ⟨_, _, rfl, by rw [Tube.triangleCount_mesh, fine, fine']; rfl⟩
  have meshes : scene.meshes = branches.filterMap (·.mesh) := by
    rw [Recording.meshes, shape, List.filterMap_cons_none bare]
  obtain ⟨count, triangles⟩ := Recording.meshes_of_uniform uniform 0
  refine ⟨by rw [Recording.nodeCount, size, Nat.add_comm], ?_, ?_⟩
  · rw [Recording.meshCount, meshes, count, length]
  · rw [Recording.triangleCount, meshes, triangles, length, Nat.zero_add]

/-- When a run into an empty scene is complete, whatever its frames were, the scene has one node more
than the tree has segments. The root has no parent and stands at the origin of the tree. The owner of each
segment stands under the root at the start of the segment, neither turned nor scaled, and has the mesh of
the segment, built around that start; the owners come in the order of the segments. So there is one mesh
for each segment, and all have the same number of triangles. -/
theorem complete_scene_is_whole_tree {tree : Interpretation} {settings : TreeSettings}
    {source : Generator} (accepted : checked tree settings source = .ok fresh)
    (lengths : List Float32) :
    let s := (fresh.run lengths Recording.empty).1
    let scene := (fresh.run lengths Recording.empty).2
    s.phase = .complete →
    scene.nodeCount = 1 + tree.segments.size ∧
    (∃ root, s.root = some root ∧
      scene.node? root = some ⟨none, .atPosition tree.origin, none⟩ ∧
      ∀ index segment, tree.segments[index]? = some segment → ∃ id material,
        s.owner? index = some id ∧
        scene.node? id = some {
          parent := some root
          transform := ⟨segment.start - tree.origin, .identity, .one⟩
          mesh := some (Tube.mesh {
            curve := ⟨.zero, segment.control - segment.start, segment.tip - segment.start⟩
            baseWidth := segment.thickness
            baseHeight := tree.origin.y - segment.start.y
            maxHeight := tree.maxHeight - segment.start.y
            curveSegments := settings.mesh.curveSegments
            radialSegments := settings.mesh.radialSegments }, material) }) ∧
    (∀ first second id other, first < second → s.owner? first = some id →
      s.owner? second = some other → id.value < other.value) ∧
    scene.meshCount = tree.segments.size ∧
    scene.triangleCount = tree.segments.size *
      (4 * settings.mesh.curveSegments.toNat * settings.mesh.radialSegments.toNat) := by
  intro s scene complete
  obtain ⟨⟨⟨accounts, same⟩, -⟩, built⟩ := built_of_accepted accepted lengths
  obtain ⟨along, around⟩ := fine_of_valid (checked_settings accepted).2.1
  obtain ⟨-, rfl⟩ := checked_ok accepted
  obtain ⟨nodes, meshes, triangles⟩ := final_meshes built accounts same complete along around
  obtain ⟨root, -, first⟩ := built.root (built.rooted complete)
  refine ⟨nodes, ⟨⟨0⟩, root, first, ?_⟩, ?_, meshes, triangles⟩
  · intro index segment found
    obtain ⟨owner, node⟩ := final_branch built accounts same complete found
    exact ⟨branchNode index, _, owner, node⟩
  · intro first second id other before owner owner'
    have ids : ∀ index id, s.owner? index = some id → id = branchNode index := by
      intro index id owner
      rw [owner?, ← Array.getElem?_toList, built.owners, List.getElem?_map] at owner
      obtain ⟨place, found, rfl⟩ := Option.map_eq_some_iff.mp owner
      obtain ⟨inside, rfl⟩ := List.getElem?_eq_some_iff.mp found
      rw [List.getElem_range]
    rw [ids first id owner, ids second other owner']
    exact Nat.succ_lt_succ before

/-- A sprout of two segments becomes three nodes and two meshes of 384 triangles each. -/
theorem complete_scene_of_sprout :
    checked sprout {} (.ofSeed 7) = .ok (atStart sprout {} (.ofSeed 7)) ∧
    let s := (atStart sprout {} (.ofSeed 7)).run [0, 60, 1, 2, 1] Recording.empty
    s.1.phase = .complete ∧ s.2.nodeCount = 3 ∧ s.2.meshCount = 2 ∧ s.2.triangleCount = 2 * 384 ∧
    ∃ id node, s.1.owner? 1 = some id ∧ s.2.node? id = some node ∧
      node.transform = ⟨.unitY - .zero, .identity, .one⟩ := by
  have accepted : checked sprout {} (.ofSeed 7) = .ok (atStart sprout {} (.ofSeed 7)) := rfl
  have complete : ((atStart sprout {} (.ofSeed 7)).run [0, 60, 1, 2, 1] Recording.empty).1.phase =
      .complete := by decide +kernel
  obtain ⟨nodes, ⟨root, -, -, branches⟩, -, meshes, triangles⟩ :=
    complete_scene_is_whole_tree accepted [0, 60, 1, 2, 1] complete
  obtain ⟨id, material, owner, node⟩ := branches 1 _ rfl
  exact ⟨accepted, complete, nodes, meshes, triangles, id, _, owner, node, rfl⟩

end Sapling.Scheduler
