import Mathlib.Data.List.Induction
import Sapling.Proofs.Scene.History

/-! The nodes of a scene, whatever was done to it. Their ids are handed out in order; a node keeps the parent
that it was made under, and parents come before their children. So the way up from a node ends, and it ends
at a node without a parent. -/
namespace Sapling

namespace Recording

/-! ## Parents -/

/-- The parents of all nodes, in the order of the nodes. -/
def parents (scene : Recording) : List (Option NodeId) := scene.nodes.toList.map (·.parent)

theorem length_parents (scene : Recording) : scene.parents.length = scene.nodeCount := by
  simp [parents, nodeCount]

theorem parents_at (scene : Recording) (id : NodeId) :
    scene.parents[id.value]? = (scene.node? id).map (·.parent) := by
  simp [parents, node?]

private theorem isSome_node (scene : Recording) (id : NodeId) :
    (scene.node? id).isSome ↔ id.value < scene.nodeCount := by
  simp [node?, nodeCount]

private theorem parents_createNode (scene : Recording) (parent : Option NodeId) :
    (scene.createNode parent).2.parents = scene.parents ++ [scene.known parent] := by
  simp [parents, createNode_nodes]

private theorem parents_update (scene : Recording) (id : NodeId) {change : SceneNode → SceneNode}
    (event : SceneNode → SceneEvent) (keeps : ∀ node, (change node).parent = node.parent) :
    (scene.update id change event).parents = scene.parents := by
  apply List.ext_getElem?
  intro place
  simp only [parents, update_nodes, List.getElem?_map, Array.toList_modify, List.getElem?_modify]
  cases scene.nodes.toList[place]? with
  | none => rfl
  | some node => by_cases same : id.value = place <;> simp [same, keeps]

private theorem parents_attachMesh (scene : Recording) (id : NodeId) (mesh : Mesh) (material : Material) :
    (scene.attachMesh id mesh material).parents = scene.parents :=
  parents_update scene id _ fun _ => rfl

private theorem parents_setTransform (scene : Recording) (id : NodeId) (transform : Transform) :
    (scene.setTransform id transform).parents = scene.parents :=
  parents_update scene id _ fun _ => rfl

/-- Every node comes after its parent. -/
def Upright (scene : Recording) : Prop :=
  ∀ (place : Nat) (parent : NodeId), scene.parents[place]? = some (some parent) → parent.value < place

/-- A new node comes after all others, and so after its parent if it has one. -/
theorem Upright.concat {scene next : Recording} (upright : scene.Upright) {parent : Option NodeId}
    (grows : next.parents = scene.parents ++ [scene.known parent]) : next.Upright := by
  intro place above found
  rw [grows] at found
  rcases Nat.lt_or_ge place scene.parents.length with old | new
  · rw [List.getElem?_append_left old] at found
    exact upright place above found
  · rw [List.getElem?_append_right new, List.getElem?_singleton] at found
    split at found
    · have known : above.value < scene.nodeCount := by
        simpa using (Option.filter_eq_some_iff.mp (Option.some.inj found)).2
      exact Nat.lt_of_lt_of_le known (length_parents scene ▸ new)
    · cases found

private theorem Upright.parent_lt {scene : Recording} (upright : scene.Upright) {id parent : NodeId}
    (found : scene.node? id = some node) (above : node.parent = some parent) :
    parent.value < id.value :=
  upright id.value parent (by rw [parents_at, found, Option.map_some, above])

/-! ## The way up -/

/-- The nodes on the way down to a node, from the one at the top to the node itself. -/
inductive Lineage (scene : Recording) : NodeId → List SceneNode → Prop where
  | top {id : NodeId} (found : scene.node? id = some node) (above : node.parent = none) :
    Lineage scene id [node]
  | under {id : NodeId} (found : scene.node? id = some node) (above : node.parent = some parent)
    (line : Lineage scene parent path) : Lineage scene id (path ++ [node])

private theorem Upright.exists_lineage {scene : Recording} (upright : scene.Upright) {id : NodeId}
    (found : scene.node? id = some node) :
    ∃ path, scene.Lineage id path ∧ path.length ≤ id.value + 1 := by
  induction value : id.value using Nat.strongRecOn generalizing id node with
  | ind place ih =>
    subst value
    cases above : node.parent with
    | none => exact ⟨[node], .top found above, Nat.le_add_left 1 id.value⟩
    | some parent =>
      have earlier := upright.parent_lt found above
      have known : id.value < scene.nodeCount := (scene.isSome_node id).mp (by rw [found]; rfl)
      obtain ⟨node', found'⟩ := Option.isSome_iff_exists.mp
        ((scene.isSome_node parent).mpr (Nat.lt_trans earlier known))
      obtain ⟨path, line, short⟩ := ih parent.value earlier found' rfl
      refine ⟨path ++ [node], .under found above line, ?_⟩
      rw [List.length_append, List.length_singleton]
      omega

/-- Where there is no node the walk is over. -/
theorem climb_outside {scene : Recording} {current : Option NodeId}
    (outside : current.bind scene.node? = none) (steps : Nat) (matrix : Mat4) :
    scene.climb steps current matrix = matrix := by
  cases steps with
  | zero => rfl
  | succ steps => rw [climb, outside]

/-- The walk goes up the whole line, and more steps than there are nodes make no difference. -/
theorem Lineage.climb {scene : Recording} {id : NodeId} {path : List SceneNode}
    (line : scene.Lineage id path) {steps : Nat} (enough : path.length ≤ steps) (matrix : Mat4) :
    scene.climb steps (some id) matrix =
      path.foldr (fun node below => node.transform.toMatrix * below) matrix := by
  induction line generalizing steps matrix with
  | top found above =>
    obtain ⟨steps, rfl⟩ := Nat.exists_eq_add_of_le' enough
    simp only [Recording.climb, Option.bind_some, found, above, climb_outside, Option.bind_none,
      List.length_singleton, List.foldr_cons, List.foldr_nil]
  | under found above line ih =>
    rw [List.length_append, List.length_singleton] at enough
    obtain ⟨steps, rfl⟩ := Nat.exists_eq_add_of_le' (Nat.le_of_add_left_le enough)
    simp only [Recording.climb, Option.bind_some, found, above, List.foldr_append]
    exact ih (by omega) _

end Recording

namespace SceneCall

/-- The parents of the nodes that the call makes, of which there is one at most. -/
def newParents (scene : Recording) : SceneCall → List (Option NodeId)
  | createNode parent => [scene.known parent]
  | _ => []

private theorem length_newParents (scene : Recording) (call : SceneCall) :
    (call.newParents scene).length = if call.creates then 1 else 0 := by
  cases call <;> rfl

end SceneCall

namespace History

/-- A call without an effect changes nothing at all. -/
theorem perform_ineffective {h : History} {call : SceneCall} (without : ¬ call.Effective h.scene)
    (keeps : call ≠ .drainEvents) : h.perform call = h := by
  have ignored {id : NodeId} (unknown : ¬ (h.scene.node? id).isSome)
      (change : SceneNode → SceneNode) (event : SceneNode → SceneEvent) :
      { h with scene := h.scene.update id change event } = h := by
    rw [Recording.update_unknown (Option.not_isSome_iff_eq_none.mp unknown)]
  cases call with
  | createNode parent => exact absurd trivial without
  | attachMesh id mesh material => exact ignored without _ _
  | setTransform id transform => exact ignored without _ _
  | drawInstanced batch properties => exact absurd trivial without
  | drainEvents => contradiction

/-- A call leaves the parents of all nodes as they are. -/
theorem parents_perform (h : History) (call : SceneCall) :
    (h.perform call).scene.parents = h.scene.parents ++ call.newParents h.scene := by
  cases call with
  | createNode parent => exact h.scene.parents_createNode parent
  | attachMesh id mesh material =>
    exact (h.scene.parents_attachMesh id mesh material).trans (List.append_nil _).symm
  | setTransform id transform =>
    exact (h.scene.parents_setTransform id transform).trans (List.append_nil _).symm
  | drawInstanced batch properties => exact (List.append_nil _).symm
  | drainEvents => exact (List.append_nil _).symm

private theorem nodeCount_perform (h : History) (call : SceneCall) :
    (h.perform call).scene.nodeCount = h.scene.nodeCount + if call.creates then 1 else 0 := by
  rw [← Recording.length_parents, parents_perform, List.length_append, Recording.length_parents,
    SceneCall.length_newParents]

private theorem upright_perform {h : History} (upright : h.scene.Upright) (call : SceneCall) :
    (h.perform call).scene.Upright := by
  have grows := h.parents_perform call
  cases call with
  | createNode parent => exact upright.concat grows
  | _ =>
    have same := grows.trans (List.append_nil _)
    exact fun place parent found => upright place parent (same ▸ found)

/-- Later calls add parents behind those that are there. -/
theorem parents_foldl (h : History) (later : List SceneCall) :
    h.scene.parents <+: (later.foldl perform h).scene.parents := by
  induction later generalizing h with
  | nil => exact List.prefix_rfl
  | cons call later ih =>
    refine .trans ?_ (ih (h.perform call))
    rw [parents_perform]
    exact List.prefix_append ..

private theorem upright_ofCalls (calls : List SceneCall) : (ofCalls calls).scene.Upright := by
  induction calls using List.reverseRecOn with
  | nil => exact nofun
  | append_singleton calls call ih =>
    rw [ofCalls_concat]
    exact upright_perform ih call

theorem nodeCount_ofCalls (calls : List SceneCall) :
    (ofCalls calls).scene.nodeCount = calls.countP (·.creates) := by
  induction calls using List.reverseRecOn with
  | nil => rfl
  | append_singleton calls call ih =>
    rw [ofCalls_concat, nodeCount_perform, ih, List.countP_append, List.countP_singleton]

private theorem made_ofCalls (calls : List SceneCall) :
    (ofCalls calls).made = (List.range (calls.countP (·.creates))).map NodeId.mk := by
  induction calls using List.reverseRecOn with
  | nil => rfl
  | append_singleton calls call ih =>
    rw [ofCalls_concat, List.countP_append, List.countP_singleton]
    cases call with
    | createNode parent =>
      change (ofCalls calls).made ++ [⟨(ofCalls calls).scene.nodeCount⟩] = _
      rw [ih, nodeCount_ofCalls, SceneCall.creates, if_pos rfl, List.range_succ, List.map_append]
      rfl
    | _ => exact ih

/-- A node has the parent that it was made under, if that was there. -/
theorem parent_of_created (before after : List SceneCall) (parent : Option NodeId) :
    ((ofCalls (before ++ .createNode parent :: after)).scene.node? ⟨before.countP (·.creates)⟩).map
        (·.parent) =
      some (parent.filter fun id => id.value < before.countP (·.creates)) := by
  obtain ⟨others, split⟩ := ((ofCalls before).perform (.createNode parent)).parents_foldl after
  rw [parents_perform, SceneCall.newParents, List.append_assoc, List.singleton_append] at split
  rw [← Recording.parents_at, ofCalls_append, List.foldl_cons, ← split, ← nodeCount_ofCalls,
    ← Recording.length_parents, List.getElem?_append_right (Nat.le_refl _), Nat.sub_self,
    List.getElem?_cons_zero, Recording.length_parents]
  rfl

/-- What parent a node has does not change. -/
theorem parent_later (calls later : List SceneCall) {id : NodeId}
    (found : (ofCalls calls).scene.node? id = some node) :
    ((ofCalls (calls ++ later)).scene.node? id).map (·.parent) = some node.parent := by
  obtain ⟨others, split⟩ := (ofCalls calls).parents_foldl later
  have known : (ofCalls calls).scene.parents[id.value]? = some node.parent := by
    rw [Recording.parents_at, found, Option.map_some]
  rw [← Recording.parents_at, ofCalls_append, ← split,
    List.getElem?_append_left (List.getElem?_eq_some_iff.mp known).1, known]

/-- The nodes of a scene, whatever was done to it. Ids are the numbers from zero on, in the order of
creation. A node is under the parent that it was made under, if that was there, and is so for good. Calls
to unknown nodes change nothing. The walk up from a node ends after the nodes on the way, of which there
are no more than its number and one, with the product of their matrices. -/
theorem nodes_form_forest (calls : List SceneCall) :
    let h := ofCalls calls
    let count := calls.countP (·.creates)
    (h.made = (List.range count).map NodeId.mk ∧
      ∀ id, (h.scene.node? id).isSome ↔ id.value < count) ∧
    (∀ id node parent, h.scene.node? id = some node → node.parent = some parent →
      parent.value < id.value ∧ (h.scene.node? parent).isSome) ∧
    (∀ before parent after, calls = before ++ .createNode parent :: after →
      (h.scene.node? ⟨before.countP (·.creates)⟩).map (·.parent) =
        some (parent.filter fun id => id.value < before.countP (·.creates))) ∧
    (∀ later id node, h.scene.node? id = some node →
      ((ofCalls (calls ++ later)).scene.node? id).map (·.parent) = some node.parent) ∧
    (∀ id, h.scene.node? id = none →
      (∀ mesh material, h.perform (.attachMesh id mesh material) = h) ∧
      (∀ transform, h.perform (.setTransform id transform) = h) ∧
      h.scene.worldMatrix id = .identity) ∧
    ∀ id node, h.scene.node? id = some node → ∃ path, h.scene.Lineage id path ∧
      path.length ≤ id.value + 1 ∧
      h.scene.worldMatrix id =
        path.foldr (fun node below => node.transform.toMatrix * below) .identity ∧
      ∀ steps, path.length ≤ steps →
        h.scene.climb steps (some id) .identity = h.scene.worldMatrix id := by
  intro h count
  have size : h.scene.nodeCount = count := nodeCount_ofCalls calls
  have upright : h.scene.Upright := upright_ofCalls calls
  have known (id : NodeId) : (h.scene.node? id).isSome ↔ id.value < count :=
    size ▸ h.scene.isSome_node id
  refine ⟨⟨made_ofCalls calls, known⟩, ?_, ?_, fun later id node => parent_later calls later, ?_, ?_⟩
  · intro id node parent found above
    have earlier := upright.parent_lt found above
    have inside : id.value < count := (known id).mp (by rw [found]; rfl)
    exact ⟨earlier, (known parent).mpr (Nat.lt_trans earlier inside)⟩
  · rintro before parent after rfl
    exact parent_of_created before after parent
  · intro id unknown
    have nobody : ¬ (h.scene.node? id).isSome := by simp [unknown]
    exact ⟨fun mesh material => perform_ineffective nobody nofun,
      fun transform => perform_ineffective nobody nofun,
      Recording.climb_outside (show (some id).bind h.scene.node? = none from unknown) _ _⟩
  · intro id node found
    obtain ⟨path, line, short⟩ := upright.exists_lineage found
    have world := line.climb short .identity
    exact ⟨path, line, short, world, fun steps enough => (line.climb enough _).trans world.symm⟩

/-- A root that names itself as its parent, two nodes above each other, and calls that name nobody. -/
def sapling : List SceneCall :=
  let lifted := Transform.atPosition ⟨0, 2, 0⟩
  [.createNode (some ⟨0⟩), .createNode (some ⟨0⟩), .setTransform ⟨1⟩ lifted, .drainEvents,
    .createNode (some ⟨1⟩), .attachMesh ⟨3⟩ .empty {}, .setTransform ⟨2⟩ lifted]

/-- The node that was to be its own parent has none, and the last one stands under the second. -/
theorem nodes_of_sapling_form_forest :
    let h := ofCalls sapling
    h.made = [⟨0⟩, ⟨1⟩, ⟨2⟩] ∧ (h.scene.node? ⟨0⟩).map (·.parent) = some none ∧
    (h.scene.node? ⟨2⟩).map (·.parent) = some (some ⟨1⟩) ∧ h.scene.node? ⟨3⟩ = none ∧
    h.perform (.setTransform ⟨3⟩ .identity) = h ∧ h.scene.worldMatrix ⟨3⟩ = .identity ∧
    ∃ path, h.scene.Lineage ⟨2⟩ path ∧ path.length ≤ 3 ∧ h.scene.worldMatrix ⟨2⟩ =
      path.foldr (fun node below => node.transform.toMatrix * below) .identity := by
  intro h
  obtain ⟨⟨made, -⟩, -, parents, -, unknown, known⟩ := nodes_form_forest sapling
  have nobody : h.scene.node? ⟨3⟩ = none := rfl
  have lastOne : (h.scene.node? ⟨2⟩).isSome := rfl
  obtain ⟨node, found⟩ := Option.isSome_iff_exists.mp lastOne
  obtain ⟨path, line, short, world, -⟩ := known ⟨2⟩ node found
  obtain ⟨-, unplaced, unmoved⟩ := unknown ⟨3⟩ nobody
  exact ⟨made, parents [] (some ⟨0⟩) _ rfl, parents (sapling.take 4) (some ⟨1⟩) _ rfl, nobody,
    unplaced .identity, unmoved, path, line, short, world⟩

end History


end Sapling
