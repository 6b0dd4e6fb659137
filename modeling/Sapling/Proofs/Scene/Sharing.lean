import Mathlib.Logic.Function.Basic
import Sapling.Proofs.Scene.History

/-! Scenes that are found in one scene. Two users of a scene whose nodes are apart each see a scene of their
own in it, with other numbers for its nodes, and no call of one touches what the other sees. -/
namespace Sapling

/-- The node with other numbers for all nodes. -/
def SceneNode.rename (f : NodeId → NodeId) (node : SceneNode) : SceneNode :=
  { node with parent := node.parent.map f }

/-! ## The node that was made last -/

theorem lt_or_last {nodes : Array SceneNode} {id : NodeId}
    (below : id.value < (nodes.push last).size) : id.value < nodes.size ∨ id = ⟨nodes.size⟩ := by
  rw [Array.size_push] at below
  exact (Nat.lt_succ_iff_lt_or_eq.mp below).imp_right (congrArg NodeId.mk)

private theorem found_or_last {nodes : Array SceneNode} {id : NodeId}
    (found : (nodes.push last)[id.value]? = some node) :
    nodes[id.value]? = some node ∨ id = ⟨nodes.size⟩ ∧ node = last := by
  rcases lt_or_last (Array.getElem?_eq_some_iff.mp found).1 with before | rfl
  · rw [Array.getElem?_push, if_neg (Nat.ne_of_lt before)] at found
    exact .inl found
  · rw [Array.getElem?_push_size] at found
    exact .inr ⟨rfl, (Option.some.inj found).symm⟩

/-! ## One user -/

/-- All nodes of `own` are among `all` under new numbers, in their order and behind the first `old`. -/
structure Within (old : Nat) (f : NodeId → NodeId) (own all : Array SceneNode) : Prop where
  ordered : ∀ {id later : NodeId}, id.value < later.value → later.value < own.size →
    (f id).value < (f later).value
  behind : ∀ {id : NodeId}, id.value < own.size → old ≤ (f id).value
  nodes : ∀ {id : NodeId} {node}, own[id.value]? = some node →
    all[(f id).value]? = some (node.rename f)
  parents : ∀ {id : NodeId} {node parent}, own[id.value]? = some node → node.parent = some parent →
    parent.value < own.size

namespace Within

variable {old : Nat} {f : NodeId → NodeId} {own all : Array SceneNode}

theorem inside (within : Within old f own all) {id : NodeId} (known : id.value < own.size) :
    (f id).value < all.size := by
  have found := within.nodes (Array.getElem?_eq_getElem known)
  exact (Array.getElem?_eq_some_iff.mp found).1

private theorem injective (within : Within old f own all) {id other : NodeId} (known : id.value < own.size)
    (known' : other.value < own.size) (same : (f id).value = (f other).value) :
    id.value = other.value := by
  rcases Nat.lt_trichotomy id.value other.value with less | equal | more
  · exact absurd same (Nat.ne_of_lt (within.ordered less known'))
  · exact equal
  · exact absurd same.symm (Nat.ne_of_lt (within.ordered more known))

/-- A node is renamed alike by numbers that agree on the nodes that are there. -/
theorem rename_congr (within : Within old f own all)
    (agree : ∀ id : NodeId, id.value < own.size → g id = f id) {id : NodeId}
    (found : own[id.value]? = some node) : node.rename g = node.rename f := by
  unfold SceneNode.rename
  cases above : node.parent with
  | none => rfl
  | some parent => rw [Option.map_some, Option.map_some, agree parent (within.parents found above)]

/-- What is found depends on the numbers of those nodes only that are there. -/
theorem congr (within : Within old f own all)
    (agree : ∀ id : NodeId, id.value < own.size → g id = f id) : Within old g own all where
  ordered less known := by
    rw [agree _ known, agree _ (Nat.lt_trans less known)]
    exact within.ordered less known
  behind known := by
    rw [agree _ known]
    exact within.behind known
  nodes {id node} found := by
    rw [agree id (Array.getElem?_eq_some_iff.mp found).1, within.rename_congr agree found]
    exact within.nodes found
  parents := within.parents

/-- A node that is made by another does not matter. -/
theorem push_other (within : Within old f own all) (node : SceneNode) :
    Within old f own (all.push node) where
  ordered := within.ordered
  behind := within.behind
  nodes {id _} found := by
    have inside := within.inside (Array.getElem?_eq_some_iff.mp found).1
    rw [Array.getElem?_push, if_neg (Nat.ne_of_lt inside)]
    exact within.nodes found
  parents := within.parents

/-- A change to the node of another does not matter. -/
theorem modify_other (within : Within old f own all) {place : Nat}
    (apart : ∀ id : NodeId, id.value < own.size → (f id).value ≠ place)
    (change : SceneNode → SceneNode) : Within old f own (all.modify place change) where
  ordered := within.ordered
  behind := within.behind
  nodes {id _} found := by
    have other := apart id (Array.getElem?_eq_some_iff.mp found).1
    rw [Array.getElem?_modify, if_neg other.symm]
    exact within.nodes found
  parents := within.parents

/-- The numbers with one more node on both sides. -/
def extend (f : NodeId → NodeId) (own all : Array SceneNode) : NodeId → NodeId :=
  Function.update f ⟨own.size⟩ ⟨all.size⟩

/-- The new node of one user is the new node of the scene. -/
theorem extend_new (f : NodeId → NodeId) (own all : Array SceneNode) :
    extend f own all ⟨own.size⟩ = ⟨all.size⟩ :=
  Function.update_self ..

theorem extend_old (f : NodeId → NodeId) (own all : Array SceneNode) {id : NodeId}
    (known : id.value < own.size) : extend f own all id = f id :=
  Function.update_of_ne (fun same => Nat.ne_of_lt known (congrArg NodeId.value same)) ..

/-- A node that is made on both sides, under a parent that is there. -/
theorem push (within : Within old f own all) (enough : old ≤ all.size) {parent : Option NodeId}
    (known : ∀ id, parent = some id → id.value < own.size) :
    Within old (extend f own all) (own.push { parent }) (all.push { parent := parent.map f }) := by
  refine ⟨fun {id later} less below => ?_, fun {id} below => ?_, fun {id node} found => ?_,
    fun {id node above} found parent' => ?_⟩
  · rcases lt_or_last below with before | rfl
    · rw [extend_old f own all before, extend_old f own all (Nat.lt_trans less before)]
      exact within.ordered less before
    · rw [extend_new, extend_old f own all less]
      exact within.inside less
  · rcases lt_or_last below with before | rfl
    · rw [extend_old f own all before]
      exact within.behind before
    · rw [extend_new]
      exact enough
  · rcases found_or_last found with there | ⟨rfl, rfl⟩
    · have before := (Array.getElem?_eq_some_iff.mp there).1
      rw [extend_old f own all before, within.rename_congr (fun _ => extend_old f own all) there]
      exact (within.push_other _).nodes there
    · have same : parent.map (extend f own all) = parent.map f := by
        cases parent with
        | none => rfl
        | some id => rw [Option.map_some, Option.map_some, extend_old f own all (known id rfl)]
      rw [extend_new, Array.getElem?_push_size]
      simp only [SceneNode.rename, same]
  · rw [Array.size_push]
    rcases found_or_last found with there | ⟨-, rfl⟩
    · exact Nat.lt_succ_of_lt (within.parents there parent')
    · exact Nat.lt_succ_of_lt (known above parent')

/-- A change to a node that leaves its parent as it is. -/
theorem modify (within : Within old f own all) {id : NodeId} (known : id.value < own.size)
    {change : SceneNode → SceneNode} (parent : ∀ node, (change node).parent = node.parent)
    (renames : ∀ node, (change node).rename f = change (node.rename f)) :
    Within old f (own.modify id.value change) (all.modify (f id).value change) where
  ordered less below := within.ordered less (Array.size_modify .. ▸ below)
  behind below := within.behind (Array.size_modify .. ▸ below)
  nodes {other node} found := by
    rw [Array.getElem?_modify] at found ⊢
    by_cases same : id.value = other.value
    · obtain rfl : id = other := congrArg NodeId.mk same
      rw [if_pos rfl] at found ⊢
      obtain ⟨before, there, rfl⟩ := Option.map_eq_some_iff.mp found
      rw [within.nodes there, renames]
      rfl
    · rw [if_neg same] at found
      have known' := (Array.getElem?_eq_some_iff.mp found).1
      rw [if_neg fun same' => same (within.injective known known' same')]
      exact within.nodes found
  parents {other node above} found parent' := by
    rw [Array.size_modify]
    rw [Array.getElem?_modify] at found
    split at found
    · obtain ⟨before, there, rfl⟩ := Option.map_eq_some_iff.mp found
      exact within.parents there (parent before ▸ parent')
    · exact within.parents found parent'

end Within

/-! ## Two users -/

/-- Two users of one scene, with the nodes that each sees as its own. Behind the `old` nodes from before
there are no others. -/
structure Apart (old : Nat) (f g : NodeId → NodeId) (first second all : Array SceneNode) : Prop where
  mine : Within old f first all
  theirs : Within old g second all
  disjoint : ∀ {id other : NodeId}, id.value < first.size → other.value < second.size →
    (f id).value ≠ (g other).value
  enough : old ≤ all.size
  covers : ∀ id : NodeId, old ≤ id.value → id.value < all.size →
    (∃ own, own.value < first.size ∧ f own = id) ∨ ∃ own, own.value < second.size ∧ g own = id

namespace Apart

variable {old : Nat} {f g : NodeId → NodeId} {first second all : Array SceneNode}

/-- The two users may change sides. -/
theorem symm (apart : Apart old f g first second all) : Apart old g f second first all where
  mine := apart.theirs
  theirs := apart.mine
  disjoint known known' same := apart.disjoint known' known same.symm
  enough := apart.enough
  covers id behind below := (apart.covers id behind below).symm

/-- Only the numbers of nodes that are there count. -/
theorem congr (apart : Apart old f g first second all)
    (agree : ∀ id : NodeId, id.value < first.size → f' id = f id) :
    Apart old f' g first second all where
  mine := apart.mine.congr agree
  theirs := apart.theirs
  disjoint known known' := by
    rw [agree _ known]
    exact apart.disjoint known known'
  enough := apart.enough
  covers id behind below := (apart.covers id behind below).imp_left fun ⟨own, known, same⟩ =>
    ⟨own, known, (agree own known).trans same⟩

/-- One user makes a node. -/
theorem push (apart : Apart old f g first second all) {parent : Option NodeId}
    (known : ∀ id, parent = some id → id.value < first.size) :
    Apart old (Within.extend f first all) g (first.push { parent }) second
      (all.push { parent := parent.map f }) where
  mine := apart.mine.push apart.enough known
  theirs := apart.theirs.push_other _
  disjoint {id other} below known' := by
    rcases lt_or_last below with before | rfl
    · rw [Within.extend_old f first all before]
      exact apart.disjoint before known'
    · rw [Within.extend_new]
      exact Ne.symm (Nat.ne_of_lt (apart.theirs.inside known'))
  enough := by
    rw [Array.size_push]
    exact Nat.le_succ_of_le apart.enough
  covers id behind below := by
    rw [Array.size_push]
    rcases lt_or_last below with before | rfl
    · refine (apart.covers id behind before).imp_left ?_
      rintro ⟨own, known, rfl⟩
      exact ⟨own, Nat.lt_succ_of_lt known, Within.extend_old f first all known⟩
    · exact .inl ⟨⟨first.size⟩, Nat.lt_succ_self _, Within.extend_new f first all⟩

/-- One user changes a node of its own. -/
theorem modify (apart : Apart old f g first second all) {id : NodeId} (known : id.value < first.size)
    {change : SceneNode → SceneNode} (parent : ∀ node, (change node).parent = node.parent)
    (renames : ∀ node, (change node).rename f = change (node.rename f)) :
    Apart old f g (first.modify id.value change) second (all.modify (f id).value change) where
  mine := apart.mine.modify known parent renames
  theirs := apart.theirs.modify_other (fun _ known' same => apart.disjoint known known' same.symm) change
  disjoint below known' := apart.disjoint (Array.size_modify .. ▸ below) known'
  enough := by
    rw [Array.size_modify]
    exact apart.enough
  covers id behind below := by
    rw [Array.size_modify] at below ⊢
    exact apart.covers id behind below

/-! ## Calls -/

variable {scene shared : Recording}

private theorem known_eq {parent : Option NodeId}
    (known : ∀ id, parent = some id → id.value < scene.nodes.size) : scene.known parent = parent := by
  cases parent with
  | none => rfl
  | some id => exact Option.filter_some_pos (decide_eq_true (known id rfl))

/-- One user creates a node, which is a new one for both. -/
theorem create (apart : Apart old f g scene.nodes second shared.nodes) {parent : Option NodeId}
    (known : ∀ id, parent = some id → id.value < scene.nodes.size) :
    Apart old (Within.extend f scene.nodes shared.nodes) g (scene.createNode parent).2.nodes second
      (shared.createNode (parent.map f)).2.nodes := by
  have known' : ∀ id, parent.map f = some id → id.value < shared.nodes.size := by
    intro id found
    obtain ⟨before, above, rfl⟩ := Option.map_eq_some_iff.mp found
    exact apart.mine.inside (known before above)
  rw [Recording.createNode_nodes, Recording.createNode_nodes, known_eq known, known_eq known']
  exact apart.push known

/-- One user attaches a mesh to its own node, and the other one does not see it. -/
theorem attach (apart : Apart old f g scene.nodes second shared.nodes) {id : NodeId}
    (known : id.value < scene.nodes.size) (mesh : Mesh) (material : Material) :
    Apart old f g (scene.attachMesh id mesh material).nodes second
      (shared.attachMesh (f id) mesh material).nodes := by
  rw [Recording.attachMesh_nodes, Recording.attachMesh_nodes]
  exact apart.modify known (fun _ => rfl) fun _ => rfl

/-- One user places its own node, and the other one does not see it. -/
theorem place (apart : Apart old f g scene.nodes second shared.nodes) {id : NodeId}
    (known : id.value < scene.nodes.size) (transform : Transform) :
    Apart old f g (scene.setTransform id transform).nodes second
      (shared.setTransform (f id) transform).nodes := by
  rw [Recording.setTransform_nodes, Recording.setTransform_nodes]
  exact apart.modify known (fun _ => rfl) fun _ => rfl

end Apart


end Sapling
