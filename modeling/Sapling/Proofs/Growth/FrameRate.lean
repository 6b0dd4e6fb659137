import Sapling.Proofs.Growth.Blueprint
import Sapling.Proofs.Growth.Phases
import Sapling.Proofs.Scalar.Level
import Sapling.Proofs.Scene.History

/-! The frames of a run leave no trace in the tree. A branch has one node, numbered after its segment;
its mesh and its bark are settled in advance, and its last size is the same to the bit, since growth is
cut off at one. -/
namespace Sapling.Scheduler

open Sapling.Random

/-- The node of branch `index` in an empty scene, where the root is made first. -/
def branchNode (index : Nat) : NodeId := ⟨index + 1⟩

/-- The node of a branch that has the given placement. -/
def standing (fresh : Scheduler) (index : Nat) (segment : Segment) (transform : Transform) :
    SceneNode where
  parent := some ⟨0⟩
  transform
  mesh := some ((fresh.tubeOf segment).mesh, fresh.branchMaterial index)

/-- The placement of a branch that has grown to its end. -/
def fullGrown (fresh : Scheduler) (segment : Segment) : Transform :=
  (Transform.atPosition (fresh.offsetOf segment)).withUniformScale (smoothstep 1)

/-- A branch has grown to its end, or a task that lets it grow is among those pending. -/
def Growing (pending : List Task) (index : Nat) : Prop :=
  ∃ task, .branch task ∈ pending ∧ task.node = branchNode index ∧ task.stage = .growing

/-- What a scheduler has built into a scene that was empty at first. -/
structure Built (fresh s : Scheduler) (scene : Recording) (pending : List Task) : Prop where
  bare : s.root = none →
    s.phase = .branches ∧ s.stats.branchesStarted = 0 ∧ scene.nodes = #[]
  root : s.root.isSome →
    s.root = some ⟨0⟩ ∧ scene.nodes.size = s.stats.branchesStarted + 1 ∧
    scene.nodes[0]? = some { transform := .atPosition fresh.interpretation.origin }
  owners : s.owners.toList = (List.range s.stats.branchesStarted).map branchNode
  branches : ∀ index < s.stats.branchesStarted, ∃ segment transform,
    fresh.interpretation.segments[index]? = some segment ∧
    scene.nodes[index + 1]? = some (fresh.standing index segment transform) ∧
    (transform = fresh.fullGrown segment ∨ Growing pending index)
  tasks : ∀ task, .branch task ∈ pending → ∃ index segment,
    index < s.stats.branchesStarted ∧ task.node = branchNode index ∧
    fresh.interpretation.segments[index]? = some segment ∧ task.offset = fresh.offsetOf segment

namespace Built

/-- What is built depends on the pending branches only, and of those that rest none is needed. -/
theorem rehold (built : Built fresh s scene pending) (root : s'.root = s.root)
    (phase : s.root = none → s'.phase = s.phase) (owners : s'.owners = s.owners)
    (started : s'.stats.branchesStarted = s.stats.branchesStarted)
    (grows : ∀ task, .branch task ∈ pending → task.stage = .growing → .branch task ∈ pending')
    (only : ∀ task, .branch task ∈ pending' → .branch task ∈ pending) :
    Built fresh s' scene pending' where
  bare unrooted := by
    rw [root] at unrooted
    rw [phase unrooted, started]
    exact built.bare unrooted
  root rooted := by
    rw [root] at rooted ⊢
    rw [started]
    exact built.root rooted
  owners := by rw [owners, started, built.owners]
  branches index below := by
    obtain ⟨segment, transform, found, node, size⟩ := built.branches index (started ▸ below)
    refine ⟨segment, transform, found, node, size.imp_right ?_⟩
    rintro ⟨task, member, owner, growing⟩
    exact ⟨task, grows task member growing, owner, growing⟩
  tasks task member := by
    rw [started]
    exact built.tasks task (only task member)

/-- A branch that is placed anew either grows on or has come to its end. -/
theorem placed (built : Built fresh s scene (.branch task :: rest)) (part : Float32)
    (stage : BranchStage) (reached : part = 1 ∨ stage = .growing)
    (same : pending.Perm (.branch { task with stage } :: rest)) :
    Built fresh s (scene.setTransform task.node (grown task part)) pending := by
  obtain ⟨place, stem, below, owner, found, offset⟩ := built.tasks task List.mem_cons_self
  have nodes : (scene.setTransform task.node (grown task part)).nodes =
      scene.nodes.modify (place + 1) fun node => { node with transform := grown task part } := by
    rw [scene.setTransform_nodes, owner]
    rfl
  refine ⟨?_, ?_, built.owners, ?_, ?_⟩
  · intro unrooted
    have unstarted := (built.bare unrooted).2.1
    omega
  · intro rooted
    obtain ⟨root, size, first⟩ := built.root rooted
    rw [nodes, Array.size_modify, Array.getElem?_modify, if_neg (by omega)]
    exact ⟨root, size, first⟩
  · intro index within
    obtain ⟨segment, transform, known, node, size⟩ := built.branches index within
    rw [nodes, Array.getElem?_modify, node]
    by_cases this : place = index
    · subst this
      obtain rfl : stem = segment := by simpa [found] using known
      refine ⟨stem, grown task part, known, by simp [standing], ?_⟩
      rcases reached with rfl | growing
      · left
        rw [fullGrown, ← offset]
        rfl
      · exact .inr ⟨{ task with stage }, same.mem_iff.mpr List.mem_cons_self, owner, growing⟩
    · refine ⟨segment, transform, known, by simp [this], size.imp_right ?_⟩
      rintro ⟨other, member, its, growing⟩
      rcases List.mem_cons.mp member with same' | member
      · obtain rfl : other = task := Task.branch.inj same'
        rw [owner] at its
        exact absurd (by simpa [branchNode] using its) this
      · exact ⟨other, same.mem_iff.mpr (List.mem_cons_of_mem _ member), its, growing⟩
  · intro other member
    rcases List.mem_cons.mp (same.mem_iff.mp member) with this | member
    · obtain rfl : other = { task with stage } := Task.branch.inj this
      exact ⟨place, stem, below, owner, found, offset⟩
    · exact built.tasks other (List.mem_cons_of_mem _ member)

end Built

/-- A branch that starts gets the next node, under the root and with its mesh, and no other node changes. -/
theorem plant_nodes {s : Scheduler} {scene : Recording} (root : s.root = some ⟨0⟩)
    (size : scene.nodes.size = index + 1) (segment : Segment) :
    (s.plant segment scene).1 = branchNode index ∧
    (s.plant segment scene).2.nodes = scene.nodes.push {
      parent := some ⟨0⟩
      transform := (Transform.atPosition (s.offsetOf segment)).withUniformScale 0
      mesh := some ((s.tubeOf segment).mesh, s.nextDraws.1.material) } := by
  have known : scene.known s.root = some ⟨0⟩ := by
    simp [Recording.known, Recording.nodeCount, root, size]
  refine ⟨by rw [branchNode, ← size]; rfl, ?_⟩
  change ((((scene.createNode s.root).2.attachMesh _ _ _).setTransform _ _).nodes = _)
  rw [Recording.setTransform_nodes, Recording.attachMesh_nodes, Recording.createNode_nodes, known]
  simp only [Recording.nodeCount, Recording.push_modify_last]

private theorem built_start {fresh s : Scheduler} {scene : Recording}
    (same : SameTree fresh s) (drawn : s.generator = fresh.branchGenerator s.stats.branchesStarted)
    (rooted : s.root.isSome) (built : Built fresh s scene pending)
    {segment : Segment} (found : s.interpretation.segments[s.stats.branchesStarted]? = some segment)
    (more : ∀ task, .branch task ∈ pending' ↔
      task = s.newTask segment (s.plant segment scene).1 time ∨ .branch task ∈ pending) :
    Built fresh (s.afterStart s.stats.branchesStarted segment (s.plant segment scene).1 time)
      (s.plant segment scene).2 pending' := by
  obtain ⟨root, size, first⟩ := built.root rooted
  obtain ⟨node, nodes⟩ := plant_nodes root size segment
  have offset := same.offsetOf_eq segment
  have material : s.nextDraws.1.material = fresh.branchMaterial s.stats.branchesStarted := by
    change (s.drawsFrom s.generator).1.material = _
    rw [same.drawsFrom_eq, drawn]
    rfl
  have tube := same.tubeOf_eq segment
  rw [same.tree] at found
  refine ⟨?_, fun _ => ⟨root, ?_, ?_⟩, ?_, ?_, ?_⟩
  · intro unrooted
    change s.root = none at unrooted
    simp [unrooted] at rooted
  · rw [nodes, Array.size_push, size]
    rfl
  · rw [nodes, Array.getElem?_push, if_neg (by omega), first]
  · change (s.owners.push _).toList = (List.range (s.stats.branchesStarted + 1)).map branchNode
    rw [Array.toList_push, built.owners, node, List.range_succ, List.map_append]
    rfl
  · intro index below
    change index < s.stats.branchesStarted + 1 at below
    rw [nodes, Array.getElem?_push]
    by_cases last : index = s.stats.branchesStarted
    · subst last
      refine ⟨segment, _, found, by rw [if_pos size.symm, material, tube]; rfl, .inr ?_⟩
      exact ⟨_, (more _).mpr (.inl rfl), node, rfl⟩
    · obtain ⟨stem, transform, known, there, reached⟩ := built.branches index (by omega)
      refine ⟨stem, transform, known, by rw [if_neg (by omega), there], reached.imp_right ?_⟩
      rintro ⟨task, member, owner, growing⟩
      exact ⟨task, (more task).mpr (.inr member), owner, growing⟩
  · intro task member
    rcases (more task).mp member with rfl | member
    · exact ⟨s.stats.branchesStarted, segment, Nat.lt_succ_self _, node, found, offset⟩
    · obtain ⟨index, stem, below, rest⟩ := built.tasks task member
      exact ⟨index, stem, Nat.lt_succ_of_lt below, rest⟩

/-- Tasks that are no branches may come and go. -/
private theorem Built.lead {fresh s s' : Scheduler} {scene : Recording} {rest : List Task}
    (built : Built fresh s scene (leader :: rest)) (old : leader.isBranch = false)
    (root : s'.root = s.root) (phase : s.root = none → s'.phase = s.phase)
    (owners : s'.owners = s.owners)
    (started : s'.stats.branchesStarted = s.stats.branchesStarted) (more : List Task)
    (new : ∀ task ∈ more, task.isBranch = false) (same : s'.tasks.Perm (more ++ rest)) :
    Built fresh s' scene s'.tasks := by
  refine built.rehold root phase owners started ?_ ?_
  · intro task member _
    rcases List.mem_cons.mp member with this | member
    · simp [← this] at old
    · exact same.mem_iff.mpr (List.mem_append_right _ member)
  · intro task member
    rcases List.mem_append.mp (same.mem_iff.mp member) with this | member
    · simpa using new _ this
    · exact List.mem_cons_of_mem _ member

private theorem Built.move {fresh s s' : Scheduler} {scene scene' : Recording}
    (accounts : Accounts s (task :: s.tasks)) (same : SameTree fresh s) (drawn : Drawn fresh s)
    (rooted : s.root.isSome) (built : Built fresh s scene (task :: s.tasks))
    (move : Move s time scene task s' scene') : Built fresh s' scene' s'.tasks := by
  have held := accounts.held
  have unrooted : ∀ {p : Prop}, s.root = none → p := fun unrooted => by simp [unrooted] at rooted
  cases move with
  | @hold next busy =>
    exact built.lead rfl rfl unrooted rfl rfl [.dispatch next] (by simp) (tasks_deferred rfl rfl)
  | @start next segment found room =>
    obtain ⟨phase, rfl, -⟩ := held_dispatch held
    refine built_start same (drawn.early phase).1 rooted built found ?_
    intro task
    rw [(tasks_afterStart ..).mem_iff]
    simp
  | leave last idle =>
    exact built.lead rfl rfl unrooted rfl rfl [.spawnLeaves 0] (by simp) (tasks_pushed rfl rfl)
  | @grow task growing young =>
    refine Built.rehold (built.placed (progress task time) task.stage (.inr growing) ?_) rfl unrooted
      rfl rfl (fun _ member _ => member) fun _ => id
    exact tasks_deferred rfl rfl
  | @mature task growing old =>
    -- Growth is cut off at one, so a branch that is full-grown has its last size to the bit.
    have full : progress task time = 1 :=
      Scalar.min_eq_of_not_lt (by decide) (by decide) old
    refine Built.rehold (built.placed (progress task time) .settling (.inl full) ?_) rfl unrooted
      rfl rfl (fun _ member _ => member) fun _ => id
    exact tasks_pushed rfl rfl
  | @rest task settling =>
    refine built.rehold rfl unrooted rfl rfl ?_ fun other member => List.mem_cons_of_mem _ member
    intro other member growing
    rcases List.mem_cons.mp member with this | member
    · obtain rfl : other = task := Task.branch.inj this
      simp [settling] at growing
    · exact member
  | @cluster next anchor found more =>
    exact built.lead rfl rfl unrooted rfl rfl [.spawnLeaves (next + 1)] (by simp)
      (tasks_pushed rfl rfl)
  | lastCluster found last => exact built.lead rfl rfl unrooted rfl rfl [] (by simp) (.refl _)
  | finish beyond => exact built.lead rfl rfl unrooted rfl rfl [] (by simp) (.refl _)

private theorem built_root {fresh s : Scheduler} {scene : Recording} (unrooted : s.root = none)
    (same : SameTree fresh s) (built : Built fresh s scene s.tasks) :
    Built fresh { s with root := some (scene.createNode none).1 }
      ((scene.createNode none).2.setTransform (scene.createNode none).1
        (.atPosition s.interpretation.origin)) s.tasks := by
  obtain ⟨phase, unstarted, nodes⟩ := built.bare unrooted
  have made : ((scene.createNode none).2.setTransform (scene.createNode none).1
      (.atPosition s.interpretation.origin)).nodes =
      #[{ transform := .atPosition fresh.interpretation.origin }] := by
    rw [Recording.setTransform_nodes, Recording.createNode_nodes, Recording.createNode_id,
      Recording.push_modify_last, nodes, same.tree]
    rfl
  have id : (scene.createNode none).1 = ⟨0⟩ := by
    rw [Recording.createNode_id, nodes]
    rfl
  refine ⟨nofun, fun _ => ⟨congrArg some id, ?_, ?_⟩, built.owners, ?_, built.tasks⟩
  · rw [made]
    change 1 = s.stats.branchesStarted + 1
    rw [unstarted]
  · rw [made]
    rfl
  · intro index below
    change index < s.stats.branchesStarted at below
    omega

/-- The recorded scene stays the one that is built from the blueprint. -/
theorem Built.kept (fresh : Scheduler) :
    Kept fun s (scene : Recording) =>
      ((Accounts s s.tasks ∧ SameTree fresh s) ∧ Drawn fresh s) ∧ Built fresh s scene s.tasks := by
  refine (Drawn.kept fresh).and ?_ ?_ ?_
  · rintro s scene unrooted ⟨⟨-, same⟩, -⟩ built
    exact built_root unrooted same built
  · rintro s scene dt - - built
    have tasks := tasks_beginFrame s (frameLength dt)
    exact built.rehold rfl (fun _ => rfl) rfl rfl (fun task member _ => tasks.mem_iff.mpr member)
      fun task => tasks.mem_iff.mp
  · rintro s s' scene scene' entry queue rooted ⟨⟨accounts, same⟩, ⟨early, late⟩⟩ built popped move
    have before : Built fresh { s with queue } scene (entry.task :: { s with queue }.tasks) := by
      rw [tasks_popped popped] at built
      exact built.rehold rfl (fun _ => rfl) rfl rfl (fun _ member _ => member) fun _ => id
    exact Built.move (accounts.popped popped)
      ⟨same.tree, same.timing, same.mesh, same.bark, same.total⟩ ⟨early, late⟩ rooted before move

/-- A run from an accepted scheduler, into a scene that was empty at first. -/
theorem built_of_accepted {tree : Interpretation} {settings : TreeSettings} {source : Generator}
    (accepted : checked tree settings source = .ok fresh) (lengths : List Float32) :
    let s := fresh.run lengths Recording.empty
    ((Accounts s.1 s.1.tasks ∧ SameTree fresh s.1) ∧ Drawn fresh s.1) ∧
      Built fresh s.1 s.2 s.1.tasks := by
  have accounts := Accounts.fresh accepted
  refine (Built.kept fresh).run lengths ⟨⟨⟨accounts, .refl fresh⟩, ?_⟩, ?_⟩
  · obtain ⟨-, rfl⟩ := checked_ok accepted
    exact .fresh _ rfl rfl
  · obtain ⟨-, rfl⟩ := checked_ok accepted
    refine ⟨fun _ => ⟨rfl, rfl, rfl⟩, nofun, rfl, fun index below => absurd below (Nat.not_lt_zero _),
      ?_⟩
    intro task member
    simp [tasks, atStart, TaskQueue.tasks, TaskQueue.push, TaskQueue.insert] at member

/-- A complete tree has its root node. -/
theorem Built.rooted {fresh s : Scheduler} {scene : Recording} (built : Built fresh s scene pending)
    (complete : s.phase = .complete) : s.root.isSome := by
  cases root : s.root with
  | none => simp [(built.bare root).1] at complete
  | some node => rfl

/-- The node at a place of the scene when all branches have grown. -/
def finalNode? (fresh : Scheduler) : (place : Nat) → Option SceneNode
  | 0 => some { transform := .atPosition fresh.interpretation.origin }
  | index + 1 => fresh.interpretation.segments[index]?.map fun segment =>
      fresh.standing index segment (fresh.fullGrown segment)

/-- When the growth is complete no task is left, so every branch has its last size. -/
theorem Built.final {fresh s : Scheduler} {scene : Recording} (built : Built fresh s scene s.tasks)
    (accounts : Accounts s s.tasks) (same : SameTree fresh s) (complete : s.phase = .complete)
    (place : Nat) : scene.nodes[place]? = fresh.finalNode? place := by
  have idle := accounts.tasks_of_phase
  rw [complete] at idle
  have all := accounts.all_started same complete
  obtain ⟨-, size, first⟩ := built.root (built.rooted complete)
  cases place with
  | zero => exact first
  | succ index =>
    by_cases below : index < s.stats.branchesStarted
    · obtain ⟨segment, transform, found, node, reached⟩ := built.branches index below
      rcases reached with rfl | ⟨task, member, -⟩
      · rw [node, finalNode?, found]
        rfl
      · rw [idle.1] at member
        cases member
    · have outside : fresh.interpretation.segments[index]? = none :=
        Array.getElem?_eq_none_iff.mpr (by omega)
      rw [finalNode?, outside, Array.getElem?_eq_none_iff.mpr (by omega)]
      rfl

/-- The node of each started branch is known by the index of the branch. -/
theorem Built.owner {fresh s : Scheduler} {scene : Recording} (built : Built fresh s scene pending)
    (below : index < s.stats.branchesStarted) : s.owner? index = some (branchNode index) := by
  rw [owner?, ← Array.getElem?_toList, built.owners, List.getElem?_map, List.getElem?_range below]
  rfl

/-- A complete run has a cluster for each anchor. -/
private theorem all_clusters {tree : Interpretation} {settings : TreeSettings} {source : Generator}
    (accepted : checked tree settings source = .ok fresh) (lengths : List Float32) (scene : Recording)
    (complete : (fresh.run lengths scene).1.phase = .complete) :
    (fresh.run lengths scene).1.stats.clustersSpawned = fresh.interpretation.anchors.size :=
  ((Foliated.kept fresh).run lengths
    ⟨⟨.fresh accepted, .refl fresh⟩, .fresh accepted⟩).2.all complete

/-- Runs of any frames build the same tree. When two of them are complete, their scenes have the same
nodes, and the schedulers the same segments, owners and leaves. While a run is not complete, a branch it
has started has the owner, parent, mesh and bark that it has in any other run that has started it, and its
leaves are those of the first clusters, each of which is the same in every run. -/
theorem frames_leave_no_trace {tree : Interpretation} {settings : TreeSettings} {source : Generator}
    (accepted : checked tree settings source = .ok fresh) (first second : List Float32) :
    let s := fresh.run first Recording.empty
    let t := fresh.run second Recording.empty
    (s.1.phase = .complete → t.1.phase = .complete →
      s.2.nodes = t.2.nodes ∧ (∀ encode, s.2.digest encode = t.2.digest encode) ∧
      s.1.interpretation = t.1.interpretation ∧ s.1.owners = t.1.owners ∧
      s.1.foliage.leaves = t.1.foliage.leaves ∧ s.1.foliage.batches = t.1.foliage.batches) ∧
    (∀ index, index < s.1.stats.branchesStarted → index < t.1.stats.branchesStarted →
      ∃ id node twin, s.1.owner? index = some id ∧ t.1.owner? index = some id ∧
        s.2.node? id = some node ∧ t.2.node? id = some twin ∧
        node.parent = twin.parent ∧ node.mesh = twin.mesh ∧ node.mesh.isSome) ∧
    s.1.foliage.leaves.toList =
      (List.range s.1.stats.clustersSpawned).flatMap fresh.clusterLeaves ∧
    t.1.foliage.leaves.toList =
      (List.range t.1.stats.clustersSpawned).flatMap fresh.clusterLeaves := by
  have bare : fresh.foliage.leaves = #[] := by
    obtain ⟨-, rfl⟩ := checked_ok accepted
    rfl
  have one := built_of_accepted accepted first
  have two := built_of_accepted accepted second
  have clusters := all_clusters accepted first Recording.empty
  have clusters' := all_clusters accepted second Recording.empty
  generalize fresh.run first Recording.empty = run at one clusters ⊢
  generalize fresh.run second Recording.empty = rerun at two clusters' ⊢
  obtain ⟨s, scene⟩ := run
  obtain ⟨t, other⟩ := rerun
  dsimp only at one two clusters clusters' ⊢
  obtain ⟨⟨⟨accounts, same⟩, drawn⟩, built⟩ := one
  obtain ⟨⟨⟨accounts', same'⟩, drawn'⟩, built'⟩ := two
  refine ⟨?_, ?_, drawn.leaves accounts bare, drawn'.leaves accounts' bare⟩
  · intro complete complete'
    have nodes : scene.nodes = other.nodes := Array.ext_getElem? fun place =>
      (built.final accounts same complete place).trans
        (built'.final accounts' same' complete' place).symm
    have started : s.stats.branchesStarted = t.stats.branchesStarted := by
      rw [accounts.all_started same complete, accounts'.all_started same' complete']
    have crown : (s.generator, s.foliage) = (t.generator, t.foliage) := by
      rw [drawn.late (by simp [complete]), drawn'.late (by simp [complete']), clusters complete,
        clusters' complete']
    have foliage : s.foliage = t.foliage := congrArg Prod.snd crown
    refine ⟨nodes, Recording.digest_congr nodes, same.tree.trans same'.tree.symm, ?_,
      by rw [foliage], by rw [foliage]⟩
    apply Array.ext'
    rw [built.owners, built'.owners, started]
  · intro index below below'
    obtain ⟨segment, transform, found, node, -⟩ := built.branches index below
    obtain ⟨stem, place, known, twin, -⟩ := built'.branches index below'
    obtain rfl : segment = stem := by simpa [found] using known
    exact ⟨branchNode index, _, _, built.owner below, built'.owner below', node, twin, rfl, rfl, rfl⟩

/-- A sprout grows to the same tree in five frames and in eight. -/
theorem frames_leave_no_trace_in_sprout :
    checked sprout {} (.ofSeed 7) = .ok (atStart sprout {} (.ofSeed 7)) ∧
    let s := (atStart sprout {} (.ofSeed 7)).run [0, 60, 1, 2, 1] Recording.empty
    let t := (atStart sprout {} (.ofSeed 7)).run [30, 30, 30, 1, 1, 1, 1, 1] Recording.empty
    s.1.phase = .complete ∧ t.1.phase = .complete ∧ s.2.nodes = t.2.nodes ∧
    s.1.owners = t.1.owners ∧ s.1.foliage.leaves = t.1.foliage.leaves ∧
    ∃ id, s.1.owner? 1 = some id ∧ t.1.owner? 1 = some id := by
  have accepted : checked sprout {} (.ofSeed 7) = .ok (atStart sprout {} (.ofSeed 7)) := rfl
  have complete : ((atStart sprout {} (.ofSeed 7)).run [0, 60, 1, 2, 1] Recording.empty).1.phase =
      .complete := by decide +kernel
  have complete' : ((atStart sprout {} (.ofSeed 7)).run [30, 30, 30, 1, 1, 1, 1, 1]
      Recording.empty).1.phase = .complete := by decide +kernel
  obtain ⟨whole, parts, -, -⟩ :=
    frames_leave_no_trace accepted [0, 60, 1, 2, 1] [30, 30, 30, 1, 1, 1, 1, 1]
  obtain ⟨nodes, -, -, owners, leaves, -⟩ := whole complete complete'
  obtain ⟨id, _, _, owner, owner', -⟩ := parts 1 (by decide +kernel) (by decide +kernel)
  exact ⟨accepted, complete, complete', nodes, owners, leaves, id, owner, owner'⟩

end Sapling.Scheduler
