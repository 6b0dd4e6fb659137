import Sapling.Proofs.Growth.FrameRate
import Sapling.Proofs.Scene.Sharing

/-! Schedulers with other numbers for their nodes. A scheduler never looks at the number of a node, so under
other numbers it makes the same moves. -/
namespace Sapling

namespace TaskQueue

variable {α β : Type}

/-- The queue with its tasks changed and their times and order kept. -/
def map (g : α → β) (queue : TaskQueue α) : TaskQueue β where
  entries := queue.entries.map fun entry => ⟨entry.time, entry.serial, g entry.task⟩
  nextSerial := queue.nextSerial

private theorem insert_map (g : α → β) (new : Timed α) (entries : List (Timed α)) :
    insert ⟨new.time, new.serial, g new.task⟩
      (entries.map fun entry => ⟨entry.time, entry.serial, g entry.task⟩) =
      (insert new entries).map fun entry => ⟨entry.time, entry.serial, g entry.task⟩ := by
  induction entries with
  | nil => rfl
  | cons first rest ih =>
    simp only [List.map_cons, insert]
    split
    · rw [List.map_cons, ih]
    · rfl

theorem push_map (g : α → β) (queue : TaskQueue α) (time : Float32) (task : α) :
    (queue.map g).push time (g task) = (queue.push time task).map g := by
  simp only [push, map]
  exact congrArg (TaskQueue.mk · _) (insert_map g ⟨time, queue.nextSerial, task⟩ queue.entries)

/-- Renaming tasks before they are queued is renaming them in the queue. -/
theorem push_all_map (g : α → β) (waiting : List α) (queue : TaskQueue α) (time : Float32) :
    (waiting.map g).foldl (fun queue task => queue.push time task) (queue.map g) =
      (waiting.foldl (fun queue task => queue.push time task) queue).map g := by
  induction waiting generalizing queue with
  | nil => rfl
  | cons task waiting ih =>
    simp only [List.map_cons, List.foldl_cons, push_map]
    exact ih _

theorem popDue_map_none (g : α → β) {queue : TaskQueue α} (stuck : queue.popDue? now = none) :
    (queue.map g).popDue? now = none := by
  obtain ⟨entries, next⟩ := queue
  cases entries with
  | nil => rfl
  | cons first rest =>
    have late := popDue_none stuck first rfl
    exact if_neg late

/-- The renamed queue pops the renamed task at the same time. -/
theorem popDue_map_some (g : α → β) {queue rest : TaskQueue α}
    (popped : queue.popDue? now = some (entry, rest)) :
    (queue.map g).popDue? now = some (⟨entry.time, entry.serial, g entry.task⟩, rest.map g) := by
  obtain ⟨entries, next⟩ := queue
  cases entries with
  | nil => cases popped
  | cons first others =>
    have due := (popDue_some popped).2
    unfold popDue? at popped
    dsimp only at popped
    split at popped
    · cases popped
      exact if_pos due
    · cases popped

end TaskQueue

/-- The task with other numbers for all nodes. -/
def Task.rename (f : NodeId → NodeId) : Task → Task
  | .dispatch next => .dispatch next
  | .branch task => .branch { task with node := f task.node }
  | .spawnLeaves next => .spawnLeaves next

namespace Scheduler

open Sapling.Random

/-- The scheduler with other numbers for all nodes, and otherwise the same. -/
def rename (f : NodeId → NodeId) (s : Scheduler) : Scheduler :=
  { s with
    queue := s.queue.map (Task.rename f)
    nextFrame := s.nextFrame.map (Task.rename f)
    root := s.root.map f
    owners := s.owners.map f }

/-- The scheduler and its pending tasks name nodes of the scene only. -/
structure Names (s : Scheduler) (pending : List Task) (nodes : Array SceneNode) : Prop where
  root : ∀ id, s.root = some id → id.value < nodes.size
  owners : ∀ id ∈ s.owners.toList, id.value < nodes.size
  tasks : ∀ task, .branch task ∈ pending → task.node.value < nodes.size

private theorem Names.mono {s : Scheduler} (names : Names s pending nodes)
    (only : ∀ task, .branch task ∈ pending' → .branch task ∈ pending) : Names s pending' nodes :=
  ⟨names.root, names.owners, fun task member => names.tasks task (only task member)⟩

/-- All nodes that the tasks of a built tree name are in its scene. -/
theorem Built.names {fresh s : Scheduler} {scene : Recording} (built : Built fresh s scene pending) :
    Names s pending scene.nodes := by
  cases found : s.root with
  | none =>
    have started := (built.bare found).2.1
    refine ⟨by simp [found], fun id member => ?_, fun task member => ?_⟩
    · rw [built.owners, started] at member
      cases member
    · obtain ⟨index, -, below, -⟩ := built.tasks task member
      omega
  | some root =>
    obtain ⟨first, size, -⟩ := built.root (by simp [found])
    refine ⟨fun id found => ?_, fun id member => ?_, fun task member => ?_⟩
    · obtain rfl : ⟨0⟩ = id := Option.some.inj (first.symm.trans found)
      rw [size]
      exact Nat.succ_pos _
    · rw [built.owners] at member
      obtain ⟨index, below, rfl⟩ := List.mem_map.mp member
      have inside := List.mem_range.mp below
      simp only [branchNode]
      omega
    · obtain ⟨index, segment, below, node, -⟩ := built.tasks task member
      rw [node, branchNode]
      simp only
      omega

private theorem Task.rename_congr {f g : NodeId → NodeId} {nodes : Array SceneNode}
    (agree : ∀ id : NodeId, id.value < nodes.size → g id = f id)
    (names : ∀ branch, task = .branch branch → branch.node.value < nodes.size) :
    Task.rename g task = Task.rename f task := by
  cases task with
  | branch task => simp only [Task.rename, agree task.node (names task rfl)]
  | _ => rfl

/-- A scheduler is renamed alike by numbers that agree on the nodes that it names. -/
theorem rename_congr {s : Scheduler} {nodes : Array SceneNode} (names : Names s s.tasks nodes)
    (agree : ∀ id : NodeId, id.value < nodes.size → g id = f id) : s.rename g = s.rename f := by
  have task (task : Task) (member : task ∈ s.tasks) : Task.rename g task = Task.rename f task :=
    Task.rename_congr agree fun branch same => names.tasks branch (same ▸ member)
  have queue : s.queue.map (Task.rename g) = s.queue.map (Task.rename f) := by
    refine congrArg (TaskQueue.mk · _) (List.map_congr_left fun entry listed => ?_)
    rw [task _ (List.mem_append_left _ (List.mem_map_of_mem listed))]
  have frame : s.nextFrame.map (Task.rename g) = s.nextFrame.map (Task.rename f) :=
    Array.map_congr_left fun other member =>
      task other (List.mem_append_right _ (Array.mem_def.mp member))
  have root : s.root.map g = s.root.map f := by
    cases found : s.root with
    | none => rfl
    | some id => rw [Option.map_some, Option.map_some, agree id (names.root id found)]
  have owners : s.owners.map g = s.owners.map f :=
    Array.map_congr_left fun id member => agree id (names.owners id (Array.mem_def.mp member))
  simp only [rename, queue, frame, root, owners]

/-- The numbers of a scene's nodes are the same when the scene has grown. -/
structure Prolonged (f f' : NodeId → NodeId) (nodes nodes' : Array SceneNode) : Prop where
  agree : ∀ id : NodeId, id.value < nodes.size → f' id = f id
  grows : nodes.size ≤ nodes'.size

theorem Prolonged.refl (f : NodeId → NodeId) (grows : nodes.size ≤ nodes'.size) :
    Prolonged f f nodes nodes' :=
  ⟨fun _ _ => rfl, grows⟩

theorem Prolonged.agrees {f'' : NodeId → NodeId} (onward : Prolonged f f' nodes nodes')
    (later : ∀ id : NodeId, id.value < nodes'.size → f'' id = f' id) :
    ∀ id : NodeId, id.value < nodes.size → f'' id = f id := fun id known =>
  (later id (Nat.lt_of_lt_of_le known onward.grows)).trans (onward.agree id known)

theorem Prolonged.trans (first : Prolonged f f' nodes nodes') (second : Prolonged f' f'' nodes' nodes'') :
    Prolonged f f'' nodes nodes'' :=
  ⟨first.agrees second.agree, Nat.le_trans first.grows second.grows⟩

private theorem rename_afterStart (f : NodeId → NodeId) (s : Scheduler) (next : Nat) (segment : Segment)
    (node : NodeId) (time : Float32) :
    (s.afterStart next segment node time).rename f =
      (s.rename f).afterStart next segment (f node) time := by
  have queue := TaskQueue.push_map (Task.rename f)
    (s.queue.push time (.branch (s.newTask segment node time))) (s.nextStart time) (.dispatch (next + 1))
  rw [← TaskQueue.push_map] at queue
  simp only [rename, afterStart, Array.map_push, ← queue]
  rfl

private theorem rename_pushed (f : NodeId → NodeId) (s : Scheduler) (time : Float32) (task : Task) :
    ({ s with queue := s.queue.push time task } : Scheduler).rename f =
      { s.rename f with queue := (s.rename f).queue.push time (Task.rename f task) } := by
  simp only [rename, TaskQueue.push_map]

private theorem rename_deferred (f : NodeId → NodeId) (s : Scheduler) (task : Task) :
    ({ s with nextFrame := s.nextFrame.push task } : Scheduler).rename f =
      { s.rename f with nextFrame := (s.rename f).nextFrame.push (Task.rename f task) } := by
  simp only [rename, Array.map_push]

/-- A branch that starts takes the next number in both scenes. -/
theorem plant_apart {s : Scheduler} {scene shared : Recording}
    (apart : Apart old f g scene.nodes other shared.nodes)
    (known : ∀ id, s.root = some id → id.value < scene.nodes.size) (segment : Segment) :
    ((s.rename f).plant segment shared).1 =
      Within.extend f scene.nodes shared.nodes (s.plant segment scene).1 ∧
    Prolonged f (Within.extend f scene.nodes shared.nodes) scene.nodes (s.plant segment scene).2.nodes ∧
    Apart old (Within.extend f scene.nodes shared.nodes) g (s.plant segment scene).2.nodes other
      ((s.rename f).plant segment shared).2.nodes := by
  let node : NodeId := ⟨scene.nodes.size⟩
  have new : Within.extend f scene.nodes shared.nodes node = ⟨shared.nodes.size⟩ :=
    Within.extend_new ..
  have made : (scene.createNode s.root).2.nodes.size = scene.nodes.size + 1 :=
    Recording.createNode_size ..
  have meshed : ((scene.createNode s.root).2.attachMesh node
      (s.tubeOf segment).mesh s.nextDraws.1.material).nodes.size = scene.nodes.size + 1 :=
    (Recording.attachMesh_size ..).trans made
  have size : (s.plant segment scene).2.nodes.size = scene.nodes.size + 1 :=
    (Recording.setTransform_size ..).trans meshed
  have attached := (apart.create known).attach (show node.value < _ from made ▸ Nat.lt_succ_self _)
    (s.tubeOf segment).mesh s.nextDraws.1.material
  have placed := attached.place (show node.value < _ from meshed ▸ Nat.lt_succ_self _)
    ((Transform.atPosition (s.offsetOf segment)).withUniformScale 0)
  rw [new] at placed
  exact ⟨new.symm, ⟨fun _ below => Within.extend_old f _ _ below, by omega⟩, placed⟩

/-- A move under other numbers is a move. -/
theorem Move.rename {s s' : Scheduler} {scene scene' shared : Recording}
    (move : Move s time scene task s' scene') (names : Names s (task :: s.tasks) scene.nodes)
    (apart : Apart old f g scene.nodes other shared.nodes) :
    ∃ f' shared', Prolonged f f' scene.nodes scene'.nodes ∧
      Move (s.rename f) time shared (Task.rename f task) (s'.rename f') shared' ∧
      Apart old f' g scene'.nodes other shared'.nodes := by
  have still : Prolonged f f scene.nodes scene.nodes := .refl f (Nat.le_refl _)
  cases move with
  | hold busy =>
    refine ⟨f, shared, still, ?_, apart⟩
    rw [rename_deferred]
    exact .hold busy
  | @start next segment found room =>
    obtain ⟨node, onward, planted⟩ := plant_apart apart names.root segment
    have same := rename_congr (names.mono fun _ => List.mem_cons_of_mem _) onward.agree
    refine ⟨_, _, onward, ?_, planted⟩
    rw [rename_afterStart, same, ← node]
    exact .start found room
  | leave last idle =>
    refine ⟨f, shared, still, ?_, apart⟩
    rw [rename_pushed f { s with phase := .leaves }]
    exact .leave last idle
  | @grow task growing young =>
    have placed := apart.place (names.tasks task List.mem_cons_self) (grown task (progress task time))
    refine ⟨f, _, .refl f (Nat.le_of_eq (Recording.setTransform_size ..).symm), ?_, placed⟩
    rw [rename_deferred]
    exact .grow growing young
  | @mature task growing old =>
    have placed := apart.place (names.tasks task List.mem_cons_self) (grown task (progress task time))
    refine ⟨f, _, .refl f (Nat.le_of_eq (Recording.setTransform_size ..).symm), ?_, placed⟩
    rw [rename_pushed]
    exact .mature growing old
  | rest settling => exact ⟨f, shared, still, .rest settling, apart⟩
  | @cluster next anchor found more =>
    have pushed := rename_pushed f (s.afterCluster anchor)
      (time + Scalar.max s.timing.leafClusterStagger 0) (.spawnLeaves (next + 1))
    refine ⟨f, shared, still, ?_, apart⟩
    refine (congrArg (Move (s.rename f) time shared (.spawnLeaves next) · shared) pushed).mpr ?_
    exact .cluster found more
  | lastCluster found last => exact ⟨f, shared, still, .lastCluster found last, apart⟩
  | finish beyond => exact ⟨f, shared, still, .finish beyond, apart⟩

end Scheduler


end Sapling
