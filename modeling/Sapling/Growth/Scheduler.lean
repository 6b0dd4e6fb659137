import Sapling.Foliage.Batcher
import Sapling.Growth.Settings
import Sapling.Scalar
import Sapling.Scene.Host
/-!
Growth over simulated time. The host asks for one frame after another, and in each frame every task that
is due makes a step. One task starts the branches in the order of their segments, each branch has a task
that lets it grow and rest, and when all have rested one task adds the leaf clusters.
-/
namespace Sapling

open Sapling.Random

/-! ## Waiting tasks

Tasks that wait for their time. They leave the queue in the order of their times, and those with the
same time in the order in which they came.
-/

/-- A waiting task, with the time it is due and its number among all that ever came. -/
structure Timed (α : Type) where
  time : Float32
  serial : Nat
  task : α
deriving DecidableEq, Repr

/-- The tasks that wait. -/
structure TaskQueue (α : Type) where
  /-- In the order in which they will leave. -/
  entries : List (Timed α) := []
  /-- The number of the next task to come. -/
  nextSerial : Nat := 0
deriving DecidableEq, Repr

namespace TaskQueue

/-- An entry behind all that are due no later. -/
def insert (entry : Timed α) : List (Timed α) → List (Timed α)
  | [] => [entry]
  | first :: rest =>
    if Scalar.orderKey first.time ≤ Scalar.orderKey entry.time then first :: insert entry rest
    else entry :: first :: rest

/-- Puts a task into the queue, due at a time (`push`). -/
def push (queue : TaskQueue α) (time : Float32) (task : α) : TaskQueue α where
  entries := insert ⟨time, queue.nextSerial, task⟩ queue.entries
  nextSerial := queue.nextSerial + 1

/-- Takes out the first entry, if it is due by `now` (`pop_due`). -/
def popDue? (queue : TaskQueue α) (now : Float32) : Option (Timed α × TaskQueue α) :=
  match queue.entries with
  | [] => none
  | first :: rest => if first.time ≤ now then some (first, { queue with entries := rest }) else none

/-- How many tasks wait (`len`). -/
def size (queue : TaskQueue α) : Nat := queue.entries.length

end TaskQueue

/-! ## The scheduler

Growth over simulated time. The host asks for one frame after another, and in each frame every task that
is due makes a step. One task starts the branches in the order of their segments, each branch has a task
that lets it grow and rest, and when all have rested one task adds the leaf clusters.
-/

/-- How far the growth has come (`GrowthPhase`). -/
inductive Phase where
  /-- Branches are started and grow. -/
  | branches
  /-- All branches are done, and leaves appear. -/
  | leaves
  | complete
deriving DecidableEq, Repr

/-- What a started branch does. -/
inductive BranchStage where
  | growing
  | settling
deriving DecidableEq, Repr

/-- The growth of one branch. -/
structure BranchTask where
  node : NodeId
  /-- Where the branch begins, seen from the foot of the tree. -/
  offset : Vec3
  startedAt : Float32
  duration : Float32
  /-- How long the branch rests when it has grown. -/
  settle : Float32
  stage : BranchStage
deriving DecidableEq, Repr

/-- What waits to be done. -/
inductive Task where
  /-- Starts the branch of segment `next`. -/
  | dispatch (next : Nat)
  | branch (task : BranchTask)
  /-- Adds the leaf cluster of anchor `next`. -/
  | spawnLeaves (next : Nat)
deriving DecidableEq, Repr

/-- What becomes of a task after a step. -/
inductive Outcome where
  /-- It goes on this many seconds after the time of the step. -/
  | wait (delay : Float32) (task : Task)
  /-- It goes on in the next frame. -/
  | nextFrame (task : Task)
  | done
deriving DecidableEq, Repr

/-- What has been counted so far (`GrowthStats`). -/
structure GrowthStats where
  branchesTotal : Nat := 0
  branchesStarted : Nat := 0
  branchesCompleted : Nat := 0
  activeBranches : Nat := 0
  peakActiveBranches : Nat := 0
  clustersSpawned : Nat := 0
  leavesSpawned : Nat := 0
  frames : Nat := 0
  /-- Simulated time since the start. -/
  elapsed : Float32 := 0
  /-- The length of the last frame. -/
  lastFrame : Float32 := 0
deriving DecidableEq, Repr

/-- A tree on its way from its drawing to its scene (`GrowthScheduler`). -/
structure Scheduler where
  interpretation : Interpretation
  timing : GrowthTiming
  mesh : MeshSettings
  bark : BarkPalette
  foliage : Batcher
  generator : Generator
  queue : TaskQueue Task := {}
  /-- Tasks for the next frame, in the order they came. -/
  nextFrame : Array Task := #[]
  /-- The node at the foot of the tree, from the first frame on. -/
  root : Option NodeId := none
  /-- The nodes of the started branches, in the order of their segments. -/
  owners : Array NodeId := #[]
  clock : Float32 := 0
  phase : Phase := .branches
  stats : GrowthStats := {}

namespace Scheduler

/-- A scheduler at time zero (`new`). The leaves get a generator of their own, made from the given one. -/
def checked (interpretation : Interpretation) (settings : TreeSettings) (generator : Generator) :
    Except ConfigError Scheduler := do
  settings.timing.validate
  settings.mesh.validate
  settings.bark.validate
  let (leafGenerator, generator) := fork.run generator
  let foliage ← Batcher.checked settings.leaves leafGenerator
  return {
    interpretation, foliage, generator
    timing := settings.timing
    mesh := settings.mesh
    bark := settings.bark
    queue := TaskQueue.push {} 0 (.dispatch 0)
    stats := { branchesTotal := interpretation.segments.size } }

/-- The growth is over (`is_complete`). -/
def isComplete (s : Scheduler) : Bool := s.phase = .complete

/-- Tasks that wait for their time or for the next frame (`pending_tasks`). -/
def pendingTasks (s : Scheduler) : Nat := s.queue.size + s.nextFrame.size

/-- The node of a segment's branch, once it has been started. -/
def owner? (s : Scheduler) (index : Nat) : Option NodeId := s.owners[index]?

/-- Draws with the scheduler's generator. -/
def draw (s : Scheduler) (d : Draw α) : α × Scheduler :=
  let (a, generator) := d.run s.generator
  (a, { s with generator })

/-! ### Branches -/

/-- The tube of a segment in the space of its node, which begins at the segment's start. -/
def tubeOf (s : Scheduler) (segment : Segment) : Tube where
  curve := ⟨.zero, segment.control - segment.start, segment.tip - segment.start⟩
  baseWidth := segment.thickness
  baseHeight := s.interpretation.origin.y - segment.start.y
  maxHeight := s.interpretation.maxHeight - segment.start.y
  curveSegments := s.mesh.curveSegments
  radialSegments := s.mesh.radialSegments

/-- The time that one branch has, before jitter. -/
def share (s : Scheduler) : Float32 :=
  let branches := if s.stats.branchesTotal = 0 then 1 else s.stats.branchesTotal
  s.timing.totalGrowthTime / (UInt64.ofNat branches).toFloat32

/-- What is drawn for a branch: how long it grows, how long it rests, and its bark. -/
def drawBranch (timing : GrowthTiming) (bark : BarkPalette) (share : Float32) :
    Draw (Float32 × Float32 × Material) := do
  let factor ← inRange timing.durationJitter
  let settle ← inRange timing.settleDelay
  let material ← bark.pick
  return (share * factor, settle, material)

/-- Counts a branch that starts. -/
def countStart (stats : GrowthStats) : GrowthStats :=
  let active := stats.activeBranches + 1
  { stats with
    branchesStarted := stats.branchesStarted + 1
    activeBranches := active
    peakActiveBranches :=
      if stats.peakActiveBranches < active then active else stats.peakActiveBranches }

/-- Counts a branch that is done. -/
def countEnd (stats : GrowthStats) : GrowthStats :=
  { stats with
    activeBranches := stats.activeBranches - 1
    branchesCompleted := stats.branchesCompleted + 1 }

/-- Makes the node and the mesh of a segment, with size zero, and the task that lets it grow (`start_branch`). -/
def startBranch [SceneHost σ] (s : Scheduler) (segment : Segment) (time : Float32) (host : σ) :
    BranchTask × Scheduler × σ :=
  let ((duration, settle, material), s) := s.draw (drawBranch s.timing s.bark s.share)
  let (node, host) := SceneHost.createNode s.root host
  let offset := segment.start - s.interpretation.origin
  let host := SceneHost.attachMesh node (s.tubeOf segment).mesh material host
  let host := SceneHost.setTransform node ((Transform.atPosition offset).withUniformScale 0) host
  let s := { s with owners := s.owners.push node, stats := countStart s.stats }
  let duration := Scalar.max duration Scalar.epsilon
  (⟨node, offset, time, duration, settle, .growing⟩, s, host)

/-- How much of its growth a branch has behind it. -/
def progress (task : BranchTask) (time : Float32) : Float32 :=
  Scalar.min ((time - task.startedAt) / task.duration) 1

/-- A branch grows to the size for its time, rests when it is full-grown, and then is done. -/
def stepBranch [SceneHost σ] (s : Scheduler) (task : BranchTask) (time : Float32) (host : σ) :
    Outcome × Scheduler × σ :=
  match task.stage with
  | .growing =>
    let progress := progress task time
    let transform := (Transform.atPosition task.offset).withUniformScale (smoothstep progress)
    let host := SceneHost.setTransform task.node transform host
    if progress < 1 then (.nextFrame (.branch task), s, host)
    else (.wait task.settle (.branch { task with stage := .settling }), s, host)
  | .settling => (.done, { s with stats := countEnd s.stats }, host)

/-! ### Leaves -/

/-- Adds the cluster of an anchor, or ends the growth after the last one (`spawn_cluster`). -/
def stepLeaves (s : Scheduler) (next : Nat) : Outcome × Scheduler :=
  match s.interpretation.anchors[next]? with
  | none => (.done, { s with phase := .complete })
  | some anchor =>
    let (count, s) := s.draw (countInRange s.timing.leavesPerCluster)
    let s := { s with
      foliage := s.foliage.addCluster anchor count.toNat s.timing.leafSpread
      stats := { s.stats with
        clustersSpawned := s.stats.clustersSpawned + 1
        leavesSpawned := s.stats.leavesSpawned + count.toNat } }
    if next + 1 < s.interpretation.anchors.size then
      (.wait s.timing.leafClusterStagger (.spawnLeaves (next + 1)), s)
    else (.done, { s with phase := .complete })

/-! ### Steps -/

/-- Starts the next branch if there is room for it (`dispatch`). When all branches are done, leaves follow. -/
def stepDispatch [SceneHost σ] (s : Scheduler) (next : Nat) (time : Float32) (host : σ) :
    Outcome × Scheduler × σ :=
  match s.interpretation.segments[next]? with
  | none =>
    if 0 < s.stats.activeBranches then (.nextFrame (.dispatch next), s, host)
    else
      (.done, { s with phase := .leaves, queue := s.queue.push time (.spawnLeaves 0) }, host)
  | some segment =>
    if s.timing.parallelBranches.toNat ≤ s.stats.activeBranches then
      (.nextFrame (.dispatch next), s, host)
    else
      let (task, s, host) := s.startBranch segment time host
      let s := { s with queue := s.queue.push time (.branch task) }
      let (overlap, s) := s.draw (inRange s.timing.overlapJitter)
      (.wait (s.timing.branchOverlapDelay * overlap) (.dispatch (next + 1)), s, host)

/-- One step of a task at its time (`step`). -/
def step [SceneHost σ] (s : Scheduler) (task : Task) (time : Float32) (host : σ) :
    Outcome × Scheduler × σ :=
  match task with
  | .dispatch next => s.stepDispatch next time host
  | .branch task => s.stepBranch task time host
  | .spawnLeaves next =>
    let (outcome, s) := s.stepLeaves next
    (outcome, s, host)

/-- Puts a task back where it waits after a step at `time`. -/
def resume (s : Scheduler) (time : Float32) : Outcome → Scheduler
  | .wait delay task => { s with queue := s.queue.push (time + Scalar.max delay 0) task }
  | .nextFrame task => { s with nextFrame := s.nextFrame.push task }
  | .done => s

/-- Lets a task that has left the queue make its step. -/
def runTask [SceneHost σ] (s : Scheduler) (entry : Timed Task) (host : σ) : Scheduler × σ :=
  let (outcome, s, host) := s.step entry.task entry.time host
  (s.resume entry.time outcome, host)

/-! ### Frames -/

/-- The most steps that one frame can take. A branch that is not started costs three, an active one
two, an anchor without leaves one, and two more end the branches and the leaves. -/
def stepBound (s : Scheduler) : Nat :=
  3 * (s.stats.branchesTotal - s.stats.branchesStarted) + 2 * s.stats.activeBranches +
    (s.interpretation.anchors.size - s.stats.clustersSpawned) + 2

/-- Makes steps until no task is due. -/
def runDue [SceneHost σ] : (steps : Nat) → Scheduler → σ → Scheduler × σ
  | 0, s, host => (s, host)
  | steps + 1, s, host =>
    match s.queue.popDue? s.clock with
    | none => (s, host)
    | some (entry, queue) =>
      let (s, host) := { s with queue }.runTask entry host
      runDue steps s host

/-- Makes the node at the foot of the tree, once. -/
def ensureRoot [SceneHost σ] (s : Scheduler) (host : σ) : Scheduler × σ :=
  match s.root with
  | some _ => (s, host)
  | none =>
    let (root, host) := SceneHost.createNode none host
    let host := SceneHost.setTransform root (.atPosition s.interpretation.origin) host
    ({ s with root := some root }, host)

/-- The length of a frame; what is negative or not finite counts as zero. -/
def frameLength (dt : Float32) : Float32 := if dt.isFinite then Scalar.max dt 0 else 0

/-- Moves the clock on, and calls the tasks that wait for the frame. -/
def beginFrame (s : Scheduler) (dt : Float32) : Scheduler :=
  let clock := s.clock + dt
  { s with
    clock
    queue := s.nextFrame.foldl (fun queue task => queue.push clock task) s.queue
    nextFrame := #[]
    stats := { s.stats with
      frames := s.stats.frames + 1
      elapsed := clock
      lastFrame := dt } }

/-- One frame, `dt` seconds after the last (`advance`). -/
def advance [SceneHost σ] (s : Scheduler) (dt : Float32) (host : σ) : Scheduler × σ :=
  let (s, host) := s.ensureRoot host
  let s := s.beginFrame (frameLength dt)
  runDue s.stepBound s host

/-! ### Runs -/

/-- The least frame of a run (`MIN_FRAME_DT`). -/
def minFrame : Float32 := 1e-3

/-- Frames of one length until the growth is complete, at most `frames`. -/
def runFrames [SceneHost σ] (dt : Float32) : (frames : Nat) → Scheduler → σ → Scheduler × σ
  | 0, s, host => (s, host)
  | frames + 1, s, host =>
    if s.isComplete then (s, host)
    else
      let (s, host) := s.advance dt host
      runFrames dt frames s host

/-- More frames than bring any change. The clock has fewer than `2 ^ 32` values and never goes back, and
while it stands still a frame that starts, ends or moves nothing on is followed by more of its kind. -/
def frameBound (s : Scheduler) : Nat := UInt32.size + s.stepBound

/-- Runs until the growth is complete, or to no end where frames are too short to move the clock
(`run_to_completion`). -/
def runToCompletion [SceneHost σ] (s : Scheduler) (frameDt : Float32) (host : σ) : Scheduler × σ :=
  runFrames (if minFrame ≤ frameDt then frameDt else minFrame) s.frameBound s host

end Scheduler

end Sapling
