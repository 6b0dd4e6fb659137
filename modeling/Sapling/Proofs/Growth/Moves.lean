import Sapling.Growth.Scheduler
import Sapling.Proofs.Growth.Queue

/-! What one step of a task can do, said once. A task that has left the queue makes one of nine moves;
each is given with the condition on which it is made, the scheduler after it and the calls to the host.
All that is proved of schedulers goes through these cases. -/
namespace Sapling.Scheduler

open Sapling.Random

variable {σ : Type} [SceneHost σ]

/-- What is drawn from the start of one branch to the start of the next. -/
structure BranchDraws where
  duration : Float32
  settle : Float32
  material : Material
  /-- The factor on the time to the next start. -/
  overlap : Float32

def drawStart (timing : GrowthTiming) (bark : BarkPalette) (share : Float32) : Draw BranchDraws := do
  let (duration, settle, material) ← drawBranch timing bark share
  let overlap ← inRange timing.overlapJitter
  return ⟨duration, settle, material, overlap⟩

/-- What the scheduler would draw if it started a branch now, and its generator afterwards. -/
def nextDraws (s : Scheduler) : BranchDraws × Generator :=
  (drawStart s.timing s.bark s.share).run s.generator

/-- Where a segment begins, seen from the foot of the tree. -/
def offsetOf (s : Scheduler) (segment : Segment) : Vec3 :=
  segment.start - s.interpretation.origin

def newTask (s : Scheduler) (segment : Segment) (node : NodeId) (time : Float32) : BranchTask :=
  ⟨node, s.offsetOf segment, time, Scalar.max s.nextDraws.1.duration Scalar.epsilon,
    s.nextDraws.1.settle, .growing⟩

/-- The time of the next start after one at `time`. -/
def nextStart (s : Scheduler) (time : Float32) : Float32 :=
  time + Scalar.max (s.timing.branchOverlapDelay * s.nextDraws.1.overlap) 0

/-- The scheduler after the start of branch `next`, whose node is `node`. -/
def afterStart (s : Scheduler) (next : Nat) (segment : Segment) (node : NodeId) (time : Float32) :
    Scheduler :=
  { s with
    generator := s.nextDraws.2
    owners := s.owners.push node
    stats := countStart s.stats
    queue := (s.queue.push time (.branch (s.newTask segment node time))).push (s.nextStart time)
      (.dispatch (next + 1)) }

/-- The node of a new branch, and the host once the branch stands there with size zero. -/
def plant (s : Scheduler) (segment : Segment) (host : σ) : NodeId × σ :=
  let (node, host) := SceneHost.createNode s.root host
  let host := SceneHost.attachMesh node (s.tubeOf segment).mesh s.nextDraws.1.material host
  (node, SceneHost.setTransform node
    ((Transform.atPosition (s.offsetOf segment)).withUniformScale 0) host)

/-- The placement of a branch that has a part of its growth behind it. -/
def grown (task : BranchTask) (part : Float32) : Transform :=
  (Transform.atPosition task.offset).withUniformScale (smoothstep part)

/-- How many leaves the next cluster gets, and the generator afterwards. -/
def nextCount (s : Scheduler) : UInt32 × Generator :=
  (countInRange s.timing.leavesPerCluster).run s.generator

/-- The scheduler after it has added the cluster of an anchor. -/
def afterCluster (s : Scheduler) (anchor : Anchor) : Scheduler :=
  { s with
    generator := s.nextCount.2
    foliage := s.foliage.addCluster anchor s.nextCount.1.toNat s.timing.leafSpread
    stats := { s.stats with
      clustersSpawned := s.stats.clustersSpawned + 1
      leavesSpawned := s.stats.leavesSpawned + s.nextCount.1.toNat } }

/-- Must the start of branch `next`, or the end of all branches, wait for a branch that is active? -/
def Busy (s : Scheduler) (next : Nat) : Prop :=
  if next < s.interpretation.segments.size then
    s.timing.parallelBranches.toNat ≤ s.stats.activeBranches
  else 0 < s.stats.activeBranches

/-- The moves of a task at its time, when it has left the queue of `s`. -/
inductive Move (s : Scheduler) (time : Float32) (host : σ) : Task → Scheduler → σ → Prop where
  | hold (busy : s.Busy next) :
      Move s time host (.dispatch next)
        { s with nextFrame := s.nextFrame.push (.dispatch next) } host
  | start {segment : Segment} (found : s.interpretation.segments[next]? = some segment)
      (room : s.stats.activeBranches < s.timing.parallelBranches.toNat) :
      Move s time host (.dispatch next) (s.afterStart next segment (s.plant segment host).1 time)
        (s.plant segment host).2
  | leave (last : s.interpretation.segments.size ≤ next) (idle : s.stats.activeBranches = 0) :
      Move s time host (.dispatch next)
        { s with phase := .leaves, queue := s.queue.push time (.spawnLeaves 0) } host
  | grow (growing : task.stage = .growing) (young : progress task time < 1) :
      Move s time host (.branch task) { s with nextFrame := s.nextFrame.push (.branch task) }
        (SceneHost.setTransform task.node (grown task (progress task time)) host)
  | mature (growing : task.stage = .growing) (old : ¬ progress task time < 1) :
      Move s time host (.branch task)
        { s with
          queue := s.queue.push (time + Scalar.max task.settle 0)
            (.branch { task with stage := .settling }) }
        (SceneHost.setTransform task.node (grown task (progress task time)) host)
  | rest (settling : task.stage = .settling) :
      Move s time host (.branch task) { s with stats := countEnd s.stats } host
  | cluster (found : s.interpretation.anchors[next]? = some anchor)
      (more : next + 1 < s.interpretation.anchors.size) :
      Move s time host (.spawnLeaves next)
        { s.afterCluster anchor with
          queue := s.queue.push (time + Scalar.max s.timing.leafClusterStagger 0)
            (.spawnLeaves (next + 1)) } host
  | lastCluster (found : s.interpretation.anchors[next]? = some anchor)
      (last : s.interpretation.anchors.size ≤ next + 1) :
      Move s time host (.spawnLeaves next) { s.afterCluster anchor with phase := .complete } host
  | finish (beyond : s.interpretation.anchors.size ≤ next) :
      Move s time host (.spawnLeaves next) { s with phase := .complete } host

private theorem dispatch_move (s : Scheduler) (next : Nat) (time : Float32) (host : σ) :
    Move s time host (.dispatch next)
      ((s.stepDispatch next time host).2.1.resume time (s.stepDispatch next time host).1)
      (s.stepDispatch next time host).2.2 := by
  unfold stepDispatch
  cases found : s.interpretation.segments[next]? with
  | none =>
    have last := Array.getElem?_eq_none_iff.mp found
    by_cases active : 0 < s.stats.activeBranches
    · simp only [active, ↓reduceIte]
      exact .hold (by simpa [Busy, Nat.not_lt.mpr last] using active)
    · simp only [active, ↓reduceIte]
      exact .leave last (by omega)
  | some segment =>
    have inside := (Array.getElem?_eq_some_iff.mp found).1
    by_cases full : s.timing.parallelBranches.toNat ≤ s.stats.activeBranches
    · simp only [full, ↓reduceIte]
      exact .hold (by simpa [Busy, inside] using full)
    · simp only [full, ↓reduceIte]
      exact .start found (by omega)

private theorem branch_move (s : Scheduler) (task : BranchTask) (time : Float32) (host : σ) :
    Move s time host (.branch task)
      ((s.stepBranch task time host).2.1.resume time (s.stepBranch task time host).1)
      (s.stepBranch task time host).2.2 := by
  unfold stepBranch
  cases stage : task.stage with
  | growing =>
    by_cases young : progress task time < 1
    · simp only [young, ↓reduceIte]
      exact .grow stage young
    · simp only [young, ↓reduceIte]
      exact .mature stage young
  | settling => exact .rest stage

/-- At an anchor the leaf task spawns its cluster and waits for the next one, if there is any. -/
theorem stepLeaves_anchor (s : Scheduler)
    (found : s.interpretation.anchors[next]? = some anchor) :
    s.stepLeaves next =
      if next + 1 < s.interpretation.anchors.size then
        (.wait s.timing.leafClusterStagger (.spawnLeaves (next + 1)), s.afterCluster anchor)
      else (.done, { s.afterCluster anchor with phase := .complete }) := by
  simp only [stepLeaves, found]
  rfl

private theorem leaves_move (s : Scheduler) (next : Nat) (time : Float32) (host : σ) :
    Move s time host (.spawnLeaves next)
      ((s.stepLeaves next).2.resume time (s.stepLeaves next).1) host := by
  cases found : s.interpretation.anchors[next]? with
  | none =>
    simp only [stepLeaves, found]
    exact .finish (Array.getElem?_eq_none_iff.mp found)
  | some anchor =>
    rw [stepLeaves_anchor s found]
    by_cases more : next + 1 < s.interpretation.anchors.size
    · simp only [more, ↓reduceIte]
      exact .cluster found more
    · simp only [more, ↓reduceIte]
      exact .lastCluster found (by omega)

/-- Every step of a task is one of the moves. -/
theorem runTask_move (s : Scheduler) (entry : Timed Task) (host : σ) :
    Move s entry.time host entry.task (s.runTask entry host).1 (s.runTask entry host).2 := by
  obtain ⟨time, serial, task⟩ := entry
  cases task with
  | dispatch next => exact dispatch_move s next time host
  | branch task => exact branch_move s task time host
  | spawnLeaves next => exact leaves_move s next time host

/-- A task makes one move only. -/
theorem Move.unique {s s₁ s₂ : Scheduler} {host host₁ host₂ : σ} (first : Move s time host task s₁ host₁)
    (second : Move s time host task s₂ host₂) : s₁ = s₂ ∧ host₁ = host₂ := by
  cases first with
  | hold busy =>
    cases second with
    | hold _ => exact ⟨rfl, rfl⟩
    | start found room =>
      have inside := (Array.getElem?_eq_some_iff.mp found).1
      simp only [Busy, inside, ↓reduceIte] at busy
      omega
    | leave last idle =>
      simp only [Busy, Nat.not_lt.mpr last, ↓reduceIte] at busy
      omega
  | start found room =>
    have inside := (Array.getElem?_eq_some_iff.mp found).1
    cases second with
    | hold busy =>
      simp only [Busy, inside, ↓reduceIte] at busy
      omega
    | start found' _ =>
      obtain rfl := Option.some.inj (found.symm.trans found')
      exact ⟨rfl, rfl⟩
    | leave last idle => omega
  | leave last idle =>
    cases second with
    | hold busy =>
      simp only [Busy, Nat.not_lt.mpr last, ↓reduceIte] at busy
      omega
    | start found room =>
      have inside := (Array.getElem?_eq_some_iff.mp found).1
      omega
    | leave _ _ => exact ⟨rfl, rfl⟩
  | grow growing young =>
    cases second with
    | grow _ _ => exact ⟨rfl, rfl⟩
    | mature _ old => exact absurd young old
    | rest settling => simp [growing] at settling
  | mature growing old =>
    cases second with
    | grow _ young => exact absurd young old
    | mature _ _ => exact ⟨rfl, rfl⟩
    | rest settling => simp [growing] at settling
  | rest settling =>
    cases second with
    | grow growing _ => simp [settling] at growing
    | mature growing _ => simp [settling] at growing
    | rest _ => exact ⟨rfl, rfl⟩
  | cluster found more =>
    have inside := (Array.getElem?_eq_some_iff.mp found).1
    cases second with
    | cluster found' _ =>
      obtain rfl := Option.some.inj (found.symm.trans found')
      exact ⟨rfl, rfl⟩
    | lastCluster _ last => omega
    | finish beyond => omega
  | lastCluster found last =>
    have inside := (Array.getElem?_eq_some_iff.mp found).1
    cases second with
    | cluster _ more => omega
    | lastCluster found' _ =>
      obtain rfl := Option.some.inj (found.symm.trans found')
      exact ⟨rfl, rfl⟩
    | finish beyond => omega
  | finish beyond =>
    cases second with
    | cluster found _ =>
      have inside := (Array.getElem?_eq_some_iff.mp found).1
      omega
    | lastCluster found _ =>
      have inside := (Array.getElem?_eq_some_iff.mp found).1
      omega
    | finish _ => exact ⟨rfl, rfl⟩

end Sapling.Scheduler
