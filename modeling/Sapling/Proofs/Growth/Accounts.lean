import Sapling.Proofs.Growth.Runs
import Sapling.Scene.Recording

/-! The books of a scheduler: its counters and its tasks agree at every moment of every run. In each
phase one task, or none, controls the growth, and every active branch has one task of its own. -/
namespace Sapling

/-- Does the task let one branch grow or rest? -/
def Task.isBranch : Task → Bool
  | .branch _ => true
  | _ => false

@[simp] theorem Task.isBranch_branch (task : BranchTask) : (Task.branch task).isBranch = true := rfl

@[simp] theorem Task.isBranch_dispatch (next : Nat) : (Task.dispatch next).isBranch = false := rfl

@[simp] theorem Task.isBranch_spawnLeaves (next : Nat) : (Task.spawnLeaves next).isBranch = false :=
  rfl

namespace Scheduler

open Sapling.Random

variable {σ : Type} [SceneHost σ]

/-- All tasks: those that wait for their time, and those that wait for the next frame. -/
def tasks (s : Scheduler) : List Task := s.queue.tasks ++ s.nextFrame.toList

/-- The task that controls the growth in the present phase. -/
def controllers (s : Scheduler) : List Task :=
  match s.phase with
  | .branches => [.dispatch s.stats.branchesStarted]
  | .leaves => [.spawnLeaves s.stats.clustersSpawned]
  | .complete => []

/-- These tasks are the given leaders and as many branches as are active, in any order. -/
def Held (pending leaders : List Task) (active : Nat) : Prop :=
  pending.filter (!·.isBranch) = leaders ∧ pending.countP Task.isBranch = active

/-- What the counters of a scheduler say of each other and of all tasks there are. -/
structure Accounts (s : Scheduler) (pending : List Task) : Prop where
  total : s.stats.branchesTotal = s.interpretation.segments.size
  started : s.stats.branchesStarted ≤ s.stats.branchesTotal
  balance : s.stats.activeBranches + s.stats.branchesCompleted = s.stats.branchesStarted
  active : s.stats.activeBranches ≤ s.timing.parallelBranches.toNat
  peak : s.stats.peakActiveBranches ≤ s.timing.parallelBranches.toNat
  /-- After the branches comes what needs all of them to be done. -/
  done : s.phase ≠ .branches →
    s.stats.branchesStarted = s.stats.branchesTotal ∧ s.stats.activeBranches = 0
  bare : s.phase = .branches → s.stats.clustersSpawned = 0
  held : Held pending s.controllers s.stats.activeBranches

private theorem pendingTasks_eq (s : Scheduler) : s.pendingTasks = s.tasks.length := by
  simp [pendingTasks, tasks, TaskQueue.size, TaskQueue.tasks]

theorem controllers_short (s : Scheduler) : s.controllers.length ≤ 1 := by
  unfold controllers
  cases s.phase <;> simp

/-- One leader has only one order, so the order of the tasks does not matter. -/
theorem Held.perm (held : Held pending leaders active) (short : leaders.length ≤ 1)
    (same : pending'.Perm pending) : Held pending' leaders active := by
  refine ⟨?_, (same.countP_eq _).trans held.2⟩
  have filtered : (pending'.filter (!·.isBranch)).Perm leaders := held.1 ▸ same.filter _
  cases leaders with
  | nil => exact filtered.eq_nil
  | cons leader others =>
    obtain rfl : others = [] := List.eq_nil_of_length_eq_zero (by simpa using short)
    exact List.perm_singleton.mp filtered

private theorem Held.length_eq (held : Held pending leaders active) :
    pending.length = leaders.length + active := by
  have split := List.length_eq_countP_add_countP Task.isBranch (l := pending)
  have others : pending.countP (fun task => ¬ task.isBranch) = leaders.length := by
    rw [← held.1, ← List.countP_eq_length_filter]
    congr
    funext task
    cases task.isBranch <;> rfl
  rw [held.2, others] at split
  omega

private theorem held_branch_cons :
    Held (.branch task :: pending) leaders active ↔ 0 < active ∧ Held pending leaders (active - 1) := by
  simp only [Held, List.filter_cons, List.countP_cons, Task.isBranch_branch, Bool.not_true,
    Bool.false_eq_true, ↓reduceIte]
  constructor
  · rintro ⟨others, branches⟩
    exact ⟨by omega, others, by omega⟩
  · rintro ⟨holds, others, branches⟩
    exact ⟨others, by omega⟩

/-- A task that is no branch is the only leader. -/
theorem held_leader_cons (leads : leader.isBranch = false) (short : leaders.length ≤ 1) :
    Held (leader :: pending) leaders active ↔ leaders = [leader] ∧ Held pending [] active := by
  simp only [Held, List.filter_cons, List.countP_cons, leads, Bool.not_false, ↓reduceIte,
    Bool.false_eq_true, Nat.add_zero]
  constructor
  · rintro ⟨others, branches⟩
    subst others
    have empty : pending.filter (!·.isBranch) = [] :=
      List.eq_nil_of_length_eq_zero (by simpa using short)
    exact ⟨by rw [empty], empty, branches⟩
  · rintro ⟨rfl, empty, branches⟩
    exact ⟨by rw [empty], branches⟩

/-! ## How tasks come and go -/

/-- The popped task was the first of all tasks. -/
theorem tasks_popped {s : Scheduler} {queue : TaskQueue Task}
    (popped : s.queue.popDue? now = some (entry, queue)) :
    s.tasks = entry.task :: { s with queue }.tasks := by
  simp only [tasks, TaskQueue.popDue_tasks popped, List.cons_append]

/-- A pushed task is added to the tasks, somewhere among them. -/
theorem tasks_pushed {s s' : Scheduler} (queue : s'.queue = s.queue.push time task)
    (frame : s'.nextFrame = s.nextFrame) : s'.tasks.Perm (task :: s.tasks) := by
  simp only [tasks, queue, frame]
  exact (TaskQueue.push_tasks s.queue time task).append_right _

theorem tasks_deferred {s s' : Scheduler} (queue : s'.queue = s.queue)
    (frame : s'.nextFrame = s.nextFrame.push task) : s'.tasks.Perm (task :: s.tasks) := by
  simp only [tasks, queue, frame, Array.toList_push, ← List.append_assoc]
  exact List.perm_append_singleton _ _

theorem mem_pushed {s s' : Scheduler} (member : other ∈ s'.tasks)
    (queue : s'.queue = s.queue.push time task) (frame : s'.nextFrame = s.nextFrame) :
    other = task ∨ other ∈ s.tasks :=
  List.mem_cons.mp ((tasks_pushed queue frame).mem_iff.mp member)

theorem mem_deferred {s s' : Scheduler} (member : other ∈ s'.tasks)
    (queue : s'.queue = s.queue) (frame : s'.nextFrame = s.nextFrame.push task) :
    other = task ∨ other ∈ s.tasks :=
  List.mem_cons.mp ((tasks_deferred queue frame).mem_iff.mp member)

/-- A started branch leaves two tasks: its own and the one that starts the next branch. -/
theorem tasks_afterStart (s : Scheduler) (next : Nat) (segment : Segment) (node : NodeId)
    (time : Float32) : (s.afterStart next segment node time).tasks.Perm
      (.dispatch (next + 1) :: .branch (s.newTask segment node time) :: s.tasks) := by
  have branch := TaskQueue.push_tasks s.queue time (.branch (s.newTask segment node time))
  have later := TaskQueue.push_tasks (s.queue.push time (.branch (s.newTask segment node time)))
    (s.nextStart time) (.dispatch (next + 1))
  exact (later.trans (branch.cons _)).append_right _

/-- What waited for the frame is queued at its beginning, and no task is lost. -/
theorem tasks_beginFrame (s : Scheduler) (dt : Float32) : (s.beginFrame dt).tasks.Perm s.tasks := by
  simp only [beginFrame, tasks, ← Array.foldl_toList, Array.toList_empty, List.append_nil]
  exact TaskQueue.push_all_tasks s.nextFrame.toList s.queue _

/-! ## Every moment of every run -/

/-- A dispatcher is there in the first phase only, and it is about to start the next branch. -/
theorem held_dispatch {s : Scheduler} (held : Held (.dispatch next :: pending) s.controllers active) :
    s.phase = .branches ∧ next = s.stats.branchesStarted ∧ Held pending [] active := by
  obtain ⟨leader, others⟩ := (held_leader_cons rfl (controllers_short s)).mp held
  unfold controllers at leader
  cases phase : s.phase <;> simp [phase] at leader
  exact ⟨rfl, leader.symm, others⟩

/-- A leaf task is there in the phase of the leaves only. It is for the next cluster, and no other task leads. -/
theorem held_spawnLeaves {s : Scheduler}
    (held : Held (.spawnLeaves next :: pending) s.controllers active) :
    s.phase = .leaves ∧ next = s.stats.clustersSpawned ∧ Held pending [] active := by
  obtain ⟨leader, others⟩ := (held_leader_cons rfl (controllers_short s)).mp held
  unfold controllers at leader
  cases phase : s.phase <;> simp [phase] at leader
  exact ⟨rfl, leader.symm, others⟩

namespace Accounts

/-- A move keeps the books, when the task that makes it is counted among those of before. -/
theorem move {s s' : Scheduler} {host host' : σ} (accounts : Accounts s (task :: s.tasks))
    (move : Move s time host task s' host') : Accounts s' s'.tasks := by
  obtain ⟨total, started, balance, active, peak, done, bare, held⟩ := accounts
  have short := controllers_short s
  cases move with
  | hold busy =>
    exact ⟨total, started, balance, active, peak, done, bare,
      held.perm short (tasks_deferred rfl rfl)⟩
  | @start next segment found room =>
    obtain ⟨phase, rfl, others⟩ := held_dispatch held
    have inside := (Array.getElem?_eq_some_iff.mp found).1
    refine ⟨total, ?_, ?_, room, ?_, fun away => absurd phase away, bare, ?_⟩
    · change s.stats.branchesStarted + 1 ≤ s.stats.branchesTotal
      omega
    · change s.stats.activeBranches + 1 + s.stats.branchesCompleted = s.stats.branchesStarted + 1
      omega
    · simp only [afterStart, countStart]
      split <;> omega
    · have both : Held (.dispatch (s.stats.branchesStarted + 1) ::
          .branch (s.newTask segment (s.plant segment host).1 time) :: s.tasks)
          [.dispatch (s.stats.branchesStarted + 1)] (s.stats.activeBranches + 1) :=
        (held_leader_cons rfl (by simp)).mpr ⟨rfl, held_branch_cons.mpr ⟨Nat.succ_pos _, others⟩⟩
      refine Held.perm ?_ (controllers_short _) (tasks_afterStart s _ segment _ time)
      simpa only [controllers, afterStart, countStart, phase] using both
  | leave last idle =>
    obtain ⟨phase, rfl, others⟩ := held_dispatch held
    have all : s.stats.branchesStarted = s.stats.branchesTotal := by omega
    refine ⟨total, started, balance, active, peak, fun _ => ⟨all, idle⟩, nofun, ?_⟩
    have spawner : Held (.spawnLeaves 0 :: s.tasks) [.spawnLeaves 0] s.stats.activeBranches :=
      (held_leader_cons rfl (by simp)).mpr ⟨rfl, others⟩
    refine Held.perm ?_ (controllers_short _) (tasks_pushed (s := s) rfl rfl)
    simpa only [controllers, bare phase] using spawner
  | grow growing young =>
    exact ⟨total, started, balance, active, peak, done, bare,
      held.perm short (tasks_deferred rfl rfl)⟩
  | mature growing old =>
    refine ⟨total, started, balance, active, peak, done, bare, ?_⟩
    refine Held.perm ?_ short (tasks_pushed (s := s) rfl rfl)
    exact held_branch_cons.mpr (held_branch_cons.mp held)
  | rest settling =>
    obtain ⟨holds, others⟩ := held_branch_cons.mp held
    refine ⟨total, started, ?_, Nat.le_trans (Nat.sub_le _ _) active, peak, ?_, bare, others⟩
    · change s.stats.activeBranches - 1 + (s.stats.branchesCompleted + 1) = s.stats.branchesStarted
      omega
    · intro away
      have idle := (done away).2
      omega
  | @cluster next anchor found more =>
    obtain ⟨phase, rfl, others⟩ := held_spawnLeaves held
    have later : ∀ {next}, s.phase = .branches → next = 0 := fun early => by simp [phase] at early
    refine ⟨total, started, balance, active, peak, done, later, ?_⟩
    have spawner : Held (.spawnLeaves (s.stats.clustersSpawned + 1) :: s.tasks)
        [.spawnLeaves (s.stats.clustersSpawned + 1)] s.stats.activeBranches :=
      (held_leader_cons rfl (by simp)).mpr ⟨rfl, others⟩
    refine Held.perm ?_ (controllers_short _) (tasks_pushed (s := s) rfl rfl)
    simpa only [controllers, afterCluster, phase] using spawner
  | lastCluster found last =>
    obtain ⟨phase, rfl, others⟩ := held_spawnLeaves held
    have closed := done (by simp [phase])
    exact ⟨total, started, balance, active, peak, fun _ => closed, nofun, others⟩
  | finish beyond =>
    obtain ⟨phase, rfl, others⟩ := held_spawnLeaves held
    have closed := done (by simp [phase])
    exact ⟨total, started, balance, active, peak, fun _ => closed, nofun, others⟩

/-- The books of a scheduler that was accepted balance before its first frame. -/
theorem fresh {tree : Interpretation} {settings : TreeSettings} {source : Generator}
    (accepted : checked tree settings source = .ok s) : Accounts s s.tasks := by
  obtain ⟨-, rfl⟩ := checked_ok accepted
  exact ⟨rfl, Nat.zero_le _, rfl, Nat.zero_le _, Nat.zero_le _, nofun, fun _ => rfl, rfl, rfl⟩

/-- A task that has just left the queue is still counted. -/
theorem popped {s : Scheduler} {queue : TaskQueue Task} (accounts : Accounts s s.tasks)
    (popped : s.queue.popDue? now = some (entry, queue)) :
    Accounts { s with queue } (entry.task :: { s with queue }.tasks) := by
  obtain ⟨total, started, balance, active, peak, done, bare, held⟩ := tasks_popped popped ▸ accounts
  exact ⟨total, started, balance, active, peak, done, bare, held⟩

/-- Whatever a scheduler does, its books stay balanced. -/
theorem kept : Kept fun s (_ : σ) => Accounts s s.tasks where
  root _ accounts := by
    obtain ⟨total, started, balance, active, peak, done, bare, held⟩ := accounts
    exact ⟨total, started, balance, active, peak, done, bare, held⟩
  frame {s host} dt _ accounts := by
    obtain ⟨total, started, balance, active, peak, done, bare, held⟩ := accounts
    exact ⟨total, started, balance, active, peak, done, bare,
      held.perm (controllers_short s) (tasks_beginFrame s _)⟩
  move _ accounts popped move := (accounts.popped popped).move move

/-- The books together with the settings that they are kept by. -/
theorem kept_same (s : Scheduler) :
    Kept fun t (_ : σ) => Accounts t t.tasks ∧ SameTree s t :=
  kept.both (SameTree.kept s)

end Accounts

/-- Does the next step of the frame end a branch? -/
def nextEnds (s : Scheduler) : Bool :=
  match s.queue.popDue? s.clock with
  | some (⟨_, _, .branch task⟩, _) => task.stage = .settling
  | _ => false

/-- A branch that ends is one of those that are active. -/
theorem Accounts.active_of_nextEnds (accounts : Accounts s s.tasks) (ends : s.nextEnds = true) :
    0 < s.stats.activeBranches := by
  unfold nextEnds at ends
  split at ends
  · rename_i popped
    have held := accounts.held
    rw [tasks_popped popped] at held
    exact (held_branch_cons.mp held).1
  · cases ends

/-- The tasks of each phase, from the books. -/
theorem Accounts.tasks_of_phase (accounts : Accounts s s.tasks) :
    match s.phase with
    | .branches => s.tasks.filter (!·.isBranch) = [.dispatch s.stats.branchesStarted] ∧
        s.pendingTasks = 1 + s.stats.activeBranches
    | .leaves => s.tasks = [.spawnLeaves s.stats.clustersSpawned] ∧ s.pendingTasks = 1
    | .complete => s.tasks = [] ∧ s.pendingTasks = 0 := by
  have leaders := accounts.held.1
  have count := accounts.held.length_eq
  unfold controllers at leaders count
  simp only [pendingTasks_eq]
  cases phase : s.phase with
  | branches =>
    simp only [phase, List.length_singleton] at leaders count
    exact ⟨leaders, count⟩
  | leaves =>
    have idle := (accounts.done (by simp [phase])).2
    simp only [phase, idle, List.length_singleton] at leaders count
    have same := List.filter_sublist.eq_of_length (by rw [leaders, count]; rfl)
    exact ⟨same.symm.trans leaders, count⟩
  | complete =>
    have idle := (accounts.done (by simp [phase])).2
    simp only [phase, idle, List.length_nil] at count
    exact ⟨List.eq_nil_of_length_eq_zero count, count⟩

/-- A complete growth has started a branch for each segment of the tree it began with. -/
theorem Accounts.all_started {fresh : Scheduler} (accounts : Accounts s pending)
    (same : SameTree fresh s) (complete : s.phase = .complete) :
    s.stats.branchesStarted = fresh.interpretation.segments.size := by
  rw [(accounts.done (by simp [complete])).1, accounts.total, same.tree]

/-- After every frame of every run of an accepted scheduler its counters and its tasks agree, and no
step of the frame that follows ends a branch when none is active. -/
theorem counters_agree_with_tasks {tree : Interpretation} {settings : TreeSettings}
    {source : Generator} (accepted : checked tree settings source = .ok fresh)
    (lengths : List Float32) (host : σ) :
    let s := (fresh.run lengths host).1
    s.stats.activeBranches ≤ settings.timing.parallelBranches.toNat ∧
    s.stats.peakActiveBranches ≤ settings.timing.parallelBranches.toNat ∧
    s.stats.branchesTotal = tree.segments.size ∧
    s.stats.branchesStarted ≤ s.stats.branchesTotal ∧
    s.stats.branchesCompleted ≤ s.stats.branchesStarted ∧
    s.stats.activeBranches = s.stats.branchesStarted - s.stats.branchesCompleted ∧
    s.stats.activeBranches = s.tasks.countP Task.isBranch ∧
    (match s.phase with
      | .branches => s.tasks.filter (!·.isBranch) = [.dispatch s.stats.branchesStarted] ∧
          s.pendingTasks = 1 + s.stats.activeBranches
      | .leaves => s.tasks = [.spawnLeaves s.stats.clustersSpawned] ∧ s.pendingTasks = 1
      | .complete => s.tasks = [] ∧ s.pendingTasks = 0) ∧
    ∀ dt steps, (s.midFrame dt steps (fresh.run lengths host).2).1.nextEnds = true →
      0 < (s.midFrame dt steps (fresh.run lengths host).2).1.stats.activeBranches := by
  intro s
  have accounts : Accounts s s.tasks := Accounts.kept.run lengths (.fresh accepted)
  have same : SameTree fresh s := (SameTree.kept fresh).run lengths (.refl fresh)
  obtain ⟨-, rfl⟩ := checked_ok accepted
  have timing : s.timing = settings.timing := same.timing
  have tree : s.interpretation = tree := same.tree
  refine ⟨timing ▸ accounts.active, timing ▸ accounts.peak, tree ▸ accounts.total, accounts.started,
    ?_, ?_, accounts.held.2.symm, accounts.tasks_of_phase, ?_⟩
  · have balance := accounts.balance
    omega
  · have balance := accounts.balance
    omega
  · intro dt steps ends
    exact (Accounts.kept.midFrame dt steps accounts).active_of_nextEnds ends

/-- A sprout with room for two branches: after two frames both are active, and in the third one ends. -/
theorem counters_agree_for_sprout :
    checked sprout {} (.ofSeed 7) = .ok (atStart sprout {} (.ofSeed 7)) ∧
    let s := (atStart sprout {} (.ofSeed 7)).run [0, 20] Recording.empty
    (s.1.midFrame 1 0 s.2).1.nextEnds = true ∧
    s.1.stats.activeBranches ≤ 2 ∧ s.1.stats.activeBranches = 2 - 0 ∧
    s.1.tasks.filter (!·.isBranch) = [.dispatch 2] ∧ s.1.pendingTasks = 1 + 2 ∧
    0 < (s.1.midFrame 1 0 s.2).1.stats.activeBranches := by
  have accepted : checked sprout {} (.ofSeed 7) = .ok (atStart sprout {} (.ofSeed 7)) := rfl
  have ends : (((atStart sprout {} (.ofSeed 7)).run [0, 20] Recording.empty).1.midFrame 1 0
      ((atStart sprout {} (.ofSeed 7)).run [0, 20] Recording.empty).2).1.nextEnds = true := by
    decide +kernel
  have agree := counters_agree_with_tasks accepted [0, 20] Recording.empty
  refine ⟨accepted, ends, agree.1, ?_, ?_, ?_, agree.2.2.2.2.2.2.2.2 1 0 ends⟩ <;> decide +kernel

end Scheduler


end Sapling
