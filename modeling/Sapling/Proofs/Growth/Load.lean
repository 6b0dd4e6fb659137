import Mathlib.Algebra.Order.BigOperators.Group.List
import Mathlib.Algebra.Order.Ring.Nat
import Sapling.Proofs.Growth.Accounts

/-! The work that is left. Every task has a load, which covers what it will add to the queue, so each
step makes the queue's load smaller, and the bound on the steps of a frame is never too small. -/
namespace Sapling

namespace Scheduler

variable {σ : Type} [SceneHost σ]

/-- A task that waits at the given time would only wait for the next frame again. -/
def Waits (s : Scheduler) (time : Float32) : Task → Prop
  | .dispatch next => s.Busy next
  | .branch task => task.stage = .growing ∧ progress task time < 1
  | .spawnLeaves _ => False

instance (s : Scheduler) (next : Nat) : Decidable (s.Busy next) :=
  inferInstanceAs (Decidable (if next < s.interpretation.segments.size then
    s.timing.parallelBranches.toNat ≤ s.stats.activeBranches else 0 < s.stats.activeBranches))

instance (s : Scheduler) (time : Float32) : DecidablePred (s.Waits time)
  | .dispatch next => inferInstanceAs (Decidable (s.Busy next))
  | .branch task => inferInstanceAs (Decidable (task.stage = .growing ∧ progress task time < 1))
  | .spawnLeaves _ => inferInstanceAs (Decidable False)

/-- The load of a task: three for each branch to come, two or one for a branch that grows or rests, one
for each cluster to come, and one for each of the two ends. -/
def weight (tree : Interpretation) : Task → Nat
  | .dispatch next => 3 * (tree.segments.size - next) + tree.anchors.size + 2
  | .branch task => match task.stage with
    | .growing => 2
    | .settling => 1
  | .spawnLeaves next => tree.anchors.size - next + 1

def load (tree : Interpretation) (tasks : List Task) : Nat := (tasks.map (weight tree)).sum

@[simp] theorem load_nil (tree : Interpretation) : load tree [] = 0 := rfl

@[simp] theorem load_cons (tree : Interpretation) (task : Task) (tasks : List Task) :
    load tree (task :: tasks) = weight tree task + load tree tasks := by
  simp [load]

private theorem load_append (tree : Interpretation) (first second : List Task) :
    load tree (first ++ second) = load tree first + load tree second := by
  simp [load]

/-- The load does not depend on the order of the tasks. -/
theorem load_perm (tree : Interpretation) {first second : List Task} (same : first.Perm second) :
    load tree first = load tree second :=
  (same.map _).sum_nat

private theorem weight_pos (tree : Interpretation) (task : Task) : 0 < weight tree task := by
  cases task with
  | dispatch next => simp [weight]
  | branch task => cases stage : task.stage <;> simp [weight, stage]
  | spawnLeaves next => simp [weight]

/-- A task that waits makes no other move than back to the next frame. -/
theorem Waits.move {s s' : Scheduler} {host host' : σ} (waits : s.Waits time task)
    (move : Move s time host task s' host') :
    s' = { s with nextFrame := s.nextFrame.push task } := by
  cases move with
  | hold busy => rfl
  | @start next segment found room =>
    have inside := (Array.getElem?_eq_some_iff.mp found).1
    simp only [Waits, Busy, inside, ↓reduceIte] at waits
    omega
  | leave last idle =>
    simp only [Waits, Busy, Nat.not_lt.mpr last, ↓reduceIte] at waits
    omega
  | grow growing young => rfl
  | mature growing old => exact absurd waits.2 old
  | rest settling => simp [Waits, settling] at waits
  | cluster found more => exact waits.elim
  | lastCluster found last => exact waits.elim
  | finish beyond => exact waits.elim

private theorem load_push (tree : Interpretation) (queue : TaskQueue Task) (time : Float32) (task : Task) :
    load tree (queue.push time task).tasks = weight tree task + load tree queue.tasks := by
  rw [load_perm tree (TaskQueue.push_tasks queue time task), load_cons]

/-- What a move adds to the queue is less than the task that makes it. -/
theorem Move.load_queue {s s' : Scheduler} {host host' : σ} (move : Move s time host task s' host') :
    load s.interpretation s'.queue.tasks <
      weight s.interpretation task + load s.interpretation s.queue.tasks := by
  cases move with
  | @start next segment found room =>
    have inside := (Array.getElem?_eq_some_iff.mp found).1
    simp only [afterStart, load_push, weight, newTask]
    omega
  | leave last idle =>
    simp only [load_push, weight]
    omega
  | mature growing old =>
    simp only [load_push, weight, growing]
    omega
  | @cluster next anchor found more =>
    simp only [load_push, weight]
    omega
  | _ => exact Nat.lt_add_of_pos_left (weight_pos _ _)

/-- Only a task that waits adds to the next frame. -/
theorem Move.waits_or_same_frame {s s' : Scheduler} {host host' : σ}
    (move : Move s time host task s' host') :
    s.Waits time task ∨ s'.nextFrame = s.nextFrame := by
  cases move with
  | hold busy => exact .inl busy
  | grow growing young => exact .inl ⟨growing, young⟩
  | _ => exact .inr rfl

/-- A move makes the load of all tasks smaller, or it leaves all as it is but for one task that waits. -/
theorem Move.lighter_or_waits {s s' : Scheduler} {host host' : σ}
    (move : Move s time host task s' host') :
    load s.interpretation s'.tasks <
      weight s.interpretation task + load s.interpretation s.tasks ∨
    s.Waits time task ∧ s' = { s with nextFrame := s.nextFrame.push task } := by
  rcases move.waits_or_same_frame with waits | frame
  · exact .inr ⟨waits, waits.move move⟩
  · have lighter := move.load_queue
    simp only [tasks, load_append, frame]
    omega

/-- The same of a task that has just left the queue, and is counted before its move. -/
theorem load_popped {s s' : Scheduler} {host host' : σ} {queue : TaskQueue Task}
    (popped : s.queue.popDue? now = some (entry, queue))
    (move : Move { s with queue } entry.time host entry.task s' host') :
    load s.interpretation s'.tasks < load s.interpretation s.tasks ∨
    load s.interpretation s'.tasks = load s.interpretation s.tasks ∧
      s.Waits entry.time entry.task ∧
      s' = { s with queue, nextFrame := s.nextFrame.push entry.task } := by
  rw [tasks_popped popped, load_cons]
  rcases move.lighter_or_waits with lighter | ⟨waits, after⟩
  · exact .inl lighter
  · have moved : s'.tasks.Perm (entry.task :: { s with queue }.tasks) := by
      rw [after]
      exact tasks_deferred rfl rfl
    refine .inr ⟨?_, waits, after⟩
    rw [load_perm _ moved, load_cons]

/-! ## The steps of a frame -/

/-- As many steps as the load of the queue are enough to do all that is due. -/
theorem runDue_exhausts (steps : Nat) {s : Scheduler} (host : σ)
    (enough : load s.interpretation s.queue.tasks ≤ steps) :
    (s.runDue steps host).1.queue.popDue? (s.runDue steps host).1.clock = none := by
  induction steps generalizing s host with
  | zero =>
    cases shape : s.queue.entries with
    | nil => simp [runDue, TaskQueue.popDue?, shape]
    | cons first rest =>
      have positive := weight_pos s.interpretation first.task
      simp only [TaskQueue.tasks, shape, List.map_cons, load_cons] at enough
      omega
  | succ steps ih =>
    cases popped : s.queue.popDue? s.clock with
    | none => rwa [runDue_stuck popped]
    | some taken =>
      obtain ⟨entry, queue⟩ := taken
      have move := runTask_move { s with queue } entry host
      have lighter := move.load_queue
      rw [TaskQueue.popDue_tasks popped, load_cons] at enough
      rw [runDue_popped popped]
      refine ih _ ?_
      rw [move.unchanged.1.tree]
      exact Nat.le_of_lt_succ (Nat.lt_of_lt_of_le lighter enough)

/-- Leaders apart, every task weighs at most two. -/
private theorem load_le_leaders (tree : Interpretation) (pending : List Task) :
    load tree pending ≤
      load tree (pending.filter (!·.isBranch)) + 2 * pending.countP Task.isBranch := by
  induction pending with
  | nil => exact Nat.le_refl _
  | cons task pending ih =>
    rw [List.filter_cons, List.countP_cons, load_cons]
    cases task with
    | branch task =>
      have light : weight tree (.branch task) ≤ 2 := by
        cases stage : task.stage <;> simp [weight, stage]
      simp only [Task.isBranch_branch, Bool.not_true, Bool.false_eq_true, ↓reduceIte]
      omega
    | dispatch next =>
      simp only [Task.isBranch_dispatch, Bool.not_false, ↓reduceIte, load_cons]
      omega
    | spawnLeaves next =>
      simp only [Task.isBranch_spawnLeaves, Bool.not_false, ↓reduceIte, load_cons]
      omega

/-- The bound on the steps of a frame covers all tasks. -/
theorem Accounts.load_le (accounts : Accounts s s.tasks) :
    load s.interpretation s.tasks ≤ s.stepBound := by
  have split := load_le_leaders s.interpretation s.tasks
  rw [accounts.held.1, accounts.held.2] at split
  have total := accounts.total
  unfold controllers at split
  unfold stepBound
  cases phase : s.phase with
  | branches =>
    have unstarted := accounts.bare phase
    simp only [phase, load_cons, load_nil, weight] at split
    omega
  | leaves =>
    simp only [phase, load_cons, load_nil, weight] at split
    omega
  | complete =>
    simp only [phase, load_nil] at split
    omega

/-- At the end of a frame nothing is due. -/
theorem advance_exhausts {s : Scheduler} (accounts : Accounts s s.tasks) (dt : Float32) (host : σ) :
    (s.advance dt host).1.queue.popDue? (s.advance dt host).1.clock = none := by
  have begun : Accounts (s.begun dt host).1 (s.begun dt host).1.tasks :=
    (Accounts.kept.begun dt accounts).2
  have all := begun.load_le
  rw [tasks, load_append] at all
  exact runDue_exhausts _ _ (Nat.le_trans (Nat.le_add_right _ _) all)

end Scheduler

/-! ## Steps of a frame

The steps of a frame, as the loop that makes them: one step after another for as long as a task is
due, with no bound of its own. From every state of every run the loop comes to its end, and the counters
from before the frame bound the number of its steps.
-/

namespace Scheduler

open Sapling.Random

variable {σ : Type} [SceneHost σ]

/-- A run of the loop: `steps` steps lead to a scheduler in which nothing is due, and to its host. -/
inductive Loop : (steps : Nat) → Scheduler → σ → Scheduler → σ → Prop where
  | done {s : Scheduler} {host : σ} (stuck : s.queue.popDue? s.clock = none) : Loop 0 s host s host
  | step {s last : Scheduler} {host end' : σ} {queue : TaskQueue Task}
      (popped : s.queue.popDue? s.clock = some (entry, queue))
      (rest : Loop steps ({ s with queue }.runTask entry host).1 ({ s with queue }.runTask entry host).2
        last end') :
      Loop (steps + 1) s host last end'

/-- The loop has no choice: what is due first makes its step. -/
theorem Loop.unique {s last other : Scheduler} {host end' stop : σ} (first : Loop steps s host last end')
    (second : Loop steps' s host other stop) : steps' = steps ∧ other = last ∧ stop = end' := by
  induction first generalizing steps' with
  | done stuck =>
    cases second with
    | done _ => exact ⟨rfl, rfl, rfl⟩
    | step popped _ => simp [stuck] at popped
  | step popped _ ih =>
    cases second with
    | done stuck => simp [popped] at stuck
    | step again rest =>
      obtain ⟨rfl, rfl⟩ := Prod.mk.inj (Option.some.inj (popped.symm.trans again))
      obtain ⟨rfl, same⟩ := ih rest
      exact ⟨rfl, same⟩

/-- Steps that were made up to a bound are a run of the loop, if nothing is due after them. -/
theorem loop_of_exhausted (bound : Nat) {s : Scheduler} {host : σ}
    (ended : (s.runDue bound host).1.queue.popDue? (s.runDue bound host).1.clock = none) :
    ∃ steps ≤ bound, Loop steps s host (s.runDue bound host).1 (s.runDue bound host).2 := by
  induction bound generalizing s host with
  | zero => exact ⟨0, Nat.le_refl _, .done ended⟩
  | succ bound ih =>
    cases popped : s.queue.popDue? s.clock with
    | none =>
      rw [runDue_stuck popped]
      exact ⟨0, Nat.zero_le _, .done popped⟩
    | some taken =>
      obtain ⟨entry, queue⟩ := taken
      rw [runDue_popped popped] at ended ⊢
      obtain ⟨steps, within, rest⟩ := ih ended
      exact ⟨steps + 1, Nat.succ_le_succ within, .step popped rest⟩

/-- A frame that begins leaves the counters of branches and clusters as they are, so the bound on its
steps is the one from before the frame. -/
theorem advance_eq_runDue (s : Scheduler) (dt : Float32) (host : σ) :
    s.advance dt host = (s.begun dt host).1.runDue s.stepBound (s.begun dt host).2 := by
  have bound : (s.begun dt host).1.stepBound = s.stepBound := by
    unfold begun ensureRoot
    cases s.root <;> rfl
  rw [← bound]
  rfl

/-- After any run of an accepted scheduler, the loop of the next frame comes to its end, whatever the
length of the frame and whatever the host. It has one run only, which is the frame, and no more steps than
three for each branch that was not started before the frame, two for each that was active, one for each
anchor without a cluster, and two. -/
theorem frame_ends_within_bound {tree : Interpretation} {settings : TreeSettings} {source : Generator}
    (accepted : checked tree settings source = .ok fresh) (lengths : List Float32) (host : σ)
    (dt : Float32) {τ : Type} [SceneHost τ] (scene : τ) :
    let s := (fresh.run lengths host).1
    let first := s.begun dt scene
    let last := s.advance dt scene
    ∃ steps, steps ≤ 3 * (s.stats.branchesTotal - s.stats.branchesStarted) +
        2 * s.stats.activeBranches + (tree.anchors.size - s.stats.clustersSpawned) + 2 ∧
      Loop steps first.1 first.2 last.1 last.2 ∧
      ∀ other t stop, Loop other first.1 first.2 t stop → other = steps ∧ t = last.1 ∧ stop = last.2 := by
  intro s first last
  have accounts : Accounts s s.tasks := Accounts.kept.run lengths (.fresh accepted)
  have same : SameTree fresh s := (SameTree.kept fresh).run lengths (.refl fresh)
  have anchors : s.interpretation.anchors.size = tree.anchors.size := by
    obtain ⟨-, rfl⟩ := checked_ok accepted
    rw [same.tree]
    rfl
  have ended := advance_exhausts accounts dt scene
  rw [advance_eq_runDue] at ended
  obtain ⟨steps, within, loop⟩ := loop_of_exhausted s.stepBound ended
  rw [← advance_eq_runDue] at loop
  rw [stepBound, anchors] at within
  exact ⟨steps, within, loop, fun other t stop run => loop.unique run⟩

/-- A sprout that has made its root and started one branch still has one to start. A frame of a minute
takes at most nine steps. -/
theorem frame_of_sprout_ends :
    checked sprout {} (.ofSeed 7) = .ok (atStart sprout {} (.ofSeed 7)) ∧
    let s := ((atStart sprout {} (.ofSeed 7)).run [0] Recording.empty).1
    s.stats.branchesStarted = 1 ∧ s.stats.activeBranches = 1 ∧
    ∃ steps ≤ 9, Loop steps (s.begun 60 Recording.empty).1 (s.begun 60 Recording.empty).2
      (s.advance 60 Recording.empty).1 (s.advance 60 Recording.empty).2 := by
  have accepted : checked sprout {} (.ofSeed 7) = .ok (atStart sprout {} (.ofSeed 7)) := rfl
  obtain ⟨steps, within, loop, -⟩ :=
    frame_ends_within_bound accepted [0] Recording.empty 60 Recording.empty
  have started : ((atStart sprout {} (.ofSeed 7)).run [0] Recording.empty).1.stats.branchesStarted =
      1 := by decide +kernel
  have active : ((atStart sprout {} (.ofSeed 7)).run [0] Recording.empty).1.stats.activeBranches =
      1 := by decide +kernel
  refine ⟨accepted, started, active, steps, Nat.le_trans within ?_, loop⟩
  rw [started, active]
  decide +kernel

end Scheduler

end Sapling
