import Mathlib.Order.Basic
import Sapling.Proofs.Growth.Completion
import Sapling.Proofs.Growth.Phases
import Sapling.Proofs.Settings.Checks

/-! Growth never stands still in a frame that is long enough. How far it has come is told by marks that no
move takes back, and every move passes one of them unless its task only waits. A task that is due in a
frame and does not wait makes its move in that frame, and until the growth is complete there is one. -/
namespace Sapling

/-- Does the task let a full-grown branch rest? -/
def Task.isResting : Task → Bool
  | .branch task => task.stage = .settling
  | _ => false

namespace Scheduler

open Sapling.Random
open Scalar (Forward)

variable {σ : Type} [SceneHost σ]

/-- How far the growth has come, with these tasks pending: the branches that have started, those that are
done, the clusters, the branches that are full-grown, which rest or are done, and the phase. -/
def marks (s : Scheduler) (pending : List Task) : ℕ × ℕ × ℕ × ℕ × ℕ :=
  (s.stats.branchesStarted, s.stats.branchesCompleted, s.stats.clustersSpawned,
    pending.countP Task.isResting + s.stats.branchesCompleted, s.phase.rank)

/-- Marks are passed when one of them rises and none falls. -/
theorem marks_lt_iff {s t : Scheduler} {pending later : List Task} :
    s.marks pending < t.marks later ↔
      (s.stats.branchesStarted < t.stats.branchesStarted ∨
        s.stats.branchesCompleted < t.stats.branchesCompleted ∨
        s.stats.clustersSpawned < t.stats.clustersSpawned ∨
        pending.countP Task.isResting + s.stats.branchesCompleted <
          later.countP Task.isResting + t.stats.branchesCompleted ∨
        s.phase.rank < t.phase.rank) ∧
      s.stats.branchesStarted ≤ t.stats.branchesStarted ∧
      s.stats.branchesCompleted ≤ t.stats.branchesCompleted ∧
      s.stats.clustersSpawned ≤ t.stats.clustersSpawned ∧
      pending.countP Task.isResting + s.stats.branchesCompleted ≤
        later.countP Task.isResting + t.stats.branchesCompleted ∧
      s.phase.rank ≤ t.phase.rank := by
  simp only [marks, Prod.mk_lt_mk, Prod.mk_le_mk]
  omega

theorem marks_perm (s : Scheduler) {pending later : List Task} (same : pending.Perm later) :
    s.marks pending = s.marks later := by
  simp only [marks, same.countP_eq]

private theorem marks_lt_of_perm {s t : Scheduler} (same : t.tasks.Perm later)
    (below : s.marks pending < t.marks later) : s.marks pending < t.marks t.tasks := by
  rwa [t.marks_perm same]

/-- Every move passes a mark, unless its task only waits. -/
theorem Move.marks_lt_or_waits {s s' : Scheduler} {host host' : σ}
    (accounts : Accounts s (task :: s.tasks)) (move : Move s time host task s' host') :
    s.marks (task :: s.tasks) < s'.marks s'.tasks ∨
    s.Waits time task ∧ s' = { s with nextFrame := s.nextFrame.push task } := by
  have held := accounts.held
  cases move with
  | hold busy => exact .inr ⟨busy, rfl⟩
  | grow growing young => exact .inr ⟨⟨growing, young⟩, rfl⟩
  | start found room =>
    refine .inl (marks_lt_of_perm (tasks_afterStart ..) (marks_lt_iff.mpr ?_))
    simp [Task.isResting, newTask, afterStart, countStart]
  | leave last idle =>
    refine .inl (marks_lt_of_perm (tasks_pushed (s := s) rfl rfl) (marks_lt_iff.mpr ?_))
    simp [Task.isResting, Phase.rank, (held_dispatch held).1]
  | mature growing old =>
    refine .inl (marks_lt_of_perm (tasks_pushed (s := s) rfl rfl) (marks_lt_iff.mpr ?_))
    simp [Task.isResting, growing]
  | rest settling =>
    refine .inl (marks_lt_iff.mpr ?_)
    simp only [Task.isResting, settling, countEnd, tasks, List.countP_cons, decide_true, ↓reduceIte]
    omega
  | cluster found more =>
    refine .inl (marks_lt_of_perm (tasks_pushed (s := s) rfl rfl) (marks_lt_iff.mpr ?_))
    simp [Task.isResting, afterCluster]
  | lastCluster found last =>
    refine .inl (marks_lt_iff.mpr ?_)
    simp [Task.isResting, Phase.rank, afterCluster, tasks, (held_spawnLeaves held).1]
  | finish beyond =>
    refine .inl (marks_lt_iff.mpr ?_)
    simp [Task.isResting, Phase.rank, tasks, (held_spawnLeaves held).1]

/-! ## A task that is due -/

/-- Since `first` a mark has been passed, or this slot of the queue is still to be served and its task
does what it would have done at first. -/
def Owed (first : Scheduler) (slot : Float32 × Task) (s : Scheduler) : Prop :=
  first.marks first.tasks < s.marks s.tasks ∨
  s.marks s.tasks = first.marks first.tasks ∧
    (∀ time task, s.Waits time task ↔ first.Waits time task) ∧ slot ∈ s.queue.slots

private theorem Owed.kept {first : Scheduler} (moves : ¬ first.Waits time task) :
    Kept fun s (_ : σ) => Accounts s s.tasks ∧ Owed first (time, task) s := by
  refine Accounts.kept.and (fun _ _ owed => owed) ?_ ?_
  · rintro s host dt - - owed
    have same := (s.beginFrame (frameLength dt)).marks_perm (tasks_beginFrame s (frameLength dt))
    rcases owed with ahead | ⟨level, waits, waiting⟩
    · exact .inl (lt_of_lt_of_eq ahead same.symm)
    · refine .inr ⟨same.trans level, waits, ?_⟩
      simp only [beginFrame, ← Array.foldl_toList]
      rw [(TaskQueue.push_all_slots ..).mem_iff]
      exact List.mem_append_left _ waiting
  · rintro s s' host host' entry queue - accounts owed popped move
    have before : s.marks s.tasks = { s with queue }.marks (entry.task :: { s with queue }.tasks) := by
      rw [tasks_popped popped]
      rfl
    rcases Move.marks_lt_or_waits (accounts.popped popped) move with ahead | ⟨waits', rfl⟩
    · rw [← before] at ahead
      rcases owed with further | ⟨level, -⟩
      · exact .inl (further.trans ahead)
      · exact .inl (level ▸ ahead)
    · have after : ({ s with queue, nextFrame := s.nextFrame.push entry.task } : Scheduler).marks
          ({ s with queue, nextFrame := s.nextFrame.push entry.task } : Scheduler).tasks =
          s.marks s.tasks := by
        rw [before]
        exact marks_perm _ (tasks_deferred (s := { s with queue }) rfl rfl)
      rcases owed with further | ⟨level, waits, waiting⟩
      · exact .inl (lt_of_lt_of_eq further after.symm)
      · refine .inr ⟨after.trans level, waits, ?_⟩
        rw [TaskQueue.popDue_slots popped] at waiting
        -- The task that has just made its move waits, so it is another one.
        rcases List.mem_cons.mp waiting with this | waiting
        · obtain ⟨rfl, rfl⟩ := Prod.mk.inj this
          exact absurd ((waits _ _).mp waits') moves
        · exact waiting

/-- A frame passes a mark when there is a task that is due in it and does not wait. -/
theorem marks_advance_lt {s : Scheduler} (sound : Sound s) {dt : Float32} {host : σ}
    (slot : (time, task) ∈ (s.begun dt host).1.queue.slots)
    (due : time ≤ (s.advance dt host).1.clock) (moves : ¬ s.Waits time task) :
    s.marks s.tasks < (s.advance dt host).1.marks (s.advance dt host).1.tasks := by
  have accounts : Accounts (s.begun dt host).1 (s.begun dt host).1.tasks :=
    (Accounts.kept.begun dt sound.1).2
  have starts : Owed s (time, task) (s.begun dt host).1 := by
    obtain ⟨root, begun⟩ := s.begun_eq dt host
    rw [begun] at slot ⊢
    exact .inr ⟨marks_perm _ (tasks_beginFrame { s with root } _), fun _ _ => .rfl, slot⟩
  have ends : Accounts (s.advance dt host).1 (s.advance dt host).1.tasks ∧
      Owed s (time, task) (s.advance dt host).1 :=
    (Owed.kept moves).advance_of_begun dt ⟨accounts, starts⟩
  rcases ends.2 with ahead | ⟨-, -, waiting⟩
  · exact ahead
  · have late := sound.early dt host (time, task) waiting
    exact absurd due late

/-! ## Which task is due -/

/-- A growing branch in the queue is due: it has just started, or has been called for this frame. -/
def Prompt (s : Scheduler) : Prop :=
  ∀ time task, (time, .branch task) ∈ s.queue.slots → task.stage = .growing → time ≤ s.clock

/-- A growing branch was in the queue before the move, or the move has started it. -/
private theorem Move.growing_origin {s s' : Scheduler} {host host' : σ}
    (move : Move s time host task s' host') (slot : (due, .branch other) ∈ s'.queue.slots)
    (growing : other.stage = .growing) : (due, .branch other) ∈ s.queue.slots ∨ due = time := by
  cases move with
  | start found room =>
    rcases TaskQueue.mem_slots_push.mp slot with this | slot
    · cases (Prod.mk.inj this).2
    · rcases TaskQueue.mem_slots_push.mp slot with this | before
      · exact .inr (Prod.mk.inj this).1
      · exact .inl before
  | leave last idle =>
    rcases TaskQueue.mem_slots_push.mp slot with this | before
    · cases (Prod.mk.inj this).2
    · exact .inl before
  | mature _ old =>
    rcases TaskQueue.mem_slots_push.mp slot with this | before
    · rw [Task.branch.inj (Prod.mk.inj this).2] at growing
      cases growing
    · exact .inl before
  | cluster found more =>
    rcases TaskQueue.mem_slots_push.mp slot with this | before
    · cases (Prod.mk.inj this).2
    · exact .inl before
  | _ => exact .inl slot

private theorem Prompt.kept : Kept fun s (_ : σ) => Timely s ∧ Prompt s := by
  refine Timely.kept.and (fun _ _ prompt => prompt) ?_ ?_
  · rintro s host dt - timely prompt time task slot growing
    obtain ⟨forward, onward⟩ := clock_beginFrame timely.clock dt
    simp only [beginFrame, ← Array.foldl_toList] at slot
    rcases List.mem_append.mp ((TaskQueue.push_all_slots ..).mem_iff.mp slot) with before | called
    · have due := prompt time task before growing
      have number : Forward time := by
        obtain ⟨entry, listed, same⟩ := List.mem_map.mp before
        exact (Prod.mk.inj same).1 ▸ timely.queue.times entry listed
      rw [number.le_iff timely.clock] at due
      exact (number.le_iff forward).mpr (Nat.le_trans due onward)
    · obtain ⟨_, -, same⟩ := List.mem_map.mp called
      rw [← (Prod.mk.inj same).1]
      exact (forward.le_iff forward).mpr (Nat.le_refl _)
  · rintro s s' host host' entry queue - timely prompt popped move time task slot growing
    rw [move.unchanged.2.2]
    rcases move.growing_origin slot growing with before | rfl
    · refine prompt time task ?_ growing
      rw [TaskQueue.popDue_slots popped]
      exact List.mem_cons_of_mem _ before
    · exact (TaskQueue.popDue_some popped).2

/-- Between frames no growing branch is in the queue: all of them wait for the next frame. -/
theorem no_growing_between_frames {tree : Interpretation} {settings : TreeSettings}
    {source : Generator} (accepted : checked tree settings source = .ok fresh)
    (lengths : List Float32) (host : σ)
    (slot : (time, .branch task) ∈ (fresh.run lengths host).1.queue.slots) :
    task.stage ≠ .growing := by
  intro growing
  rcases List.eq_nil_or_concat lengths with rfl | ⟨before, dt, rfl⟩
  · obtain ⟨-, rfl⟩ := checked_ok accepted
    cases (Prod.mk.inj (List.mem_singleton.mp slot)).2
  · rw [List.concat_eq_append, run_append] at slot
    have prompt : Timely fresh ∧ Prompt fresh := by
      refine ⟨.fresh accepted, ?_⟩
      obtain ⟨-, rfl⟩ := checked_ok accepted
      intro _ _ slot
      cases (Prod.mk.inj (List.mem_singleton.mp slot)).2
    have later : Timely ((fresh.run before host).1.advance dt (fresh.run before host).2).1 ∧
        Prompt ((fresh.run before host).1.advance dt (fresh.run before host).2).1 :=
      Prompt.kept.advance dt (Prompt.kept.run before prompt)
    have sound : Sound (fresh.run before host).1 :=
      Sound.kept.run before ⟨.fresh accepted, .fresh accepted⟩
    have late := sound.early dt (fresh.run before host).2 _ slot
    exact late (later.2 time task slot growing)

/-- At least one branch may grow at a time. -/
theorem parallel_pos {timing : GrowthTiming} (valid : timing.validate = .ok ()) :
    0 < timing.parallelBranches.toNat :=
  Nat.pos_of_ne_zero fun vanishes =>
    (GrowthTiming.validate_ok_iff.mp valid).parallelBranches (UInt32.toNat_inj.mp vanishes)

/-- Every task of a scheduler has its slot in the frame that begins: in the queue still, or called now. -/
theorem slot_begun {s : Scheduler} (member : task ∈ s.tasks) (dt : Float32) (host : σ) :
    ∃ time, (time, task) ∈ (s.begun dt host).1.queue.slots ∧
      ((time, task) ∈ s.queue.slots ∨ time = s.clock + frameLength dt) := by
  have slots := s.slots_begun dt host
  rcases List.mem_append.mp member with queued | called
  · obtain ⟨entry, listed, rfl⟩ := List.mem_map.mp queued
    have slot : (entry.time, entry.task) ∈ s.queue.slots := List.mem_map.mpr ⟨entry, listed, rfl⟩
    exact ⟨entry.time, slots.mem_iff.mpr (List.mem_append_left _ slot), .inl slot⟩
  · refine ⟨s.clock + frameLength dt, slots.mem_iff.mpr (List.mem_append_right _ ?_), .inr rfl⟩
    exact List.mem_map.mpr ⟨task, called, rfl⟩

/-- Until the growth is complete there is a task that does not wait, unless it is a branch that is still
growing: the spawner of leaves, a branch that rests, or the dispatcher when no branch is active. -/
theorem exists_ready {s : Scheduler} (accounts : Accounts s s.tasks)
    (room : 0 < s.timing.parallelBranches.toNat) (unfinished : s.phase ≠ .complete) :
    ∃ task ∈ s.tasks, (∀ time, ¬ s.Waits time task) ∨
      ∃ branch, task = .branch branch ∧ branch.stage = .growing := by
  have phases := accounts.tasks_of_phase
  cases phase : s.phase with
  | complete => exact absurd phase unfinished
  | leaves =>
    rw [phase] at phases
    exact ⟨_, by rw [phases.1]; exact List.mem_singleton_self _, .inl fun _ => id⟩
  | branches =>
    rw [phase] at phases
    by_cases idle : s.stats.activeBranches = 0
    · have there : .dispatch s.stats.branchesStarted ∈ s.tasks.filter (!·.isBranch) := by
        rw [phases.1]
        exact List.mem_singleton_self _
      refine ⟨_, List.mem_of_mem_filter there, .inl fun _ busy => ?_⟩
      simp only [Waits, Busy, idle] at busy
      split at busy <;> omega
    · have positive : 0 < s.tasks.countP Task.isBranch := by
        rw [accounts.held.2]
        omega
      obtain ⟨task, member, isBranch⟩ := List.countP_pos_iff.mp positive
      refine ⟨task, member, ?_⟩
      cases task with
      | dispatch next => cases isBranch
      | spawnLeaves next => cases isBranch
      | branch branch =>
        cases stage : branch.stage with
        | growing => exact .inr ⟨branch, rfl, stage⟩
        | settling => exact .inl fun _ waits => by simp [Waits, stage] at waits

/-- After any run of an accepted scheduler that is not complete, a frame that is long enough brings the
growth on. Long enough is a frame after which every task of the queue is due, and every growing branch has
had its time; then a branch starts, is done or is full-grown, a cluster comes or a phase ends. -/
theorem ripe_frame_brings_growth_on {tree : Interpretation} {settings : TreeSettings}
    {source : Generator} (accepted : checked tree settings source = .ok fresh)
    (lengths : List Float32) (host : σ) (dt : Float32) {τ : Type} [SceneHost τ] (scene : τ) :
    let s := (fresh.run lengths host).1
    let t := (s.advance dt scene).1
    s.phase ≠ .complete →
    (∀ entry ∈ s.queue.entries, entry.time ≤ t.clock) →
    (∀ task, .branch task ∈ s.tasks → task.stage = .growing →
      1 ≤ (t.clock - task.startedAt) / task.duration) →
    (s.stats.branchesStarted < t.stats.branchesStarted ∨
      s.stats.branchesCompleted < t.stats.branchesCompleted ∨
      s.stats.clustersSpawned < t.stats.clustersSpawned ∨
      s.tasks.countP Task.isResting + s.stats.branchesCompleted <
        t.tasks.countP Task.isResting + t.stats.branchesCompleted ∨
      s.phase.rank < t.phase.rank) ∧
    s.stats.branchesStarted ≤ t.stats.branchesStarted ∧
    s.stats.branchesCompleted ≤ t.stats.branchesCompleted ∧
    s.stats.clustersSpawned ≤ t.stats.clustersSpawned ∧
    s.phase.rank ≤ t.phase.rank := by
  intro s t unfinished due ripe
  have sound : Sound s := Sound.kept.run lengths ⟨.fresh accepted, .fresh accepted⟩
  have same : SameTree fresh s := (SameTree.kept fresh).run lengths (.refl fresh)
  have room : 0 < s.timing.parallelBranches.toNat := by
    obtain ⟨valid, rfl⟩ := checked_ok accepted
    rw [same.timing]
    exact parallel_pos valid
  have clock : t.clock = s.clock + frameLength dt := s.advance_clock dt scene
  have number : Forward t.clock := (Timely.kept.advance dt sound.2).clock
  obtain ⟨task, member, ready⟩ := exists_ready sound.1 room unfinished
  obtain ⟨time, slot, origin⟩ := slot_begun member dt scene
  have now : time ≤ t.clock := by
    rcases origin with queued | rfl
    · obtain ⟨entry, listed, same⟩ := List.mem_map.mp queued
      exact (Prod.mk.inj same).1 ▸ due entry listed
    · rw [clock] at number ⊢
      exact (number.le_iff number).mpr (Nat.le_refl _)
  have moves : ¬ s.Waits time task := by
    rcases ready with ready | ⟨branch, rfl, growing⟩
    · exact ready time
    · rcases origin with queued | rfl
      · exact absurd growing (no_growing_between_frames accepted lengths host queued)
      · have grown := ripe branch member growing
        rw [clock] at grown
        exact fun waits => Scalar.not_min_lt grown waits.2
  obtain ⟨passed, started, done, clusters, -, phase⟩ :=
    marks_lt_iff.mp (marks_advance_lt sound slot now moves)
  exact ⟨passed, started, done, clusters, phase⟩

/-- After its first frame a sprout has one growing branch and its dispatcher waits. In twenty seconds that
branch has had its time, so the growth comes on. -/
theorem ripe_frame_of_sprout :
    checked sprout {} (.ofSeed 7) = .ok (atStart sprout {} (.ofSeed 7)) ∧
    let s := ((atStart sprout {} (.ofSeed 7)).run [0] Recording.empty).1
    let t := (s.advance 20 Recording.empty).1
    s.phase ≠ .complete ∧ (∀ entry ∈ s.queue.entries, entry.time ≤ t.clock) ∧
    (∀ task, .branch task ∈ s.tasks → task.stage = .growing →
      1 ≤ (t.clock - task.startedAt) / task.duration) ∧
    s.tasks.countP Task.isBranch = 1 ∧
    (s.stats.branchesStarted < t.stats.branchesStarted ∨
      s.stats.branchesCompleted < t.stats.branchesCompleted ∨
      s.stats.clustersSpawned < t.stats.clustersSpawned ∨
      s.tasks.countP Task.isResting + s.stats.branchesCompleted <
        t.tasks.countP Task.isResting + t.stats.branchesCompleted ∨
      s.phase.rank < t.phase.rank) := by
  have accepted : checked sprout {} (.ofSeed 7) = .ok (atStart sprout {} (.ofSeed 7)) := rfl
  have ripe : ((atStart sprout {} (.ofSeed 7)).run [0] Recording.empty).1.tasks.all
      (fun
        | .branch task => task.stage = .growing → 1 ≤ (20 - task.startedAt) / task.duration
        | _ => true) = true := by decide +kernel
  have unfinished : ((atStart sprout {} (.ofSeed 7)).run [0] Recording.empty).1.phase ≠ .complete := by
    decide +kernel
  have due : ∀ entry ∈ ((atStart sprout {} (.ofSeed 7)).run [0] Recording.empty).1.queue.entries,
      entry.time ≤ 20 := by decide +kernel
  have clock : (((atStart sprout {} (.ofSeed 7)).run [0] Recording.empty).1.advance 20
      Recording.empty).1.clock = 20 := by decide +kernel
  have forward := ripe_frame_brings_growth_on accepted [0] Recording.empty 20 Recording.empty
  dsimp only at forward ⊢
  rw [clock] at forward ⊢
  have grown : ∀ task, .branch task ∈ ((atStart sprout {} (.ofSeed 7)).run [0]
      Recording.empty).1.tasks → task.stage = .growing → 1 ≤ (20 - task.startedAt) / task.duration :=
    fun task member => of_decide_eq_true (List.all_eq_true.mp ripe (.branch task) member)
  exact ⟨accepted, unfinished, due, grown, by decide +kernel, (forward unfinished due grown).1⟩

end Scheduler


end Sapling
