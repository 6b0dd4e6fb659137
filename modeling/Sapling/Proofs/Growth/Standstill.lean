import Sapling.Proofs.Growth.Completion

/-! Frames that do not move the clock at all. A frame that is not finite counts as one of length zero, and
while the clock reads zero no branch has any growth behind it. -/
namespace Sapling.Scheduler

open Sapling.Random
open Scalar (Forward)

variable {σ : Type} [SceneHost σ]

/-- A branch that has started at time zero, and will take some time to grow. -/
def Seedling (task : BranchTask) : Prop :=
  task.stage = .growing ∧ task.startedAt = 0 ∧ task.duration.isNaN = false ∧
    0 < Scalar.level task.duration

/-- At time zero a seedling is not full-grown. -/
theorem Seedling.young (seedling : Seedling task) : progress task 0 < 1 := by
  obtain ⟨-, start, isNumber, positive⟩ := seedling
  have vanishes : (0 - task.startedAt) / task.duration = 0 := by
    rw [start, show (0 : Float32) - 0 = 0 from rfl, Scalar.zero_div isNumber positive]
  rw [progress, vanishes]
  decide

/-- While the clock reads zero, all branches that have started are seedlings. -/
def Unaged (s : Scheduler) (pending : List Task) : Prop :=
  s.clock = 0 → s.stats.branchesCompleted = 0 ∧ ∀ task, .branch task ∈ pending → Seedling task

private theorem seedling_newTask (s : Scheduler) (segment : Segment) (node : NodeId) :
    Seedling (s.newTask segment node 0) := by
  obtain ⟨isNumber, long⟩ := @Scalar.le_max s.nextDraws.1.duration Scalar.epsilon rfl
  have epsilon : 0 < Scalar.level Scalar.epsilon := by decide
  exact ⟨rfl, rfl, isNumber, Int.lt_of_lt_of_le epsilon long⟩

/-- A pending branch was there before the move, has just started, or has just grown to its end. -/
theorem Move.branch_origin {s s' : Scheduler} {host host' : σ}
    (move : Move s time host task s' host') (member : .branch other ∈ s'.tasks) :
    .branch other ∈ task :: s.tasks ∨ (∃ segment node, other = s.newTask segment node time) ∨
      ∃ grown, task = .branch grown ∧ ¬ progress grown time < 1 := by
  cases move with
  | hold busy => exact .inl (List.mem_cons.mpr (mem_deferred member rfl rfl))
  | start found room =>
    rw [(tasks_afterStart ..).mem_iff] at member
    rcases List.mem_cons.mp member with this | member
    · cases this
    · rcases List.mem_cons.mp member with this | before
      · exact .inr (.inl ⟨_, _, Task.branch.inj this⟩)
      · exact .inl (List.mem_cons_of_mem _ before)
  | leave last idle =>
    rcases mem_pushed member rfl rfl with this | before
    · cases this
    · exact .inl (List.mem_cons_of_mem _ before)
  | grow growing young => exact .inl (List.mem_cons.mpr (mem_deferred member rfl rfl))
  | mature growing old => exact .inr (.inr ⟨_, rfl, old⟩)
  | cluster found more =>
    rcases mem_pushed member rfl rfl with this | before
    · cases this
    · exact .inl (List.mem_cons_of_mem _ before)
  | _ => exact .inl (List.mem_cons_of_mem _ member)

private theorem Unaged.move {s s' : Scheduler} {host host' : σ} (unaged : Unaged s (task :: s.tasks))
    (now : s.clock = 0 → time = 0) (move : Move s time host task s' host') : Unaged s' s'.tasks := by
  intro clock
  have start : s.clock = 0 := move.unchanged.2.2 ▸ clock
  obtain ⟨uncompleted, seedlings⟩ := unaged start
  obtain rfl := now start
  constructor
  · cases move with
    | rest settling =>
      have growing := (seedlings _ List.mem_cons_self).1
      simp [settling] at growing
    | _ => exact uncompleted
  · intro other member
    rcases move.branch_origin member with before | ⟨segment, node, rfl⟩ | ⟨grown, rfl, old⟩
    · exact seedlings other before
    · exact s.seedling_newTask segment node
    · exact absurd (seedlings grown List.mem_cons_self).young old

/-- A clock that reads zero after a frame read zero before it. -/
private theorem clock_zero {s : Scheduler} (forward : Forward s.clock) (dt : Float32)
    (zero : (s.beginFrame (frameLength dt)).clock = 0) : s.clock = 0 := by
  have onward := (clock_beginFrame forward dt).2
  rw [zero] at onward
  exact Scalar.eq_of_bits_eq (Nat.le_antisymm onward (Nat.zero_le _))

private theorem Unaged.kept : Kept fun s (_ : σ) => Timely s ∧ Unaged s s.tasks := by
  refine Timely.kept.and ?_ ?_ ?_
  · rintro s host - - unaged
    exact unaged
  · rintro s host dt - timely unaged clock
    obtain ⟨uncompleted, seedlings⟩ := unaged (clock_zero timely.clock dt clock)
    exact ⟨uncompleted, fun task member => seedlings task ((tasks_beginFrame s _).mem_iff.mp member)⟩
  · rintro s s' host host' entry queue - timely unaged popped move
    have before : Unaged { s with queue } (entry.task :: { s with queue }.tasks) := by
      rw [tasks_popped popped] at unaged
      exact unaged
    refine before.move ?_ move
    intro clock
    have zero : s.clock = 0 := clock
    have due := (TaskQueue.popDue_some popped).2
    rw [(timely.queue.popped popped).1.le_iff timely.clock, zero] at due
    exact Scalar.eq_of_bits_eq (Nat.le_antisymm due (Nat.zero_le _))

private theorem Unaged.fresh {tree : Interpretation} {settings : TreeSettings} {source : Generator}
    (accepted : checked tree settings source = .ok s) : Unaged s s.tasks := by
  obtain ⟨-, rfl⟩ := checked_ok accepted
  intro _
  refine ⟨rfl, ?_⟩
  intro task member
  simp [tasks, atStart, TaskQueue.tasks, TaskQueue.push, TaskQueue.insert] at member

private theorem clock_runFrames_zero {s : Scheduler} (zero : s.clock = 0) (short : frameLength dt = 0)
    (frames : Nat) (host : σ) : (s.runFrames dt frames host).1.clock = 0 := by
  induction frames generalizing s host with
  | zero => exact zero
  | succ frames ih =>
    by_cases complete : s.isComplete
    · rwa [runFrames_complete complete]
    · have unfinished : s.phase ≠ .complete := by simpa [isComplete] using complete
      rw [runFrames_succ unfinished]
      refine ih ?_ _
      rw [advance_clock, zero, short]
      rfl

/-- A tree with at least one segment never grows in frames of length zero. -/
theorem never_complete_of_zero_frames {tree : Interpretation} {settings : TreeSettings}
    {source : Generator} (accepted : checked tree settings source = .ok fresh)
    (nonempty : 0 < tree.segments.size) (short : frameLength dt = 0) (frames : Nat) (host : σ) :
    (fresh.runFrames dt frames host).1.isComplete = false := by
  have start : fresh.clock = 0 := by
    obtain ⟨-, rfl⟩ := checked_ok accepted
    rfl
  have clock := clock_runFrames_zero start short frames host
  have books : Accounts (fresh.runFrames dt frames host).1 (fresh.runFrames dt frames host).1.tasks ∧
      SameTree fresh (fresh.runFrames dt frames host).1 :=
    (Accounts.kept_same fresh).runFrames dt frames ⟨.fresh accepted, .refl fresh⟩
  have young : Timely (fresh.runFrames dt frames host).1 ∧
      Unaged (fresh.runFrames dt frames host).1 (fresh.runFrames dt frames host).1.tasks :=
    Unaged.kept.runFrames dt frames ⟨.fresh accepted, .fresh accepted⟩
  obtain ⟨accounts, same⟩ := books
  have uncompleted := (young.2 clock).1
  have all := accounts.total
  have balance := accounts.balance
  have segments : fresh.interpretation.segments.size = tree.segments.size := by
    obtain ⟨-, rfl⟩ := checked_ok accepted
    rfl
  rw [same.tree, segments] at all
  apply decide_eq_false
  intro complete
  obtain ⟨started, idle⟩ := accounts.done (by simp [complete])
  omega

/-- Whenever a run to completion begins and however long its frames are, it comes to its end exactly when
it is never stalled, and the bound on its frames is never too small for that. An infinite frame is not made
shorter, but counts as one of length zero, so no tree with a segment is ever complete in such frames. -/
theorem run_ends_iff_never_stalled {tree : Interpretation} {settings : TreeSettings}
    {source : Generator} (accepted : checked tree settings source = .ok fresh)
    (lengths : List Float32) (frameDt : Float32) (host : σ) :
    let s := (fresh.run lengths host).1
    let later := (fresh.run lengths host).2
    let dt := if minFrame ≤ frameDt then frameDt else minFrame
    ((∃ frames, (s.runFrames dt frames later).1.isComplete) ↔
      ∀ frames, ¬ Stalled dt (s.runFrames dt frames later).1) ∧
    ((∃ frames, (s.runFrames dt frames later).1.isComplete) ↔
      (s.runToCompletion frameDt later).1.isComplete) ∧
    (frameDt = Scalar.infinity → 0 < tree.segments.size →
      ∀ frames, (fresh.runFrames dt frames host).1.isComplete = false) := by
  intro s later dt
  have sound : Sound s := Sound.kept.run lengths ⟨.fresh accepted, .fresh accepted⟩
  obtain ⟨exact, bounded⟩ := complete_iff_never_stalled sound dt later
  refine ⟨exact, bounded, ?_⟩
  intro infinite nonempty frames
  have short : frameLength dt = 0 := by
    simp only [dt, infinite]
    decide
  exact never_complete_of_zero_frames accepted nonempty short frames host

/-- A sprout is complete in frames of twenty seconds, and stalled from the first infinite frame on. -/
theorem sprout_ends_in_finite_frames :
    checked sprout {} (.ofSeed 7) = .ok (atStart sprout {} (.ofSeed 7)) ∧
    ((atStart sprout {} (.ofSeed 7)).runToCompletion 20 Recording.empty).1.isComplete ∧
    Stalled Scalar.infinity
      ((atStart sprout {} (.ofSeed 7)).runFrames Scalar.infinity 1 Recording.empty).1 ∧
    ∀ frames, ((atStart sprout {} (.ofSeed 7)).runFrames Scalar.infinity frames
      Recording.empty).1.isComplete = false := by
  have accepted : checked sprout {} (.ofSeed 7) = .ok (atStart sprout {} (.ofSeed 7)) := rfl
  obtain ⟨-, bounded, -⟩ := run_ends_iff_never_stalled accepted [] 20 Recording.empty
  obtain ⟨-, -, endless⟩ := run_ends_iff_never_stalled accepted [] Scalar.infinity Recording.empty
  refine ⟨accepted, bounded.mp ⟨8, by decide +kernel⟩, by decide +kernel, ?_⟩
  intro frames
  exact endless rfl (by decide) frames

end Sapling.Scheduler
