import Sapling.Proofs.Growth.Leaders

/-! The pace of growth is set by the times of the steps. A task that is put back waits from the time of its
own step and not from the clock of the frame, so one step follows another after the exact pause between
them, however long the frames are. -/
namespace Sapling.Scheduler

open Sapling.Random
open Scalar (Nonneg)

variable {σ : Type} [SceneHost σ]

/-! ## Branches at rest -/

/-- The branch that such a step finds full-grown, and the time until which it is to rest. -/
def ripening? (time : Float32) : Outcome → Option (Float32 × BranchTask)
  | .wait pause (.branch task) => some (time + pause, task)
  | _ => none

/-- The branch that is done with such a step, and the time of that. -/
def completion? (time : Float32) : Task → Outcome → Option (Float32 × BranchTask)
  | .branch task, .done => some (time, task)
  | _, _ => none

/-- A full-grown branch that waits, with its time. -/
def resting? : Float32 × Task → Option (Float32 × BranchTask)
  | (time, .branch task) => if task.stage = .settling then some (time, task) else none
  | _ => none

/-- The branches that the steps found full-grown. -/
def ripened (steps : List Step) : List (Float32 × BranchTask) :=
  steps.filterMap fun step => ripening? step.time step.outcome

/-- The branches that were done with one of the steps. -/
def completed (steps : List Step) : List (Float32 × BranchTask) :=
  steps.filterMap fun step => completion? step.time step.entry.task step.outcome

private theorem ripened_concat (steps : List Step) (step : Step) :
    ripened (steps ++ [step]) = ripened steps ++ (ripening? step.time step.outcome).toList := by
  rw [ripened, List.filterMap_append, List.filterMap_cons]
  cases ripening? step.time step.outcome <;> rfl

private theorem completed_concat (steps : List Step) (step : Step) :
    completed (steps ++ [step]) =
      completed steps ++ (completion? step.time step.entry.task step.outcome).toList := by
  rw [completed, List.filterMap_append, List.filterMap_cons]
  cases completion? step.time step.entry.task step.outcome <;> rfl

/-- The full-grown branches that wait, with their times. -/
def resting (queue : TaskQueue Task) : List (Float32 × BranchTask) := queue.slots.filterMap resting?

private theorem resting_popped {queue rest : TaskQueue Task} (popped : queue.popDue? now = some (entry, rest)) :
    resting queue = (resting? (entry.time, entry.task)).toList ++ resting rest := by
  rw [resting, TaskQueue.popDue_slots popped, List.filterMap_cons]
  cases resting? (entry.time, entry.task) <;> rfl

private theorem resting_push (queue : TaskQueue Task) (time : Float32) (task : Task) :
    (resting (queue.push time task)).Perm ((resting? (time, task)).toList ++ resting queue) := by
  have slots : (queue.push time task).slots.Perm ((time, task) :: queue.slots) :=
    (TaskQueue.insert_perm ⟨time, queue.nextSerial, task⟩ queue.entries).map _
  refine (slots.filterMap resting?).trans (.of_eq ?_)
  rw [List.filterMap_cons]
  cases resting? (time, task) <;> rfl

/-- A step adds the branch that it finds full-grown to those at rest, or takes away the one that is done. -/
theorem Move.resting {s s' : Scheduler} {host host' : σ}
    (settle : ∀ branch, task = .branch branch → Nonneg branch.settle)
    (move : Move s time host task s' host') :
    ((ripening? time (s.outcomeOf time task)).toList ++ ((resting? (time, task)).toList ++
      Scheduler.resting s.queue)).Perm
      ((completion? time task (s.outcomeOf time task)).toList ++ Scheduler.resting s'.queue) := by
  cases move with
  | hold busy =>
    rw [outcomeOf_hold busy]
    exact .refl _
  | @start next segment found room =>
    have branch := resting_push s.queue time (.branch (s.newTask segment (s.plant segment host).1 time))
    have later := resting_push (s.queue.push time (.branch (s.newTask segment (s.plant segment host).1 time)))
      (s.nextStart time) (.dispatch (next + 1))
    rw [outcomeOf_start found room]
    exact (later.trans branch).symm
  | leave last idle =>
    rw [outcomeOf_leave last idle]
    exact (resting_push s.queue time (.spawnLeaves 0)).symm
  | grow growing young =>
    rw [outcomeOf_grow growing young]
    simp [ripening?, completion?, resting?, growing]
  | @mature task growing old =>
    have ripe := resting_push s.queue (time + task.settle) (.branch { task with stage := .settling })
    rw [outcomeOf_mature growing old, max_zero_eq (settle task rfl)]
    simpa [ripening?, completion?, resting?, growing] using ripe.symm
  | rest settling =>
    rw [outcomeOf_rest settling]
    simp [ripening?, completion?, resting?, settling]
  | @cluster next anchor found more =>
    rw [outcomeOf_cluster more]
    exact (resting_push s.queue (time + Scalar.max s.timing.leafClusterStagger 0)
      (.spawnLeaves (next + 1))).symm
  | lastCluster found last =>
    rw [outcomeOf_last last]
    exact .refl _
  | finish beyond =>
    rw [outcomeOf_last (Nat.le_succ_of_le beyond)]
    exact .refl _

/-- What waits for the next frame is no branch at rest. -/
theorem resting_beginFrame {s : Scheduler} (unhurried : Unhurried s) (dt : Float32) :
    (resting (s.beginFrame dt).queue).Perm (resting s.queue) := by
  simp only [beginFrame, ← Array.foldl_toList]
  refine ((TaskQueue.push_all_slots s.nextFrame.toList s.queue (s.clock + dt)).filterMap resting?).trans ?_
  have noneResting : (s.nextFrame.toList.map fun task => (s.clock + dt, task)).filterMap resting? = [] := by
    rw [List.filterMap_eq_nil_iff]
    intro slot member
    obtain ⟨task, waits, rfl⟩ := List.mem_map.mp member
    cases task with
    | branch task => simp [resting?, unhurried.growing task waits]
    | _ => rfl
  rw [List.filterMap_append, noneResting, List.append_nil]
  exact .refl _

/-- Every branch that was found full-grown is done at the end of its rest, or rests still. -/
theorem ripened_told (fresh : Scheduler) : Told fun steps s (_ : σ) =>
    Paced fresh s ∧ (ripened steps).Perm (completed steps ++ resting s.queue) := by
  refine (Paced.kept fresh).tell (fun _ _ same => same) ?_ ?_
  · intro steps s host dt paced same
    exact same.trans (.append_left _ (resting_beginFrame paced.unhurried _).symm)
  · intro steps s host entry queue paced same popped
    have settle (branch : BranchTask) (mover : entry.task = .branch branch) : Nonneg branch.settle :=
      paced.unhurried.popped popped branch (mover ▸ List.mem_cons_self)
    have step := (runTask_move { s with queue } entry host).resting settle
    rw [resting_popped popped] at same
    rw [ripened_concat, completed_concat, stepOf_outcome, List.append_assoc]
    refine (same.append_right _).trans ?_
    rw [List.append_assoc]
    exact .append_left _ (List.perm_append_comm.trans step)

/-- A branch turns to its rest only in a step that finds it full-grown. -/
theorem rest_of_ripe {step : Step} (taken : Taken (fun s (_ : σ) => Paced fresh s) step)
    (waits : step.outcome = .wait pause (.branch ripe)) :
    ∃ task, step.entry.task = .branch task ∧ task.stage = .growing ∧
      ripe = { task with stage := .settling } ∧ pause = task.settle ∧
      ¬ (step.time - task.startedAt) / task.duration < 1 := by
  rw [Step.outcome_eq taken] at waits
  cases mover : step.entry.task with
  | dispatch next =>
    rw [mover, outcomeOf] at waits
    split at waits
    · cases waits
    · split at waits <;> cases waits
  | spawnLeaves next =>
    rw [mover, outcomeOf] at waits
    split at waits <;> cases waits
  | branch task =>
    cases stage : task.stage with
    | settling =>
      rw [mover, outcomeOf_rest stage] at waits
      cases waits
    | growing =>
      by_cases young : progress task step.time < 1
      · rw [mover, outcomeOf_grow stage young] at waits
        cases waits
      · rw [mover, outcomeOf_mature stage young] at waits
        cases waits
        refine ⟨task, rfl, stage, rfl, rfl, fun below => young ?_⟩
        rw [progress, Scalar.min_eq_of_lt below]
        exact below

/-! ## Every start, end and cluster has its step -/

/-- Each branch that has started has a step that started it, and so for the clusters and for the end of the
branches. -/
structure Recorded (steps : List Step) (s : Scheduler) : Prop where
  starts : ∀ next < s.stats.branchesStarted, ∃ step ∈ steps, ∃ delay, step.Starts next delay
  leaves : s.phase ≠ .branches → ∃ step ∈ steps, step.Leaves
  spawns : ∀ next < s.stats.clustersSpawned, ∃ step ∈ steps, step.Spawns next

private theorem Move.started_next {s s' : Scheduler} {host host' : σ} (move : Move s time host task s' host') :
    s'.stats.branchesStarted = s.stats.branchesStarted ∨
      s'.stats.branchesStarted = s.stats.branchesStarted + 1 := by
  cases move with
  | start found room => exact .inr rfl
  | _ => exact .inl rfl

private theorem Move.spawned_next {s s' : Scheduler} {host host' : σ} (move : Move s time host task s' host') :
    s'.stats.clustersSpawned = s.stats.clustersSpawned ∨
      s'.stats.clustersSpawned = s.stats.clustersSpawned + 1 := by
  cases move with
  | cluster found more => exact .inr rfl
  | lastCluster found last => exact .inr rfl
  | _ => exact .inl rfl

/-- A counter that goes up by one with a step has a step for each of its values, if it had one before. -/
private theorem counted {P : Nat → Step → Prop} {steps : List Step} {last : Step} {before after : Nat}
    (old : ∀ next < before, ∃ step ∈ steps, P next step)
    (moved : after = before ∨ after = before + 1 ∧ P before last) :
    ∀ next < after, ∃ step ∈ steps ++ [last], P next step := by
  intro next below
  by_cases early : next < before
  · obtain ⟨step, member, holds⟩ := old next early
    exact ⟨step, List.mem_append_left _ member, holds⟩
  · rcases moved with same | ⟨more, holds⟩
    · omega
    · obtain rfl : next = before := by omega
      exact ⟨last, List.mem_append_right _ (List.mem_singleton_self _), holds⟩

private theorem Recorded.told (fresh : Scheduler) : Told fun steps s (_ : σ) =>
    Paced fresh s ∧ Recorded steps s := by
  refine (Paced.kept fresh).tell ?_ ?_ ?_
  · rintro steps s host - - ⟨starts, leaves, spawns⟩
    exact ⟨starts, leaves, spawns⟩
  · rintro steps s host dt - ⟨starts, leaves, spawns⟩
    exact ⟨starts, leaves, spawns⟩
  · rintro steps s host entry queue paced ⟨starts, leaves, spawns⟩ popped
    have accounts := paced.sound.1.popped popped
    have move := runTask_move { s with queue } entry host
    refine ⟨counted starts ?_, fun left => ?_, counted spawns ?_⟩
    · refine move.started_next.imp_right fun more => ⟨more, ?_⟩
      obtain ⟨-, delay, waits⟩ := move.start_shape accounts more
      exact ⟨delay, rfl, more, _, (stepOf_outcome _ _ host).trans waits⟩
    · by_cases before : s.phase = .branches
      · exact ⟨_, List.mem_append_right _ (List.mem_singleton_self _), before, left⟩
      · obtain ⟨step, member, leaves⟩ := leaves before
        exact ⟨step, List.mem_append_left _ member, leaves⟩
    · exact move.spawned_next.imp_right fun more => ⟨more, rfl, more⟩

/-! ## Runs -/

section
variable {fresh : Scheduler} {steps : List Step} {first second : Step} {i j : Nat}

private theorem start_after_start (between : Between (fun s (_ : σ) => Paced fresh s) Leads steps)
    (taken : ∀ step ∈ steps, Taken (fun s (_ : σ) => Paced fresh s) step)
    (one : steps[i]? = some first) (two : steps[j]? = some second) (starts : first.Starts next delay)
    (again : second.Starts (next + 1) later) :
    i < j ∧ first.time + delay ≤ second.time ∧
      ((∀ (m : Nat) (step : Step), i < m → m < j → steps[m]? = some step → ¬ step.Holds) →
        second.time = first.time + delay) := by
  have lead := (starts.shape (taken first (List.mem_of_getElem? one))).2
  have task := (again.shape (taken second (List.mem_of_getElem? two))).1
  rw [← task] at lead
  obtain ⟨ordered, early, exactly⟩ := lead_order between taken one two lead
  refine ⟨ordered, early, fun free => exactly fun m step above below found same put held => ?_⟩
  exact free m step above below found ⟨⟨_, same.trans task⟩, put, held⟩

/-- A leaf cluster is never put off. -/
theorem cluster_after_call (between : Between (fun s (_ : σ) => Paced fresh s) Leads steps)
    (taken : ∀ step ∈ steps, Taken (fun s (_ : σ) => Paced fresh s) step)
    (one : steps[i]? = some first) (two : steps[j]? = some second)
    (lead : first.lead? = some (due, .spawnLeaves next)) (spawns : second.Spawns next) :
    i < j ∧ second.time = due := by
  have task := (spawns.shape (taken second (List.mem_of_getElem? two))).1
  rw [← task] at lead
  obtain ⟨ordered, -, exactly⟩ := lead_order between taken one two lead
  refine ⟨ordered, exactly fun m step above below found same later put => ?_⟩
  rw [Step.outcome_eq (taken step (List.mem_of_getElem? found)), same, task, outcomeOf] at put
  split at put <;> cases put

end

/-- In every run of an accepted scheduler the pace is set by the times of the steps, whatever the lengths of
the frames. A branch starts no earlier than the time of the start before it and the delay of that step, and
exactly then if no start was put off in between. A branch turns to its rest only when its time to grow is
over, and it is done exactly at the end of its rest. The first leaf cluster comes at the time at which the
branches ended, and each later one after exactly the stagger of clusters. -/
theorem pace_follows_time {tree : Interpretation} {settings : TreeSettings} {source : Generator}
    (accepted : checked tree settings source = .ok fresh) (lengths : List Float32) (host : σ) :
    let s := (fresh.run lengths host).1
    let steps := fresh.runSteps lengths host
    (∀ (i j : Nat) (first second : Step) next delay later, steps[i]? = some first → steps[j]? = some second →
      first.Starts next delay → second.Starts (next + 1) later →
        i < j ∧ first.time + delay ≤ second.time ∧
        ((∀ (m : Nat) (step : Step), i < m → m < j → steps[m]? = some step → ¬ step.Holds) →
          second.time = first.time + delay)) ∧
    (∀ step ∈ steps, ∀ pause ripe, step.outcome = .wait pause (.branch ripe) →
      ∃ task, step.entry.task = .branch task ∧ task.stage = .growing ∧
        ripe = { task with stage := .settling } ∧ pause = task.settle ∧
        ¬ (step.time - task.startedAt) / task.duration < 1) ∧
    (ripened steps).Perm (completed steps ++ resting s.queue) ∧
    (∀ (i j : Nat) (first second : Step), steps[i]? = some first → steps[j]? = some second →
      first.Leaves → second.Spawns 0 → i < j ∧ second.time = first.time) ∧
    (∀ (i j : Nat) (first second : Step) next, steps[i]? = some first → steps[j]? = some second →
      first.Spawns next → second.Spawns (next + 1) →
        i < j ∧ second.time = first.time + settings.timing.leafClusterStagger) ∧
    Recorded steps s := by
  intro s steps
  have paced := Paced.fresh accepted
  have called : Paced fresh fresh ∧ Since Leads [] fresh ∧
      Between (fun s (_ : σ) => Paced fresh s) Leads [] := ⟨paced, .nil _ _, .nil _ _⟩
  have noStep : Paced fresh fresh ∧ ∀ step ∈ [], Taken (fun s (_ : σ) => Paced fresh s) step :=
    ⟨paced, List.forall_mem_nil _⟩
  have bare : Paced fresh fresh ∧ (ripened []).Perm (completed [] ++ resting fresh.queue) := by
    obtain ⟨-, rfl⟩ := checked_ok accepted
    exact ⟨paced, .refl _⟩
  have early : Paced fresh fresh ∧ Recorded [] fresh := by
    obtain ⟨-, rfl⟩ := checked_ok accepted
    exact ⟨paced, nofun, fun left => absurd rfl left, nofun⟩
  obtain ⟨-, -, between⟩ : Paced fresh s ∧ Since Leads steps s ∧
      Between (fun s (_ : σ) => Paced fresh s) Leads steps := (Leads.told fresh).run lengths called
  obtain ⟨-, taken⟩ : Paced fresh s ∧ ∀ step ∈ steps, Taken (fun s (_ : σ) => Paced fresh s) step :=
    (Paced.kept fresh).taken.run lengths noStep
  obtain ⟨-, ripened⟩ : Paced fresh s ∧ (ripened steps).Perm (completed steps ++ resting s.queue) :=
    (ripened_told fresh).run lengths bare
  obtain ⟨-, recorded⟩ : Paced fresh s ∧ Recorded steps s := (Recorded.told fresh).run lengths early
  have stagger : fresh.timing = settings.timing := by
    obtain ⟨-, rfl⟩ := checked_ok accepted
    rfl
  refine ⟨fun i j first second next delay later one two => start_after_start between taken one two,
    fun step member pause ripe => rest_of_ripe (taken step member), ripened, ?_, ?_, recorded⟩
  · intro i j first second one two leaves spawns
    have lead := leaves.shape (taken first (List.mem_of_getElem? one))
    exact cluster_after_call between taken one two lead spawns
  · intro i j first second next one two spawns again
    have inside := (again.shape (taken second (List.mem_of_getElem? two))).2
    have lead := spawns.lead (taken first (List.mem_of_getElem? one)) inside
    rw [← stagger]
    exact cluster_after_call between taken one two lead again

/-- Four frames complete a sprout: its second branch starts after the delay of the first,
and its second leaf cluster follows the first after the stagger. -/
theorem pace_of_sprout_follows_time :
    checked sprout {} (.ofSeed 7) = .ok (atStart sprout {} (.ofSeed 7)) ∧
    let steps := (atStart sprout {} (.ofSeed 7)).runSteps [9, 9, 9, 1] Recording.empty
    (∃ first ∈ steps, ∃ second ∈ steps, ∃ delay later, first.Starts 0 delay ∧ second.Starts 1 later ∧
      first.time + delay ≤ second.time) ∧
    ∃ first ∈ steps, ∃ second ∈ steps, first.Spawns 0 ∧ second.Spawns 1 ∧
      second.time = first.time + 0.02 := by
  have accepted : checked sprout {} (.ofSeed 7) = .ok (atStart sprout {} (.ofSeed 7)) := rfl
  have started : ((atStart sprout {} (.ofSeed 7)).run [9, 9, 9, 1] Recording.empty).1.stats.branchesStarted =
      2 := by decide +kernel
  have spawned : ((atStart sprout {} (.ofSeed 7)).run [9, 9, 9, 1] Recording.empty).1.stats.clustersSpawned =
      2 := by decide +kernel
  obtain ⟨starts, -, -, -, clusters, recorded⟩ := pace_follows_time accepted [9, 9, 9, 1] Recording.empty
  refine ⟨accepted, ?_, ?_⟩
  · obtain ⟨first, one, delay, starts₀⟩ := recorded.starts 0 (by rw [started]; decide)
    obtain ⟨second, two, later, starts₁⟩ := recorded.starts 1 (by rw [started]; decide)
    obtain ⟨i, at₁⟩ := List.getElem?_of_mem one
    obtain ⟨j, at₂⟩ := List.getElem?_of_mem two
    exact ⟨first, one, second, two, delay, later, starts₀, starts₁,
      (starts i j first second 0 delay later at₁ at₂ starts₀ starts₁).2.1⟩
  · obtain ⟨first, one, spawns₀⟩ := recorded.spawns 0 (by rw [spawned]; decide)
    obtain ⟨second, two, spawns₁⟩ := recorded.spawns 1 (by rw [spawned]; decide)
    obtain ⟨i, at₁⟩ := List.getElem?_of_mem one
    obtain ⟨j, at₂⟩ := List.getElem?_of_mem two
    exact ⟨first, one, second, two, spawns₀, spawns₁,
      (clusters i j first second 0 at₁ at₂ spawns₀ spawns₁).2⟩

end Sapling.Scheduler
