import Sapling.Proofs.Growth.Chronology
import Sapling.Proofs.Growth.Phases
import Sapling.Proofs.Growth.Steps

/-! Leaders: the tasks that start the branches one after the other, end them, and add the leaf clusters. Each
step of a leader calls for the next one at a time of its own, and the next one makes its step at that time
and not before, whatever the frames do. -/
namespace Sapling.Scheduler

open Sapling.Random
open Scalar (Forward)

variable {σ : Type} [SceneHost σ]

/-- The leader that a step calls for, and its time: the next start, or the next cluster. -/
def lead? (time : Float32) (task : Task) : Outcome → Option (Float32 × Task)
  | .wait pause later => if later.isBranch then none else some (time + pause, later)
  | .nextFrame _ => none
  | .done =>
    match task with
    | .dispatch _ => some (time, .spawnLeaves 0)
    | _ => none

/-- The growth has come so far that the leader was called for. -/
def Called (s : Scheduler) : Task → Prop
  | .dispatch next => next ≤ s.stats.branchesStarted
  | .branch _ => False
  | .spawnLeaves next => 0 < s.phase.rank ∧ next ≤ s.stats.clustersSpawned

private theorem Called.isBranch (called : Called s task) : task.isBranch = false := by
  cases task with
  | branch task => exact called.elim
  | _ => rfl

/-- The growth has come so far that the leader is done. -/
def Passed (s : Scheduler) : Task → Prop
  | .dispatch next => next < s.stats.branchesStarted ∨ 0 < s.phase.rank
  | .branch _ => False
  | .spawnLeaves next => next < s.stats.clustersSpawned ∨ 2 ≤ s.phase.rank

/-- Counters and phases only go up. -/
structure Onward (s t : Scheduler) : Prop where
  started : s.stats.branchesStarted ≤ t.stats.branchesStarted
  spawned : s.stats.clustersSpawned ≤ t.stats.clustersSpawned
  phase : s.phase.rank ≤ t.phase.rank

private theorem Move.onward {s s' : Scheduler} {host host' : σ} (accounts : Accounts s (task :: s.tasks))
    (move : Move s time host task s' host') : Onward s s' := by
  have phase := (move.phase_next accounts).rank_le
  cases move with
  | start found room => exact ⟨Nat.le_succ _, Nat.le_refl _, phase⟩
  | cluster found more => exact ⟨Nat.le_refl _, Nat.le_succ _, phase⟩
  | lastCluster found last => exact ⟨Nat.le_refl _, Nat.le_succ _, phase⟩
  | _ => exact ⟨Nat.le_refl _, Nat.le_refl _, phase⟩

private theorem Onward.called (onward : Onward s t) (called : Called s task) : Called t task := by
  obtain ⟨started, spawned, phase⟩ := onward
  cases task with
  | dispatch next => exact Nat.le_trans called started
  | branch task => exact called
  | spawnLeaves next => exact ⟨Nat.lt_of_lt_of_le called.1 phase, Nat.le_trans called.2 spawned⟩

private theorem Onward.passed (onward : Onward s t) (passed : Passed s task) : Passed t task := by
  obtain ⟨started, spawned, phase⟩ := onward
  cases task with
  | dispatch next =>
    exact passed.imp (Nat.lt_of_lt_of_le · started) (Nat.lt_of_lt_of_le · phase)
  | branch task => exact passed
  | spawnLeaves next =>
    exact passed.imp (Nat.lt_of_lt_of_le · spawned) (Nat.le_trans · phase)

/-- A leader that is there was called for and is not done. -/
theorem Accounts.leader {s : Scheduler} (accounts : Accounts s pending) (member : task ∈ pending)
    (leads : task.isBranch = false) : Called s task ∧ ¬ Passed s task := by
  have controls : task ∈ s.controllers := by
    rw [← accounts.held.1]
    exact List.mem_filter.mpr ⟨member, by rw [leads]; rfl⟩
  unfold controllers at controls
  cases phase : s.phase with
  | branches =>
    rw [phase, List.mem_singleton] at controls
    subst controls
    exact ⟨Nat.le_refl _, by simp [Passed, phase, Phase.rank]⟩
  | leaves =>
    rw [phase, List.mem_singleton] at controls
    subst controls
    exact ⟨⟨by simp [phase, Phase.rank], Nat.le_refl _⟩, by simp [Passed, phase, Phase.rank]⟩
  | complete => simp [phase] at controls

section
variable {s s' : Scheduler} {host host' : σ}

/-- What a step calls for was not called for before. -/
theorem Move.lead_called (accounts : Accounts s (task :: s.tasks))
    (move : Move s time host task s' host')
    (leads : lead? time task (s.outcomeOf time task) = some (due, leader)) :
    leader.isBranch = false ∧ ¬ Called s leader ∧ Called s' leader := by
  have held := accounts.held
  cases move with
  | hold busy => simp [outcomeOf_hold busy, lead?] at leads
  | start found room =>
    rw [outcomeOf_start found room] at leads
    obtain ⟨-, rfl⟩ := Prod.mk.inj (Option.some.inj leads)
    obtain ⟨-, rfl, -⟩ := held_dispatch held
    exact ⟨rfl, Nat.not_succ_le_self _, Nat.le_refl _⟩
  | leave last idle =>
    rw [outcomeOf_leave last idle] at leads
    obtain ⟨-, rfl⟩ := Prod.mk.inj (Option.some.inj leads)
    obtain ⟨phase, -⟩ := held_dispatch held
    exact ⟨rfl, by simp [Called, phase, Phase.rank], Nat.succ_pos _, Nat.zero_le _⟩
  | grow growing young => simp [outcomeOf_grow growing young, lead?] at leads
  | mature growing old => simp [outcomeOf_mature growing old, lead?] at leads
  | rest settling => simp [outcomeOf_rest settling, lead?] at leads
  | cluster found more =>
    rw [outcomeOf_cluster more] at leads
    obtain ⟨-, rfl⟩ := Prod.mk.inj (Option.some.inj leads)
    obtain ⟨phase, rfl, -⟩ := held_spawnLeaves held
    refine ⟨rfl, fun called => Nat.not_succ_le_self _ called.2, ?_, Nat.le_refl _⟩
    change 0 < s.phase.rank
    rw [phase]
    exact Nat.succ_pos _
  | lastCluster found last => simp [outcomeOf_last last, lead?] at leads
  | finish beyond => simp [outcomeOf_last (Nat.le_succ_of_le beyond), lead?] at leads

/-- A leader that waits for a time after the step has waited for it before, or the step calls for it. -/
theorem Move.leader_slot (timing : s.timing.Unhurried) (move : Move s time host task s' host')
    (leads : leader.isBranch = false) (waits : (due, leader) ∈ s'.queue.slots) :
    (due, leader) ∈ s.queue.slots ∨
      lead? time task (s.outcomeOf time task) = some (due, leader) := by
  cases move with
  | start found room =>
    rw [outcomeOf_start found room]
    rcases TaskQueue.mem_slots_push.mp waits with new | waits
    · obtain ⟨rfl, rfl⟩ := Prod.mk.inj new
      rw [nextStart, max_zero_eq (nextDraws_nonneg timing).2]
      exact .inr rfl
    · rcases TaskQueue.mem_slots_push.mp waits with branch | old
      · rw [(Prod.mk.inj branch).2] at leads
        cases leads
      · exact .inl old
  | leave last idle =>
    rw [outcomeOf_leave last idle]
    rcases TaskQueue.mem_slots_push.mp waits with new | old
    · obtain ⟨rfl, rfl⟩ := Prod.mk.inj new
      exact .inr rfl
    · exact .inl old
  | mature growing ripe =>
    rcases TaskQueue.mem_slots_push.mp waits with branch | old
    · rw [(Prod.mk.inj branch).2] at leads
      cases leads
    · exact .inl old
  | cluster found more =>
    rw [outcomeOf_cluster more]
    rcases TaskQueue.mem_slots_push.mp waits with new | old
    · obtain ⟨rfl, rfl⟩ := Prod.mk.inj new
      rw [max_zero_eq timing.stagger]
      exact .inr rfl
    · exact .inl old
  | _ => exact .inl waits

/-- A leader that waits for the next frame after the step has waited for it before, or made the step. -/
theorem Move.leader_deferred (move : Move s time host task s' host')
    (waits : leader ∈ s'.nextFrame.toList) : leader ∈ s.nextFrame.toList ∨ leader = task := by
  cases move with
  | hold busy => simpa using waits
  | grow growing young =>
    rcases List.mem_append.mp (Array.toList_push ▸ waits) with old | new
    · exact .inl old
    · exact .inr (List.mem_singleton.mp new)
  | _ => exact .inl waits

/-- A leader that does not wait for the next frame is done with its step. -/
theorem Move.passed (accounts : Accounts s (task :: s.tasks)) (move : Move s time host task s' host')
    (leads : task.isBranch = false) (acts : ∀ later, s.outcomeOf time task ≠ .nextFrame later) :
    Passed s' task := by
  have held := accounts.held
  cases move with
  | hold busy => exact absurd (outcomeOf_hold busy) (acts _)
  | start found room =>
    obtain ⟨-, rfl, -⟩ := held_dispatch held
    exact .inl (Nat.lt_succ_self _)
  | leave last idle => exact .inr (Nat.succ_pos _)
  | cluster found more =>
    obtain ⟨-, rfl, -⟩ := held_spawnLeaves held
    exact .inl (Nat.lt_succ_self _)
  | lastCluster found last => exact .inr (Nat.le_refl _)
  | finish beyond => exact .inr (Nat.le_refl _)
  | _ => cases leads

end

/-! ## From the call for a leader to its step -/

/-- The step that called for a leader, and the steps since. As long as the leader has made no step, it waits
for the time that it was called for. It never goes back to an earlier time. -/
structure Leads (first : Step) (after : List Step) (s : Scheduler) : Prop where
  called : ∀ due task, lead? first.time first.entry.task first.outcome = some (due, task) →
    Called s task ∧
    (∀ time, (time, task) ∈ s.queue.slots → due.toBits.toNat ≤ time.toBits.toNat ∧
      ((∀ step ∈ after, step.entry.task ≠ task) → time = due)) ∧
    (task ∈ s.nextFrame.toList → due.toBits.toNat ≤ s.clock.toBits.toNat ∧
      ∃ step ∈ after, step.entry.task = task)
  reached : first.entry.task.isBranch = false → Called s first.entry.task
  passed : first.entry.task.isBranch = false → (∀ later, first.outcome ≠ .nextFrame later) →
    Passed s first.entry.task

private theorem mem_tasks_of_slot {s : Scheduler} (waits : (time, task) ∈ s.queue.slots) : task ∈ s.tasks := by
  obtain ⟨entry, listed, same⟩ := List.mem_map.mp waits
  rw [← (Prod.mk.inj same).2]
  exact List.mem_append_left _ (List.mem_map_of_mem listed)

private theorem Leads.frame {s : Scheduler} (leads : Leads first after s) (paced : Paced fresh s) (dt : Float32) :
    Leads first after (s.beginFrame (frameLength dt)) := by
  have later := (clock_beginFrame paced.sound.2.clock dt).2
  refine ⟨fun due task lead => ?_, leads.reached, leads.passed⟩
  obtain ⟨called, queued, deferred⟩ := leads.called due task lead
  refine ⟨called, fun time waits => ?_, nofun⟩
  simp only [beginFrame, ← Array.foldl_toList] at waits
  rw [(TaskQueue.push_all_slots ..).mem_iff, List.mem_append] at waits
  rcases waits with old | new
  · exact queued time old
  · obtain ⟨_, waits, same⟩ := List.mem_map.mp new
    obtain ⟨rfl, rfl⟩ := Prod.mk.inj same
    obtain ⟨early, step, member, mover⟩ := deferred waits
    exact ⟨Nat.le_trans early later, fun noCall => absurd mover (noCall step member)⟩

private theorem Leads.new {s : Scheduler} {host : σ} {queue : TaskQueue Task} (paced : Paced fresh s)
    (popped : s.queue.popDue? s.clock = some (entry, queue)) :
    Leads (stepOf { s with queue } entry host) [] ({ s with queue }.runTask entry host).1 := by
  have accounts := paced.sound.1.popped popped
  have timing : ({ s with queue } : Scheduler).timing.Unhurried := paced.unhurried.timing
  have move := runTask_move { s with queue } entry host
  have outcome := stepOf_outcome { s with queue } entry host
  have reached (leads : entry.task.isBranch = false) :=
    (move.onward accounts).called (accounts.leader List.mem_cons_self leads).1
  refine ⟨fun due task lead => ?_, reached, fun leads acts => ?_⟩
  · rw [outcome] at lead
    obtain ⟨leads, uncalled, called⟩ := move.lead_called accounts lead
    have absent : task ∉ entry.task :: { s with queue }.tasks := fun member =>
      uncalled (accounts.leader member leads).1
    refine ⟨called, fun time waits => ?_, fun waits => absurd ?_ absent⟩
    · rcases move.leader_slot timing leads waits with old | new
      · exact absurd (List.mem_cons_of_mem _ (mem_tasks_of_slot old)) absent
      · obtain ⟨rfl, -⟩ := Prod.mk.inj (Option.some.inj (lead.symm.trans new))
        exact ⟨Nat.le_refl _, fun _ => rfl⟩
    · rcases move.leader_deferred waits with old | rfl
      · exact List.mem_cons_of_mem _ (List.mem_append_right _ old)
      · exact List.mem_cons_self
  · rw [outcome] at acts
    exact move.passed accounts leads acts

private theorem Leads.step {s : Scheduler} {host : σ} {queue : TaskQueue Task} (leads : Leads first after s)
    (paced : Paced fresh s) (popped : s.queue.popDue? s.clock = some (entry, queue)) :
    Leads first (after ++ [stepOf { s with queue } entry host])
      ({ s with queue }.runTask entry host).1 := by
  have accounts := paced.sound.1.popped popped
  have timing : ({ s with queue } : Scheduler).timing.Unhurried := paced.unhurried.timing
  have move := runTask_move { s with queue } entry host
  have onward := move.onward accounts
  have slots := TaskQueue.popDue_slots popped
  refine ⟨fun due task lead => ?_, fun leader => onward.called (leads.reached leader),
    fun leader acts => onward.passed (leads.passed leader acts)⟩
  obtain ⟨called, queued, deferred⟩ := leads.called due task lead
  refine ⟨onward.called called, fun time waits => ?_, fun waits => ?_⟩
  · rcases move.leader_slot timing called.isBranch waits with old | new
    · obtain ⟨early, same⟩ := queued time (by rw [slots]; exact List.mem_cons_of_mem _ old)
      exact ⟨early, fun noCall => same fun step member => noCall step (List.mem_append_left _ member)⟩
    · exact absurd called (move.lead_called accounts new).2.1
  · rw [move.unchanged.2.2]
    rcases move.leader_deferred waits with old | rfl
    · obtain ⟨early, step, member, mover⟩ := deferred old
      exact ⟨early, step, List.mem_append_left _ member, mover⟩
    · obtain ⟨early, -⟩ := queued entry.time (by rw [slots]; exact List.mem_cons_self)
      have due := (TaskQueue.popDue_some popped).2
      rw [(paced.sound.2.queue.popped popped).1.le_iff paced.sound.2.clock] at due
      exact ⟨Nat.le_trans early due, _, List.mem_append_right _ (List.mem_singleton_self _), rfl⟩

/-- The steps of a run, each with what it called for up to every later one. -/
theorem Leads.told (fresh : Scheduler) : Told fun steps s (_ : σ) =>
    Paced fresh s ∧ Since Leads steps s ∧ Between (fun s (_ : σ) => Paced fresh s) Leads steps :=
  (Paced.kept fresh).between
    (fun leads => ⟨leads.called, leads.reached, leads.passed⟩)
    (fun dt paced leads => leads.frame paced dt)
    (fun paced popped => .new paced popped)
    (fun paced leads popped => leads.step paced popped)

/-! ## Steps of each kind -/

section
variable {s s' : Scheduler} {host host' : σ}

/-- Only the task that starts branches starts one, and a later such task is queued with it. -/
theorem Move.start_shape (accounts : Accounts s (task :: s.tasks)) (move : Move s time host task s' host')
    (more : s'.stats.branchesStarted = s.stats.branchesStarted + 1) :
    task = .dispatch s.stats.branchesStarted ∧
      ∃ delay, s.outcomeOf time task = .wait delay (.dispatch (s.stats.branchesStarted + 1)) := by
  have held := accounts.held
  cases move with
  | start found room =>
    obtain ⟨-, rfl, -⟩ := held_dispatch held
    exact ⟨rfl, _, outcomeOf_start found room⟩
  | _ => exact absurd more (Nat.ne_of_lt (Nat.lt_succ_self _))

private theorem Move.leave_shape (accounts : Accounts s (task :: s.tasks)) (move : Move s time host task s' host')
    (before : s.phase = .branches) (left : s'.phase ≠ .branches) :
    (∃ next, task = .dispatch next) ∧ s.outcomeOf time task = .done := by
  have held := accounts.held
  cases move with
  | leave last idle => exact ⟨⟨_, rfl⟩, outcomeOf_leave last idle⟩
  | lastCluster found last =>
    obtain ⟨phase, -⟩ := held_spawnLeaves held
    simp [phase] at before
  | finish beyond =>
    obtain ⟨phase, -⟩ := held_spawnLeaves held
    simp [phase] at before
  | _ => exact absurd before left

private theorem Move.spawn_shape (accounts : Accounts s (task :: s.tasks)) (move : Move s time host task s' host')
    (more : s'.stats.clustersSpawned = s.stats.clustersSpawned + 1) :
    task = .spawnLeaves s.stats.clustersSpawned ∧
      s.stats.clustersSpawned < s.interpretation.anchors.size := by
  have held := accounts.held
  cases move with
  | cluster found _ =>
    obtain ⟨-, rfl, -⟩ := held_spawnLeaves held
    exact ⟨rfl, (Array.getElem?_eq_some_iff.mp found).1⟩
  | lastCluster found _ =>
    obtain ⟨-, rfl, -⟩ := held_spawnLeaves held
    exact ⟨rfl, (Array.getElem?_eq_some_iff.mp found).1⟩
  | _ => exact absurd more (Nat.ne_of_lt (Nat.lt_succ_self _))

end

namespace Step

/-- The step starts branch `next`, and its task is to wait for the delay. -/
def Starts (step : Step) (next : Nat) (delay : Float32) : Prop :=
  step.before.stats.branchesStarted = next ∧ step.after.stats.branchesStarted = next + 1 ∧
    ∃ task, step.outcome = .wait delay task

/-- The start of a branch, or the end of all, is put off until the next frame. -/
def Holds (step : Step) : Prop :=
  (∃ next, step.entry.task = .dispatch next) ∧ ∃ task, step.outcome = .nextFrame task

/-- The step ends the growth of branches. -/
def Leaves (step : Step) : Prop :=
  step.before.phase = .branches ∧ step.after.phase ≠ .branches

/-- The step adds the leaf cluster of anchor `next`. -/
def Spawns (step : Step) (next : Nat) : Prop :=
  step.before.stats.clustersSpawned = next ∧ step.after.stats.clustersSpawned = next + 1

/-- The leader that the step calls for, and its time. -/
def lead? (step : Step) : Option (Float32 × Task) :=
  Scheduler.lead? step.time step.entry.task step.outcome

variable {step : Step} {fresh : Scheduler}

section
variable (taken : Taken (fun s (_ : σ) => Paced fresh s) step)
include taken

/-- The outcome of a told step is that of its task in the state before. -/
theorem outcome_eq : step.outcome = step.before.outcomeOf step.time step.entry.task := by
  obtain ⟨s, host, queue, entry, -, -, rfl⟩ := taken
  exact stepOf_outcome _ _ host

private theorem same_tree : SameTree fresh step.before := by
  obtain ⟨s, host, queue, entry, paced, -, rfl⟩ := taken
  obtain ⟨tree, timing, mesh, bark, total⟩ := paced.same
  exact ⟨tree, timing, mesh, bark, total⟩

/-- A start calls for the next start after its delay. -/
theorem Starts.shape (starts : step.Starts next delay) :
    step.entry.task = .dispatch next ∧ step.lead? = some (step.time + delay, .dispatch (next + 1)) := by
  have outcome := outcome_eq taken
  obtain ⟨s, host, queue, entry, paced, popped, rfl⟩ := taken
  obtain ⟨rfl, more, later, waits⟩ := starts
  obtain ⟨task, pause, ends⟩ :=
    (runTask_move { s with queue } entry host).start_shape (paced.sound.1.popped popped) more
  obtain ⟨rfl, rfl⟩ := Outcome.wait.inj (waits.symm.trans (outcome.trans ends))
  refine ⟨task, ?_⟩
  rw [lead?, waits]
  rfl

/-- Leaving the branches calls for the first cluster at once. -/
theorem Leaves.shape (leaves : step.Leaves) : step.lead? = some (step.time, .spawnLeaves 0) := by
  have outcome := outcome_eq taken
  obtain ⟨s, host, queue, entry, paced, popped, rfl⟩ := taken
  obtain ⟨⟨next, task⟩, ends⟩ := (runTask_move { s with queue } entry host).leave_shape
    (paced.sound.1.popped popped) leaves.1 leaves.2
  rw [lead?, outcome.trans ends]
  change Scheduler.lead? _ entry.task .done = _
  rw [task]
  rfl

/-- A cluster is spawned by the leaf task of its anchor. -/
theorem Spawns.shape (spawns : step.Spawns next) :
    step.entry.task = .spawnLeaves next ∧ next < fresh.interpretation.anchors.size := by
  have tree := (same_tree taken).tree
  obtain ⟨s, host, queue, entry, paced, popped, rfl⟩ := taken
  obtain ⟨rfl, more⟩ := spawns
  obtain ⟨task, inside⟩ := (runTask_move { s with queue } entry host).spawn_shape
    (paced.sound.1.popped popped) more
  exact ⟨task, tree ▸ inside⟩

/-- A cluster that is not the last calls for the next. -/
theorem Spawns.lead (spawns : step.Spawns next) (more : next + 1 < fresh.interpretation.anchors.size) :
    step.lead? =
      some (step.time + fresh.timing.leafClusterStagger, .spawnLeaves (next + 1)) := by
  have same := same_tree taken
  rw [lead?, outcome_eq taken, (Spawns.shape taken spawns).1,
    outcomeOf_cluster (same.tree ▸ more), same.timing]
  rfl

end


end Step

section
variable {steps before after mid : List Step} {first second : Step}

/-- A leader that was not put off makes no further step. -/
theorem leader_once (between : Between (fun s (_ : σ) => Paced fresh s) Leads steps)
    (split : steps = before ++ first :: (mid ++ second :: after))
    (leads : first.entry.task.isBranch = false) (acts : ∀ later, first.outcome ≠ .nextFrame later) :
    second.entry.task ≠ first.entry.task := by
  obtain ⟨s, host, queue, entry, paced, kept, popped, rfl⟩ := between before first mid second after split
  intro same
  have member : entry.task ∈ s.tasks := by
    rw [tasks_popped popped]
    exact List.mem_cons_self
  have passed := kept.passed leads acts
  rw [← same] at passed leads
  exact (paced.sound.1.leader member leads).2 passed

/-- A leader makes its step at the time for which it was called, unless it was put off to a later frame. -/
theorem lead_time (between : Between (fun s (_ : σ) => Paced fresh s) Leads steps)
    (split : steps = before ++ first :: (mid ++ second :: after))
    (leads : first.lead? = some (due, second.entry.task)) :
    due ≤ second.time ∧
      ((∀ step ∈ mid, step.entry.task = second.entry.task →
        ∀ later, step.outcome ≠ .nextFrame later) → second.time = due) := by
  have once (front back : List Step) (step : Step)
      (cut : steps = before ++ first :: front ++ step :: (back ++ second :: after)) :=
    leader_once between cut
  obtain ⟨s, host, queue, entry, paced, kept, popped, rfl⟩ := between before first mid second after split
  obtain ⟨called, queued, -⟩ := kept.called due _ leads
  obtain ⟨early, exactly⟩ := queued entry.time (TaskQueue.popDue_slots popped ▸ List.mem_cons_self)
  have forward := (paced.sound.2.queue.popped popped).1
  have dueForward : Forward due := Nat.le_trans early forward
  refine ⟨(dueForward.le_iff forward).mpr early, fun acts => exactly fun step member same => ?_⟩
  obtain ⟨front, back, rfl⟩ := List.append_of_mem member
  refine once front back step (by simp [split]) ?_ (acts step member same) same.symm
  rw [same]
  exact called.isBranch

/-- No leader makes a step before it is called for. -/
theorem not_called_later (between : Between (fun s (_ : σ) => Paced fresh s) Leads steps)
    (split : steps = before ++ first :: (mid ++ second :: after)) :
    second.lead? ≠ some (due, first.entry.task) := by
  obtain ⟨s, host, queue, entry, paced, kept, popped, rfl⟩ := between before first mid second after split
  intro leads
  rw [Step.lead?, stepOf_outcome] at leads
  obtain ⟨leader, uncalled, -⟩ := (runTask_move { s with queue } entry host).lead_called
    (paced.sound.1.popped popped) leads
  exact uncalled (kept.reached leader)

private theorem Taken.not_own_lead (taken : Taken (fun s (_ : σ) => Paced fresh s) first) :
    first.lead? ≠ some (due, first.entry.task) := by
  obtain ⟨s, host, queue, entry, paced, popped, rfl⟩ := taken
  intro leads
  rw [Step.lead?, stepOf_outcome] at leads
  have accounts := paced.sound.1.popped popped
  obtain ⟨leader, uncalled, -⟩ :=
    (runTask_move { s with queue } entry host).lead_called accounts leads
  exact uncalled (accounts.leader List.mem_cons_self leader).1

/-- A leader makes its step after it was called for, and not before its time. It makes the step at that
time if it was not put off. -/
theorem lead_order (between : Between (fun s (_ : σ) => Paced fresh s) Leads steps)
    (taken : ∀ step ∈ steps, Taken (fun s (_ : σ) => Paced fresh s) step)
    {i j : Nat} (one : steps[i]? = some first) (two : steps[j]? = some second)
    (leads : first.lead? = some (due, second.entry.task)) :
    i < j ∧ due ≤ second.time ∧
      ((∀ m step, i < m → m < j → steps[m]? = some step → step.entry.task = second.entry.task →
        ∀ later, step.outcome ≠ .nextFrame later) → second.time = due) := by
  rcases Nat.lt_trichotomy i j with ordered | rfl | reversed
  · obtain ⟨before, mid, after, split, within⟩ := split_at one two ordered
    obtain ⟨early, exactly⟩ := lead_time between split leads
    refine ⟨ordered, early, fun acts => exactly fun step member => ?_⟩
    obtain ⟨m, above, below, found⟩ := within step member
    exact acts m step above below found
  · obtain rfl : first = second := Option.some.inj (one.symm.trans two)
    exact absurd leads (taken first (List.mem_of_getElem? one)).not_own_lead
  · obtain ⟨before, mid, after, split, -⟩ := split_at two one reversed
    exact absurd leads (not_called_later between split)

end

end Sapling.Scheduler
