import Sapling.Proofs.Growth.Load
import Sapling.Proofs.Growth.Runs

/-! The steps of a run, one after the other: which task made each, at which time, and what became of it.
What the root's creation, the beginning of a frame and every step keep of the steps so far, a whole run
keeps of all its steps. -/
namespace Sapling

namespace Scheduler

open Sapling.Random

variable {σ : Type} [SceneHost σ]

/-- One step of a run, from the scheduler whose queue has just given the entry. -/
structure Step where
  before : Scheduler
  entry : Timed Task
  outcome : Outcome
  after : Scheduler

/-- The time at which the task was to make its step, whatever the clock of the frame. -/
def Step.time (step : Step) : Float32 := step.entry.time

/-- The step of an entry that has left the queue. -/
def stepOf (s : Scheduler) (entry : Timed Task) (host : σ) : Step :=
  ⟨s, entry, (s.step entry.task entry.time host).1, (s.runTask entry host).1⟩

/-- The steps that are made until no task is due. -/
def dueSteps : (steps : Nat) → Scheduler → σ → List Step
  | 0, _, _ => []
  | steps + 1, s, host =>
    match s.queue.popDue? s.clock with
    | none => []
    | some (entry, queue) =>
      let next := { s with queue }.runTask entry host
      stepOf { s with queue } entry host :: dueSteps steps next.1 next.2

/-- The steps of one frame. -/
def frameSteps (s : Scheduler) (dt : Float32) (host : σ) : List Step :=
  dueSteps (s.begun dt host).1.stepBound (s.begun dt host).1 (s.begun dt host).2

/-- The steps of frames of the given lengths. -/
def runSteps : Scheduler → (lengths : List Float32) → σ → List Step
  | _, [], _ => []
  | s, dt :: lengths, host =>
    s.frameSteps dt host ++ (s.advance dt host).1.runSteps lengths (s.advance dt host).2

private theorem dueSteps_stuck {s : Scheduler} {host : σ} (stuck : s.queue.popDue? s.clock = none)
    (steps : Nat) : s.dueSteps steps host = [] := by
  cases steps with
  | zero => rfl
  | succ steps => simp only [dueSteps, stuck]

private theorem dueSteps_popped {s : Scheduler} {host : σ} {queue : TaskQueue Task}
    (popped : s.queue.popDue? s.clock = some (entry, queue)) (steps : Nat) :
    s.dueSteps (steps + 1) host = stepOf { s with queue } entry host ::
      ({ s with queue }.runTask entry host).1.dueSteps steps
        ({ s with queue }.runTask entry host).2 := by
  simp only [dueSteps, popped]

/-- A property of the steps so far, a scheduler and its host that holds on through every run. -/
structure Told (P : List Step → Scheduler → σ → Prop) : Prop where
  root : ∀ {steps} {s : Scheduler} {host}, s.root = none → P steps s host →
    P steps { s with root := some (SceneHost.createNode none host).1 }
      (SceneHost.setTransform (SceneHost.createNode none host).1
        (.atPosition s.interpretation.origin) (SceneHost.createNode none host).2)
  frame : ∀ {steps} {s : Scheduler} {host} dt, s.root.isSome → P steps s host →
    P steps (s.beginFrame (frameLength dt)) host
  move : ∀ {steps} {s : Scheduler} {host} {entry queue}, s.root.isSome → P steps s host →
    s.queue.popDue? s.clock = some (entry, queue) →
    P (steps ++ [stepOf { s with queue } entry host]) ({ s with queue }.runTask entry host).1
      ({ s with queue }.runTask entry host).2

namespace Told

variable {P : List Step → Scheduler → σ → Prop}

private theorem runDue (carried : Told P) (bound : Nat) {steps : List Step} {s : Scheduler} {host : σ}
    (rooted : s.root.isSome) (holds : P steps s host) :
    P (steps ++ s.dueSteps bound host) (s.runDue bound host).1 (s.runDue bound host).2 := by
  induction bound generalizing steps s host with
  | zero => simpa [dueSteps, Scheduler.runDue] using holds
  | succ bound ih =>
    cases popped : s.queue.popDue? s.clock with
    | none =>
      rw [runDue_stuck popped, dueSteps_stuck popped, List.append_nil]
      exact holds
    | some taken =>
      obtain ⟨entry, queue⟩ := taken
      rw [runDue_popped popped, dueSteps_popped popped, List.append_cons]
      have sameRoot := (runTask_move { s with queue } entry host).unchanged.2.1
      exact ih (by rw [sameRoot]; exact rooted) (carried.move rooted holds popped)

private theorem begun (carried : Told P) {steps : List Step} {s : Scheduler} {host : σ} (dt : Float32)
    (holds : P steps s host) :
    (s.begun dt host).1.root.isSome ∧ P steps (s.begun dt host).1 (s.begun dt host).2 := by
  have rooted := ensureRoot_isSome s host
  have after : P steps (s.ensureRoot host).1 (s.ensureRoot host).2 := by
    cases root : s.root with
    | none => simpa only [ensureRoot, root] using carried.root root holds
    | some node => simpa only [ensureRoot, root] using holds
  exact ⟨rooted, carried.frame dt rooted after⟩

/-- The steps of a frame are told after those before it. -/
theorem advance (carried : Told P) {steps : List Step} {s : Scheduler} {host : σ} (dt : Float32)
    (holds : P steps s host) :
    P (steps ++ s.frameSteps dt host) (s.advance dt host).1 (s.advance dt host).2 :=
  have start := carried.begun dt holds
  carried.runDue (s.begun dt host).1.stepBound start.1 start.2

/-- The steps of a run are told frame by frame. -/
theorem run (carried : Told P) {steps : List Step} {s : Scheduler} {host : σ}
    (lengths : List Float32) (holds : P steps s host) :
    P (steps ++ s.runSteps lengths host) (s.run lengths host).1 (s.run lengths host).2 := by
  induction lengths generalizing steps s host with
  | nil => simpa [runSteps, Scheduler.run] using holds
  | cons dt lengths ih =>
    rw [runSteps, ← List.append_assoc]
    exact ih (carried.advance dt holds)

end Told

/-- A property of the steps that is only kept beside one of the scheduler. -/
theorem Kept.tell {Q : Scheduler → σ → Prop} {P : List Step → Scheduler → σ → Prop} (kept : Kept Q)
    (root : ∀ {steps} {s : Scheduler} {host}, s.root = none → Q s host → P steps s host →
      P steps { s with root := some (SceneHost.createNode none host).1 }
        (SceneHost.setTransform (SceneHost.createNode none host).1
          (.atPosition s.interpretation.origin) (SceneHost.createNode none host).2))
    (frame : ∀ {steps} {s : Scheduler} {host} dt, Q s host → P steps s host →
      P steps (s.beginFrame (frameLength dt)) host)
    (move : ∀ {steps} {s : Scheduler} {host} {entry queue}, Q s host → P steps s host →
      s.queue.popDue? s.clock = some (entry, queue) →
      P (steps ++ [stepOf { s with queue } entry host]) ({ s with queue }.runTask entry host).1
        ({ s with queue }.runTask entry host).2) :
    Told fun steps s host => Q s host ∧ P steps s host where
  root unrooted holds := ⟨kept.root unrooted holds.1, root unrooted holds.1 holds.2⟩
  frame dt rooted holds := ⟨kept.frame dt rooted holds.1, frame dt holds.1 holds.2⟩
  move rooted holds popped :=
    ⟨kept.move rooted holds.1 popped (runTask_move _ _ _), move holds.1 holds.2 popped⟩

/-! ## From one step to another -/

private theorem cut_at {l : List α} {i : Nat} (found : l[i]? = some x) :
    ∃ front back, l = front ++ x :: back ∧ front.length = i := by
  obtain ⟨inside, rfl⟩ := List.getElem?_eq_some_iff.mp found
  refine ⟨l.take i, l.drop (i + 1), ?_, List.length_take_of_le (Nat.le_of_lt inside)⟩
  rw [← List.drop_eq_getElem_cons inside, List.take_append_drop]

/-- Two places cut a list of steps into what comes before, between and after them. -/
theorem split_at {steps : List Step} {i j : Nat} (one : steps[i]? = some first)
    (two : steps[j]? = some second) (ordered : i < j) :
    ∃ before mid after, steps = before ++ first :: (mid ++ second :: after) ∧
      ∀ step ∈ mid, ∃ m, i < m ∧ m < j ∧ steps[m]? = some step := by
  obtain ⟨before, rest, rfl, rfl⟩ := cut_at one
  have later : rest[j - before.length - 1]? = some second := by
    obtain ⟨place, same⟩ : ∃ place, j - before.length = place + 1 :=
      ⟨j - before.length - 1, by omega⟩
    rw [List.getElem?_append_right (Nat.le_of_lt ordered), same, List.getElem?_cons_succ] at two
    rw [same, Nat.add_sub_cancel]
    exact two
  obtain ⟨mid, after, rfl, length⟩ := cut_at later
  refine ⟨before, mid, after, rfl, fun step member => ?_⟩
  obtain ⟨n, inside, rfl⟩ := List.mem_iff_getElem.mp member
  have place : before.length + 1 + n - before.length = n + 1 := by omega
  refine ⟨before.length + 1 + n, by omega, by omega, ?_⟩
  rw [List.getElem?_append_right (by omega), place, List.getElem?_cons_succ,
    List.getElem?_append_left inside, List.getElem?_eq_getElem inside]

/-- The step was made by an entry that had just left the queue of such a scheduler. -/
def Taken (Q : Scheduler → σ → Prop) (step : Step) : Prop :=
  ∃ s host queue entry, Q s host ∧ s.queue.popDue? s.clock = some (entry, queue) ∧
    step = stepOf { s with queue } entry host

/-- Every step of a run was made in a state with what the run keeps. -/
theorem Kept.taken {Q : Scheduler → σ → Prop} (kept : Kept Q) :
    Told fun steps s (host : σ) => Q s host ∧ ∀ step ∈ steps, Taken Q step :=
  kept.tell (fun _ _ taken => taken) (fun _ _ taken => taken) fun holds taken popped =>
    List.forall_mem_append.mpr ⟨taken, List.forall_mem_singleton.mpr ⟨_, _, _, _, holds, popped, rfl⟩⟩

/-- What holds of every step, the steps after it and the present scheduler. -/
def Since (P : Step → List Step → Scheduler → Prop) (steps : List Step) (s : Scheduler) : Prop :=
  ∀ before first after, steps = before ++ first :: after → P first after s

/-- What held of an earlier step and the steps up to a later one, when the later one was made. -/
def Between (Q : Scheduler → σ → Prop) (P : Step → List Step → Scheduler → Prop)
    (steps : List Step) : Prop :=
  ∀ before first mid second after, steps = before ++ first :: (mid ++ second :: after) →
    ∃ s host queue entry, Q s host ∧ P first mid s ∧
      s.queue.popDue? s.clock = some (entry, queue) ∧
      second = stepOf { s with queue } entry host

theorem Since.nil (P : Step → List Step → Scheduler → Prop) (s : Scheduler) : Since P [] s := by
  intro before first after split
  simp at split

theorem Between.nil (Q : Scheduler → σ → Prop) (P : Step → List Step → Scheduler → Prop) :
    Between Q P [] := by
  intro before first mid second after split
  simp at split

private theorem Since.concat {P : Step → List Step → Scheduler → Prop} {last : Step}
    (since : Since P steps s) (new : P last [] s')
    (move : ∀ first after, P first after s → P first (after ++ [last]) s') :
    Since P (steps ++ [last]) s' := by
  intro before first after split
  obtain rfl | ⟨front, final, rfl⟩ := List.eq_nil_or_concat after
  · obtain ⟨-, same⟩ := List.append_inj' split rfl
    obtain rfl : last = first := by simpa using same
    exact new
  · have split' : steps ++ [last] = (before ++ first :: front) ++ [final] := by simpa using split
    obtain ⟨rfl, same⟩ := List.append_inj' split' rfl
    obtain rfl : last = final := by simpa using same
    rw [List.concat_eq_append]
    exact move first front (since before first front rfl)

/-- What every step begins, and all that comes after it keeps, holds between any two steps of a run. -/
theorem Kept.between {Q : Scheduler → σ → Prop} (kept : Kept Q)
    {P : Step → List Step → Scheduler → Prop}
    (root : ∀ {first after} {s : Scheduler} {node}, P first after s →
      P first after { s with root := some node })
    (frame : ∀ {first after} {s : Scheduler} {host} dt, Q s host → P first after s →
      P first after (s.beginFrame (frameLength dt)))
    (new : ∀ {s : Scheduler} {host} {entry queue}, Q s host →
      s.queue.popDue? s.clock = some (entry, queue) →
      P (stepOf { s with queue } entry host) [] ({ s with queue }.runTask entry host).1)
    (move : ∀ {first after} {s : Scheduler} {host} {entry queue}, Q s host → P first after s →
      s.queue.popDue? s.clock = some (entry, queue) →
      P first (after ++ [stepOf { s with queue } entry host])
        ({ s with queue }.runTask entry host).1) :
    Told fun steps s (host : σ) => Q s host ∧ Since P steps s ∧ Between Q P steps := by
  refine kept.tell ?_ ?_ ?_
  · rintro steps s host - - ⟨since, between⟩
    exact ⟨fun before first after split => root (since before first after split), between⟩
  · rintro steps s host dt holds ⟨since, between⟩
    exact ⟨fun before first after split => frame dt holds (since before first after split), between⟩
  · rintro steps s host entry queue holds ⟨since, between⟩ popped
    refine ⟨since.concat (new holds popped) fun first after kept => move holds kept popped, ?_⟩
    intro before first mid second after split
    obtain rfl | ⟨front, last, rfl⟩ := List.eq_nil_or_concat after
    · have split' : steps ++ [stepOf { s with queue } entry host] =
          (before ++ first :: mid) ++ [second] := by simpa using split
      obtain ⟨rfl, same⟩ := List.append_inj' split' rfl
      obtain rfl : stepOf { s with queue } entry host = second := by simpa using same
      exact ⟨s, host, queue, entry, holds, since before first mid rfl, popped, rfl⟩
    · have split' : steps ++ [stepOf { s with queue } entry host] =
          (before ++ first :: (mid ++ second :: front)) ++ [last] := by simpa using split
      exact between before first mid second front (List.append_inj' split' rfl).1

end Scheduler

/-! ## Outcomes

What becomes of the task of a step. It depends on the scheduler, the task and the time alone, and each
kind of move has one outcome.
-/

namespace Scheduler

open Sapling.Random

variable {σ : Type} [SceneHost σ]

/-- The outcome of a step of the task. -/
def outcomeOf (s : Scheduler) (time : Float32) : Task → Outcome
  | .dispatch next =>
    if s.Busy next then .nextFrame (.dispatch next)
    else if next < s.interpretation.segments.size then
      .wait (s.timing.branchOverlapDelay * s.nextDraws.1.overlap) (.dispatch (next + 1))
    else .done
  | .branch task =>
    match task.stage with
    | .growing =>
      if progress task time < 1 then .nextFrame (.branch task)
      else .wait task.settle (.branch { task with stage := .settling })
    | .settling => .done
  | .spawnLeaves next =>
    if next + 1 < s.interpretation.anchors.size then
      .wait s.timing.leafClusterStagger (.spawnLeaves (next + 1))
    else .done

private theorem step_outcome (s : Scheduler) (task : Task) (time : Float32) (host : σ) :
    (s.step task time host).1 = s.outcomeOf time task := by
  cases task with
  | dispatch next =>
    simp only [step, stepDispatch, outcomeOf, Busy]
    cases found : s.interpretation.segments[next]? with
    | none =>
      have last := Nat.not_lt.mpr (Array.getElem?_eq_none_iff.mp found)
      simp only [last, ↓reduceIte]
      split <;> rfl
    | some segment =>
      have inside := (Array.getElem?_eq_some_iff.mp found).1
      simp only [inside, ↓reduceIte]
      split <;> rfl
  | branch task =>
    simp only [step, stepBranch, outcomeOf]
    cases task.stage with
    | growing =>
      simp only
      split <;> rfl
    | settling => rfl
  | spawnLeaves next =>
    cases found : s.interpretation.anchors[next]? with
    | none =>
      have last := Array.getElem?_eq_none_iff.mp found
      have isLast : ¬ next + 1 < s.interpretation.anchors.size := by omega
      simp only [step, stepLeaves, outcomeOf, found, isLast, ↓reduceIte]
    | some anchor =>
      simp only [step, stepLeaves_anchor s found, outcomeOf]
      split <;> rfl

theorem stepOf_outcome (s : Scheduler) (entry : Timed Task) (host : σ) :
    (stepOf s entry host).outcome = s.outcomeOf entry.time entry.task :=
  step_outcome s entry.task entry.time host

/-! ### By moves -/

section
variable {s : Scheduler} {time : Float32}

/-- With too many growing branches the next one is put off to the next frame. -/
theorem outcomeOf_hold (busy : s.Busy next) :
    s.outcomeOf time (.dispatch next) = .nextFrame (.dispatch next) :=
  if_pos busy

/-- With room for a branch it is started, and the next start waits for the drawn delay. -/
theorem outcomeOf_start {segment : Segment}
    (found : s.interpretation.segments[next]? = some segment)
    (room : s.stats.activeBranches < s.timing.parallelBranches.toNat) :
    s.outcomeOf time (.dispatch next) =
      .wait (s.timing.branchOverlapDelay * s.nextDraws.1.overlap) (.dispatch (next + 1)) := by
  have inside := (Array.getElem?_eq_some_iff.mp found).1
  have free : ¬ s.Busy next := by
    simp only [Busy, inside, ↓reduceIte]
    omega
  simp only [outcomeOf, free, inside, ↓reduceIte]

/-- With all branches at rest the phase of the branches is over. -/
theorem outcomeOf_leave (last : s.interpretation.segments.size ≤ next)
    (idle : s.stats.activeBranches = 0) : s.outcomeOf time (.dispatch next) = .done := by
  have outside := Nat.not_lt.mpr last
  have free : ¬ s.Busy next := by
    simp only [Busy, outside, ↓reduceIte]
    omega
  simp only [outcomeOf, free, outside, ↓reduceIte]

/-- A branch that is not full-grown is looked at again in the next frame. -/
theorem outcomeOf_grow (growing : task.stage = .growing) (young : progress task time < 1) :
    s.outcomeOf time (.branch task) = .nextFrame (.branch task) := by
  simp only [outcomeOf, growing, young, ↓reduceIte]

/-- A full-grown branch settles before it rests. -/
theorem outcomeOf_mature (growing : task.stage = .growing) (old : ¬ progress task time < 1) :
    s.outcomeOf time (.branch task) =
      .wait task.settle (.branch { task with stage := .settling }) := by
  simp only [outcomeOf, growing, old, ↓reduceIte]

/-- A settled branch has nothing left to do. -/
theorem outcomeOf_rest (settling : task.stage = .settling) :
    s.outcomeOf time (.branch task) = .done := by
  simp only [outcomeOf, settling]

/-- After a cluster the next one waits for the stagger. -/
theorem outcomeOf_cluster (more : next + 1 < s.interpretation.anchors.size) :
    s.outcomeOf time (.spawnLeaves next) =
      .wait s.timing.leafClusterStagger (.spawnLeaves (next + 1)) :=
  if_pos more

/-- After the last cluster there is nothing left to do. -/
theorem outcomeOf_last (last : s.interpretation.anchors.size ≤ next + 1) :
    s.outcomeOf time (.spawnLeaves next) = .done :=
  if_neg (by omega)

end

end Scheduler

end Sapling
