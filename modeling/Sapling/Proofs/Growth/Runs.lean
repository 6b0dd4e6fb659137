import Sapling.Proofs.Growth.Moves

/-! Runs of a scheduler. A frame begins, tasks make moves until none is due, and the next frame follows;
what the root's creation, the beginning of a frame and every move keep, a whole run keeps. -/
namespace Sapling.Scheduler

open Sapling.Random

variable {σ : Type} [SceneHost σ]

/-- A tree of two segments, one on top of the other, with a leaf anchor at each tip. -/
def sprout : Interpretation where
  segments := #[⟨0, .zero, .unitY, ⟨0, 1, 0⟩, 0.1⟩, ⟨1, .unitY, .unitY, ⟨0, 2, 0⟩, 0.1⟩]
  anchors := #[⟨.unitY, .unitY⟩, ⟨⟨0, 2, 0⟩, .unitY⟩]
  origin := .zero
  maxHeight := 2
  stats := {}

/-- A scheduler at time zero, whose one task is to start the first branch. -/
def atStart (tree : Interpretation) (settings : TreeSettings) (source : Generator) : Scheduler where
  interpretation := tree
  timing := settings.timing
  mesh := settings.mesh
  bark := settings.bark
  foliage := { settings := settings.leaves, generator := (fork.run source).1 }
  generator := (fork.run source).2
  queue := TaskQueue.push {} 0 (.dispatch 0)
  stats := { branchesTotal := tree.segments.size }

/-- Every accepted scheduler stands at time zero, and its settings hold up to the checks. -/
theorem checked_settings {tree : Interpretation} {settings : TreeSettings} {source : Generator}
    (accepted : checked tree settings source = .ok s) :
    settings.timing.validate = .ok () ∧ settings.mesh.validate = .ok () ∧
      s = atStart tree settings source := by
  unfold checked at accepted
  cases timing : settings.timing.validate with
  | error fault => rw [timing] at accepted; cases accepted
  | ok _ =>
    cases mesh : settings.mesh.validate with
    | error fault => rw [timing, mesh] at accepted; cases accepted
    | ok _ =>
      cases bark : settings.bark.validate with
      | error fault => rw [timing, mesh, bark] at accepted; cases accepted
      | ok _ =>
        cases leaves : settings.leaves.validate with
        | error fault =>
          simp only [timing, mesh, bark, Batcher.checked, leaves] at accepted
          cases accepted
        | ok _ =>
          simp only [timing, mesh, bark, Batcher.checked, leaves] at accepted
          cases accepted
          exact ⟨rfl, rfl, rfl⟩

/-- An accepted scheduler has valid timing and is the one at the start. -/
theorem checked_ok {tree : Interpretation} {settings : TreeSettings} {source : Generator}
    (accepted : checked tree settings source = .ok s) :
    settings.timing.validate = .ok () ∧ s = atStart tree settings source :=
  ⟨(checked_settings accepted).1, (checked_settings accepted).2.2⟩

/-- Frames of the given lengths, one after the other. -/
def run (s : Scheduler) (lengths : List Float32) (host : σ) : Scheduler × σ :=
  lengths.foldl (fun (s, host) dt => s.advance dt host) (s, host)

/-- The scheduler and its host when a frame has begun and no task has made its step yet. -/
def begun (s : Scheduler) (dt : Float32) (host : σ) : Scheduler × σ :=
  ((s.ensureRoot host).1.beginFrame (frameLength dt), (s.ensureRoot host).2)

/-- The scheduler and its host after a number of steps of a frame, or after all if there are fewer. -/
def midFrame (s : Scheduler) (dt : Float32) (steps : Nat) (host : σ) : Scheduler × σ :=
  runDue steps (s.begun dt host).1 (s.begun dt host).2

/-- Two schedulers that let the same tree grow with the same settings. -/
structure SameTree (s t : Scheduler) : Prop where
  tree : t.interpretation = s.interpretation
  timing : t.timing = s.timing
  mesh : t.mesh = s.mesh
  bark : t.bark = s.bark
  total : t.stats.branchesTotal = s.stats.branchesTotal

/-- No move touches the tree to grow, the settings, the root or the clock. -/
theorem Move.unchanged {s s' : Scheduler} {host host' : σ} (move : Move s time host task s' host') :
    SameTree s s' ∧ s'.root = s.root ∧ s'.clock = s.clock := by
  cases move <;> exact ⟨⟨rfl, rfl, rfl, rfl, rfl⟩, rfl, rfl⟩

theorem ensureRoot_isSome (s : Scheduler) (host : σ) : (s.ensureRoot host).1.root.isSome := by
  unfold ensureRoot
  cases root : s.root with
  | none => rfl
  | some node => simp [root]

/-- A frame ends where no task is due. -/
theorem runDue_stuck {s : Scheduler} {host : σ} (stuck : s.queue.popDue? s.clock = none)
    (steps : Nat) : s.runDue steps host = (s, host) := by
  cases steps with
  | zero => rfl
  | succ steps => simp only [runDue, stuck]

/-- While a task is due, a frame takes it first and goes on from there. -/
theorem runDue_popped {s : Scheduler} {host : σ} {queue : TaskQueue Task}
    (popped : s.queue.popDue? s.clock = some (entry, queue)) (steps : Nat) :
    s.runDue (steps + 1) host =
      ({ s with queue }.runTask entry host).1.runDue steps ({ s with queue }.runTask entry host).2 := by
  simp only [runDue, popped]

/-- A property of a scheduler and its host that holds on through every run. Moves are made by a task
that has just left the queue, when the root is there. -/
structure Kept (P : Scheduler → σ → Prop) : Prop where
  root : ∀ {s : Scheduler} {host}, s.root = none → P s host →
    P { s with root := some (SceneHost.createNode none host).1 }
      (SceneHost.setTransform (SceneHost.createNode none host).1
        (.atPosition s.interpretation.origin) (SceneHost.createNode none host).2)
  frame : ∀ {s : Scheduler} {host} dt, s.root.isSome → P s host →
    P (s.beginFrame (frameLength dt)) host
  move : ∀ {s s' : Scheduler} {host host'} {entry queue}, s.root.isSome → P s host →
    s.queue.popDue? s.clock = some (entry, queue) →
    Move { s with queue } entry.time host entry.task s' host' → P s' host'

namespace Kept

variable {P : Scheduler → σ → Prop}

private theorem runDue (kept : Kept P) (steps : Nat) {s : Scheduler} {host : σ} (rooted : s.root.isSome)
    (holds : P s host) :
    (s.runDue steps host).1.root.isSome ∧ P (s.runDue steps host).1 (s.runDue steps host).2 := by
  induction steps generalizing s host with
  | zero => exact ⟨rooted, holds⟩
  | succ steps ih =>
    cases popped : s.queue.popDue? s.clock with
    | none =>
      rw [runDue_stuck popped]
      exact ⟨rooted, holds⟩
    | some taken =>
      obtain ⟨entry, queue⟩ := taken
      have move := runTask_move { s with queue } entry host
      have sameRoot := move.unchanged.2.1
      rw [runDue_popped popped]
      exact ih (by rw [sameRoot]; exact rooted) (kept.move rooted holds popped move)

/-- What is kept holds when the due tasks of a frame are about to run, and the tree is rooted then. -/
theorem begun (kept : Kept P) {s : Scheduler} {host : σ} (dt : Float32) (holds : P s host) :
    (s.begun dt host).1.root.isSome ∧ P (s.begun dt host).1 (s.begun dt host).2 := by
  have rooted := ensureRoot_isSome s host
  have after : P (s.ensureRoot host).1 (s.ensureRoot host).2 := by
    cases root : s.root with
    | none => simpa only [ensureRoot, root] using kept.root root holds
    | some node => simpa only [ensureRoot, root] using holds
  exact ⟨rooted, kept.frame dt rooted after⟩

/-- What is kept holds after any number of steps into a frame. -/
theorem midFrame (kept : Kept P) {s : Scheduler} {host : σ} (dt : Float32) (steps : Nat)
    (holds : P s host) : P (s.midFrame dt steps host).1 (s.midFrame dt steps host).2 :=
  have start := kept.begun dt holds
  (kept.runDue steps start.1 start.2).2

/-- What is kept holds after a frame. -/
theorem advance (kept : Kept P) {s : Scheduler} {host : σ} (dt : Float32) (holds : P s host) :
    P (s.advance dt host).1 (s.advance dt host).2 :=
  kept.midFrame dt (s.begun dt host).1.stepBound holds

/-- What is kept holds at the end of a frame, if it holds when the frame has begun. -/
theorem advance_of_begun (kept : Kept P) {s : Scheduler} {host : σ} (dt : Float32)
    (holds : P (s.begun dt host).1 (s.begun dt host).2) :
    P (s.advance dt host).1 (s.advance dt host).2 :=
  have rooted : (s.begun dt host).1.root.isSome := ensureRoot_isSome s host
  (kept.runDue (s.begun dt host).1.stepBound rooted holds).2

/-- What is kept holds after any frames of any lengths. -/
theorem run (kept : Kept P) {s : Scheduler} {host : σ} (lengths : List Float32) (holds : P s host) :
    P (s.run lengths host).1 (s.run lengths host).2 := by
  induction lengths generalizing s host with
  | nil => exact holds
  | cons dt lengths ih => exact ih (kept.advance dt holds)

theorem runFrames (kept : Kept P) {s : Scheduler} {host : σ} (dt : Float32) (frames : Nat)
    (holds : P s host) : P (s.runFrames dt frames host).1 (s.runFrames dt frames host).2 := by
  induction frames generalizing s host with
  | zero => exact holds
  | succ frames ih =>
    unfold Scheduler.runFrames
    split
    · exact holds
    · exact ih (kept.advance dt holds)

/-- A property that is only kept beside another one. -/
theorem and {Q : Scheduler → σ → Prop} (kept : Kept P)
    (root : ∀ {s : Scheduler} {host}, s.root = none → P s host → Q s host →
      Q { s with root := some (SceneHost.createNode none host).1 }
        (SceneHost.setTransform (SceneHost.createNode none host).1
          (.atPosition s.interpretation.origin) (SceneHost.createNode none host).2))
    (frame : ∀ {s : Scheduler} {host} dt, s.root.isSome → P s host → Q s host →
      Q (s.beginFrame (frameLength dt)) host)
    (move : ∀ {s s' : Scheduler} {host host'} {entry queue}, s.root.isSome → P s host → Q s host →
      s.queue.popDue? s.clock = some (entry, queue) →
      Move { s with queue } entry.time host entry.task s' host' → Q s' host') :
    Kept fun s host => P s host ∧ Q s host where
  root unrooted holds := ⟨kept.root unrooted holds.1, root unrooted holds.1 holds.2⟩
  frame dt rooted holds := ⟨kept.frame dt rooted holds.1, frame dt rooted holds.1 holds.2⟩
  move rooted holds popped step :=
    ⟨kept.move rooted holds.1 popped step, move rooted holds.1 holds.2 popped step⟩

theorem both {Q : Scheduler → σ → Prop} (first : Kept P) (second : Kept Q) :
    Kept fun s host => P s host ∧ Q s host :=
  first.and (fun unrooted _ holds => second.root unrooted holds)
    (fun dt rooted _ holds => second.frame dt rooted holds)
    (fun rooted _ holds popped move => second.move rooted holds popped move)

end Kept

theorem SameTree.refl (s : Scheduler) : SameTree s s := ⟨rfl, rfl, rfl, rfl, rfl⟩

theorem SameTree.trans (first : SameTree s t) (second : SameTree t u) : SameTree s u where
  tree := second.tree.trans first.tree
  timing := second.timing.trans first.timing
  mesh := second.mesh.trans first.mesh
  bark := second.bark.trans first.bark
  total := second.total.trans first.total

theorem SameTree.tubeOf_eq (same : SameTree s t) (segment : Segment) :
    t.tubeOf segment = s.tubeOf segment := by
  simp only [tubeOf, same.tree, same.mesh]

theorem SameTree.offsetOf_eq (same : SameTree s t) (segment : Segment) :
    t.offsetOf segment = s.offsetOf segment := by
  simp only [offsetOf, same.tree]

/-- A run lets the tree grow that it began with. -/
theorem SameTree.kept (s : Scheduler) : Kept fun t (_ : σ) => SameTree s t where
  root _ same := ⟨same.tree, same.timing, same.mesh, same.bark, same.total⟩
  frame _ _ same := ⟨same.tree, same.timing, same.mesh, same.bark, same.total⟩
  move _ same _ move := by
    obtain ⟨tree, timing, mesh, bark, total⟩ := move.unchanged.1
    exact same.trans ⟨tree, timing, mesh, bark, total⟩

end Sapling.Scheduler
