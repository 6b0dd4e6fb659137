import Sapling.Proofs.Growth.Completion
import Sapling.Proofs.Growth.Queue
import Sapling.Proofs.Growth.Steps
import Sapling.Proofs.Settings.Checks

/-! The steps of a run in the order of their times. No step puts a task back to a time before its own, and
the clock of a frame passes every step of the frame and no task that still waits after it. -/
namespace Sapling

namespace Scheduler

open Sapling.Random
open Scalar (Forward)

variable {σ : Type} [SceneHost σ]

/-- What a step puts into the queue is due at its own time or later. -/
theorem Move.slot_origin {s s' : Scheduler} {host host' : σ} (forward : Forward time)
    (move : Move s time host task s' host') (member : slot ∈ s'.queue.slots) :
    slot ∈ s.queue.slots ∨ time.toBits.toNat ≤ slot.1.toBits.toNat := by
  have pushed {queue : TaskQueue Task} {later : Float32} {added : Task}
      (after : time.toBits.toNat ≤ later.toBits.toNat) (member : slot ∈ (queue.push later added).slots) :
      slot ∈ queue.slots ∨ time.toBits.toNat ≤ slot.1.toBits.toNat := by
    rcases TaskQueue.mem_slots_push.mp member with rfl | old
    · exact .inr after
    · exact .inl old
  cases move with
  | start found room =>
    rcases pushed (forward.after _).2 member with old | late
    · exact pushed (Nat.le_refl _) old
    · exact .inr late
  | leave last idle => exact pushed (Nat.le_refl _) member
  | mature growing old => exact pushed (forward.after _).2 member
  | cluster found more => exact pushed (forward.after _).2 member
  | _ => exact .inl member

/-- The steps so far are in the order of their times, none is ahead of the clock, and none is behind a task
that waits. -/
structure InOrder (steps : List Step) (s : Scheduler) : Prop where
  sorted : steps.Pairwise fun first second => first.time.toBits.toNat ≤ second.time.toBits.toNat
  past : ∀ step ∈ steps, Forward step.time ∧ step.time.toBits.toNat ≤ s.clock.toBits.toNat
  future : ∀ step ∈ steps, ∀ slot ∈ s.queue.slots,
    step.time.toBits.toNat ≤ slot.1.toBits.toNat

private theorem InOrder.begin {s : Scheduler} (inOrder : InOrder steps s) (forward : Forward s.clock)
    (dt : Float32) : InOrder steps (s.beginFrame (frameLength dt)) := by
  have later := (clock_beginFrame forward dt).2
  refine ⟨inOrder.sorted, fun step member => ?_, fun step member slot waiting => ?_⟩
  · obtain ⟨isForward, early⟩ := inOrder.past step member
    exact ⟨isForward, Nat.le_trans early later⟩
  · simp only [beginFrame, ← Array.foldl_toList] at waiting
    rw [(TaskQueue.push_all_slots ..).mem_iff, List.mem_append] at waiting
    rcases waiting with old | called
    · exact inOrder.future step member slot old
    · obtain ⟨task, -, rfl⟩ := List.mem_map.mp called
      exact Nat.le_trans (inOrder.past step member).2 later

private theorem InOrder.step {s : Scheduler} {queue : TaskQueue Task} (inOrder : InOrder steps s)
    (timely : Timely s) (popped : s.queue.popDue? s.clock = some (entry, queue)) (host : σ) :
    InOrder (steps ++ [stepOf { s with queue } entry host])
      ({ s with queue }.runTask entry host).1 := by
  obtain ⟨sorted, past, future⟩ := inOrder
  have move := runTask_move { s with queue } entry host
  have clock := move.unchanged.2.2
  have forward := (timely.queue.popped popped).1
  have due := (forward.le_iff timely.clock).mp (TaskQueue.popDue_some popped).2
  rw [TaskQueue.popDue_slots popped] at future
  have behind : ∀ slot ∈ queue.slots, entry.time.toBits.toNat ≤ slot.1.toBits.toNat := by
    have entries := timely.queue.sorted
    rw [(TaskQueue.popDue_some popped).1] at entries
    intro slot member
    obtain ⟨other, listed, rfl⟩ := List.mem_map.mp member
    exact (List.pairwise_cons.mp entries).1 other listed
  have new : ∀ slot ∈ ({ s with queue }.runTask entry host).1.queue.slots,
      entry.time.toBits.toNat ≤ slot.1.toBits.toNat := fun slot member =>
    (move.slot_origin forward member).elim (behind slot) id
  have reach : ∀ step ∈ steps, step.time.toBits.toNat ≤ entry.time.toBits.toNat :=
    fun step member => future step member _ List.mem_cons_self
  refine ⟨?_, ?_, ?_⟩
  · refine List.pairwise_append.mpr ⟨sorted, List.pairwise_singleton _ _, ?_⟩
    intro step member last same
    obtain rfl := List.mem_singleton.mp same
    exact reach step member
  · rw [clock, List.forall_mem_append, List.forall_mem_singleton]
    exact ⟨past, forward, due⟩
  · rw [List.forall_mem_append, List.forall_mem_singleton]
    exact ⟨fun step member slot waiting => Nat.le_trans (reach step member) (new slot waiting), new⟩

private theorem InOrder.told : Told fun steps s (_ : σ) => Sound s ∧ InOrder steps s :=
  Sound.kept.tell
    (fun _ _ inOrder => ⟨inOrder.sorted, inOrder.past, inOrder.future⟩)
    (fun dt sound inOrder => inOrder.begin sound.2.clock dt)
    (fun sound inOrder popped => inOrder.step sound.2 popped _)

private theorem inOrder_of_accepted {tree : Interpretation} {settings : TreeSettings} {source : Generator}
    (accepted : checked tree settings source = .ok fresh) (lengths : List Float32) (host : σ) :
    Sound (fresh.run lengths host).1 ∧
      InOrder (fresh.runSteps lengths host) (fresh.run lengths host).1 := by
  have start : Sound fresh ∧ InOrder [] fresh :=
    ⟨⟨.fresh accepted, .fresh accepted⟩, .nil, List.forall_mem_nil _, List.forall_mem_nil _⟩
  exact InOrder.told.run lengths start

/-- Every run of an accepted scheduler goes forward in time, whatever the lengths of its frames. The clock
never goes back, the steps of all frames are in the order of their times, none is ahead of the clock of its
frame, no task ever waits for a time that is not a number, and nothing that waits after a frame is due. The
queue itself, however it is used, gives each task that came to it once, and always the first in the order
of times and of arrival, as soon as that one is due. -/
theorem time_goes_forward {tree : Interpretation} {settings : TreeSettings} {source : Generator}
    (accepted : checked tree settings source = .ok fresh) (lengths : List Float32) (host : σ)
    (dt : Float32) :
    let s := fresh.run lengths host
    let later := s.1.advance dt s.2
    (s.1.clock.isNaN = false ∧ s.1.clock ≤ later.1.clock) ∧
    ((fresh.runSteps lengths host).Pairwise fun first second => first.time ≤ second.time) ∧
    (∀ step ∈ s.1.frameSteps dt s.2, step.time ≤ later.1.clock) ∧
    (∀ entry ∈ s.1.queue.entries, entry.time.isNaN = false) ∧
    (∀ steps, ∀ entry ∈ (s.1.midFrame dt steps s.2).1.queue.entries, entry.time.isNaN = false) ∧
    (∀ entry ∈ later.1.queue.entries, later.1.clock < entry.time) ∧
    ∀ {α : Type} (calls : List (TaskQueue.Call α)),
      let history := TaskQueue.History.ofCalls calls
      history.arrived.map Timed.serial = List.range history.arrived.length ∧
      history.arrived.Perm (history.given ++ history.queue.entries) ∧
      ∀ now entry, (∃ rest, history.queue.popDue? now = some (entry, rest)) ↔
        history.Waits entry ∧ (∀ other, history.Waits other → other = entry ∨ entry.Before other) ∧
          entry.time ≤ now := by
  intro s later
  obtain ⟨sound, inOrder⟩ := inOrder_of_accepted accepted lengths host
  have next : Sound later.1 ∧ InOrder (fresh.runSteps lengths host ++ s.1.frameSteps dt s.2) later.1 :=
    InOrder.told.advance dt ⟨sound, inOrder⟩
  obtain ⟨⟨-, timely⟩, past⟩ := next
  have numbers {t : Scheduler} (timely : Timely t) :
      ∀ entry ∈ t.queue.entries, entry.time.isNaN = false := fun entry member =>
    (timely.queue.times entry member).unsigned.1
  refine ⟨⟨sound.2.clock.unsigned.1, ?_⟩, ?_, ?_, numbers sound.2, ?_, ?_, ?_⟩
  · have clock := advance_clock s.1 dt s.2
    rw [sound.2.clock.le_iff timely.clock, clock]
    exact (clock_beginFrame sound.2.clock dt).2
  · refine inOrder.sorted.imp_of_mem fun {first second} one other ordered => ?_
    exact ((inOrder.past first one).1.le_iff (inOrder.past second other).1).mpr ordered
  · intro step member
    obtain ⟨forward, early⟩ := past.past step (List.mem_append_right _ member)
    exact (forward.le_iff timely.clock).mpr early
  · exact fun steps => numbers (Timely.kept.midFrame dt steps sound.2)
  · intro entry member
    have late := sound.early dt s.2 (entry.time, entry.task) (List.mem_map.mpr ⟨entry, member, rfl⟩)
    exact (Scalar.not_le_iff (numbers timely entry member) timely.clock.unsigned.1).mp late
  · intro α calls history
    have faithful := TaskQueue.History.faithful_ofCalls calls
    exact ⟨faithful.serials, faithful.all, faithful.popDue_iff⟩

/-- In three seconds of a sprout. -/
theorem time_goes_forward_in_sprout :
    checked sprout {} (.ofSeed 7) = .ok (atStart sprout {} (.ofSeed 7)) ∧
    ((atStart sprout {} (.ofSeed 7)).runSteps [0.5, 0.25, 0, 2] Recording.empty).length = 14 ∧
    ((atStart sprout {} (.ofSeed 7)).runSteps [0.5, 0.25, 0, 2] Recording.empty).Pairwise
      fun first second => first.time ≤ second.time := by
  have accepted : checked sprout {} (.ofSeed 7) = .ok (atStart sprout {} (.ofSeed 7)) := rfl
  have forward := time_goes_forward accepted [0.5, 0.25, 0, 2] Recording.empty 1
  exact ⟨accepted, by decide +kernel, forward.2.1⟩

end Scheduler

/-! ## Pauses

Pauses that keep what they say. No pause of an accepted scheduler leads back in time, so none is cut off
at zero when a task is put back.
-/

namespace Scheduler

open Sapling.Random
open Scalar (Nonneg level)

variable {σ : Type} [SceneHost σ]

/-- A pause that is not negative is kept as it is. -/
theorem max_zero_eq {pause : Float32} (nonneg : Nonneg pause) : Scalar.max pause 0 = pause := by
  have above : ¬ pause < 0 := fun below => by
    have zero : level 0 = 0 := by decide
    rw [Scalar.lt_iff, zero] at below
    exact Int.not_le.mpr below.2.2 nonneg.up
  simp only [Scalar.max, above, nonneg.isNumber, decide_false, Bool.or_self, Bool.false_eq_true,
    ↓reduceIte]

/-- What is drawn for a branch leads to pauses that are not negative. -/
theorem nextDraws_nonneg {s : Scheduler} (unhurried : s.timing.Unhurried) :
    Nonneg s.nextDraws.1.settle ∧ Nonneg (s.timing.branchOverlapDelay * s.nextDraws.1.overlap) := by
  obtain ⟨finite, nonneg, positive⟩ := unhurried.overlap
  exact ⟨unhurried.settleDelay.draw _,
    nonneg.mul (unhurried.overlapJitter.draw _) finite (.inr positive)⟩

/-- A branch rests as long as the one that it was before the step, or as long as has just been drawn. -/
theorem Move.settle_origin {s s' : Scheduler} {host host' : σ}
    (move : Move s time host task s' host') (member : .branch other ∈ s'.tasks) :
    (∃ before, .branch before ∈ task :: s.tasks ∧ other.settle = before.settle) ∨
      other.settle = s.nextDraws.1.settle := by
  have old {other : BranchTask} (member : .branch other ∈ s.tasks) :
      (∃ before, .branch before ∈ task :: s.tasks ∧ other.settle = before.settle) ∨
        other.settle = s.nextDraws.1.settle :=
    .inl ⟨other, List.mem_cons_of_mem _ member, rfl⟩
  cases move with
  | hold busy => exact .inl ⟨other, List.mem_cons.mpr (mem_deferred member rfl rfl), rfl⟩
  | start found room =>
    rw [(tasks_afterStart ..).mem_iff] at member
    rcases List.mem_cons.mp member with this | member
    · cases this
    · rcases List.mem_cons.mp member with this | before
      · rw [Task.branch.inj this]
        exact .inr rfl
      · exact old before
  | leave last idle =>
    rcases mem_pushed member rfl rfl with this | before
    · cases this
    · exact old before
  | grow growing young => exact .inl ⟨other, List.mem_cons.mpr (mem_deferred member rfl rfl), rfl⟩
  | mature growing ripe =>
    rcases mem_pushed member rfl rfl with this | before
    · rw [Task.branch.inj this]
      exact .inl ⟨_, List.mem_cons_self, rfl⟩
    · exact old before
  | cluster found more =>
    rcases mem_pushed member rfl rfl with this | before
    · cases this
    · exact old before
  | _ => exact old member

/-- No pause that a scheduler has in store leads back in time, and what waits for the next frame still
grows. -/
structure Unhurried (s : Scheduler) : Prop where
  timing : s.timing.Unhurried
  settle : ∀ task, .branch task ∈ s.tasks → Nonneg task.settle
  growing : ∀ task, .branch task ∈ s.nextFrame.toList → task.stage = .growing

theorem Unhurried.popped {s : Scheduler} {queue : TaskQueue Task} (unhurried : Unhurried s)
    (popped : s.queue.popDue? now = some (entry, queue)) :
    ∀ task, .branch task ∈ entry.task :: { s with queue }.tasks → Nonneg task.settle :=
  tasks_popped popped ▸ unhurried.settle

private theorem Unhurried.kept : Kept fun s (_ : σ) => Sound s ∧ Unhurried s := by
  refine Sound.kept.and ?_ ?_ ?_
  · rintro s host - - ⟨timing, settle, growing⟩
    exact ⟨timing, settle, growing⟩
  · rintro s host dt - - ⟨timing, settle, growing⟩
    exact ⟨timing, fun task member => settle task ((tasks_beginFrame s _).mem_iff.mp member), nofun⟩
  · rintro s s' host host' entry queue - - unhurried popped move
    have settle := unhurried.popped popped
    obtain ⟨timing, -, growing⟩ := unhurried
    refine ⟨by rw [move.unchanged.1.timing]; exact timing, ?_, ?_⟩
    · intro task member
      rcases move.settle_origin member with ⟨before, listed, same⟩ | same
      · rw [same]
        exact settle before listed
      · rw [same]
        exact (nextDraws_nonneg timing).1
    · intro task member
      obtain ⟨time, serial, mover⟩ := entry
      cases move with
      | hold busy => exact growing task (by simpa using member)
      | grow young ripe =>
        rcases List.mem_append.mp (Array.toList_push ▸ member) with old | new
        · exact growing task old
        · rw [Task.branch.inj (List.mem_singleton.mp new)]
          exact young
      | _ => exact growing task member

/-- What a run keeps that its pace depends on. -/
structure Paced (fresh s : Scheduler) : Prop where
  sound : Sound s
  unhurried : Unhurried s
  same : SameTree fresh s

theorem Paced.kept (fresh : Scheduler) : Kept fun s (_ : σ) => Paced fresh s := by
  have all : Kept fun s (_ : σ) => (Sound s ∧ Unhurried s) ∧ SameTree fresh s :=
    Unhurried.kept.both (SameTree.kept fresh)
  have shape : (fun s (_ : σ) => (Sound s ∧ Unhurried s) ∧ SameTree fresh s) =
      fun s (_ : σ) => Paced fresh s := by
    funext s host
    exact propext ⟨fun holds => ⟨holds.1.1, holds.1.2, holds.2⟩,
      fun paced => ⟨⟨paced.sound, paced.unhurried⟩, paced.same⟩⟩
  exact shape ▸ all

theorem Paced.fresh {tree : Interpretation} {settings : TreeSettings} {source : Generator}
    (accepted : checked tree settings source = .ok s) : Paced s s := by
  have sound : Sound s := ⟨.fresh accepted, .fresh accepted⟩
  obtain ⟨valid, rfl⟩ := checked_ok accepted
  refine ⟨sound, ⟨GrowthTiming.unhurried valid, ?_, nofun⟩, .refl _⟩
  intro task member
  simp [tasks, atStart, TaskQueue.tasks, TaskQueue.push, TaskQueue.insert] at member

end Scheduler

end Sapling
