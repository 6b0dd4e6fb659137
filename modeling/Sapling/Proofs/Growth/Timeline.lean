import Sapling.Proofs.Growth.Accounts
import Sapling.Proofs.Scalar.Sums

/-! Time goes forward. The clock and the times of all waiting tasks are numbers that are not negative,
and the tasks wait in the order of their times, so a queue that gives nothing holds nothing that is due. -/
namespace Sapling

open Scalar (Forward)

namespace TaskQueue

/-- All times are forward numbers, and the entries are in their order. -/
structure Ordered (queue : TaskQueue α) : Prop where
  times : ∀ entry ∈ queue.entries, Forward entry.time
  sorted : queue.entries.Pairwise fun first second =>
    first.time.toBits.toNat ≤ second.time.toBits.toNat

private theorem mem_insert {entries : List (Timed α)} :
    entry ∈ insert new entries ↔ entry = new ∨ entry ∈ entries := by
  rw [(insert_perm new entries).mem_iff, List.mem_cons]

private theorem insert_sorted (new : Timed α) (entries : List (Timed α)) (forward : Forward new.time)
    (times : ∀ entry ∈ entries, Forward entry.time)
    (sorted : entries.Pairwise fun first second =>
      first.time.toBits.toNat ≤ second.time.toBits.toNat) :
    (insert new entries).Pairwise fun first second =>
      first.time.toBits.toNat ≤ second.time.toBits.toNat := by
  induction entries with
  | nil => exact List.pairwise_singleton _ _
  | cons first rest ih =>
    obtain ⟨above, later⟩ := List.pairwise_cons.mp sorted
    have keys := (times first List.mem_cons_self).orderKey
    unfold insert
    rw [keys, forward.orderKey]
    split
    · rename_i before
      refine List.pairwise_cons.mpr ⟨?_,
        ih (fun entry member => times entry (List.mem_cons_of_mem _ member)) later⟩
      intro entry member
      rcases mem_insert.mp member with rfl | member
      · omega
      · exact above entry member
    · rename_i after
      refine List.pairwise_cons.mpr ⟨?_, sorted⟩
      intro entry member
      rcases List.mem_cons.mp member with rfl | member
      · omega
      · have bound := above entry member
        omega

theorem Ordered.push {queue : TaskQueue α} (ordered : queue.Ordered) (forward : Forward time)
    (task : α) : (queue.push time task).Ordered where
  times entry member := by
    rcases mem_insert.mp member with rfl | member
    · exact forward
    · exact ordered.times entry member
  sorted := insert_sorted _ _ forward ordered.times ordered.sorted

private theorem Ordered.push_all {queue : TaskQueue α} (ordered : queue.Ordered) (forward : Forward time)
    (waiting : List α) :
    (waiting.foldl (fun queue task => queue.push time task) queue).Ordered := by
  induction waiting generalizing queue with
  | nil => exact ordered
  | cons task waiting ih => exact ih (ordered.push forward task)

/-- The popped time goes forward, and the rest of an ordered queue is ordered. -/
theorem Ordered.popped {queue rest : TaskQueue α} (ordered : queue.Ordered)
    (popped : queue.popDue? now = some (entry, rest)) : Forward entry.time ∧ rest.Ordered := by
  obtain ⟨times, sorted⟩ := ordered
  rw [(popDue_some popped).1] at times sorted
  exact ⟨times entry List.mem_cons_self,
    fun other member => times other (List.mem_cons_of_mem _ member), (List.pairwise_cons.mp sorted).2⟩

/-- A queue that gives nothing holds nothing that is due. -/
theorem Ordered.none_due {queue : TaskQueue α} (ordered : queue.Ordered) (forward : Forward now)
    (stuck : queue.popDue? now = none) : ∀ entry ∈ queue.entries, ¬ entry.time ≤ now := by
  obtain ⟨times, sorted⟩ := ordered
  have head := popDue_none stuck
  intro entry member
  cases shape : queue.entries with
  | nil =>
    rw [shape] at member
    cases member
  | cons first rest =>
    rw [shape] at times sorted head member
    have late := head first rfl
    rw [(times first List.mem_cons_self).le_iff forward] at late
    rw [(times entry member).le_iff forward]
    rcases List.mem_cons.mp member with rfl | member
    · exact late
    · have later := (List.pairwise_cons.mp sorted).1 entry member
      omega

/-- The waiting tasks with their times. -/
def slots (queue : TaskQueue α) : List (Float32 × α) :=
  queue.entries.map fun entry => (entry.time, entry.task)

theorem popDue_slots {queue rest : TaskQueue α} (popped : queue.popDue? now = some (entry, rest)) :
    queue.slots = (entry.time, entry.task) :: rest.slots := by
  simp [slots, (popDue_some popped).1]

theorem mem_slots_push {queue : TaskQueue α} :
    slot ∈ (queue.push time task).slots ↔ slot = (time, task) ∨ slot ∈ queue.slots := by
  have same : (queue.push time task).slots.Perm ((time, task) :: queue.slots) :=
    (insert_perm ⟨time, queue.nextSerial, task⟩ queue.entries).map _
  rw [same.mem_iff, List.mem_cons]

/-- Tasks that are queued together take one slot each, all at one time. -/
theorem push_all_slots (waiting : List α) (queue : TaskQueue α) (time : Float32) :
    (waiting.foldl (fun queue task => queue.push time task) queue).slots.Perm
      (queue.slots ++ waiting.map fun task => (time, task)) := by
  induction waiting generalizing queue with
  | nil => simp
  | cons task waiting ih =>
    have first : (queue.push time task).slots.Perm ((time, task) :: queue.slots) :=
      (insert_perm ⟨time, queue.nextSerial, task⟩ queue.entries).map _
    exact (ih (queue.push time task)).trans
      ((first.append_right _).trans List.perm_middle.symm)

end TaskQueue

namespace Scheduler

variable {σ : Type} [SceneHost σ]

private theorem frameLength_unsigned (dt : Float32) :
    (frameLength dt).isNaN = false ∧ 0 ≤ Scalar.level (frameLength dt) := by
  unfold frameLength
  split
  · exact Scalar.max_zero_unsigned dt
  · exact ⟨rfl, by decide⟩

/-- No frame turns the clock back. -/
theorem clock_beginFrame {s : Scheduler} (forward : Forward s.clock) (dt : Float32) :
    Forward (s.beginFrame (frameLength dt)).clock ∧
      s.clock.toBits.toNat ≤ (s.beginFrame (frameLength dt)).clock.toBits.toNat :=
  forward.add (frameLength_unsigned dt).1 (frameLength_unsigned dt).2

/-- The clock and the queue of a scheduler go forward. -/
structure Timely (s : Scheduler) : Prop where
  clock : Forward s.clock
  queue : s.queue.Ordered

private theorem Timely.move {s s' : Scheduler} {host host' : σ} (timely : Timely s) (forward : Forward time)
    (move : Move s time host task s' host') : Timely s' := by
  obtain ⟨clock, queue⟩ := timely
  cases move with
  | start found room =>
    exact ⟨clock, (queue.push forward _).push (forward.after _).1 _⟩
  | leave last idle => exact ⟨clock, queue.push forward _⟩
  | mature growing old => exact ⟨clock, queue.push (forward.after _).1 _⟩
  | cluster found more => exact ⟨clock, queue.push (forward.after _).1 _⟩
  | _ => exact ⟨clock, queue⟩

/-- An accepted scheduler starts with its clock at zero and its queue in order. -/
theorem Timely.fresh {tree : Interpretation} {settings : TreeSettings} {source : Random.Generator}
    (accepted : checked tree settings source = .ok s) : Timely s := by
  obtain ⟨-, rfl⟩ := checked_ok accepted
  have empty : (({} : TaskQueue Task)).Ordered :=
    ⟨fun _ member => absurd member List.not_mem_nil, .nil⟩
  exact ⟨Scalar.forward_zero, empty.push Scalar.forward_zero _⟩

/-- Clock and queue go forward through every run. -/
theorem Timely.kept : Kept fun s (_ : σ) => Timely s where
  root _ timely := ⟨timely.clock, timely.queue⟩
  frame {s host} dt _ timely := by
    have forward := (clock_beginFrame timely.clock dt).1
    refine ⟨forward, ?_⟩
    simp only [beginFrame, ← Array.foldl_toList]
    exact timely.queue.push_all forward s.nextFrame.toList
  move {s s' host host' entry queue} _ timely popped move := by
    obtain ⟨forward, ordered⟩ := timely.queue.popped popped
    have before : Timely { s with queue } := ⟨timely.clock, ordered⟩
    exact before.move forward move

end Scheduler


end Sapling
