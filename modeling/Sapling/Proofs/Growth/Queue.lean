import Mathlib.Data.List.Nodup
import Sapling.Growth.Scheduler

/-! A task queue loses nothing: what is pushed is added once, whatever its time, and what is popped is
the first entry, taken away once. -/
namespace Sapling

namespace TaskQueue

/-- The waiting tasks, in the order in which they will leave. -/
def tasks (queue : TaskQueue α) : List α := queue.entries.map Timed.task

/-- Inserting a task moves others but loses none. -/
theorem insert_perm (entry : Timed α) (entries : List (Timed α)) :
    (insert entry entries).Perm (entry :: entries) := by
  induction entries with
  | nil => exact .refl _
  | cons first rest ih =>
    simp only [insert]
    split
    · exact (ih.cons first).trans (.swap entry first rest)
    · exact .refl _

theorem push_tasks (queue : TaskQueue α) (time : Float32) (task : α) :
    (queue.push time task).tasks.Perm (task :: queue.tasks) :=
  (insert_perm ⟨time, queue.nextSerial, task⟩ queue.entries).map Timed.task

/-- What a queue gives is its first entry, which is due, and the others stay as they were. -/
theorem popDue_some {queue rest : TaskQueue α} (popped : queue.popDue? now = some (entry, rest)) :
    queue.entries = entry :: rest.entries ∧ entry.time ≤ now := by
  unfold popDue? at popped
  split at popped
  · cases popped
  · rename_i first others shape
    split at popped
    · rename_i due
      cases popped
      exact ⟨shape, due⟩
    · cases popped

theorem popDue_tasks {queue rest : TaskQueue α} (popped : queue.popDue? now = some (entry, rest)) :
    queue.tasks = entry.task :: rest.tasks := by
  simp [tasks, (popDue_some popped).1]

/-- A queue that gives nothing is empty, or its first entry is not due. -/
theorem popDue_none {queue : TaskQueue α} (stuck : queue.popDue? now = none) :
    ∀ entry ∈ queue.entries.head?, ¬ entry.time ≤ now := by
  unfold popDue? at stuck
  split at stuck
  · rename_i empty
    simp [empty]
  · rename_i first others shape
    split at stuck
    · cases stuck
    · rename_i late
      simpa [shape] using late

/-- Pushing a list of tasks at one time adds each of them once. -/
theorem push_all_tasks (waiting : List α) (queue : TaskQueue α) (time : Float32) :
    (waiting.foldl (fun queue task => queue.push time task) queue).tasks.Perm
      (queue.tasks ++ waiting) := by
  induction waiting generalizing queue with
  | nil => simp
  | cons task waiting ih =>
    have first := (push_tasks queue time task).append_right waiting
    exact (ih (queue.push time task)).trans (first.trans List.perm_middle.symm)

end TaskQueue

/-! ## Order of calls

Whatever is asked of a task queue, and in which order: it gives each task once, the earliest first and
those of the same time in the order in which they came, and it gives a task when its time has come.
-/

/-- Is the first entry due before the second, or at the same time and came before it? -/
def Timed.Before (first second : Timed α) : Prop :=
  Scalar.orderKey first.time < Scalar.orderKey second.time ∨
    Scalar.orderKey first.time = Scalar.orderKey second.time ∧ first.serial < second.serial

namespace TaskQueue

/-- What can be asked of a queue. -/
inductive Call (α : Type) where
  | push (time : Float32) (task : α)
  | popDue (now : Float32)

/-- A queue with all that has come to it and all that it has given, each in its order. The number of an
entry is its place among those that came. -/
structure History (α : Type) where
  queue : TaskQueue α := {}
  arrived : List (Timed α) := []
  given : List (Timed α) := []

namespace History

def after (history : History α) : Call α → History α
  | .push time task =>
    { history with
      queue := history.queue.push time task
      arrived := history.arrived ++ [⟨time, history.arrived.length, task⟩] }
  | .popDue now =>
    match history.queue.popDue? now with
    | none => history
    | some (entry, queue) => { history with queue, given := history.given ++ [entry] }

/-- The history of a queue that was empty at first. -/
def ofCalls (calls : List (Call α)) : History α := calls.foldl after {}

/-- What has come and was not given yet. -/
def Waits (history : History α) (entry : Timed α) : Prop :=
  entry ∈ history.arrived ∧ entry ∉ history.given

/-- The entries are those that came and were not given, in the order in which they are to leave. -/
structure Faithful (history : History α) : Prop where
  serials : history.arrived.map Timed.serial = List.range history.arrived.length
  next : history.queue.nextSerial = history.arrived.length
  all : history.arrived.Perm (history.given ++ history.queue.entries)
  sorted : history.queue.entries.Pairwise Timed.Before

end History

private theorem insert_before {new : Timed α} {entries : List (Timed α)}
    (last : ∀ entry ∈ entries, entry.serial < new.serial)
    (sorted : entries.Pairwise Timed.Before) : (insert new entries).Pairwise Timed.Before := by
  induction entries with
  | nil => exact List.pairwise_singleton _ _
  | cons first rest ih =>
    obtain ⟨above, later⟩ := List.pairwise_cons.mp sorted
    obtain ⟨old, others⟩ := List.forall_mem_cons.mp last
    unfold insert
    split
    · rename_i behind
      refine List.pairwise_cons.mpr ⟨fun entry member => ?_, ih others later⟩
      rcases List.mem_cons.mp ((insert_perm new rest).mem_iff.mp member) with rfl | member
      · rcases Int.lt_or_eq_of_le behind with sooner | same
        · exact .inl sooner
        · exact .inr ⟨same, old⟩
      · exact above entry member
    · rename_i ahead
      have sooner : Scalar.orderKey new.time < Scalar.orderKey first.time := Int.not_le.mp ahead
      refine List.pairwise_cons.mpr ⟨fun entry member => ?_, sorted⟩
      rcases List.mem_cons.mp member with rfl | member
      · exact .inl sooner
      · have order := above entry member
        unfold Timed.Before at order ⊢
        omega

private theorem popDue_nextSerial {queue rest : TaskQueue α}
    (popped : queue.popDue? now = some (entry, rest)) : rest.nextSerial = queue.nextSerial := by
  unfold popDue? at popped
  split at popped
  · cases popped
  · split at popped <;> cases popped
    rfl

namespace History

private theorem Faithful.serial_lt {history : History α} (faithful : history.Faithful)
    (member : entry ∈ history.queue.entries) : entry.serial < history.arrived.length := by
  have arrived := faithful.all.mem_iff.mpr (List.mem_append_right history.given member)
  rw [← List.mem_range, ← faithful.serials]
  exact List.mem_map_of_mem arrived

private theorem Faithful.after {history : History α} (faithful : history.Faithful) (call : Call α) :
    (history.after call).Faithful := by
  have early (entry : Timed α) (member : entry ∈ history.queue.entries) := faithful.serial_lt member
  obtain ⟨serials, next, all, sorted⟩ := faithful
  cases call with
  | push time task =>
    refine ⟨?_, ?_, ?_, ?_⟩
    · simp [History.after, serials, List.range_succ]
    · simp [History.after, push, next]
    · have added := insert_perm ⟨time, history.arrived.length, task⟩ history.queue.entries
      simp only [History.after, push, next]
      refine (List.perm_append_singleton _ history.arrived).trans ((all.cons _).trans ?_)
      exact List.perm_middle.symm.trans (added.symm.append_left _)
    · exact insert_before (fun entry member => next ▸ early entry member) sorted
  | popDue now =>
    cases popped : history.queue.popDue? now with
    | none =>
      simp only [History.after, popped]
      exact ⟨serials, next, all, sorted⟩
    | some taken =>
      obtain ⟨entry, rest⟩ := taken
      simp only [History.after, popped]
      rw [(popDue_some popped).1] at all sorted
      refine ⟨serials, (popDue_nextSerial popped).trans next, ?_, (List.pairwise_cons.mp sorted).2⟩
      simpa only [List.append_assoc, List.singleton_append] using all

/-- After any pushes and pops the queue holds what came and was not given, in the order in which it is to
leave. -/
theorem faithful_ofCalls (calls : List (Call α)) : (ofCalls calls).Faithful := by
  have empty : ({} : History α).Faithful := ⟨rfl, rfl, .refl _, .nil⟩
  unfold ofCalls
  generalize ({} : History α) = history at empty
  induction calls generalizing history with
  | nil => exact empty
  | cons call calls ih => exact ih _ (empty.after call)

private theorem Faithful.nodup {history : History α} (faithful : history.Faithful) :
    history.arrived.Nodup := by
  have numbers := List.nodup_range (n := history.arrived.length)
  rw [← faithful.serials] at numbers
  exact List.Nodup.of_map Timed.serial numbers

private theorem Faithful.waits_iff {history : History α} (faithful : history.Faithful) (entry : Timed α) :
    history.Waits entry ↔ entry ∈ history.queue.entries := by
  have apart := (List.nodup_append.mp (faithful.all.nodup_iff.mp faithful.nodup)).2.2
  rw [Waits, faithful.all.mem_iff, List.mem_append]
  constructor
  · rintro ⟨given | waiting, kept⟩
    · exact absurd given kept
    · exact waiting
  · intro waiting
    exact ⟨.inr waiting, fun given => apart entry given entry waiting rfl⟩

/-- A queue gives an entry exactly if it waits, leaves before all others that wait, and is due. -/
theorem Faithful.popDue_iff {history : History α} (faithful : history.Faithful) (now : Float32)
    (entry : Timed α) :
    (∃ rest, history.queue.popDue? now = some (entry, rest)) ↔
      history.Waits entry ∧ (∀ other, history.Waits other → other = entry ∨ entry.Before other) ∧
        entry.time ≤ now := by
  simp only [faithful.waits_iff]
  constructor
  · rintro ⟨rest, popped⟩
    obtain ⟨shape, due⟩ := popDue_some popped
    have sorted := faithful.sorted
    rw [shape] at sorted ⊢
    exact ⟨List.mem_cons_self, fun other member => (List.mem_cons.mp member).imp_right
      ((List.pairwise_cons.mp sorted).1 other), due⟩
  · rintro ⟨waits, least, due⟩
    have sorted := faithful.sorted
    unfold popDue?
    cases shape : history.queue.entries with
    | nil =>
      rw [shape] at waits
      cases waits
    | cons first rest =>
      rw [shape] at waits sorted
      obtain rfl : first = entry := by
        rcases least first (shape ▸ List.mem_cons_self) with same | before
        · exact same
        · rcases List.mem_cons.mp waits with same | member
          · exact same.symm
          · have order := (List.pairwise_cons.mp sorted).1 entry member
            unfold Timed.Before at before order
            omega
      exact ⟨_, if_pos due⟩

end History


end TaskQueue

end Sapling
