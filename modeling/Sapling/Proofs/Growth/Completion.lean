import Sapling.Proofs.Growth.Load
import Sapling.Proofs.Growth.Timeline

/-! When a run in frames of one length comes to its end. Each frame moves the clock or makes the work that
is left smaller, unless the frame is too short to move the clock and every task that it calls only waits.
In that state the growth stays for good, and from every other state it gets on. -/
namespace Sapling.Scheduler

open Sapling.Random
open Scalar (Forward)

variable {σ : Type} [SceneHost σ]

/-- One more frame of this length leaves the growth where it is: the clock does not move, nothing is due,
and the tasks of the next frame would only wait for the one after it. -/
structure Stalled (dt : Float32) (s : Scheduler) : Prop where
  unfinished : s.phase ≠ .complete
  still : s.clock + frameLength dt = s.clock
  early : ∀ slot ∈ s.queue.slots, ¬ slot.1 ≤ s.clock
  waiting : ∀ task ∈ s.nextFrame.toList, s.Waits s.clock task

instance (dt : Float32) (s : Scheduler) : Decidable (Stalled dt s) :=
  decidable_of_iff (s.phase ≠ .complete ∧ s.clock + frameLength dt = s.clock ∧
    (∀ slot ∈ s.queue.slots, ¬ slot.1 ≤ s.clock) ∧ ∀ task ∈ s.nextFrame.toList, s.Waits s.clock task)
    ⟨fun ⟨unfinished, still, early, waiting⟩ => ⟨unfinished, still, early, waiting⟩,
      fun ⟨unfinished, still, early, waiting⟩ => ⟨unfinished, still, early, waiting⟩⟩

/-- The first frame makes the root, and that is all it does before the clock moves. -/
theorem begun_eq (s : Scheduler) (dt : Float32) (host : σ) :
    ∃ root, (s.begun dt host).1 = { s with root }.beginFrame (frameLength dt) := by
  unfold begun ensureRoot
  cases root : s.root with
  | some node =>
    refine ⟨some node, ?_⟩
    dsimp only
    rw [← root]
  | none => exact ⟨_, rfl⟩

private theorem runDue_unchanged (steps : Nat) (s : Scheduler) (host : σ) :
    SameTree s (s.runDue steps host).1 ∧ (s.runDue steps host).1.clock = s.clock := by
  induction steps generalizing s host with
  | zero => exact ⟨.refl s, rfl⟩
  | succ steps ih =>
    cases popped : s.queue.popDue? s.clock with
    | none =>
      rw [runDue_stuck popped]
      exact ⟨.refl s, rfl⟩
    | some taken =>
      obtain ⟨entry, queue⟩ := taken
      obtain ⟨⟨tree, timing, mesh, bark, total⟩, -, clock⟩ :=
        (runTask_move { s with queue } entry host).unchanged
      obtain ⟨same, still⟩ := ih ({ s with queue }.runTask entry host).1
        ({ s with queue }.runTask entry host).2
      rw [runDue_popped popped]
      exact ⟨SameTree.trans ⟨tree, timing, mesh, bark, total⟩ same, still.trans clock⟩

/-- A frame moves the clock by its counted length, whether or not the tree is complete. -/
theorem advance_clock (s : Scheduler) (dt : Float32) (host : σ) :
    (s.advance dt host).1.clock = s.clock + frameLength dt := by
  obtain ⟨root, begun⟩ := s.begun_eq dt host
  have clock : (s.advance dt host).1.clock = (s.begun dt host).1.clock := (runDue_unchanged ..).2
  rw [clock, begun]
  rfl

/-! ## A stalled run stays stalled -/

/-- Within a frame of a stalled run: whatever is due only waits. -/
structure Idle (s : Scheduler) : Prop where
  unfinished : s.phase ≠ .complete
  due : ∀ slot ∈ s.queue.slots, slot.1 ≤ s.clock → slot.1 = s.clock ∧ s.Waits s.clock slot.2
  waiting : ∀ task ∈ s.nextFrame.toList, s.Waits s.clock task

private theorem Idle.move {s s' : Scheduler} {host host' : σ} {queue : TaskQueue Task} (idle : Idle s)
    (popped : s.queue.popDue? s.clock = some (entry, queue))
    (move : Move { s with queue } entry.time host entry.task s' host') : Idle s' := by
  obtain ⟨unfinished, due, waiting⟩ := idle
  rw [TaskQueue.popDue_slots popped] at due
  obtain ⟨now, waits⟩ := due _ List.mem_cons_self (TaskQueue.popDue_some popped).2
  have waits' : { s with queue }.Waits entry.time entry.task := by
    rw [show entry.time = s.clock from now]
    exact waits
  rw [waits'.move move]
  refine ⟨unfinished, fun slot member => due slot (List.mem_cons_of_mem _ member), ?_⟩
  intro task member
  rw [Array.toList_push] at member
  rcases List.mem_append.mp member with before | last
  · exact waiting task before
  · obtain rfl := List.mem_singleton.mp last
    exact waits

private theorem Idle.runDue (steps : Nat) {s : Scheduler} (idle : Idle s) (host : σ) :
    Idle (s.runDue steps host).1 := by
  induction steps generalizing s host with
  | zero => exact idle
  | succ steps ih =>
    cases popped : s.queue.popDue? s.clock with
    | none => rwa [runDue_stuck popped]
    | some taken =>
      obtain ⟨entry, queue⟩ := taken
      rw [runDue_popped popped]
      exact ih (idle.move popped (runTask_move { s with queue } entry host)) _

/-- The tasks of the last frame join the queue at the time of the new one. -/
theorem slots_begun (s : Scheduler) (dt : Float32) (host : σ) :
    (s.begun dt host).1.queue.slots.Perm (s.queue.slots ++
      s.nextFrame.toList.map fun task => (s.clock + frameLength dt, task)) := by
  obtain ⟨root, begun⟩ := s.begun_eq dt host
  rw [begun]
  simp only [beginFrame, ← Array.foldl_toList]
  exact TaskQueue.push_all_slots ..

/-- What a run keeps that its end depends on. -/
def Sound (s : Scheduler) : Prop := Accounts s s.tasks ∧ Timely s

theorem Sound.kept : Kept fun s (_ : σ) => Sound s := Accounts.kept.both Timely.kept

/-- At the end of a frame nothing that waits is due. -/
theorem Sound.early {s : Scheduler} (sound : Sound s) (dt : Float32) (host : σ) :
    ∀ slot ∈ (s.advance dt host).1.queue.slots, ¬ slot.1 ≤ (s.advance dt host).1.clock := by
  have timely : Timely (s.advance dt host).1 := Timely.kept.advance dt sound.2
  have noneDue := timely.queue.none_due timely.clock (advance_exhausts sound.1 dt host)
  intro slot member
  obtain ⟨entry, listed, rfl⟩ := List.mem_map.mp member
  exact noneDue entry listed

private theorem Stalled.advance {s : Scheduler} (stalled : Stalled dt s) (sound : Sound s) (host : σ) :
    Stalled dt (s.advance dt host).1 := by
  obtain ⟨unfinished, still, early, waiting⟩ := stalled
  have begins : Idle (s.begun dt host).1 := by
    have slots := s.slots_begun dt host
    rw [still] at slots
    obtain ⟨root, begun⟩ := s.begun_eq dt host
    rw [begun] at slots ⊢
    refine ⟨unfinished, ?_, fun task member => by cases member⟩
    intro slot member due
    have clock : ({ s with root }.beginFrame (frameLength dt)).clock = s.clock := still
    rw [clock] at due ⊢
    rcases List.mem_append.mp (slots.mem_iff.mp member) with old | new
    · exact absurd due (early slot old)
    · obtain ⟨task, listed, rfl⟩ := List.mem_map.mp new
      exact ⟨rfl, waiting task listed⟩
  have idle : Idle (s.advance dt host).1 := begins.runDue _ _
  have clock := s.advance_clock dt host
  rw [still] at clock
  exact ⟨idle.unfinished, by rw [clock, still], sound.early dt host, idle.waiting⟩

/-! ## A run that is not stalled gets on -/

/-- Within a frame that leaves the clock where it is: either some work is done, or nothing has changed but
where the tasks wait, and those that have made their step only wait. -/
def Quiet (first : Scheduler) (called : List Task) (s : Scheduler) : Prop :=
  load first.interpretation s.tasks < load first.interpretation first.tasks ∨
  load first.interpretation s.tasks = load first.interpretation first.tasks ∧
  (∀ time task, s.Waits time task ↔ first.Waits time task) ∧
  (∀ slot ∈ s.queue.slots, slot.1 ≤ first.clock → slot.1 = first.clock) ∧
  ∀ task ∈ called, (first.clock, task) ∈ s.queue.slots ∨ first.Waits first.clock task

private theorem Quiet.move {first s s' : Scheduler} {host host' : σ} {queue : TaskQueue Task}
    (quiet : Quiet first called s) (same : SameTree first s) (clock : s.clock = first.clock)
    (popped : s.queue.popDue? s.clock = some (entry, queue))
    (move : Move { s with queue } entry.time host entry.task s' host') : Quiet first called s' := by
  rcases load_popped popped move with lighter | ⟨kept, waits, after⟩
  · rw [same.tree] at lighter
    left
    rcases quiet with less | ⟨equal, -⟩ <;> omega
  · rw [same.tree] at kept
    subst after
    rcases quiet with less | ⟨equal, waiting, due, there⟩
    · exact .inl (kept ▸ less)
    · rw [TaskQueue.popDue_slots popped] at due there
      have now : entry.time = first.clock :=
        due _ List.mem_cons_self (clock ▸ (TaskQueue.popDue_some popped).2)
      refine .inr ⟨kept.trans equal, waiting,
        fun slot member => due slot (List.mem_cons_of_mem _ member), ?_⟩
      intro task member
      rcases there task member with slot | waits'
      · rcases List.mem_cons.mp slot with this | slot
        · obtain ⟨-, rfl⟩ := Prod.mk.inj this
          exact .inr (now ▸ (waiting _ _).mp waits)
        · exact .inl slot
      · exact .inr waits'

private theorem Quiet.runDue (steps : Nat) {first s : Scheduler} (quiet : Quiet first called s)
    (same : SameTree first s) (clock : s.clock = first.clock) (host : σ) :
    Quiet first called (s.runDue steps host).1 := by
  induction steps generalizing s host with
  | zero => exact quiet
  | succ steps ih =>
    cases popped : s.queue.popDue? s.clock with
    | none => rwa [runDue_stuck popped]
    | some taken =>
      obtain ⟨entry, queue⟩ := taken
      have move := runTask_move { s with queue } entry host
      obtain ⟨⟨tree, timing, mesh, bark, total⟩, -, still⟩ := move.unchanged
      rw [runDue_popped popped]
      exact ih (quiet.move same clock popped move)
        (same.trans ⟨tree, timing, mesh, bark, total⟩) (still.trans clock) _

/-- A frame that leaves the clock where it is does some work, unless the run is stalled. -/
theorem lighter_of_not_stalled {s : Scheduler} (sound : Sound s)
    (early : ∀ slot ∈ s.queue.slots, ¬ slot.1 ≤ s.clock) (unfinished : s.phase ≠ .complete)
    (still : s.clock + frameLength dt = s.clock) (moving : ¬ Stalled dt s) (host : σ) :
    load s.interpretation (s.advance dt host).1.tasks < load s.interpretation s.tasks := by
  obtain ⟨root, begun⟩ := s.begun_eq dt host
  have slots := s.slots_begun dt host
  have tasks : load s.interpretation (s.begun dt host).1.tasks = load s.interpretation s.tasks := by
    rw [begun]
    exact load_perm _ (tasks_beginFrame { s with root } _)
  have clock : (s.begun dt host).1.clock = s.clock := by
    rw [begun]
    exact still
  rw [still] at slots
  have starts : Quiet (s.begun dt host).1 s.nextFrame.toList (s.begun dt host).1 := by
    refine .inr ⟨rfl, fun _ _ => .rfl, ?_, ?_⟩
    · intro slot member due
      rw [clock] at due ⊢
      rcases List.mem_append.mp (slots.mem_iff.mp member) with old | new
      · exact absurd due (early slot old)
      · obtain ⟨task, -, rfl⟩ := List.mem_map.mp new
        rfl
    · intro task member
      rw [clock, slots.mem_iff]
      exact .inl (List.mem_append_right _ (List.mem_map.mpr ⟨task, member, rfl⟩))
  have ends : Quiet (s.begun dt host).1 s.nextFrame.toList (s.advance dt host).1 :=
    starts.runDue _ (.refl _) rfl _
  have tree : (s.begun dt host).1.interpretation = s.interpretation := by rw [begun]; rfl
  rw [Quiet, tree, tasks] at ends
  rcases ends with lighter | ⟨-, -, -, there⟩
  · exact lighter
  · -- All tasks that were called only wait, so the run is stalled.
    refine absurd ⟨unfinished, still, early, ?_⟩ moving
    intro task member
    rcases there task member with slot | waits
    · have late := sound.early dt host _ slot
      have now : (s.advance dt host).1.clock = s.clock := (s.advance_clock dt host).trans still
      rw [clock, now] at late
      exact absurd ((sound.2.clock.le_iff sound.2.clock).mpr (Nat.le_refl _)) late
    · rw [clock, begun] at waits
      exact waits

/-- No frame adds work. -/
theorem load_advance_le (s : Scheduler) (dt : Float32) (host : σ) :
    load s.interpretation (s.advance dt host).1.tasks ≤ load s.interpretation s.tasks := by
  have kept : Kept fun t (_ : σ) => SameTree s t ∧
      load s.interpretation t.tasks ≤ load s.interpretation s.tasks := by
    refine (SameTree.kept s).and ?_ ?_ ?_
    · rintro t host - - light
      exact light
    · rintro t host dt - - light
      rwa [load_perm _ (tasks_beginFrame t _)]
    · rintro t t' host host' entry queue - same light popped move
      rcases load_popped popped move with lighter | ⟨equal, -⟩
      · rw [same.tree] at lighter
        omega
      · rw [same.tree] at equal
        omega
  exact (kept.advance dt ⟨.refl s, Nat.le_refl _⟩).2

/-- The bits of the clock. They grow with it. -/
def reading (s : Scheduler) : Nat := s.clock.toBits.toNat

/-- Every frame of a run that is not stalled moves the clock on or does some work. -/
theorem frame_progress {s : Scheduler} (sound : Sound s)
    (early : ∀ slot ∈ s.queue.slots, ¬ slot.1 ≤ s.clock) (unfinished : s.phase ≠ .complete)
    (moving : ¬ Stalled dt s) (host : σ) :
    s.reading + load s.interpretation (s.advance dt host).1.tasks + 1 ≤
      (s.advance dt host).1.reading + load s.interpretation s.tasks := by
  have light := s.load_advance_le dt host
  have onward : s.reading ≤ (s.advance dt host).1.reading := by
    rw [reading, reading, advance_clock]
    exact (clock_beginFrame sound.2.clock dt).2
  by_cases still : s.clock + frameLength dt = s.clock
  · have lighter := lighter_of_not_stalled sound early unfinished still moving host
    omega
  · have moved : s.reading ≠ (s.advance dt host).1.reading := by
      rw [reading, reading, advance_clock]
      exact fun same => still (Scalar.eq_of_bits_eq same).symm
    omega

/-! ## Runs -/

/-- No frame changes a complete tree. -/
theorem runFrames_complete {s : Scheduler} (complete : s.isComplete) (dt : Float32) (frames : Nat)
    (host : σ) : s.runFrames dt frames host = (s, host) := by
  cases frames with
  | zero => rfl
  | succ frames => simp only [runFrames, complete, ↓reduceIte]

/-- The first of several frames is an advance as long as the tree is not complete. -/
theorem runFrames_succ {s : Scheduler} (unfinished : s.phase ≠ .complete) (dt : Float32)
    (frames : Nat) (host : σ) :
    s.runFrames dt (frames + 1) host =
      (s.advance dt host).1.runFrames dt frames (s.advance dt host).2 := by
  simp only [runFrames, isComplete, unfinished, decide_false, Bool.false_eq_true, ↓reduceIte]

private theorem runFrames_add (s : Scheduler) (dt : Float32) (first second : Nat) (host : σ) :
    s.runFrames dt (first + second) host =
      (s.runFrames dt first host).1.runFrames dt second (s.runFrames dt first host).2 := by
  induction first generalizing s host with
  | zero => rw [Nat.zero_add]; rfl
  | succ first ih =>
    by_cases complete : s.isComplete
    · rw [runFrames_complete complete, runFrames_complete complete, runFrames_complete complete]
    · have unfinished : s.phase ≠ .complete := by simpa [isComplete] using complete
      rw [Nat.add_right_comm, runFrames_succ unfinished, runFrames_succ unfinished, ih]

private theorem Stalled.runFrames {s : Scheduler} (stalled : Stalled dt s) (sound : Sound s) (frames : Nat)
    (host : σ) : Stalled dt (s.runFrames dt frames host).1 := by
  induction frames generalizing s host with
  | zero => exact stalled
  | succ frames ih =>
    rw [runFrames_succ stalled.unfinished]
    exact ih (stalled.advance sound host) (Sound.kept.advance dt sound) _

/-- A run that is never stalled and not complete has no more frames than there are readings of the clock,
and pieces of work, still to come. -/
theorem frames_bounded (frames : Nat) {s : Scheduler} {host : σ} (sound : Sound s)
    (early : ∀ slot ∈ s.queue.slots, ¬ slot.1 ≤ s.clock)
    (unfinished : ∀ frame < frames, (s.runFrames dt frame host).1.phase ≠ .complete)
    (moving : ∀ frame < frames, ¬ Stalled dt (s.runFrames dt frame host).1) :
    s.reading + frames ≤ 255 * 2 ^ 23 + load s.interpretation s.tasks := by
  induction frames generalizing s host with
  | zero => exact Nat.le_trans sound.2.clock (Nat.le_add_right _ _)
  | succ frames ih =>
    have going : s.phase ≠ .complete := unfinished 0 (Nat.succ_pos _)
    have progress := frame_progress sound early going (moving 0 (Nat.succ_pos _)) host
    have same : SameTree s (s.advance dt host).1 := (SameTree.kept s).advance dt (.refl s)
    have rest := ih (Sound.kept.advance dt sound) (sound.early dt host)
      (fun frame below => by
        rw [← runFrames_succ going]
        exact unfinished (frame + 1) (Nat.succ_lt_succ below))
      (fun frame below => by
        rw [← runFrames_succ going]
        exact moving (frame + 1) (Nat.succ_lt_succ below))
    rw [same.tree] at rest
    omega

/-- A run stays as it is once it is complete. -/
theorem complete_later {s : Scheduler} {dt : Float32} {host : σ} (first : Nat)
    (complete : (s.runFrames dt first host).1.isComplete) (later : first ≤ frames) :
    s.runFrames dt frames host = s.runFrames dt first host := by
  obtain ⟨rest, rfl⟩ := Nat.exists_eq_add_of_le later
  rw [runFrames_add, runFrames_complete complete]

private theorem stalled_later {s : Scheduler} {host : σ} (sound : Sound s) (first : Nat)
    (stalled : Stalled dt (s.runFrames dt first host).1) (later : first ≤ frames) :
    Stalled dt (s.runFrames dt frames host).1 := by
  obtain ⟨rest, rfl⟩ := Nat.exists_eq_add_of_le later
  rw [runFrames_add]
  exact stalled.runFrames (Sound.kept.runFrames dt first sound) rest _

/-- A run that is never stalled is complete within the bound on its frames. -/
theorem complete_of_never_stalled {s : Scheduler} {host : σ} (sound : Sound s)
    (moving : ∀ frames, ¬ Stalled dt (s.runFrames dt frames host).1) :
    (s.runFrames dt s.frameBound host).1.isComplete := by
  apply Classical.byContradiction
  intro never
  have unfinished : ∀ frame ≤ s.frameBound, (s.runFrames dt frame host).1.phase ≠ .complete := by
    intro frame below complete
    have reached : (s.runFrames dt frame host).1.isComplete := by simp [isComplete, complete]
    rw [complete_later frame reached below] at never
    exact never reached
  have going : s.phase ≠ .complete := unfinished 0 (Nat.zero_le _)
  -- What waits at first may be due at once, so the count begins after the first frame.
  have unfinished' : ∀ frame < s.frameBound - 1,
      ((s.advance dt host).1.runFrames dt frame (s.advance dt host).2).1.phase ≠ .complete := by
    intro frame below
    rw [← runFrames_succ going]
    exact unfinished (frame + 1) (by omega)
  have moving' : ∀ frame < s.frameBound - 1,
      ¬ Stalled dt ((s.advance dt host).1.runFrames dt frame (s.advance dt host).2).1 := by
    intro frame _
    rw [← runFrames_succ going]
    exact moving (frame + 1)
  have bounded := frames_bounded (s.frameBound - 1) (Sound.kept.advance dt sound)
    (sound.early dt host) unfinished' moving'
  have same : SameTree s (s.advance dt host).1 := (SameTree.kept s).advance dt (.refl s)
  have light := s.load_advance_le dt host
  have bound := sound.1.load_le
  rw [same.tree] at bounded
  unfold frameBound at bounded
  simp only [UInt32.size] at bounded
  omega

/-- A run comes to its end exactly when it is never stalled, and then within the bound on its frames. -/
theorem complete_iff_never_stalled {s : Scheduler} (sound : Sound s) (dt : Float32) (host : σ) :
    ((∃ frames, (s.runFrames dt frames host).1.isComplete) ↔
      ∀ frames, ¬ Stalled dt (s.runFrames dt frames host).1) ∧
    ((∃ frames, (s.runFrames dt frames host).1.isComplete) ↔
      (s.runFrames dt s.frameBound host).1.isComplete) := by
  have never : (∃ frames, (s.runFrames dt frames host).1.isComplete) →
      ∀ frames, ¬ Stalled dt (s.runFrames dt frames host).1 := by
    rintro ⟨last, complete⟩ frames stalled
    rcases Nat.le_total frames last with sooner | later
    · have still := stalled_later sound frames stalled sooner
      exact still.unfinished (by simpa [isComplete] using complete)
    · rw [complete_later last complete later] at stalled
      exact stalled.unfinished (by simpa [isComplete] using complete)
  exact ⟨⟨never, fun moving => ⟨_, complete_of_never_stalled sound moving⟩⟩,
    fun ends => complete_of_never_stalled sound (never ends), fun complete => ⟨_, complete⟩⟩

end Sapling.Scheduler
