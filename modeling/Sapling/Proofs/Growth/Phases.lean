import Mathlib.Algebra.Group.Action.Defs
import Mathlib.Algebra.Order.BigOperators.Group.List
import Mathlib.Algebra.Order.Ring.Nat
import Sapling.Proofs.Foliage.Packing
import Sapling.Proofs.Growth.Accounts
import Sapling.Proofs.Random.Integers

/-! The order of growth. Phases only move on, one at a time, and leaves come anchor by anchor once all
branches are done. -/
namespace Sapling

def Phase.rank : Phase → Nat
  | .branches => 0
  | .leaves => 1
  | .complete => 2

/-- What a single step can make of a phase. -/
inductive Phase.Next : Phase → Phase → Prop where
  | same (phase : Phase) : Next phase phase
  | leaves : Next .branches .leaves
  | complete : Next .leaves .complete

theorem Phase.Next.rank_le (next : Phase.Next before after) : before.rank ≤ after.rank := by
  cases next <;> simp [Phase.rank]

namespace Scheduler

open Sapling.Random

variable {σ : Type} [SceneHost σ]

/-- A move ends at most the present phase, and never starts an earlier one. -/
theorem Move.phase_next {s s' : Scheduler} {host host' : σ} (accounts : Accounts s (task :: s.tasks))
    (move : Move s time host task s' host') : Phase.Next s.phase s'.phase := by
  have held := accounts.held
  cases move with
  | leave last idle =>
    rw [(held_dispatch held).1]
    exact .leaves
  | lastCluster found last =>
    rw [(held_spawnLeaves held).1]
    exact .complete
  | finish beyond =>
    rw [(held_spawnLeaves held).1]
    exact .complete
  | _ => exact .same _

/-- The fewest and the most leaves that a cluster gets. -/
def fewestLeaves (timing : GrowthTiming) : Nat :=
  min timing.leavesPerCluster.1.toNat timing.leavesPerCluster.2.toNat

def mostLeaves (timing : GrowthTiming) : Nat :=
  max timing.leavesPerCluster.1.toNat timing.leavesPerCluster.2.toNat

/-- The foliage is what the clusters of the first anchors make of the foliage there was at first. Each
of these anchors has one cluster, and they come in the order of the anchors. -/
def Grown (tree : Interpretation) (timing : GrowthTiming) (bare : Batcher) (s : Scheduler) : Prop :=
  ∃ clusters : List (Anchor × Nat),
    clusters.map Prod.fst = tree.anchors.toList.take s.stats.clustersSpawned ∧
    (clusters.map Prod.snd).sum = s.stats.leavesSpawned ∧
    (∀ cluster ∈ clusters, fewestLeaves timing ≤ cluster.2 ∧ cluster.2 ≤ mostLeaves timing) ∧
    s.foliage = bare.addClusters clusters timing.leafSpread

/-- What is true of leaves and phases at every moment. -/
structure Foliated (tree : Interpretation) (timing : GrowthTiming) (bare : Batcher) (s : Scheduler) :
    Prop where
  grown : Grown tree timing bare s
  inside : s.stats.clustersSpawned ≤ tree.anchors.size
  all : s.phase = .complete → s.stats.clustersSpawned = tree.anchors.size
  rooted : s.phase ≠ .branches → s.root.isSome

/-- One more cluster, for the anchor after those that have one. -/
theorem Grown.afterCluster {s : Scheduler} (grown : Grown s.interpretation s.timing bare s)
    (found : s.interpretation.anchors[s.stats.clustersSpawned]? = some anchor) :
    Grown s.interpretation s.timing bare (s.afterCluster anchor) := by
  obtain ⟨clusters, anchors, sum, bounds, foliage⟩ := grown
  refine ⟨clusters ++ [(anchor, s.nextCount.1.toNat)], ?_, ?_, ?_, ?_⟩
  · have listed : s.interpretation.anchors.toList[s.stats.clustersSpawned]? = some anchor := by
      simpa using found
    rw [List.map_append, anchors]
    change _ = s.interpretation.anchors.toList.take (s.stats.clustersSpawned + 1)
    rw [List.take_add_one, listed]
    rfl
  · rw [List.map_append, List.sum_append, sum]
    rfl
  · intro cluster member
    rcases List.mem_append.mp member with before | last
    · exact bounds cluster before
    · obtain rfl := List.mem_singleton.mp last
      exact countInRange_bounds s.timing.leavesPerCluster s.generator
  · rw [Batcher.addClusters_append, ← foliage]
    rfl

private theorem Foliated.move {s s' : Scheduler} {host host' : σ} (accounts : Accounts s (task :: s.tasks))
    (rooted : s.root.isSome) (foliated : Foliated s.interpretation s.timing bare s)
    (move : Move s time host task s' host') : Foliated s.interpretation s.timing bare s' := by
  obtain ⟨grown, inside, all, _⟩ := foliated
  have held := accounts.held
  cases move with
  | leave last idle => exact ⟨grown, inside, nofun, fun _ => rooted⟩
  | cluster found more =>
    obtain ⟨phase, rfl, -⟩ := held_spawnLeaves held
    have away : s.phase ≠ .complete := by simp [phase]
    exact ⟨grown.afterCluster found, Nat.le_of_lt more, fun done => absurd done away, fun _ => rooted⟩
  | lastCluster found last =>
    obtain ⟨phase, rfl, -⟩ := held_spawnLeaves held
    have before := (Array.getElem?_eq_some_iff.mp found).1
    exact ⟨grown.afterCluster found, before, fun _ => Nat.le_antisymm before last, fun _ => rooted⟩
  | finish beyond =>
    obtain ⟨phase, rfl, -⟩ := held_spawnLeaves held
    exact ⟨grown, inside, fun _ => Nat.le_antisymm inside beyond, fun _ => rooted⟩
  | _ => exact ⟨grown, inside, all, fun _ => rooted⟩

/-- The leaves stay those of the clusters that were spawned so far, in their order. -/
theorem Foliated.kept (fresh : Scheduler) :
    Kept fun s (_ : σ) => (Accounts s s.tasks ∧ SameTree fresh s) ∧
      Foliated fresh.interpretation fresh.timing fresh.foliage s := by
  refine (Accounts.kept_same fresh).and ?_ ?_ ?_
  · rintro s host - - ⟨grown, inside, all, -⟩
    exact ⟨grown, inside, all, fun _ => rfl⟩
  · rintro s host dt rooted - ⟨grown, inside, all, -⟩
    exact ⟨grown, inside, all, fun _ => rooted⟩
  · rintro s s' host host' entry queue rooted ⟨accounts, same⟩ foliated popped move
    rw [← same.tree, ← same.timing] at foliated ⊢
    obtain ⟨grown, inside, all, later⟩ := foliated
    have after := Foliated.move (accounts.popped popped) rooted ⟨grown, inside, all, later⟩ move
    exact after

/-- A phase is never left for an earlier one. -/
theorem rank_kept (rank : Nat) :
    Kept fun s (_ : σ) => Accounts s s.tasks ∧ rank ≤ s.phase.rank := by
  refine Accounts.kept.and (fun _ _ holds => holds) (fun _ _ _ holds => holds) ?_
  intro s s' host host' entry queue rooted accounts holds popped move
  exact Nat.le_trans holds (move.phase_next (accounts.popped popped)).rank_le

private theorem runDue_add (s : Scheduler) (first second : Nat) (host : σ) :
    s.runDue (first + second) host =
      (s.runDue first host).1.runDue second (s.runDue first host).2 := by
  induction first generalizing s host with
  | zero => rw [Nat.zero_add]; rfl
  | succ first ih =>
    cases popped : s.queue.popDue? s.clock with
    | none => rw [runDue_stuck popped, runDue_stuck popped, runDue_stuck popped]
    | some taken =>
      obtain ⟨entry, queue⟩ := taken
      rw [Nat.add_right_comm, runDue_popped popped, runDue_popped popped, ih]

private theorem runDue_one_phase_next {s : Scheduler} (accounts : Accounts s s.tasks) (host : σ) :
    Phase.Next s.phase (s.runDue 1 host).1.phase := by
  cases popped : s.queue.popDue? s.clock with
  | none =>
    rw [runDue_stuck popped]
    exact .same _
  | some taken =>
    obtain ⟨entry, queue⟩ := taken
    rw [runDue_popped popped]
    have next := Move.phase_next (accounts.popped popped) (runTask_move { s with queue } entry host)
    exact next

/-- From one step of a frame to the next the phase stays or moves on by one. -/
theorem midFrame_phase_next {s : Scheduler} (accounts : Accounts s s.tasks) (dt : Float32)
    (steps : Nat) (host : σ) :
    Phase.Next (s.midFrame dt steps host).1.phase (s.midFrame dt (steps + 1) host).1.phase := by
  have there : Accounts (s.midFrame dt steps host).1 (s.midFrame dt steps host).1.tasks :=
    Accounts.kept.midFrame dt steps accounts
  unfold midFrame at there ⊢
  rw [runDue_add]
  exact runDue_one_phase_next there _

/-- When nothing is left to do, a frame only moves the clock, whatever the host. -/
theorem advance_idle {s : Scheduler} (idle : s.tasks = []) (rooted : s.root.isSome) (dt : Float32)
    (host : σ) :
    s.advance dt host =
      ({ s with
        clock := s.clock + frameLength dt
        stats := { s.stats with
          frames := s.stats.frames + 1
          elapsed := s.clock + frameLength dt
          lastFrame := frameLength dt } }, host) := by
  obtain ⟨queued, framed⟩ := List.append_eq_nil_iff.mp idle
  have empty : s.queue.entries = [] := List.map_eq_nil_iff.mp queued
  have frame : s.nextFrame = #[] := Array.toList_eq_nil_iff.mp framed
  obtain ⟨node, root⟩ := Option.isSome_iff_exists.mp rooted
  have begins : s.ensureRoot host = (s, host) := by simp only [ensureRoot, root]
  have stuck : (s.beginFrame (frameLength dt)).queue.popDue?
      (s.beginFrame (frameLength dt)).clock = none := by
    simp [beginFrame, frame, TaskQueue.popDue?, empty]
  simp only [advance, begins, runDue_stuck stuck]
  simp [beginFrame, frame]

/-- A run in two parts is one run. -/
theorem run_append (s : Scheduler) (before after : List Float32) (host : σ) :
    s.run (before ++ after) host = (s.run before host).1.run after (s.run before host).2 :=
  List.foldl_append

theorem Foliated.fresh {tree : Interpretation} {settings : TreeSettings} {source : Generator}
    (accepted : checked tree settings source = .ok s) :
    Foliated s.interpretation s.timing s.foliage s := by
  obtain ⟨-, rfl⟩ := checked_ok accepted
  exact ⟨⟨[], rfl, rfl, nofun, rfl⟩, Nat.zero_le _, nofun, fun away => absurd rfl away⟩

/-- The leaves are counted, and there are as many as clusters of the allowed sizes have. -/
theorem Grown.leaves_bounded {timing : GrowthTiming} (grown : Grown tree timing bare s)
    (inside : s.stats.clustersSpawned ≤ tree.anchors.size) :
    s.foliage.leafCount = bare.leafCount + s.stats.leavesSpawned ∧
    s.stats.clustersSpawned * fewestLeaves timing ≤ s.stats.leavesSpawned ∧
    s.stats.leavesSpawned ≤ s.stats.clustersSpawned * mostLeaves timing := by
  obtain ⟨clusters, anchors, sum, bounds, foliage⟩ := grown
  have length : (clusters.map Prod.snd).length = s.stats.clustersSpawned := by
    rw [List.length_map, ← List.length_map Prod.fst, anchors, List.length_take, Array.length_toList]
    exact Nat.min_eq_left inside
  have least : ∀ count ∈ clusters.map Prod.snd, fewestLeaves timing ≤ count := by
    intro count member
    obtain ⟨cluster, listed, rfl⟩ := List.mem_map.mp member
    exact (bounds cluster listed).1
  have most : ∀ count ∈ clusters.map Prod.snd, count ≤ mostLeaves timing := by
    intro count member
    obtain ⟨cluster, listed, rfl⟩ := List.mem_map.mp member
    exact (bounds cluster listed).2
  refine ⟨?_, ?_, ?_⟩
  · rw [foliage, Batcher.leafCount_addClusters, sum]
  · simpa only [length, sum, smul_eq_mul] using List.card_nsmul_le_sum _ _ least
  · simpa only [length, sum, smul_eq_mul] using List.sum_le_card_nsmul _ _ most

/-- In every run of an accepted scheduler the phases come in order. Leaves are only there when all
branches are done, and come from one cluster for each anchor, in the order of the anchors. Once the
growth is complete, a frame moves the clock and touches nothing else, and no host sees it. -/
theorem phases_and_leaves_in_order {tree : Interpretation} {settings : TreeSettings}
    {source : Generator} (accepted : checked tree settings source = .ok fresh)
    (lengths : List Float32) (host : σ) :
    let s := (fresh.run lengths host).1
    let later := (fresh.run lengths host).2
    (∀ dt steps, Phase.Next (s.midFrame dt steps later).1.phase
      (s.midFrame dt (steps + 1) later).1.phase) ∧
    (∀ more, s.phase.rank ≤ (fresh.run (lengths ++ more) host).1.phase.rank) ∧
    (s.phase ≠ .branches ∨ 0 < s.foliage.leafCount →
      s.stats.branchesCompleted = s.stats.branchesStarted ∧
      s.stats.branchesStarted = s.stats.branchesTotal) ∧
    Grown tree settings.timing fresh.foliage s ∧
    s.stats.clustersSpawned ≤ tree.anchors.size ∧
    (s.phase = .complete → s.stats.clustersSpawned = tree.anchors.size) ∧
    s.foliage.leafCount = s.stats.leavesSpawned ∧
    s.stats.clustersSpawned * fewestLeaves settings.timing ≤ s.stats.leavesSpawned ∧
    s.stats.leavesSpawned ≤ s.stats.clustersSpawned * mostLeaves settings.timing ∧
    (s.phase = .complete → ∀ {τ : Type} [SceneHost τ] (scene : τ) dt,
      s.advance dt scene =
        ({ s with
          clock := s.clock + frameLength dt
          stats := { s.stats with
            frames := s.stats.frames + 1
            elapsed := s.clock + frameLength dt
            lastFrame := frameLength dt } }, scene)) := by
  intro s later
  have kept : (Accounts s s.tasks ∧ SameTree fresh s) ∧
      Foliated fresh.interpretation fresh.timing fresh.foliage s :=
    (Foliated.kept fresh).run lengths ⟨⟨.fresh accepted, .refl fresh⟩, .fresh accepted⟩
  obtain ⟨-, rfl⟩ := checked_ok accepted
  obtain ⟨⟨accounts, -⟩, grown, inside, all, rooted⟩ := kept
  obtain ⟨counted, least, most⟩ := grown.leaves_bounded inside
  have leafCount : s.foliage.leafCount = s.stats.leavesSpawned := counted.trans (Nat.zero_add _)
  -- Before the last branch is done no anchor has a cluster, so there is no leaf.
  have leafless : s.phase = .branches → s.foliage.leafCount = 0 := by
    intro early
    rw [accounts.bare early, Nat.zero_mul] at most
    omega
  refine ⟨fun dt steps => midFrame_phase_next accounts dt steps later, ?_, ?_, grown, inside, all,
    leafCount, least, most, ?_⟩
  · intro more
    rw [run_append]
    exact ((rank_kept s.phase.rank).run more ⟨accounts, Nat.le_refl _⟩).2
  · intro beyond
    have away : s.phase ≠ .branches := beyond.elim id fun positive early =>
      absurd (leafless early) (Nat.ne_of_gt positive)
    obtain ⟨started, idle⟩ := accounts.done away
    have balance := accounts.balance
    exact ⟨by omega, started⟩
  · intro complete τ _ scene dt
    have tasks := accounts.tasks_of_phase
    rw [complete] at tasks
    exact advance_idle tasks.1 (rooted (by simp [complete])) dt scene

/-- A sprout is complete after five frames, with two clusters of three to five leaves each, and one more
frame moves only its clock. -/
theorem phases_in_order_for_sprout :
    checked sprout {} (.ofSeed 7) = .ok (atStart sprout {} (.ofSeed 7)) ∧
    let s := ((atStart sprout {} (.ofSeed 7)).run [0, 60, 1, 2, 1] Recording.empty).1
    s.phase = .complete ∧ s.stats.branchesCompleted = s.stats.branchesStarted ∧
    s.stats.clustersSpawned = 2 ∧ s.foliage.leafCount = s.stats.leavesSpawned ∧
    2 * 3 ≤ s.stats.leavesSpawned ∧ s.stats.leavesSpawned ≤ 2 * 5 ∧
    (s.advance 1 Recording.empty).2 = Recording.empty := by
  have accepted : checked sprout {} (.ofSeed 7) = .ok (atStart sprout {} (.ofSeed 7)) := rfl
  have complete : ((atStart sprout {} (.ofSeed 7)).run [0, 60, 1, 2, 1] Recording.empty).1.phase =
      .complete := by decide +kernel
  obtain ⟨-, -, closed, -, -, all, leaves, least, most, idle⟩ :=
    phases_and_leaves_in_order accepted [0, 60, 1, 2, 1] Recording.empty
  have clusters := all complete
  rw [clusters] at least most
  exact ⟨accepted, complete, (closed (.inl (by simp [complete]))).1, clusters, leaves, least, most,
    congrArg Prod.snd (idle complete Recording.empty 1)⟩

end Scheduler


end Sapling
