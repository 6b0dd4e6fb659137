import Sapling.Proofs.Foliage.Packing
import Sapling.Proofs.Growth.Accounts

/-! What a scheduler will draw is settled before its first frame. Branches are started in one order and
clusters come after them, so the generator that a branch or a cluster finds depends on its number only,
not on the frames in which it comes. -/
namespace Sapling.Scheduler

open Sapling.Random

variable {σ : Type} [SceneHost σ]

/-- What the scheduler would draw for a branch if it had the given generator. -/
def drawsFrom (s : Scheduler) (generator : Generator) : BranchDraws × Generator :=
  (drawStart s.timing s.bark s.share).run generator

/-- The generator that branch `index` finds when it starts. -/
def branchGenerator (fresh : Scheduler) : (index : Nat) → Generator
  | 0 => fresh.generator
  | index + 1 => (fresh.drawsFrom (fresh.branchGenerator index)).2

/-- The bark of branch `index`. -/
def branchMaterial (fresh : Scheduler) (index : Nat) : Material :=
  (fresh.drawsFrom (fresh.branchGenerator index)).1.material

/-- The generator and the foliage after one more cluster. -/
def clusterFrom (s : Scheduler) (anchor : Anchor) (crown : Generator × Batcher) :
    Generator × Batcher :=
  let (count, generator) := (countInRange s.timing.leavesPerCluster).run crown.1
  (generator, crown.2.addCluster anchor count.toNat s.timing.leafSpread)

/-- The generator and the foliage when the first anchors have their clusters. -/
def crown (fresh : Scheduler) : (clusters : Nat) → Generator × Batcher
  | 0 => (fresh.branchGenerator fresh.interpretation.segments.size, fresh.foliage)
  | clusters + 1 =>
    match fresh.interpretation.anchors[clusters]? with
    | none => fresh.crown clusters
    | some anchor => fresh.clusterFrom anchor (fresh.crown clusters)

/-- The leaves of the cluster of anchor `index`. -/
def clusterLeaves (fresh : Scheduler) (index : Nat) : List Leaf :=
  (fresh.crown (index + 1)).2.leaves.toList.drop (fresh.crown index).2.leaves.size

/-- A scheduler that has drawn what its fresh state would have it draw, and no more. -/
structure Drawn (fresh s : Scheduler) : Prop where
  early : s.phase = .branches →
    s.generator = fresh.branchGenerator s.stats.branchesStarted ∧ s.foliage = fresh.foliage
  late : s.phase ≠ .branches → (s.generator, s.foliage) = fresh.crown s.stats.clustersSpawned

/-- The draws of a tree depend on its settings and its first generator only. -/
theorem SameTree.drawsFrom_eq (same : SameTree fresh s) : s.drawsFrom = fresh.drawsFrom := by
  funext generator
  simp only [drawsFrom, share, same.timing, same.bark, same.total]

private theorem crown_succ {fresh : Scheduler}
    (found : fresh.interpretation.anchors[index]? = some anchor) :
    fresh.crown (index + 1) = fresh.clusterFrom anchor (fresh.crown index) := by
  simp only [crown, found]

private theorem crown_beyond {fresh : Scheduler} (unfound : fresh.interpretation.anchors[index]? = none) :
    fresh.crown (index + 1) = fresh.crown index := by
  simp only [crown, unfound]

/-- The leaves of before stay, and those of the next cluster come after them. -/
theorem leaves_crown_succ (fresh : Scheduler) (index : Nat) :
    (fresh.crown (index + 1)).2.leaves.toList =
      (fresh.crown index).2.leaves.toList ++ fresh.clusterLeaves index := by
  have appended : ∃ more, (fresh.crown (index + 1)).2.leaves.toList =
      (fresh.crown index).2.leaves.toList ++ more := by
    cases found : fresh.interpretation.anchors[index]? with
    | none =>
      rw [crown_beyond found]
      exact ⟨[], (List.append_nil _).symm⟩
    | some anchor =>
      rw [crown_succ found]
      obtain ⟨more, -, leaves⟩ := (fresh.crown index).2.leaves_addCluster anchor
        ((countInRange fresh.timing.leavesPerCluster).run (fresh.crown index).1).1.toNat
        fresh.timing.leafSpread
      exact ⟨more, leaves⟩
  obtain ⟨more, leaves⟩ := appended
  have dropped : fresh.clusterLeaves index = more := by
    rw [clusterLeaves, leaves, ← Array.length_toList, List.drop_left]
  rw [dropped, leaves]

private theorem leaves_crown {fresh : Scheduler} (bare : fresh.foliage.leaves = #[]) (clusters : Nat) :
    (fresh.crown clusters).2.leaves.toList =
      (List.range clusters).flatMap fresh.clusterLeaves := by
  induction clusters with
  | zero => simp [crown, bare]
  | succ clusters ih =>
    rw [leaves_crown_succ, ih, List.range_succ, List.flatMap_append]
    simp

private theorem crown_afterCluster {fresh s : Scheduler} (same : SameTree fresh s)
    (found : s.interpretation.anchors[s.stats.clustersSpawned]? = some anchor)
    (before : (s.generator, s.foliage) = fresh.crown s.stats.clustersSpawned) :
    ((s.afterCluster anchor).generator, (s.afterCluster anchor).foliage) =
      fresh.crown (s.afterCluster anchor).stats.clustersSpawned := by
  rw [same.tree] at found
  change _ = fresh.crown (s.stats.clustersSpawned + 1)
  rw [crown_succ found, ← before, clusterFrom, ← same.timing]
  rfl

private theorem Drawn.move {fresh s s' : Scheduler} {host host' : σ}
    (accounts : Accounts s (task :: s.tasks)) (same : SameTree fresh s) (drawn : Drawn fresh s)
    (move : Move s time host task s' host') : Drawn fresh s' := by
  obtain ⟨early, late⟩ := drawn
  have held := accounts.held
  cases move with
  | @start next segment found room =>
    obtain ⟨phase, rfl, -⟩ := held_dispatch held
    refine ⟨fun _ => ⟨?_, (early phase).2⟩, fun away => absurd phase away⟩
    change (s.drawsFrom s.generator).2 = (fresh.drawsFrom _).2
    rw [same.drawsFrom_eq, (early phase).1]
  | leave last idle =>
    obtain ⟨phase, rfl, -⟩ := held_dispatch held
    refine ⟨by rintro ⟨⟩, ?_⟩
    intro _
    obtain ⟨generator, foliage⟩ := early phase
    have all : s.stats.branchesStarted = fresh.interpretation.segments.size := by
      have total := accounts.total
      have started := accounts.started
      rw [← same.tree]
      omega
    simp only [accounts.bare phase, crown, generator, foliage, all]
  | cluster found more =>
    obtain ⟨phase, rfl, -⟩ := held_spawnLeaves held
    exact ⟨fun early => by simp [afterCluster, phase] at early,
      fun _ => crown_afterCluster same found (late (by simp [phase]))⟩
  | lastCluster found last =>
    obtain ⟨phase, rfl, -⟩ := held_spawnLeaves held
    exact ⟨by rintro ⟨⟩,
      fun _ => crown_afterCluster same found (late (by simp [phase]))⟩
  | finish beyond =>
    obtain ⟨phase, rfl, -⟩ := held_spawnLeaves held
    exact ⟨by rintro ⟨⟩, fun _ => late (by simp [phase])⟩
  | _ => exact ⟨early, late⟩

/-- A scheduler that has started no branch is where its own blueprint begins. -/
theorem Drawn.fresh (s : Scheduler) (early : s.phase = .branches)
    (unstarted : s.stats.branchesStarted = 0) : Drawn s s :=
  ⟨fun _ => ⟨by rw [unstarted]; rfl, rfl⟩, fun away => absurd early away⟩

/-- The generator and the leaves stay where the blueprint has them. -/
theorem Drawn.kept (fresh : Scheduler) :
    Kept fun s (_ : σ) => (Accounts s s.tasks ∧ SameTree fresh s) ∧ Drawn fresh s := by
  refine (Accounts.kept_same fresh).and ?_ ?_ ?_
  · rintro s host - - ⟨early, late⟩
    exact ⟨early, late⟩
  · rintro s host dt - - ⟨early, late⟩
    exact ⟨early, late⟩
  · rintro s s' host host' entry queue - ⟨accounts, same⟩ ⟨early, late⟩ popped move
    exact Drawn.move (accounts.popped popped) ⟨same.tree, same.timing, same.mesh, same.bark, same.total⟩
      ⟨early, late⟩ move

/-- The leaves of a run are those of its clusters, anchor by anchor. -/
theorem Drawn.leaves {fresh s : Scheduler} (drawn : Drawn fresh s) (accounts : Accounts s s.tasks)
    (bare : fresh.foliage.leaves = #[]) :
    s.foliage.leaves.toList =
      (List.range s.stats.clustersSpawned).flatMap fresh.clusterLeaves := by
  cases phase : s.phase with
  | branches => rw [(drawn.early phase).2, bare, accounts.bare phase]; rfl
  | _ => rw [← leaves_crown bare, ← drawn.late (by simp [phase])]

end Sapling.Scheduler
