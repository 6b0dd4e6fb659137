import Sapling.Proofs.Growth.Renaming

/-! Two trees that grow in one scene. Their frames come in any order, and each tree grows as it does in a
scene of its own. -/
namespace Sapling.Scheduler

open Sapling.Random

/-- A scheduler in a scene that it shares does as it does alone, under numbers `f` for its nodes. -/
structure Beside (old : Nat) (f g : NodeId → NodeId) (other : Array SceneNode)
    (alone here : Scheduler × Recording) : Prop where
  scheduler : here.1 = alone.1.rename f
  apart : Apart old f g alone.2.nodes other here.2.nodes

/-- A property that every run in a scene of one's own keeps, and with it all names are names of nodes. -/
structure Named (P : Scheduler → Recording → Prop) : Prop where
  kept : Kept P
  names : ∀ {s : Scheduler} {scene}, P s scene → Names s s.tasks scene.nodes

private theorem rename_beginFrame (f : NodeId → NodeId) (s : Scheduler) (dt : Float32) :
    (s.beginFrame dt).rename f = (s.rename f).beginFrame dt := by
  have queue := TaskQueue.push_all_map (Task.rename f) s.nextFrame.toList s.queue (s.clock + dt)
  simp only [rename, beginFrame, ← Array.foldl_toList, Array.toList_map, queue, Array.map_empty]

namespace Beside

variable {old : Nat} {f g : NodeId → NodeId} {other : Array SceneNode}
  {alone here : Scheduler × Recording}

/-- The task that is due makes the same move, and the numbers go on. -/
theorem runTask (beside : Beside old f g other alone here) {queue : TaskQueue Task}
    (names : Names alone.1 alone.1.tasks alone.2.nodes)
    (popped : alone.1.queue.popDue? alone.1.clock = some (entry, queue)) :
    ∃ f' entry' queue', here.1.queue.popDue? here.1.clock = some (entry', queue') ∧
      Prolonged f f' alone.2.nodes ({ alone.1 with queue }.runTask entry alone.2).2.nodes ∧
      Beside old f' g other ({ alone.1 with queue }.runTask entry alone.2)
        ({ here.1 with queue := queue' }.runTask entry' here.2) := by
  let s : Scheduler := { alone.1 with queue }
  let entry' : Timed Task := ⟨entry.time, entry.serial, Task.rename f entry.task⟩
  have known : Names s (entry.task :: s.tasks) alone.2.nodes := by
    rw [tasks_popped popped] at names
    exact ⟨names.root, names.owners, names.tasks⟩
  obtain ⟨f', after, onward, renamed, apart⟩ := (runTask_move s entry alone.2).rename known beside.apart
  -- A task makes one move only, so the one under other numbers is the one it makes here.
  obtain ⟨scheduler, host⟩ := (runTask_move (s.rename f) entry' here.2).unique renamed
  refine ⟨f', entry', queue.map (Task.rename f), ?_, onward, ?_⟩
  · rw [beside.scheduler]
    exact TaskQueue.popDue_map_some _ popped
  · rw [beside.scheduler]
    exact ⟨scheduler, host ▸ apart⟩

variable {P : Scheduler → Recording → Prop}

private theorem runDue (beside : Beside old f g other alone here) (named : Named P)
    (rooted : alone.1.root.isSome) (holds : P alone.1 alone.2) (steps : Nat) :
    ∃ f', Prolonged f f' alone.2.nodes (alone.1.runDue steps alone.2).2.nodes ∧
      Beside old f' g other (alone.1.runDue steps alone.2) (here.1.runDue steps here.2) := by
  induction steps generalizing alone here f with
  | zero => exact ⟨f, .refl f (Nat.le_refl _), beside⟩
  | succ steps ih =>
    cases popped : alone.1.queue.popDue? alone.1.clock with
    | none =>
      have stuck : here.1.queue.popDue? here.1.clock = none := by
        rw [beside.scheduler]
        exact TaskQueue.popDue_map_none _ popped
      rw [runDue_stuck popped, runDue_stuck stuck]
      exact ⟨f, .refl f (Nat.le_refl _), beside⟩
    | some taken =>
      obtain ⟨entry, queue⟩ := taken
      have move := runTask_move { alone.1 with queue } entry alone.2
      obtain ⟨f', entry', queue', popped', onward, after⟩ := beside.runTask (named.names holds) popped
      obtain ⟨f'', later, ended⟩ := ih after (by rw [move.unchanged.2.1]; exact rooted)
        (named.kept.move rooted holds popped move)
      rw [runDue_popped popped, runDue_popped popped']
      exact ⟨f'', onward.trans later, ended⟩

private theorem ensureRoot (beside : Beside old f g other alone here)
    (names : Names alone.1 alone.1.tasks alone.2.nodes) :
    ∃ f', Prolonged f f' alone.2.nodes (alone.1.ensureRoot alone.2).2.nodes ∧
      Beside old f' g other (alone.1.ensureRoot alone.2) (here.1.ensureRoot here.2) := by
  have root : here.1.root = alone.1.root.map f := congrArg Scheduler.root beside.scheduler
  cases found : alone.1.root with
  | some id =>
    rw [found] at root
    simp only [Scheduler.ensureRoot, found, root, Option.map_some]
    exact ⟨f, .refl f (Nat.le_refl _), beside⟩
  | none =>
    rw [found] at root
    -- The root takes the next number in both scenes, and no older number changes.
    let node : NodeId := ⟨alone.2.nodes.size⟩
    let f' := Within.extend f alone.2.nodes here.2.nodes
    have new : f' node = ⟨here.2.nodes.size⟩ := Within.extend_new ..
    have size : (alone.2.createNode none).2.nodes.size = alone.2.nodes.size + 1 :=
      Recording.createNode_size ..
    have created : Apart old f' g (alone.2.createNode none).2.nodes other
        (here.2.createNode none).2.nodes := beside.apart.create (by simp)
    have placed := created.place (show node.value < _ from size ▸ Nat.lt_succ_self _)
      (.atPosition alone.1.interpretation.origin)
    rw [new] at placed
    have onward : Prolonged f f' alone.2.nodes ((alone.2.createNode none).2.setTransform node
        (.atPosition alone.1.interpretation.origin)).nodes :=
      ⟨fun _ below => Within.extend_old f _ _ below, by rw [Recording.setTransform_size, size]; omega⟩
    have same := rename_congr names onward.agree
    have tree : here.1.interpretation = alone.1.interpretation :=
      (congrArg Scheduler.interpretation beside.scheduler).trans rfl
    simp only [Scheduler.ensureRoot, found, root, Option.map_none]
    refine ⟨f', onward, ?_, tree ▸ placed⟩
    change { here.1 with root := some ⟨here.2.nodes.size⟩ } =
      { alone.1.rename f' with root := some (f' node) }
    rw [new, same, beside.scheduler]

/-- A whole frame is the same, and the numbers go on. -/
theorem advance (beside : Beside old f g other alone here) (named : Named P)
    (holds : P alone.1 alone.2) (dt : Float32) :
    ∃ f', Prolonged f f' alone.2.nodes (alone.1.advance dt alone.2).2.nodes ∧
      Beside old f' g other (alone.1.advance dt alone.2) (here.1.advance dt here.2) := by
  obtain ⟨f', onward, rooted⟩ := beside.ensureRoot (named.names holds)
  have begun : Beside old f' g other (alone.1.begun dt alone.2) (here.1.begun dt here.2) :=
    ⟨(congrArg (beginFrame · (frameLength dt)) rooted.scheduler).trans (rename_beginFrame ..).symm,
      rooted.apart⟩
  have start := named.kept.begun dt holds
  obtain ⟨f'', later, ended⟩ := begun.runDue named start.1 start.2
    (alone.1.begun dt alone.2).1.stepBound
  have bound : (here.1.begun dt here.2).1.stepBound = (alone.1.begun dt alone.2).1.stepBound :=
    (congrArg stepBound begun.scheduler).trans rfl
  have same : here.1.advance dt here.2 =
      (here.1.begun dt here.2).1.runDue (alone.1.begun dt alone.2).1.stepBound
        (here.1.begun dt here.2).2 := by
    rw [← bound]
    rfl
  exact ⟨f'', onward.trans later, same ▸ ended⟩

end Beside

/-! ## Turns -/

/-- A frame of the first or of the second of two schedulers. -/
inductive Turn where
  | first (dt : Float32)
  | second (dt : Float32)

namespace Turn

def first? : Turn → Option Float32
  | first dt => some dt
  | second _ => none

def second? : Turn → Option Float32
  | first _ => none
  | second dt => some dt

/-- The frames of the first scheduler alone. -/
def firsts (turns : List Turn) : List Float32 := turns.filterMap first?

/-- The frames of the second scheduler alone. -/
def seconds (turns : List Turn) : List Float32 := turns.filterMap second?

private theorem firsts_cons (turn : Turn) (turns : List Turn) :
    firsts (turn :: turns) = firsts [turn] ++ firsts turns := by
  cases turn <;> rfl

private theorem seconds_cons (turn : Turn) (turns : List Turn) :
    seconds (turn :: turns) = seconds [turn] ++ seconds turns := by
  cases turn <;> rfl

end Turn

/-- Two schedulers, and the one scene that is the host of both. -/
structure Neighbours where
  first : Scheduler
  second : Scheduler
  scene : Recording

namespace Neighbours

def turn (both : Neighbours) : Turn → Neighbours
  | .first dt =>
    let (first, scene) := both.first.advance dt both.scene
    { both with first, scene }
  | .second dt =>
    let (second, scene) := both.second.advance dt both.scene
    { both with second, scene }

/-- The turns one after the other. -/
def run (both : Neighbours) (turns : List Turn) : Neighbours := turns.foldl turn both

def swap (both : Neighbours) : Neighbours := ⟨both.second, both.first, both.scene⟩

end Neighbours

/-- Two schedulers that share a scene, and what each of them does alone. -/
structure Together (old : Nat) (f g : NodeId → NodeId) (alone₁ alone₂ : Scheduler × Recording)
    (both : Neighbours) : Prop where
  first : both.first = alone₁.1.rename f
  second : both.second = alone₂.1.rename g
  apart : Apart old f g alone₁.2.nodes alone₂.2.nodes both.scene.nodes

namespace Together

variable {old : Nat} {f g f' g' : NodeId → NodeId} {alone₁ alone₂ : Scheduler × Recording}
  {both : Neighbours} {P Q : Scheduler → Recording → Prop}

private theorem symm (together : Together old f g alone₁ alone₂ both) :
    Together old g f alone₂ alone₁ both.swap :=
  ⟨together.second, together.first, together.apart.symm⟩

/-- Numbers that agree on all nodes that are there do as well. -/
theorem congr (together : Together old f g alone₁ alone₂ both)
    (names₁ : Names alone₁.1 alone₁.1.tasks alone₁.2.nodes)
    (names₂ : Names alone₂.1 alone₂.1.tasks alone₂.2.nodes)
    (agree₁ : ∀ id : NodeId, id.value < alone₁.2.nodes.size → f' id = f id)
    (agree₂ : ∀ id : NodeId, id.value < alone₂.2.nodes.size → g' id = g id) :
    Together old f' g' alone₁ alone₂ both where
  first := together.first.trans (rename_congr names₁ agree₁).symm
  second := together.second.trans (rename_congr names₂ agree₂).symm
  apart := ((together.apart.congr agree₁).symm.congr agree₂).symm

private theorem turn_first (together : Together old f g alone₁ alone₂ both) (named : Named P)
    (holds : P alone₁.1 alone₁.2) (dt : Float32) :
    ∃ f', Prolonged f f' alone₁.2.nodes (alone₁.1.advance dt alone₁.2).2.nodes ∧
      Together old f' g (alone₁.1.advance dt alone₁.2) alone₂ (both.turn (.first dt)) := by
  have beside : Beside old f g alone₂.2.nodes alone₁ (both.first, both.scene) :=
    ⟨together.first, together.apart⟩
  obtain ⟨f', onward, after⟩ := beside.advance named holds dt
  exact ⟨f', onward, after.scheduler, together.second, after.apart⟩

/-- What each scheduler does in a turn alone: a frame, or nothing. -/
theorem turn (together : Together old f g alone₁ alone₂ both) (named₁ : Named P) (named₂ : Named Q)
    (holds₁ : P alone₁.1 alone₁.2) (holds₂ : Q alone₂.1 alone₂.2) (turn : Turn) :
    let after₁ := alone₁.1.run (Turn.firsts [turn]) alone₁.2
    let after₂ := alone₂.1.run (Turn.seconds [turn]) alone₂.2
    ∃ f' g', Prolonged f f' alone₁.2.nodes after₁.2.nodes ∧
      Prolonged g g' alone₂.2.nodes after₂.2.nodes ∧
      Together old f' g' after₁ after₂ (both.turn turn) := by
  cases turn with
  | first dt =>
    obtain ⟨f', onward, after⟩ := together.turn_first named₁ holds₁ dt
    exact ⟨f', g, onward, .refl g (Nat.le_refl _), after⟩
  | second dt =>
    obtain ⟨g', onward, after⟩ := together.symm.turn_first named₂ holds₂ dt
    exact ⟨f, g', .refl f (Nat.le_refl _), onward, after.symm⟩

/-- The same numbers will do at every moment of a run, since no node ever gets another one. -/
theorem run (together : Together old f g alone₁ alone₂ both) (named₁ : Named P) (named₂ : Named Q)
    (holds₁ : P alone₁.1 alone₁.2) (holds₂ : Q alone₂.1 alone₂.2) (turns : List Turn) :
    ∃ f' g', (∀ id : NodeId, id.value < alone₁.2.nodes.size → f' id = f id) ∧
      (∀ id : NodeId, id.value < alone₂.2.nodes.size → g' id = g id) ∧
      ∀ before, before <+: turns →
        Together old f' g' (alone₁.1.run (Turn.firsts before) alone₁.2)
          (alone₂.1.run (Turn.seconds before) alone₂.2) (both.run before) := by
  induction turns generalizing f g alone₁ alone₂ both with
  | nil =>
    refine ⟨f, g, fun _ _ => rfl, fun _ _ => rfl, fun before start => ?_⟩
    obtain rfl : before = [] := List.prefix_nil.mp start
    exact together
  | cons turn turns ih =>
    obtain ⟨f₁, g₁, onward₁, onward₂, after⟩ := together.turn named₁ named₂ holds₁ holds₂ turn
    obtain ⟨f', g', agree₁, agree₂, later⟩ := ih after
      (named₁.kept.run (Turn.firsts [turn]) holds₁) (named₂.kept.run (Turn.seconds [turn]) holds₂)
    -- The last numbers agree with those of now on all nodes of now, so they do for now as well.
    have same₁ := onward₁.agrees agree₁
    have same₂ := onward₂.agrees agree₂
    refine ⟨f', g', same₁, same₂, fun before start => ?_⟩
    rcases List.prefix_cons_iff.mp start with rfl | ⟨rest, rfl, within⟩
    · exact together.congr (named₁.names holds₁) (named₂.names holds₂) same₁ same₂
    · have first := alone₁.1.run_append (Turn.firsts [turn]) (Turn.firsts rest) alone₁.2
      have second := alone₂.1.run_append (Turn.seconds [turn]) (Turn.seconds rest) alone₂.2
      rw [← Turn.firsts_cons] at first
      rw [← Turn.seconds_cons] at second
      rw [first, second]
      exact later rest within

end Together

/-- A tree grows in a shared scene as it does alone, and there it has other nodes, in the same order and
behind the `old` ones from before. -/
structure GrowsAlike (old : Nat) (f : NodeId → NodeId) (alone : Scheduler × Recording) (s : Scheduler)
    (scene : Recording) : Prop where
  phase : s.phase = alone.1.phase
  stats : s.stats = alone.1.stats
  leaves : s.foliage = alone.1.foliage
  tree : s.interpretation = alone.1.interpretation
  owners : ∀ index, s.owner? index = (alone.1.owner? index).map f
  root : s.root = alone.1.root.map f
  ordered : ∀ id later : NodeId, id.value < later.value → later.value < alone.2.nodeCount →
    (f id).value < (f later).value
  behind : ∀ id : NodeId, id.value < alone.2.nodeCount → old ≤ (f id).value
  nodes : ∀ id node, alone.2.node? id = some node → scene.node? (f id) = some (node.rename f)

private theorem Together.alike (together : Together old f g alone₁ alone₂ both) :
    GrowsAlike old f alone₁ both.first both.scene := by
  obtain ⟨first, -, apart⟩ := together
  rw [first]
  refine ⟨rfl, rfl, rfl, rfl, fun index => Array.getElem?_map, rfl, ?_, ?_, ?_⟩
  · exact fun _ _ less known => apart.mine.ordered less known
  · exact fun _ known => apart.mine.behind known
  · exact fun _ _ found => apart.mine.nodes found

/-- A scheduler that stands at its start names no node. -/
theorem rename_fresh {tree : Interpretation} {settings : TreeSettings} {source : Generator}
    (accepted : checked tree settings source = .ok s) (f : NodeId → NodeId) : s.rename f = s := by
  obtain ⟨-, rfl⟩ := checked_ok accepted
  simp only [rename, atStart, Array.map_empty]
  rfl

private theorem Built.named (fresh : Scheduler) :
    Named fun s scene => ((Accounts s s.tasks ∧ SameTree fresh s) ∧ Drawn fresh s) ∧
      Built fresh s scene s.tasks :=
  ⟨Built.kept fresh, fun holds => holds.2.names⟩

/-- Two accepted schedulers take turns in one scene, which may have nodes already. At each moment of each
such run both have grown as they do alone with their own frames. Every node that has come to the scene is
the node of one of the two, under numbers that stay the same through the whole run. -/
theorem neighbours_grow_as_alone {tree₁ tree₂ : Interpretation} {settings₁ settings₂ : TreeSettings}
    {source₁ source₂ : Generator} (accepted₁ : checked tree₁ settings₁ source₁ = .ok first)
    (accepted₂ : checked tree₂ settings₂ source₂ = .ok second) (turns : List Turn)
    (start : Recording) :
    ∃ f g : NodeId → NodeId, ∀ before, before <+: turns →
      let alone₁ := first.run (Turn.firsts before) Recording.empty
      let alone₂ := second.run (Turn.seconds before) Recording.empty
      let both := (Neighbours.mk first second start).run before
      GrowsAlike start.nodeCount f alone₁ both.first both.scene ∧
      GrowsAlike start.nodeCount g alone₂ both.second both.scene ∧
      (∀ id other : NodeId, id.value < alone₁.2.nodeCount → other.value < alone₂.2.nodeCount →
        f id ≠ g other) ∧
      ∀ id : NodeId, start.nodeCount ≤ id.value → id.value < both.scene.nodeCount →
        (∃ own, own.value < alone₁.2.nodeCount ∧ f own = id) ∨
        ∃ own, own.value < alone₂.2.nodeCount ∧ g own = id := by
  have holds₁ := built_of_accepted accepted₁ []
  have holds₂ := built_of_accepted accepted₂ []
  have nowhere {f : NodeId → NodeId} : Within start.nodeCount f #[] start.nodes :=
    ⟨nofun, nofun, nofun, nofun⟩
  have apart : Apart start.nodeCount id id #[] #[] start.nodes :=
    ⟨nowhere, nowhere, nofun, Nat.le_refl _, fun _ behind below => absurd below (Nat.not_lt.mpr behind)⟩
  have together : Together start.nodeCount id id (first, .empty) (second, .empty)
      ⟨first, second, start⟩ :=
    ⟨(rename_fresh accepted₁ id).symm, (rename_fresh accepted₂ id).symm, apart⟩
  obtain ⟨f, g, -, -, always⟩ :=
    together.run (Built.named first) (Built.named second) holds₁ holds₂ turns
  refine ⟨f, g, fun before within => ?_⟩
  have now := always before within
  exact ⟨now.alike, now.symm.alike,
    fun _ _ known known' same => now.apart.disjoint known known' (congrArg NodeId.value same),
    now.apart.covers⟩

/-- Two sprouts whose frames alternate, so that the branches of one come between those of the other. -/
theorem two_sprouts_grow_as_alone :
    checked sprout {} (.ofSeed 7) = .ok (atStart sprout {} (.ofSeed 7)) ∧
    checked sprout {} (.ofSeed 8) = .ok (atStart sprout {} (.ofSeed 8)) ∧
    let alone₁ := (atStart sprout {} (.ofSeed 7)).run [0, 20] Recording.empty
    let alone₂ := (atStart sprout {} (.ofSeed 8)).run [0, 20] Recording.empty
    let both := (Neighbours.mk (atStart sprout {} (.ofSeed 7)) (atStart sprout {} (.ofSeed 8))
      Recording.empty).run [.first 0, .second 0, .first 20, .second 20]
    (both.first.owners = #[⟨1⟩, ⟨4⟩] ∧ both.second.owners = #[⟨3⟩, ⟨5⟩]) ∧
    ∃ f g, GrowsAlike 0 f alone₁ both.first both.scene ∧ GrowsAlike 0 g alone₂ both.second both.scene := by
  have accepted₁ : checked sprout {} (.ofSeed 7) = .ok (atStart sprout {} (.ofSeed 7)) := rfl
  have accepted₂ : checked sprout {} (.ofSeed 8) = .ok (atStart sprout {} (.ofSeed 8)) := rfl
  obtain ⟨f, g, always⟩ := neighbours_grow_as_alone accepted₁ accepted₂
    [.first 0, .second 0, .first 20, .second 20] Recording.empty
  have now := always _ (List.prefix_refl _)
  refine ⟨accepted₁, accepted₂, ⟨?_, ?_⟩, f, g, now.1, now.2.1⟩ <;> decide +kernel

end Sapling.Scheduler
