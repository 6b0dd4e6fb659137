import Sapling.Proofs.Growth.Runs
import Sapling.Proofs.Scene.History

/-! A scheduler works alike on all hosts. Where the calls of one host match those of another, so do the runs
on them. A host that keeps a log of its calls matches the host behind it, so the log tells of the run without
it. -/
namespace Sapling

/-! ## Calls

The calls that a host receives, in the order in which it receives them. A host can be kept together with
its calls, and is then a host itself.
-/

variable {σ : Type} [SceneHost σ]

/-- A call to a host, with the id that the host gave back. -/
inductive HostCall where
  | create (parent : Option NodeId) (node : NodeId)
  | attach (node : NodeId) (mesh : Mesh) (material : Material)
  | place (node : NodeId) (transform : Transform)

namespace HostCall

/-- The node that is made or changed. -/
def node : HostCall → NodeId
  | create _ node => node
  | attach node _ _ => node
  | place node _ => node

/-- The ids that the caller must have had. -/
def given : HostCall → List NodeId
  | create parent _ => parent.toList
  | attach node _ _ => [node]
  | place node _ => [node]

/-- The id that the caller gets. -/
def made? : HostCall → Option NodeId
  | create _ node => some node
  | _ => none

/-- All ids that go from one side to the other. -/
def names (call : HostCall) : List NodeId := call.given ++ call.made?.toList

end HostCall

/-- The nodes that were made, in their order. -/
def created (calls : List HostCall) : List NodeId := calls.filterMap HostCall.made?

/-- The calls that name a node. -/
def about (id : NodeId) (calls : List HostCall) : List HostCall :=
  calls.filter fun call => id ∈ call.names

@[simp] theorem created_append (calls more : List HostCall) :
    created (calls ++ more) = created calls ++ created more :=
  List.filterMap_append ..

@[simp] theorem about_append (id : NodeId) (calls more : List HostCall) :
    about id (calls ++ more) = about id calls ++ about id more :=
  List.filter_append ..

theorem about_concat_of_mem {id : NodeId} (calls : List HostCall) (named : id ∈ call.names) :
    about id (calls ++ [call]) = about id calls ++ [call] := by
  rw [about_append]
  exact congrArg (about id calls ++ ·) (List.filter_cons_of_pos (decide_eq_true named))

theorem about_concat_of_not_mem {id : NodeId} (calls : List HostCall) (other : id ∉ call.names) :
    about id (calls ++ [call]) = about id calls := by
  rw [about_append]
  have unmentioned : about id [call] = [] := List.filter_cons_of_neg (by simpa using other)
  rw [unmentioned, List.append_nil]

/-! ### Ids come before their use -/

/-- Every id that a call is given came back from a call before it. -/
def Known (calls : List HostCall) : Prop :=
  ∀ before call after, calls = before ++ call :: after → ∀ id ∈ call.given, id ∈ created before

namespace Known

theorem nil : Known [] := by
  intro before call after split
  simp at split

/-- A call may be added that names none but created nodes. -/
theorem concat (known : Known calls) (call : HostCall) (given : ∀ id ∈ call.given, id ∈ created calls) :
    Known (calls ++ [call]) := by
  intro before other after split
  obtain rfl | ⟨front, last, rfl⟩ := List.eq_nil_or_concat after
  · obtain ⟨rfl, same⟩ := List.append_inj' split rfl
    obtain rfl : call = other := by simpa using same
    exact given
  · have split' : calls ++ [call] = (before ++ other :: front) ++ [last] := by simpa using split
    exact known before other front (List.append_inj' split' rfl).1

/-- No call names a node that was not made. -/
theorem about_eq_nil {id : NodeId} (known : Known calls) (unmade : id ∉ created calls) :
    about id calls = [] := by
  refine List.filter_eq_nil_iff.mpr fun call member named => unmade ?_
  obtain ⟨before, after, rfl⟩ := List.append_of_mem member
  rcases List.mem_append.mp (of_decide_eq_true named) with given | made
  · rw [created_append]
    exact List.mem_append_left _ (known before call after rfl id given)
  · exact List.mem_filterMap.mpr ⟨call, member, Option.mem_toList.mp made⟩

end Known

/-! ### Hosts -/

/-- A host has come from its first state by these calls. -/
inductive Served (first : σ) : List HostCall → σ → Prop where
  | start : Served first [] first
  | create (served : Served first calls host) (parent : Option NodeId) :
      Served first (calls ++ [.create parent (SceneHost.createNode parent host).1])
        (SceneHost.createNode parent host).2
  | attach (served : Served first calls host) (node : NodeId) (mesh : Mesh) (material : Material) :
      Served first (calls ++ [.attach node mesh material])
        (SceneHost.attachMesh node mesh material host)
  | place (served : Served first calls host) (node : NodeId) (transform : Transform) :
      Served first (calls ++ [.place node transform]) (SceneHost.setTransform node transform host)

/-- Whatever is done to the host, the id of a new node is not one that it gave before. -/
def NeverRepeats (first : σ) : Prop :=
  ∀ calls host parent, Served first calls host → (SceneHost.createNode parent host).1 ∉ created calls

/-- A recording numbers its nodes, so each gets a number of its own. -/
theorem Recording.neverRepeats (scene : Recording) : NeverRepeats scene := by
  intro calls later parent served member
  suffices below : ∀ id ∈ created calls, id.value < later.nodes.size from
    Nat.lt_irrefl _ (below _ member)
  clear member
  induction served with
  | start => exact nofun
  | @create calls later served parent ih =>
    intro id member
    change id.value < (later.createNode parent).2.nodes.size
    rw [createNode_nodes, Array.size_push]
    rw [created_append] at member
    rcases List.mem_append.mp member with before | new
    · exact Nat.lt_succ_of_lt (ih id before)
    · obtain rfl : id = ⟨later.nodes.size⟩ := List.mem_singleton.mp new
      exact Nat.lt_succ_self _
  | @attach calls later served node mesh material ih =>
    intro id member
    change id.value < (later.attachMesh node mesh material).nodes.size
    rw [attachMesh_nodes, Array.size_modify]
    exact ih id (by simpa [created, HostCall.made?] using member)
  | @place calls later served node transform ih =>
    intro id member
    change id.value < (later.setTransform node transform).nodes.size
    rw [setTransform_nodes, Array.size_modify]
    exact ih id (by simpa [created, HostCall.made?] using member)

/-- A host together with the calls that brought it there. -/
structure Logged (first : σ) where
  host : σ
  calls : List HostCall
  served : Served first calls host

namespace Logged

/-- A host that nobody has called yet. -/
def unused (first : σ) : Logged first := ⟨first, [], .start⟩

instance (first : σ) : SceneHost (Logged first) where
  createNode parent log := ((SceneHost.createNode parent log.host).1, ⟨_, _, log.served.create parent⟩)
  attachMesh node mesh material log := ⟨_, _, log.served.attach node mesh material⟩
  setTransform node transform log := ⟨_, _, log.served.place node transform⟩

end Logged

/-! ## Schedulers in two scenes

A scheduler works alike on all hosts. Where the calls of one host match those of another, so do the runs
on them. A host that keeps a log matches the host behind it, so the log tells of the run without it.
-/

variable {σ τ : Type} [SceneHost σ] [SceneHost τ] {f : τ → σ}

/-- A map between hosts that every call respects. -/
structure HostMap (f : τ → σ) : Prop where
  create : ∀ parent host,
    SceneHost.createNode parent (f host) =
      ((SceneHost.createNode parent host).1, f (SceneHost.createNode parent host).2)
  attach : ∀ node mesh material host,
    SceneHost.attachMesh node mesh material (f host) = f (SceneHost.attachMesh node mesh material host)
  place : ∀ node transform host,
    SceneHost.setTransform node transform (f host) = f (SceneHost.setTransform node transform host)

namespace HostMap

private theorem startBranch (map : HostMap f) (s : Scheduler) (segment : Segment) (time : Float32)
    (host : τ) :
    s.startBranch segment time (f host) =
      Prod.map id (Prod.map id f) (s.startBranch segment time host) := by
  simp only [Scheduler.startBranch, map.create, map.attach, map.place]
  rfl

private theorem stepDispatch (map : HostMap f) (s : Scheduler) (next : Nat) (time : Float32) (host : τ) :
    s.stepDispatch next time (f host) =
      Prod.map id (Prod.map id f) (s.stepDispatch next time host) := by
  unfold Scheduler.stepDispatch
  cases s.interpretation.segments[next]? with
  | none =>
    dsimp only
    split <;> rfl
  | some segment =>
    dsimp only
    rw [map.startBranch]
    split <;> rfl

private theorem stepBranch (map : HostMap f) (s : Scheduler) (task : BranchTask) (time : Float32)
    (host : τ) :
    s.stepBranch task time (f host) = Prod.map id (Prod.map id f) (s.stepBranch task time host) := by
  unfold Scheduler.stepBranch
  cases task.stage with
  | growing =>
    dsimp only
    rw [map.place]
    split <;> rfl
  | settling => rfl

private theorem runTask (map : HostMap f) (s : Scheduler) (entry : Timed Task) (host : τ) :
    s.runTask entry (f host) = Prod.map id f (s.runTask entry host) := by
  obtain ⟨time, serial, task⟩ := entry
  cases task with
  | dispatch next =>
    simp only [Scheduler.runTask, Scheduler.step, map.stepDispatch]
    rfl
  | branch task =>
    simp only [Scheduler.runTask, Scheduler.step, map.stepBranch]
    rfl
  | spawnLeaves next => rfl

private theorem runDue (map : HostMap f) (steps : Nat) (s : Scheduler) (host : τ) :
    s.runDue steps (f host) = Prod.map id f (s.runDue steps host) := by
  induction steps generalizing s host with
  | zero => rfl
  | succ steps ih =>
    cases popped : s.queue.popDue? s.clock with
    | none =>
      rw [Scheduler.runDue_stuck popped, Scheduler.runDue_stuck popped]
      rfl
    | some taken =>
      rw [Scheduler.runDue_popped popped, Scheduler.runDue_popped popped, map.runTask]
      exact ih ..

private theorem ensureRoot (map : HostMap f) (s : Scheduler) (host : τ) :
    s.ensureRoot (f host) = Prod.map id f (s.ensureRoot host) := by
  unfold Scheduler.ensureRoot
  cases s.root with
  | none =>
    simp only [map.create, map.place]
    rfl
  | some root => rfl

private theorem advance (map : HostMap f) (s : Scheduler) (dt : Float32) (host : τ) :
    s.advance dt (f host) = Prod.map id f (s.advance dt host) := by
  simp only [Scheduler.advance, map.ensureRoot, Prod.map, id, map.runDue]

/-- A scheduler does not notice a map between hosts. -/
theorem run (map : HostMap f) (lengths : List Float32) (s : Scheduler) (host : τ) :
    s.run lengths (f host) = Prod.map id f (s.run lengths host) := by
  induction lengths generalizing s host with
  | nil => rfl
  | cons dt lengths ih =>
    change (s.advance dt (f host)).1.run lengths (s.advance dt (f host)).2 = _
    rw [map.advance]
    exact ih ..

end HostMap

/-- The log does not touch the host behind it. -/
theorem Logged.hostMap (first : σ) : HostMap fun log : Logged first => log.host :=
  ⟨fun _ _ => rfl, fun _ _ _ _ => rfl, fun _ _ _ => rfl⟩

end Sapling
