import Sapling.Proofs.Growth.Accounts
import Sapling.Proofs.Growth.Hosts
import Sapling.Proofs.Scalar.Level

/-! What a scheduler asks of its host, on any host whose ids do not repeat. The root comes first; each
branch is made under it, gets its mesh and the size zero, and then one size after the other up to the full
one, and never again. The host is run behind a log, which changes nothing. -/
namespace Sapling.Scheduler

open Sapling.Random

variable {fresh s s' : Scheduler} {segment : Segment} {root node : NodeId} {part : Float32}
  {calls : List HostCall} {task : BranchTask} {workers workers' : List BranchTask}

/-! ## The life of a branch -/

/-- A branch is placed in a size, always where its segment starts and never turned. -/
def sized (fresh : Scheduler) (segment : Segment) (node : NodeId) (scale : Float32) : HostCall :=
  .place node ⟨segment.start - fresh.interpretation.origin, .identity, .splat scale⟩

/-- The calls for a branch: it is made under the root, gets its mesh and the size zero, and then the
sizes for parts of its growth. -/
def branchCalls (fresh : Scheduler) (segment : Segment) (root node : NodeId) (material : Material)
    (parts : List Float32) : List HostCall :=
  .create (some root) node :: .attach node (fresh.tubeOf segment).mesh material ::
    fresh.sized segment node 0 :: parts.map fun part => fresh.sized segment node (smoothstep part)

/-- The calls for a branch up to now. All parts are less than the whole, but for the last one of a branch
that does not grow any more. -/
def Traced (fresh : Scheduler) (segment : Segment) (root node : NodeId) (growing : Bool)
    (calls : List HostCall) : Prop :=
  ∃ material young, (∀ part ∈ young, part < 1) ∧
    calls = fresh.branchCalls segment root node material (if growing then young else young ++ [1])

private theorem branchCalls_concat (fresh : Scheduler) (segment : Segment) (root node : NodeId)
    (material : Material) (parts : List Float32) (part : Float32) :
    fresh.branchCalls segment root node material parts ++ [fresh.sized segment node (smoothstep part)] =
      fresh.branchCalls segment root node material (parts ++ [part]) := by
  simp [branchCalls]

/-- A branch that grows gets the size for one more part, which is the whole when it rests from then on. -/
theorem Traced.concat (traced : Traced fresh segment root node true calls) {stage : BranchStage}
    (reached : part < 1 ∧ stage = .growing ∨ part = 1 ∧ stage = .settling) :
    Traced fresh segment root node (stage = .growing)
      (calls ++ [fresh.sized segment node (smoothstep part)]) := by
  obtain ⟨material, parts, before, rfl⟩ := traced
  rcases reached with ⟨young, rfl⟩ | ⟨rfl, rfl⟩
  · refine ⟨material, parts ++ [part], ?_, branchCalls_concat ..⟩
    intro other member
    rcases List.mem_append.mp member with earlier | last
    · exact before other earlier
    · exact List.mem_singleton.mp last ▸ young
  · exact ⟨material, parts, before, branchCalls_concat ..⟩

private theorem place_grown (offset : task.offset = fresh.offsetOf segment) (part : Float32) :
    HostCall.place task.node (grown task part) =
      fresh.sized segment task.node (smoothstep part) := by
  rw [grown, offset]
  rfl

/-! ## The branches at work -/

/-- The tasks of branches. -/
def crew (pending : List Task) : List BranchTask :=
  pending.filterMap fun
    | .branch task => some task
    | _ => none

/-- Does one of the tasks let the branch of this node grow? -/
def grows (workers : List BranchTask) (node : NodeId) : Bool :=
  workers.any fun task => task.node = node ∧ task.stage = .growing

private theorem crew_perm (same : pending.Perm pending') : (crew pending).Perm (crew pending') :=
  same.filterMap _

@[simp] theorem grows_cons (task : BranchTask) (workers : List BranchTask) (node : NodeId) :
    grows (task :: workers) node =
      (decide (task.node = node ∧ task.stage = .growing) || grows workers node) := rfl

private theorem grows_absent (absent : node ∉ workers.map (·.node)) : grows workers node = false := by
  refine List.any_eq_false.mpr fun task member grows => absent ?_
  exact List.mem_map.mpr ⟨task, member, (of_decide_eq_true grows).1⟩

private theorem grows_perm (same : workers.Perm workers') (node : NodeId) :
    grows workers node = grows workers' node :=
  same.any_eq

/-! ## The root -/

/-- The root was made and placed before all else, it was never touched again, and it is the parent of all
nodes made after it. -/
def Opened (fresh : Scheduler) (root : NodeId) (calls : List HostCall) : Prop :=
  ∃ rest, calls = .create none root :: .place root (.atPosition fresh.interpretation.origin) :: rest ∧
    ∀ call ∈ rest, call.node ≠ root ∧
      ∀ parent node, call = .create parent node → parent = some root

private theorem Opened.concat (opened : Opened fresh root calls) (call : HostCall) (other : call.node ≠ root)
    (under : ∀ parent node, call = .create parent node → parent = some root) :
    Opened fresh root (calls ++ [call]) := by
  obtain ⟨rest, rfl, later⟩ := opened
  refine ⟨rest ++ [call], by simp, fun made member => ?_⟩
  rcases List.mem_append.mp member with before | last
  · exact later made before
  · obtain rfl := List.mem_singleton.mp last
    exact ⟨other, under⟩

/-! ## The first three calls for a branch -/

private theorem known_seedling (known : Known calls) (rooted : root ∈ created calls) (material : Material) :
    Known (calls ++ fresh.branchCalls segment root node material []) := by
  have made : node ∈ created (calls ++ [.create (some root) node]) := by
    rw [created_append]
    exact List.mem_append_right _ List.mem_cons_self
  have first := known.concat (.create (some root) node) fun id given =>
    List.mem_singleton.mp given ▸ rooted
  have second := first.concat (.attach node (fresh.tubeOf segment).mesh material)
    fun id given => List.mem_singleton.mp given ▸ made
  have third := second.concat (fresh.sized segment node 0) fun id given => by
    rw [created_append]
    exact List.mem_append_left _ (List.mem_singleton.mp given ▸ made)
  rw [List.append_assoc, List.append_assoc] at third
  exact third

private theorem opened_seedling (opened : Opened fresh root calls) (apart : node ≠ root)
    (material : Material) :
    Opened fresh root (calls ++ fresh.branchCalls segment root node material []) := by
  have first := opened.concat (.create (some root) node) apart fun parent other made =>
    (HostCall.create.inj made).1.symm
  have second := first.concat (.attach node (fresh.tubeOf segment).mesh material) apart
    fun _ _ made => nomatch made
  have third := second.concat (fresh.sized segment node 0) apart fun _ _ made => nomatch made
  rw [List.append_assoc, List.append_assoc] at third
  exact third

private theorem about_seedling (material : Material) :
    about node (fresh.branchCalls segment root node material []) =
      fresh.branchCalls segment root node material [] := by
  refine List.filter_eq_self.mpr fun call member => decide_eq_true ?_
  simp only [branchCalls, List.map_nil, List.mem_cons, List.not_mem_nil, or_false] at member
  rcases member with rfl | rfl | rfl <;> simp [HostCall.names, HostCall.given, HostCall.made?, sized]

private theorem about_seedling_of_ne {other : NodeId} (apart : other ≠ root) (apart' : other ≠ node)
    (material : Material) : about other (fresh.branchCalls segment root node material []) = [] := by
  refine List.filter_eq_nil_iff.mpr fun call member => ?_
  simp only [branchCalls, List.map_nil, List.mem_cons, List.not_mem_nil, or_false] at member
  rcases member with rfl | rfl | rfl <;>
    simp [HostCall.names, HostCall.given, HostCall.made?, sized, apart, apart']

/-! ## What the calls have brought about -/

/-- The calls up to now, for a scheduler with these branches at work. -/
structure Follows (fresh s : Scheduler) (calls : List HostCall) (workers : List BranchTask) :
    Prop where
  known : Known calls
  made : created calls = s.root.toList ++ s.owners.toList
  distinct : (created calls).Nodup
  started : s.owners.size = s.stats.branchesStarted
  bare : s.root = none → calls = []
  opened : ∀ root, s.root = some root → Opened fresh root calls
  /-- No two tasks let one branch grow. -/
  alone : (workers.map (·.node)).Nodup
  tasks : ∀ task ∈ workers, ∃ (index : Nat) (segment : Segment), s.owners[index]? = some task.node ∧
    fresh.interpretation.segments[index]? = some segment ∧ task.offset = fresh.offsetOf segment
  traces : ∀ root (index : Nat) node, s.root = some root → s.owners[index]? = some node →
    ∃ segment, fresh.interpretation.segments[index]? = some segment ∧
      Traced fresh segment root node (grows workers node) (about node calls)

namespace Follows

private theorem ofAccepted {tree : Interpretation} {settings : TreeSettings} {source : Generator}
    (accepted : checked tree settings source = .ok s) : Follows s s [] (crew s.tasks) := by
  obtain ⟨-, rfl⟩ := checked_ok accepted
  exact ⟨.nil, rfl, .nil, rfl, fun _ => rfl, nofun, .nil, nofun, nofun⟩

/-- Only the branches at work matter, and of those that rest none is needed. -/
theorem rehold (follows : Follows fresh s calls workers) (root : s'.root = s.root)
    (owners : s'.owners = s.owners) (started : s'.stats.branchesStarted = s.stats.branchesStarted)
    (alone : (workers'.map (·.node)).Nodup) (only : ∀ task ∈ workers', task ∈ workers)
    (same : ∀ node, grows workers' node = grows workers node) :
    Follows fresh s' calls workers' where
  known := follows.known
  made := by rw [root, owners, follows.made]
  distinct := follows.distinct
  started := by rw [owners, started, follows.started]
  bare := by rw [root]; exact follows.bare
  opened := by rw [root]; exact follows.opened
  alone := alone
  tasks task member := by rw [owners]; exact follows.tasks task (only task member)
  traces root' index node := by
    rw [root, owners, same]
    exact follows.traces root' index node

/-- Tasks that are no branches may come and go, and all may change their order. -/
theorem recrew (follows : Follows fresh s calls workers) (root : s'.root = s.root)
    (owners : s'.owners = s.owners) (started : s'.stats.branchesStarted = s.stats.branchesStarted)
    (same : s'.tasks.Perm pending) (alike : crew pending = workers) :
    Follows fresh s' calls (crew s'.tasks) := by
  have perm : (crew s'.tasks).Perm workers := alike ▸ crew_perm same
  exact follows.rehold root owners started ((perm.map _).nodup_iff.mpr follows.alone)
    (fun _ => perm.mem_iff.mp) (grows_perm perm)

/-- A branch that rests has had its last call. -/
theorem rested (follows : Follows fresh s calls (task :: workers)) (settling : task.stage = .settling)
    (root : s'.root = s.root) (owners : s'.owners = s.owners)
    (started : s'.stats.branchesStarted = s.stats.branchesStarted) :
    Follows fresh s' calls workers :=
  follows.rehold root owners started (List.nodup_cons.mp follows.alone).2
    (fun _ => List.mem_cons_of_mem _) fun node => by simp [settling]

theorem made_rooted (follows : Follows fresh s calls workers) (rooted : s.root = some root) :
    created calls = root :: s.owners.toList := by
  rw [follows.made, rooted]
  rfl

private theorem owner_created (follows : Follows fresh s calls workers) {index : Nat}
    (owner : s.owners[index]? = some node) : node ∈ created calls := by
  rw [follows.made]
  exact List.mem_append_right _ (Array.mem_toList_iff.mpr (Array.mem_of_getElem? owner))

private theorem owner_ne_root (follows : Follows fresh s calls workers) (rooted : s.root = some root)
    {index : Nat} (owner : s.owners[index]? = some node) : node ≠ root := by
  have apart := follows.made_rooted rooted ▸ follows.distinct
  rintro rfl
  exact (List.nodup_cons.mp apart).1 (Array.mem_toList_iff.mpr (Array.mem_of_getElem? owner))

private theorem owner_unique (follows : Follows fresh s calls workers) {index other : Nat}
    (owner : s.owners[index]? = some node) (owner' : s.owners[other]? = some node) :
    index = other := by
  have apart := (List.nodup_append.mp (follows.made ▸ follows.distinct)).2.1
  rw [← Array.getElem?_toList] at owner owner'
  exact (List.getElem?_inj (List.getElem?_eq_some_iff.mp owner).1 apart).mp (owner.trans owner'.symm)

private theorem owner_pushed (follows : Follows fresh s calls workers) {index : Nat} {other : NodeId} :
    (s.owners.push node)[index]? = some other ↔
      index = s.stats.branchesStarted ∧ other = node ∨ s.owners[index]? = some other := by
  have size := follows.started
  rw [Array.getElem?_push, size]
  by_cases last : index = s.stats.branchesStarted
  · subst last
    have vacant : s.owners[s.stats.branchesStarted]? = none := Array.getElem?_eq_none (by omega)
    simp [vacant, eq_comm]
  · simp [last]

/-- The first node is the root, and the first thing that happens to it is its placement. -/
theorem rooted (follows : Follows fresh s calls workers) (unrooted : s.root = none) (root : NodeId) :
    Follows fresh { s with root := some root }
      (calls ++ [.create none root] ++ [.place root (.atPosition fresh.interpretation.origin)])
      workers := by
  obtain rfl := follows.bare unrooted
  have unowned : s.owners.toList = [] := by
    have made := follows.made
    rw [unrooted] at made
    exact made.symm
  obtain ⟨-, -, -, started, -, -, alone, tasks, -⟩ := follows
  refine ⟨?_, ?_, ?_, started, nofun, ?_, alone, tasks, ?_⟩
  · exact (Known.nil.concat _ fun _ given => absurd given List.not_mem_nil).concat _ fun _ => id
  · rw [unowned]
    rfl
  · exact List.nodup_singleton root
  · rintro root' same
    obtain rfl := Option.some.inj same
    exact ⟨[], rfl, nofun⟩
  · intro root' index node _ owner
    rw [← Array.getElem?_toList, unowned] at owner
    cases owner

/-- A branch at work gets another size. -/
theorem placed (follows : Follows fresh s calls (task :: workers)) (rooted : s.root = some root)
    (growing : task.stage = .growing) (part : Float32) (stage : BranchStage)
    (reached : part < 1 ∧ stage = .growing ∨ part = 1 ∧ stage = .settling) :
    Follows fresh s (calls ++ [.place task.node (grown task part)])
      ({ task with stage } :: workers) := by
  obtain ⟨place, segment, owner, found, offset⟩ := follows.tasks task List.mem_cons_self
  have ⟨known, made, distinct, started, bare, opened, alone, tasks, traces⟩ := follows
  have kept : created (calls ++ [.place task.node (Scheduler.grown task part)]) = created calls := by
    rw [created_append]
    exact List.append_nil _
  refine ⟨?_, kept ▸ made, kept ▸ distinct, started, ?_, ?_, alone, ?_, ?_⟩
  · refine known.concat _ fun id given => ?_
    obtain rfl := List.mem_singleton.mp given
    exact follows.owner_created owner
  · intro unrooted
    rw [unrooted] at rooted
    cases rooted
  · intro root' rooted'
    exact (opened root' rooted').concat _ (follows.owner_ne_root rooted' owner) nofun
  · intro other member
    rcases List.mem_cons.mp member with rfl | member
    · exact ⟨place, segment, owner, found, offset⟩
    · exact tasks other (List.mem_cons_of_mem _ member)
  · intro root' index node rooted' owner'
    obtain ⟨stem, found', traced⟩ := traces root' index node rooted' owner'
    refine ⟨stem, found', ?_⟩
    by_cases this : task.node = node
    · subst this
      obtain rfl := follows.owner_unique owner owner'
      obtain rfl : segment = stem := by simpa [found] using found'
      have unfinished : grows (task :: workers) task.node = true := by simp [growing]
      have others := grows_absent (List.nodup_cons.mp alone).1
      have now : grows ({ task with stage } :: workers) task.node = decide (stage = .growing) := by
        simp [others]
      rw [unfinished] at traced
      rw [about_concat_of_mem _ List.mem_cons_self, place_grown offset, now]
      exact traced.concat reached
    · have unnamed : node ∉ (HostCall.place task.node (Scheduler.grown task part)).names :=
        fun named => this (List.mem_singleton.mp named).symm
      have unchanged : grows ({ task with stage } :: workers) node = grows (task :: workers) node := by
        simp [this]
      rw [about_concat_of_not_mem _ unnamed, unchanged]
      exact traced

/-- A branch that starts has its first three calls. -/
theorem planted (follows : Follows fresh s calls workers) (rooted : s.root = some root)
    (same : SameTree fresh s)
    (found : s.interpretation.segments[s.stats.branchesStarted]? = some segment)
    (new : node ∉ created calls) (material : Material) (time : Float32) :
    Follows fresh (s.afterStart s.stats.branchesStarted segment node time)
      (calls ++ fresh.branchCalls segment root node material [])
      (s.newTask segment node time :: workers) := by
  have ⟨known, made, distinct, started, bare, opened, alone, tasks, traces⟩ := follows
  have rootMade : root ∈ created calls := follows.made_rooted rooted ▸ List.mem_cons_self
  have kept : created (calls ++ fresh.branchCalls segment root node material []) =
      created calls ++ [node] := created_append ..
  rw [same.tree] at found
  refine ⟨known_seedling known rootMade material, ?_, ?_, ?_, ?_, ?_, ?_, ?_, ?_⟩
  · change _ = s.root.toList ++ (s.owners.push node).toList
    rw [kept, made, Array.toList_push, List.append_assoc]
  · rw [kept]
    exact List.nodup_append.mpr ⟨distinct, List.nodup_singleton node, fun other member last here =>
      by rintro rfl; exact new (List.mem_singleton.mp here ▸ member)⟩
  · change (s.owners.push node).size = s.stats.branchesStarted + 1
    rw [Array.size_push, started]
  · intro unrooted
    change s.root = none at unrooted
    rw [unrooted] at rooted
    cases rooted
  · intro root' rooted'
    obtain rfl : root = root' := Option.some.inj (rooted.symm.trans rooted')
    exact opened_seedling (opened root rooted) (ne_of_mem_of_not_mem rootMade new).symm material
  · refine List.nodup_cons.mpr ⟨fun member => new ?_, alone⟩
    obtain ⟨task, member, this⟩ := List.mem_map.mp member
    obtain ⟨index, stem, owner, -⟩ := tasks task member
    exact (show task.node = node from this) ▸ follows.owner_created owner
  · intro task member
    rcases List.mem_cons.mp member with rfl | member
    · exact ⟨_, segment, follows.owner_pushed.mpr (.inl ⟨rfl, rfl⟩), found, same.offsetOf_eq segment⟩
    · obtain ⟨index, stem, owner, known⟩ := tasks task member
      exact ⟨index, stem, follows.owner_pushed.mpr (.inr owner), known⟩
  · intro root' index other rooted' owner
    obtain rfl : root = root' := Option.some.inj (rooted.symm.trans rooted')
    rcases follows.owner_pushed.mp owner with ⟨rfl, rfl⟩ | owner
    · have growing : grows (s.newTask segment other time :: workers) other = true := by
        simp [newTask]
      refine ⟨segment, found, ?_⟩
      rw [about_append, known.about_eq_nil new, about_seedling, growing]
      exact ⟨material, [], nofun, rfl⟩
    · have apart : other ≠ node := fun this => new (this ▸ follows.owner_created owner)
      have unchanged : grows (s.newTask segment node time :: workers) other = grows workers other := by
        simp [newTask, apart.symm]
      rw [about_append, about_seedling_of_ne (follows.owner_ne_root rooted owner) apart,
        List.append_nil, unchanged]
      exact traces root index other rooted owner

variable {σ : Type} [SceneHost σ] {first : σ}

private theorem plant_calls (same : SameTree fresh s) (rooted : s.root = some root) (segment : Segment)
    (log : Logged first) :
    (s.plant segment log).2.calls = log.calls ++
      fresh.branchCalls segment root (s.plant segment log).1 s.nextDraws.1.material [] := by
  rw [branchCalls, sized, ← same.tubeOf_eq, ← same.tree, ← rooted]
  exact (List.append_assoc ..).trans (List.append_assoc ..)

private theorem move {moving : Task} {log log' : Logged first} (never : NeverRepeats first)
    (accounts : Accounts s (moving :: s.tasks)) (same : SameTree fresh s) (rooted : s.root.isSome)
    (follows : Follows fresh s log.calls (crew (moving :: s.tasks)))
    (move : Move s time log moving s' log') : Follows fresh s' log'.calls (crew s'.tasks) := by
  obtain ⟨root, rooted⟩ := Option.isSome_iff_exists.mp rooted
  have held := accounts.held
  cases move with
  | hold busy => exact follows.recrew rfl rfl rfl (tasks_deferred (s := s) rfl rfl) rfl
  | @start next segment found room =>
    obtain ⟨phase, rfl, -⟩ := held_dispatch held
    have new : (SceneHost.createNode s.root log).1 ∉ created log.calls := never _ _ _ log.served
    rw [plant_calls same rooted]
    exact (follows.planted rooted same found new _ time).recrew rfl rfl rfl (tasks_afterStart ..) rfl
  | leave last idle => exact follows.recrew rfl rfl rfl (tasks_pushed (s := s) rfl rfl) rfl
  | @grow task growing young =>
    exact (follows.placed rooted growing _ _ (.inl ⟨young, growing⟩)).recrew rfl rfl rfl
      (tasks_deferred (s := s) rfl rfl) rfl
  | @mature task growing old =>
    -- Growth is cut off at one, so a branch that is full-grown has its last size to the bit.
    have full : progress task time = 1 := Scalar.min_eq_of_not_lt (by decide) (by decide) old
    exact (follows.placed rooted growing _ _ (.inr ⟨full, rfl⟩)).recrew rfl rfl rfl
      (tasks_pushed (s := s) rfl rfl) rfl
  | rest settling => exact follows.rested settling rfl rfl rfl
  | cluster found more => exact follows.recrew rfl rfl rfl (tasks_pushed (s := s) rfl rfl) rfl
  | lastCluster found last => exact follows.recrew rfl rfl rfl (.refl _) rfl
  | finish beyond => exact follows.recrew rfl rfl rfl (.refl _) rfl

private theorem kept (fresh : Scheduler) (never : NeverRepeats first) :
    Kept fun s (log : Logged first) =>
      (Accounts s s.tasks ∧ SameTree fresh s) ∧ Follows fresh s log.calls (crew s.tasks) := by
  refine (Accounts.kept_same fresh).and ?_ ?_ ?_
  · rintro s log unrooted ⟨-, same⟩ follows
    have opened := follows.rooted unrooted (SceneHost.createNode none log).1
    rw [← same.tree] at opened
    exact opened
  · rintro s log dt - - follows
    exact follows.recrew rfl rfl rfl (tasks_beginFrame s (frameLength dt)) rfl
  · rintro s s' log log' entry queue rooted ⟨accounts, same⟩ follows popped move
    have before : Follows fresh { s with queue } log.calls
        (crew (entry.task :: { s with queue }.tasks)) := by
      rw [tasks_popped popped] at follows
      exact follows.rehold rfl rfl rfl follows.alone (fun _ => id) fun _ => rfl
    exact before.move never (accounts.popped popped)
      ⟨same.tree, same.timing, same.mesh, same.bark, same.total⟩ rooted move

end Follows

/-- The first frame makes the root. -/
theorem run_rooted {σ : Type} [SceneHost σ] (s : Scheduler) (host : σ) (framed : lengths ≠ []) :
    (s.run lengths host).1.root.isSome := by
  have kept : Kept fun s (_ : σ) => s.root.isSome :=
    ⟨fun _ _ => rfl, fun _ rooted _ => rooted, fun rooted _ _ move => move.unchanged.2.1 ▸ rooted⟩
  cases lengths with
  | nil => exact absurd rfl framed
  | cons dt lengths =>
    have begun : (s.begun dt host).1.root.isSome := ensureRoot_isSome s host
    have advanced : (s.advance dt host).1.root.isSome := kept.advance_of_begun dt begun
    exact kept.run lengths advanced

/-- On every host whose ids do not repeat, the calls of a run come in this order. The first frame makes the
root and places it at the origin of the tree; this is the only node without a parent, and no later call
changes it. All other nodes are made under the root, one for each branch that starts. The calls that name
such a node are these: it is made, gets its mesh and the size zero, and then sizes for parts of its growth,
always at the same place and never turned. As long as a task lets the branch grow all parts are less than
the whole; when none does the last part, and no other, is the whole. No call is given an id that did not
come back from a call before it. The calls are read off a log, and the run is the same without it. -/
theorem host_calls_follow_protocol {σ : Type} [SceneHost σ] {tree : Interpretation}
    {settings : TreeSettings} {source : Generator} (accepted : checked tree settings source = .ok fresh)
    {first : σ} (never : NeverRepeats first) (lengths : List Float32) :
    let s := (fresh.run lengths (Logged.unused first)).1
    let log := (fresh.run lengths (Logged.unused first)).2
    fresh.run lengths first = (s, log.host) ∧
    (lengths = [] → log.calls = []) ∧
    (lengths ≠ [] → ∃ root rest, s.root = some root ∧
      log.calls = .create none root :: .place root (.atPosition tree.origin) :: rest ∧
      (∀ call ∈ rest, call.node ≠ root) ∧
      (∀ parent node, .create parent node ∈ rest → parent = some root) ∧
      created log.calls = root :: s.owners.toList ∧ s.owners.size = s.stats.branchesStarted ∧
      ∀ index node, s.owner? index = some node → ∃ segment material young,
        tree.segments[index]? = some segment ∧ (∀ part ∈ young, part < 1) ∧
        about node log.calls = fresh.branchCalls segment root node material
          (if grows (crew s.tasks) node then young else young ++ [1])) ∧
    ∀ before call after, log.calls = before ++ call :: after →
      ∀ id ∈ call.given, id ∈ created before := by
  intro s log
  have start : Follows fresh fresh (Logged.unused first).calls (crew fresh.tasks) :=
    .ofAccepted accepted
  obtain ⟨-, follows⟩ := (Follows.kept fresh never).run lengths
    ⟨⟨.fresh accepted, .refl fresh⟩, start⟩
  have origin : tree = fresh.interpretation := by
    obtain ⟨-, rfl⟩ := checked_ok accepted
    rfl
  subst origin
  refine ⟨(Logged.hostMap first).run lengths fresh (Logged.unused first), ?_, ?_, follows.known⟩
  · rintro rfl
    rfl
  · intro framed
    obtain ⟨root, rooted⟩ := Option.isSome_iff_exists.mp
      (run_rooted fresh (Logged.unused first) framed)
    obtain ⟨rest, calls, later⟩ := follows.opened root rooted
    refine ⟨root, rest, rooted, calls, fun call member => (later call member).1,
      fun parent node member => (later _ member).2 parent node rfl, follows.made_rooted rooted,
      follows.started, ?_⟩
    intro index node owner
    obtain ⟨segment, found, material, young, parts, trace⟩ :=
      follows.traces root index node rooted owner
    exact ⟨segment, material, young, found, parts, trace⟩

/-- The second branch of a sprout, in a run whose last frame finds all branches grown. -/
theorem host_calls_of_sprout :
    checked sprout {} (.ofSeed 7) = .ok (atStart sprout {} (.ofSeed 7)) ∧
    NeverRepeats Recording.empty ∧
    let fresh := atStart sprout {} (.ofSeed 7)
    let s := (fresh.run [0, 60, 1, 2, 1] (Logged.unused Recording.empty)).1
    let log := (fresh.run [0, 60, 1, 2, 1] (Logged.unused Recording.empty)).2
    fresh.run [0, 60, 1, 2, 1] Recording.empty = (s, log.host) ∧
    ∃ root node segment material young, s.root = some root ∧ s.owner? 1 = some node ∧
      sprout.segments[1]? = some segment ∧ (∀ part ∈ young, part < 1) ∧
      about node log.calls = fresh.branchCalls segment root node material (young ++ [1]) := by
  have accepted : checked sprout {} (.ofSeed 7) = .ok (atStart sprout {} (.ofSeed 7)) := rfl
  have never := Recording.neverRepeats Recording.empty
  obtain ⟨same, -, framed, -⟩ := host_calls_follow_protocol accepted never [0, 60, 1, 2, 1]
  obtain ⟨root, rest, rooted, -, -, -, -, -, branches⟩ := framed nofun
  obtain ⟨node, owner⟩ : ∃ node, ((atStart sprout {} (.ofSeed 7)).run [0, 60, 1, 2, 1]
      (Logged.unused Recording.empty)).1.owner? 1 = some node :=
    Option.isSome_iff_exists.mp (by decide +kernel)
  have idle : crew ((atStart sprout {} (.ofSeed 7)).run [0, 60, 1, 2, 1]
      (Logged.unused Recording.empty)).1.tasks = [] := by decide +kernel
  obtain ⟨segment, material, young, found, parts, trace⟩ := branches 1 node owner
  rw [idle] at trace
  exact ⟨accepted, never, same, root, node, segment, material, young, rooted, owner, found, parts,
    trace⟩

end Sapling.Scheduler
