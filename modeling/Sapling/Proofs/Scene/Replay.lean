import Mathlib.Algebra.Order.BigOperators.Group.List
import Mathlib.Algebra.Order.Ring.Nat
import Sapling.Proofs.Scene.Ancestry

/-! The log of a scene is its history. Every call that has an effect adds one entry, and the entries since
the beginning, drained or not, tell all that is known of the nodes. -/
namespace Sapling

namespace SceneEvent

/-- The entry is one of a draw. -/
def isDraw : SceneEvent → Bool
  | instancedDraw .. => true
  | _ => false

/-- How many instances were drawn. -/
def instances : SceneEvent → Nat
  | instancedDraw instances _ => instances
  | _ => 0

end SceneEvent

namespace SceneCall

/-- The entry that a call adds to the log. -/
def event? (scene : Recording) : SceneCall → Option SceneEvent
  | createNode parent => some (.nodeCreated ⟨scene.nodeCount⟩ (scene.known parent))
  | attachMesh id mesh material => (scene.node? id).map fun _ =>
    .meshAttached id mesh.vertexCount mesh.triangleCount material
  | setTransform id transform => (scene.node? id).map fun node =>
    .transformSet id node.transform transform
  | drawInstanced batch properties => some (.instancedDraw batch.count properties.data)
  | drainEvents => none

private theorem isSome_entry (scene : Recording) (call : SceneCall) :
    (call.event? scene).isSome ↔ call.Effective scene := by
  cases call <;> simp [event?, Effective]

/-- An entry of a transform is made by the call that sets it, and has the transform from before. -/
theorem entry_transformSet {scene : Recording} {call : SceneCall} {id : NodeId}
    (entry : call.event? scene = some (.transformSet id old new)) :
    call = .setTransform id new ∧ (scene.node? id).map (·.transform) = some old := by
  cases call with
  | setTransform id' transform =>
    obtain ⟨node, found, same⟩ := Option.map_eq_some_iff.mp entry
    cases same
    exact ⟨rfl, by rw [found, Option.map_some]⟩
  | attachMesh id' mesh material =>
    obtain ⟨node, found, same⟩ := Option.map_eq_some_iff.mp entry
    cases same
  | _ => cases entry

end SceneCall

namespace Recording

/-- What can be told of each id. -/
def told (scene : Recording) (id : NodeId) : Option NodeSummary := (scene.node? id).map .ofNode

private theorem told_createNode (scene : Recording) (parent : Option NodeId) :
    (scene.createNode parent).2.told =
      NodeSummary.replayEvent scene.told (.nodeCreated ⟨scene.nodeCount⟩ (scene.known parent)) := by
  funext id
  simp only [told, node?, createNode_nodes, Array.getElem?_push, NodeSummary.replayEvent]
  by_cases new : id = ⟨scene.nodeCount⟩
  · subst new
    rw [if_pos rfl]
    exact congrArg (Option.map NodeSummary.ofNode) (if_pos rfl)
  · have old : id.value ≠ scene.nodes.size := fun same => new (congrArg NodeId.mk same)
    rw [if_neg old, if_neg new]

private theorem told_update {scene : Recording} {id : NodeId} (found : scene.node? id = some node)
    {change : SceneNode → SceneNode} (event : SceneNode → SceneEvent)
    {retell : NodeSummary → NodeSummary}
    (tells : ∀ node, NodeSummary.ofNode (change node) = retell (.ofNode node)) :
    (scene.update id change event).told = fun other =>
      if other = id then (scene.told id).map retell else scene.told other := by
  funext other
  simp only [told, node?, update_nodes, Array.getElem?_modify]
  by_cases same : other = id
  · subst same
    rw [if_pos rfl, if_pos rfl]
    cases scene.nodes[other.value]? with
    | none => rfl
    | some node => exact congrArg some (tells node)
  · have apart : id.value ≠ other.value := fun equal => same (congrArg NodeId.mk equal.symm)
    rw [if_neg apart, if_neg same]

end Recording

namespace History

/-! ## Entries -/

private theorem events_concat {h next : History} {entry : SceneEvent} (drained : next.drained = h.drained)
    (events : next.scene.events = h.scene.events.push entry) : next.events = h.events ++ [entry] := by
  rw [History.events, drained, events, Array.toList_push, ← List.append_assoc]
  rfl

private theorem events_update (h : History) (id : NodeId) (change : SceneNode → SceneNode)
    (event : SceneNode → SceneEvent) :
    ({ h with scene := h.scene.update id change event } : History).events =
      h.events ++ ((h.scene.node? id).map event).toList := by
  cases found : h.scene.node? id with
  | none =>
    rw [Recording.update_unknown found]
    exact (List.append_nil _).symm
  | some node =>
    rw [Recording.update_known found]
    exact events_concat rfl rfl

/-- A call adds its entry behind those that are there. To drain the log moves them. -/
theorem events_perform (h : History) (call : SceneCall) :
    (h.perform call).events = h.events ++ (call.event? h.scene).toList := by
  cases call with
  | createNode parent => exact events_concat rfl rfl
  | attachMesh id mesh material => exact h.events_update id _ _
  | setTransform id transform => exact h.events_update id _ _
  | drawInstanced batch properties => exact events_concat rfl rfl
  | drainEvents =>
    change (h.drained ++ h.scene.events.toList) ++ [] = h.events ++ []
    rfl

/-- Only to drain the log takes entries out of it. -/
theorem drained_perform (h : History) {call : SceneCall} (keeps : call ≠ .drainEvents) :
    (h.perform call).drained = h.drained := by
  cases call <;> first | rfl | contradiction

private theorem log_perform (h : History) {call : SceneCall} (keeps : call ≠ .drainEvents) :
    (h.perform call).scene.events.toList =
      h.scene.events.toList ++ (call.event? h.scene).toList := by
  have events := h.events_perform call
  rw [History.events, h.drained_perform keeps, History.events, List.append_assoc] at events
  exact List.append_cancel_left events

/-- Every entry was made by a call, from the scene that the calls before it had made. -/
theorem entry_origin {calls : List SceneCall} {before after : List SceneEvent} {entry : SceneEvent}
    (split : (ofCalls calls).events = before ++ entry :: after) :
    ∃ earlier call later, calls = earlier ++ call :: later ∧ (ofCalls earlier).events = before ∧
      call.event? (ofCalls earlier).scene = some entry := by
  induction calls using List.reverseRecOn generalizing after with
  | nil => cases before <;> cases split
  | append_singleton calls call ih =>
    have still {rest : List SceneEvent} (split : (ofCalls calls).events = before ++ entry :: rest) :
        ∃ earlier call' later, calls ++ [call] = earlier ++ call' :: later ∧
          (ofCalls earlier).events = before ∧
          call'.event? (ofCalls earlier).scene = some entry := by
      obtain ⟨earlier, call', later, rfl, same, made⟩ := ih split
      exact ⟨earlier, call', later ++ [call], by simp, same, made⟩
    rw [ofCalls_concat, events_perform] at split
    cases made : call.event? (ofCalls calls).scene with
    | none =>
      rw [made, Option.toList_none, List.append_nil] at split
      exact still split
    | some last =>
      rw [made, Option.toList_some] at split
      obtain rfl | ⟨front, final, rfl⟩ := List.eq_nil_or_concat after
      · obtain ⟨same, single⟩ := List.append_inj' split rfl
        exact ⟨calls, call, [], rfl, same, made.trans (congrArg some (List.singleton_inj.mp single))⟩
      · have split' : (ofCalls calls).events ++ [last] = (before ++ entry :: front) ++ [final] := by
          simpa using split
        exact still (List.append_inj' split' rfl).1

/-! ## Replay -/

/-- All entries together tell all that is known of the nodes and of the draws. -/
structure Faithful (h : History) : Prop where
  told : NodeSummary.replay h.events = h.scene.told
  draws : h.scene.instancedDraws = h.events.countP (·.isDraw)
  drawn : h.scene.instancesDrawn = (h.events.map (·.instances)).sum

/-- One more entry tells what it was made for. -/
theorem Faithful.concat {h next : History} (faithful : h.Faithful) {entry : SceneEvent}
    (events : next.events = h.events ++ [entry])
    (replayed : next.scene.told = NodeSummary.replayEvent h.scene.told entry)
    (draws : next.scene.instancedDraws = h.scene.instancedDraws + if entry.isDraw then 1 else 0)
    (drawn : next.scene.instancesDrawn = h.scene.instancesDrawn + entry.instances) :
    next.Faithful where
  told := by rw [events, NodeSummary.replay, List.foldl_concat, replayed, ← faithful.told]; rfl
  draws := by rw [events, draws, faithful.draws, List.countP_append, List.countP_singleton]
  drawn := by
    rw [events, drawn, faithful.drawn, List.map_append, List.sum_append, List.map_singleton,
      List.sum_singleton]

/-- A change to one node is told by its entry, which is none of a draw. -/
theorem Faithful.update {h : History} (faithful : h.Faithful) {id : NodeId}
    {change : SceneNode → SceneNode} {event : SceneNode → SceneEvent}
    {retell : NodeSummary → NodeSummary}
    (tells : ∀ node, NodeSummary.ofNode (change node) = retell (.ofNode node))
    (retold : ∀ known node, NodeSummary.replayEvent known (event node) = fun other =>
      if other = id then (known id).map retell else known other)
    (noDraw : ∀ node, (event node).isDraw = false ∧ (event node).instances = 0) :
    ({ h with scene := h.scene.update id change event } : History).Faithful := by
  cases found : h.scene.node? id with
  | none =>
    rw [Recording.update_unknown found]
    exact faithful
  | some node =>
    have events := h.events_update id change event
    rw [found] at events
    refine faithful.concat events ?_ ?_ ?_
    · exact (Recording.told_update found event tells).trans (retold _ node).symm
    · rw [Recording.update_known found, (noDraw node).1]
      rfl
    · rw [Recording.update_known found, (noDraw node).2]
      rfl

private theorem Faithful.perform {h : History} (faithful : h.Faithful) (call : SceneCall) :
    (h.perform call).Faithful := by
  cases call with
  | createNode parent =>
    exact faithful.concat (h.events_perform _) (h.scene.told_createNode parent) rfl rfl
  | attachMesh id mesh material =>
    exact faithful.update (fun _ => rfl) (fun _ _ => rfl) fun _ => ⟨rfl, rfl⟩
  | setTransform id transform =>
    exact faithful.update (fun _ => rfl) (fun _ _ => rfl) fun _ => ⟨rfl, rfl⟩
  | drawInstanced batch properties => exact faithful.concat (h.events_perform _) rfl rfl rfl
  | drainEvents =>
    have events : (h.perform .drainEvents).events = h.events := List.append_nil _
    exact ⟨events ▸ faithful.told, events ▸ faithful.draws, events ▸ faithful.drawn⟩

private theorem faithful_ofCalls (calls : List SceneCall) : (ofCalls calls).Faithful := by
  induction calls using List.reverseRecOn with
  | nil => exact ⟨rfl, rfl, rfl⟩
  | append_singleton calls call ih =>
    rw [ofCalls_concat]
    exact ih.perform call

/-- The log of a scene is its history, whatever was done to the scene. Replayed from the beginning, the
drained entries and those after them tell of every id what the scene knows of it. The old transform of an
entry is that of the node just before the call that made the entry. Draws and their instances are those of
the log. A call that has an effect adds one entry at the end, one without changes nothing, and only to drain
the log takes entries out of it, all of them in their order. -/
theorem log_is_faithful (calls : List SceneCall) :
    let h := ofCalls calls
    (∀ id, NodeSummary.replay h.events id = (h.scene.node? id).map NodeSummary.ofNode) ∧
    (∀ before id old new after, h.events = before ++ .transformSet id old new :: after →
      ∃ earlier later, calls = earlier ++ .setTransform id new :: later ∧
        (ofCalls earlier).events = before ∧
        ((ofCalls earlier).scene.node? id).map (·.transform) = some old) ∧
    h.scene.instancedDraws = h.events.countP (·.isDraw) ∧
    h.scene.instancesDrawn = (h.events.map (·.instances)).sum ∧
    (∀ call, call.Effective h.scene → ∃ entry,
      (h.perform call).scene.events.toList = h.scene.events.toList ++ [entry] ∧
      (h.perform call).drained = h.drained) ∧
    (∀ call, ¬ call.Effective h.scene → call ≠ .drainEvents → h.perform call = h) ∧
    (h.perform .drainEvents).scene.events = #[] ∧
    (h.perform .drainEvents).drained = h.drained ++ h.scene.events.toList := by
  intro h
  obtain ⟨replays, draws, drawn⟩ := faithful_ofCalls calls
  refine ⟨fun id => congrFun replays id, ?_, draws, drawn, ?_, fun call => perform_ineffective, rfl, rfl⟩
  · intro before id old new after split
    obtain ⟨earlier, call, later, rfl, same, made⟩ := entry_origin split
    obtain ⟨rfl, transform⟩ := SceneCall.entry_transformSet made
    exact ⟨earlier, later, rfl, same, transform⟩
  · intro call effective
    obtain ⟨entry, made⟩ := Option.isSome_iff_exists.mp ((call.isSome_entry h.scene).mpr effective)
    have keeps : call ≠ .drainEvents := by
      rintro rfl
      exact effective
    refine ⟨entry, ?_, h.drained_perform keeps⟩
    rw [h.log_perform keeps, made, Option.toList_some]

/-- A branch that is moved twice, with its log drained in between. -/
def movedTwice : List SceneCall :=
  [.createNode none, .attachMesh ⟨0⟩ .empty {}, .setTransform ⟨0⟩ (.atPosition ⟨0, 1, 0⟩), .drainEvents,
    .setTransform ⟨4⟩ .identity, .setTransform ⟨0⟩ (.atPosition ⟨0, 2, 0⟩)]

/-- The log that is left has one entry, with the transform from the first move as the old one. -/
theorem log_of_moves_is_faithful :
    let h := ofCalls movedTwice
    let entry : SceneEvent :=
      .transformSet ⟨0⟩ (.atPosition ⟨0, 1, 0⟩) (.atPosition ⟨0, 2, 0⟩)
    h.scene.events.toList = [entry] ∧ h.events = h.drained ++ entry :: [] ∧
    (∃ earlier later, movedTwice = earlier ++ .setTransform ⟨0⟩ (.atPosition ⟨0, 2, 0⟩) :: later ∧
      (ofCalls earlier).events = h.drained ∧
      ((ofCalls earlier).scene.node? ⟨0⟩).map (·.transform) = some (.atPosition ⟨0, 1, 0⟩)) ∧
    NodeSummary.replay h.events ⟨0⟩ = some ⟨none, .atPosition ⟨0, 2, 0⟩, some (0, 0, {})⟩ ∧
    h.perform (.setTransform ⟨4⟩ .identity) = h := by
  intro h entry
  obtain ⟨replays, moves, -, -, -, ignored, -, -⟩ := log_is_faithful movedTwice
  have split : h.events = h.drained ++ entry :: [] := rfl
  have nobody : ¬ SceneCall.Effective h.scene (.setTransform ⟨4⟩ .identity) := nofun
  exact ⟨rfl, split, moves _ _ _ _ _ split, replays ⟨0⟩, ignored _ nobody nofun⟩

end History


end Sapling
