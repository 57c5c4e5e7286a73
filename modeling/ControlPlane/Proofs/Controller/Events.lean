/-
Events one after the other. To the tracker, an event is at most one operation (`Controller.operation?`), and to
the topology at most one link that is added or removed. So what holds of the topologies and of the trackers
that come from empty ones holds along every run of a controller (`Controller.Sound`), and the record of a path
changes by the confirmations of its entries and by no other event.
-/
import ControlPlane.Controller
import ControlPlane.Proofs.Path.Tracker
import ControlPlane.Proofs.Topology.Adjacency

namespace ControlPlane

/-- The entry that the event confirms, if it has the ID of the path. -/
def Event.confirmed? (id : String) : Event → Option FlowEntry
  | .flowEntryAdded flow => if flow.id = id then some flow else none
  | _ => none

theorem Event.confirmed?_eq_some {id : String} {e : Event} {flow : FlowEntry} :
    e.confirmed? id = some flow ↔ e = .flowEntryAdded flow ∧ flow.id = id := by
  cases e with
  | flowEntryAdded flow' =>
    rw [confirmed?, Option.ite_none_right_eq_some, Option.some.injEq, Event.flowEntryAdded.injEq]
    constructor
    · rintro ⟨h, rfl⟩; exact ⟨rfl, h⟩
    · rintro ⟨rfl, h⟩; exact ⟨h, rfl⟩
  | linkAdded _ | linkDeleted _ | nodeJoined _ | addPath _ _ | delPath _ | flowEntryDeleted _ => simp [confirmed?]

namespace Controller

variable {c c' : Controller} {now : Timestamp} {e : Event}

/-- The controller after events at their times. -/
def after (c : Controller) (events : List (Timestamp × Event)) : Controller :=
  events.foldl (fun c e => (c.handle e.1 e.2).2) c

theorem after_append (c : Controller) (events later : List (Timestamp × Event)) :
    c.after (events ++ later) = (c.after events).after later :=
  List.foldl_append

/-! ## One event -/

/-- What an event asks of the tracker. -/
def operation? (c : Controller) (now : Timestamp) : Event → Option Tracker.Operation
  | .addPath requester path =>
    match c.compilePath path with
    | .ok flows => some (.track now requester path flows)
    | .error _ => none
  | .flowEntryAdded flow => some (.confirm flow)
  | _ => none

theorem confirmed?_operation? (c : Controller) (now : Timestamp) (e : Event) (id : String) :
    (c.operation? now e).bind (Tracker.Operation.confirmed? id) = e.confirmed? id := by
  cases e with
  | addPath requester path =>
    rw [operation?]
    split <;> rfl
  | flowEntryAdded flow => rfl
  | linkAdded _ | linkDeleted _ | nodeJoined _ | delPath _ | flowEntryDeleted _ => rfl

theorem tracker_handle (c : Controller) (now : Timestamp) (e : Event) :
    (c.handle now e).2.tracker = (c.tracker.run (c.operation? now e).toList).2 := by
  cases e with
  | linkAdded link => rw [handle]; split <;> rfl
  | linkDeleted link => rw [handle]; split <;> rfl
  | nodeJoined _ | delPath _ | flowEntryDeleted _ => rfl
  | addPath requester path =>
    show (c.addPath now requester path).2.tracker = _
    rw [addPath, operation?]
    cases c.compilePath path with
    | error _ => rfl
    | ok flows =>
      show _ = (c.tracker.perform (.track now requester path flows)).2
      rcases ht : c.tracker.track now requester path flows with ⟨_ | _, t⟩
      · simp only [Tracker.perform, ht]
      · simp only [Tracker.perform, ht]
  | flowEntryAdded flow =>
    show _ = (c.tracker.perform (.confirm flow)).2
    rcases ht : c.tracker.confirm flow with ⟨_ | _, t⟩
    · simp only [Controller.handle, Tracker.perform, ht]
    · simp only [Controller.handle, Tracker.perform, ht]

theorem graph_handle (c : Controller) (now : Timestamp) (e : Event) : (c.handle now e).2.graph = c.graph ∨
    (∃ link, (c.handle now e).2.graph = (c.graph.addLink link).2) ∨
    ∃ link, (c.handle now e).2.graph = (c.graph.removeLink link).2 := by
  cases e with
  | linkAdded link =>
    rw [handle]
    split <;> next h => exact .inr (.inl ⟨link, by rw [h]⟩)
  | linkDeleted link =>
    rw [handle]
    split <;> next h => exact .inr (.inr ⟨link, by rw [h]⟩)
  | nodeJoined _ | delPath _ | flowEntryDeleted _ => exact .inl rfl
  | addPath requester path =>
    show (c.addPath now requester path).2.graph = _ ∨ _
    rw [addPath]
    split
    · exact .inl rfl
    · split <;> exact .inl rfl
  | flowEntryAdded flow => rw [handle]; split <;> exact .inl rfl

/-! ## Runs -/

/-- The topology was built link by link, and the tracker works on its own records. -/
structure Sound (c : Controller) : Prop where
  graph : c.graph.Reachable
  tracker : c.tracker.Sound

theorem sound_new (config : ControllerConfig) : (new config).Sound := ⟨.empty, Tracker.sound_new _⟩

theorem Sound.handle (hS : c.Sound) (now : Timestamp) (e : Event) : (c.handle now e).2.Sound := by
  refine ⟨?_, ?_⟩
  · rcases c.graph_handle now e with h | ⟨link, h⟩ | ⟨link, h⟩ <;> rw [h]
    · exact hS.graph
    · exact hS.graph.add link
    · exact hS.graph.remove link
  · rw [tracker_handle]
    exact hS.tracker.run _

theorem Sound.after (hS : c.Sound) (events : List (Timestamp × Event)) : (c.after events).Sound := by
  induction events generalizing c with
  | nil => exact hS
  | cons e events ih => exact ih (hS.handle e.1 e.2)

/-- An event confirms its entry in the record of the path, and nothing else. -/
theorem Sound.record?_handle (hS : c.Sound) {id : String} {r : PathRecord} (hr : c.tracker.record? id = some r)
    (now : Timestamp) (e : Event) :
    (c.handle now e).2.tracker.record? id = some (r.confirmAll (e.confirmed? id).toList) := by
  rw [tracker_handle, hS.tracker.record?_run hr, ← c.confirmed?_operation? now e id]
  cases c.operation? now e with
  | none => rfl
  | some op =>
    show some (r.confirmAll ([op].filterMap _)) = some (r.confirmAll (op.confirmed? id).toList)
    cases hop : op.confirmed? id with
    | none => rw [List.filterMap_cons_none hop]; rfl
    | some flow => rw [List.filterMap_cons_some hop]; rfl

/-- A path whose entries are asked for was compiled and accepted. -/
theorem addPath_eq {requester : ActorRef} {path : Path} {commands : List Command}
    (h : c.handle now (.addPath requester path) = (.ok commands, c'))
    (hasked : ∃ flow ack, .addFlowEntry flow ack ∈ commands) : ∃ flows, c.compilePath path = .ok flows ∧
      c.tracker.track now requester path flows = (.ok commands, c'.tracker) := by
  obtain ⟨flow, ack, hmem⟩ := hasked
  obtain ⟨rfl, rfl⟩ : (c.addPath now requester path).1 = commands ∧ (c.addPath now requester path).2 = c' := by
    cases h; exact ⟨rfl, rfl⟩
  rw [addPath] at hmem ⊢
  split at hmem
  · simp at hmem
  · next flows hflows =>
    split at hmem
    · simp at hmem
    · next ht => exact ⟨flows, hflows, ht⟩

end Controller

end ControlPlane
