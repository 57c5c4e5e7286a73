/-
Readings of the clock. The clock dates new records and nothing else: two controllers that differ in the dates of
their records only (`undated`) give the same answers to the same events, whatever the clock reads, and stay so
(`results_eq`). A record that is stored keeps its date (`record?_after_eq`).
-/
import ControlPlane.Proofs.Controller.Events

namespace ControlPlane

/-! ## Records without their dates -/

/-- The record as if it was made at the start of the count. -/
def PathRecord.undated (r : PathRecord) : PathRecord := { r with created := .epoch }

namespace Tracker

/-- The tracker with undated records. -/
def undated (t : Tracker) : Tracker := { t with paths := ⟨t.paths.name, t.paths.entries.map PathRecord.undated⟩ }

theorem get?_undated (t : Tracker) (id : String) :
    t.undated.paths.get? id = (t.paths.get? id).map PathRecord.undated :=
  SortedMap.get?_map _ _ _

theorem undated_undated (t : Tracker) : t.undated.undated = t.undated := by
  have hentries : (t.paths.entries.map PathRecord.undated).map PathRecord.undated =
      t.paths.entries.map PathRecord.undated := by
    refine SortedMap.ext_get? fun id => ?_
    rw [SortedMap.get?_map, SortedMap.get?_map, Option.map_map]
    rfl
  simp only [undated, hentries]

theorem undated_insert (t : Tracker) (id : String) (r : PathRecord) :
    { t with paths := t.paths.insert id r }.undated =
      { t.undated with paths := t.undated.paths.insert id r.undated } := by
  simp only [undated, Dict.insert, SortedMap.map_insert]

theorem confirm_undated (t : Tracker) (flow : FlowEntry) :
    t.undated.confirm flow = ((t.confirm flow).1, (t.confirm flow).2.undated) := by
  unfold confirm
  rw [get?_undated]
  cases t.paths.get? flow.id with
  | none => rfl
  | some r =>
    simp only [Option.map_some, show r.undated.flows = r.flows from rfl]
    rcases flag? flow r.flows with _ | ⟨_ | _, flows⟩
    · rfl
    · simp only [undated_insert]
      rfl
    · rfl

theorem track_undated (t : Tracker) (now now' : Timestamp) (requester : ActorRef) (path : Path)
    (flows : List FlowEntry) :
    (t.undated.track now' requester path flows).1 = (t.track now requester path flows).1 ∧
    (t.undated.track now' requester path flows).2.undated = (t.track now requester path flows).2.undated := by
  have hids : ∀ ids, { t.undated with ids }.undated = { t with ids }.undated := fun ids =>
    congrArg (fun t : Tracker => { t with ids }) t.undated_undated
  unfold track
  rw [show t.undated.ids = t.ids from rfl]
  rcases t.ids.reservePath with ⟨_ | id, ids⟩
  · exact ⟨rfl, hids ids⟩
  · refine ⟨rfl, (undated_insert { t.undated with ids } _ _).trans ?_⟩
    refine Eq.trans ?_ (undated_insert { t with ids } _ _).symm
    rw [hids]
    rfl

end Tracker

namespace Controller

/-- The controller with undated records. -/
def undated (c : Controller) : Controller := { c with tracker := c.tracker.undated }

theorem handle_undated (c : Controller) (now now' : Timestamp) (e : Event) :
    (c.undated.handle now' e).1 = (c.handle now e).1 ∧
    (c.undated.handle now' e).2.undated = (c.handle now e).2.undated := by
  have hrest : ∀ graph nodes, { c.undated with graph, nodes }.undated = { c with graph, nodes }.undated := by
    intro graph nodes
    simp only [undated, Tracker.undated_undated]
  cases e with
  | linkAdded link =>
    simp only [handle, show c.undated.graph = c.graph from rfl]
    rcases c.graph.addLink link with ⟨_ | _, graph⟩ <;> exact ⟨rfl, hrest graph c.nodes⟩
  | linkDeleted link =>
    simp only [handle, show c.undated.graph = c.graph from rfl]
    rcases c.graph.removeLink link with ⟨_ | _, graph⟩ <;> exact ⟨rfl, hrest graph c.nodes⟩
  | nodeJoined node => exact ⟨rfl, hrest c.graph (c.nodes.insert node.id node)⟩
  | delPath _ | flowEntryDeleted _ => exact ⟨rfl, hrest c.graph c.nodes⟩
  | addPath requester path =>
    simp only [handle, addPath, show c.undated.compilePath path = c.compilePath path from rfl]
    cases c.compilePath path with
    | error _ => exact ⟨rfl, hrest c.graph c.nodes⟩
    | ok flows =>
      obtain ⟨hresult, htracker⟩ := c.tracker.track_undated now now' requester path flows
      simp only [show c.undated.tracker = c.tracker.undated from rfl]
      generalize c.tracker.track now requester path flows = tracked at hresult htracker ⊢
      generalize c.tracker.undated.track now' requester path flows = tracked' at hresult htracker ⊢
      obtain ⟨r, tracker⟩ := tracked
      obtain ⟨r', tracker'⟩ := tracked'
      obtain rfl : r' = r := hresult
      cases r' <;> exact ⟨rfl, congrArg (fun tracker => { c with tracker }) htracker⟩
  | flowEntryAdded flow =>
    simp only [handle, show c.undated.tracker = c.tracker.undated from rfl, Tracker.confirm_undated]
    rcases c.tracker.confirm flow with ⟨_ | _, tracker⟩ <;>
      exact ⟨rfl, congrArg (fun tracker => { c with tracker }) tracker.undated_undated⟩

/-! ## Runs -/

/-- The answers to events at their times. -/
def results (c : Controller) : List (Timestamp × Event) → List (Except ControllerError (List Command))
  | [] => []
  | (now, e) :: later => (c.handle now e).1 :: (c.handle now e).2.results later

theorem handle_eq_of_undated_eq {c c' : Controller} (h : c.undated = c'.undated) (now now' : Timestamp) (e : Event) :
    (c.handle now e).1 = (c'.handle now' e).1 ∧ (c.handle now e).2.undated = (c'.handle now' e).2.undated := by
  obtain ⟨h1, h2⟩ := c.handle_undated now .epoch e
  obtain ⟨h1', h2'⟩ := c'.handle_undated now' .epoch e
  rw [h] at h1 h2
  exact ⟨h1.symm.trans h1', h2.symm.trans h2'⟩

/-- The same events get the same answers at all times, and lead to the same state up to the dates of records. -/
theorem results_eq {c c' : Controller} (h : c.undated = c'.undated) {later later' : List (Timestamp × Event)}
    (hevents : later.map Prod.snd = later'.map Prod.snd) :
    c.results later = c'.results later' ∧ (c.after later).undated = (c'.after later').undated := by
  induction later generalizing c c' later' with
  | nil =>
    obtain rfl := List.map_eq_nil_iff.1 hevents.symm
    exact ⟨rfl, h⟩
  | cons e later ih =>
    obtain ⟨e', later', rfl, he, hlater⟩ := List.map_eq_cons_iff.1 hevents.symm
    obtain ⟨now, e⟩ := e
    obtain ⟨now', e'⟩ := e'
    obtain rfl : e' = e := he
    obtain ⟨hresult, hnext⟩ := handle_eq_of_undated_eq h now now' e'
    obtain ⟨hresults, hafter⟩ := ih hnext hlater.symm
    refine ⟨?_, hafter⟩
    rw [results, results, hresult, hresults]

variable {c : Controller}

/-- What becomes of a stored record is decided by the confirmations of its entries. -/
theorem Sound.record?_after (hS : c.Sound) {id : String} {r : PathRecord} (hr : c.tracker.record? id = some r)
    (later : List (Timestamp × Event)) : (c.after later).tracker.record? id =
      some (r.confirmAll ((later.map Prod.snd).filterMap (Event.confirmed? id))) := by
  induction later generalizing c r with
  | nil => exact hr
  | cons e later ih =>
    have hnext := hS.record?_handle hr e.1 e.2
    show ((c.handle e.1 e.2).2.after later).tracker.record? id = _
    rw [ih (hS.handle e.1 e.2) hnext, List.map_cons]
    cases hc : e.2.confirmed? id with
    | none => rw [List.filterMap_cons_none hc]; rfl
    | some flow => rw [List.filterMap_cons_some hc]; rfl

end Controller

end ControlPlane
