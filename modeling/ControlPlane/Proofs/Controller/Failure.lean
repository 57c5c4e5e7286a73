/-
Events that fail. Whatever the state of a controller, one that was restored from any snapshots included, an event
that is answered with an error leaves it as it is: the topology checks a link before it drops the one that is
replaced, and the tracker finds the record and the entry before it flags it. A path is rejected because it does
not compile, or because the counter of path IDs is at its end; a counter that is used for the first time is not at
its end (`IdCounters.reserve_eq_error`), so it is not left behind with a default either.
-/
import ControlPlane.Proofs.Controller.Events

namespace ControlPlane

/-! ## The topology -/

namespace Graph

variable {g g' : Graph} {link : Link} {e : GraphError}

theorem removeLink_eq_error (h : g.removeLink link = (.error e, g')) : g' = g := by
  unfold removeLink at h
  split at h <;> cases h
  rfl

end Graph

namespace Controller

variable {c : Controller} {now : Timestamp} {requester : ActorRef} {path : Path} {reason : String}

/-! ## Paths -/

/-- Why a path is rejected. -/
inductive Rejects (c : Controller) (path : Path) : (reason : String) → Prop where
  | compile {cause : CompileError} (h : c.compilePath path = .error cause) : c.Rejects path cause.message
  | exhausted {flows : List FlowEntry} (h : c.compilePath path = .ok flows)
      (hend : (c.tracker.ids.next IdCounters.pathCounter).toNat + 1 = UInt64.size) :
      c.Rejects path (TrackerError.ids
        (.exhausted IdCounters.pathCounter (c.tracker.ids.next IdCounters.pathCounter) 1)).message

/-- A path is rejected without a change, or the tracker accepts its entries. -/
theorem addPath_cases (c : Controller) (now : Timestamp) (requester : ActorRef) (path : Path) :
    (∃ reason, c.Rejects path reason ∧
      c.addPath now requester path = ([.pathRejected requester path reason], c)) ∨
    ∃ flows, (c.addPath now requester path).1 =
      c.tracker.acceptance requester (Tracker.named path c.tracker.nextPath)
        (Tracker.labelled flows c.tracker.nextPath) := by
  unfold addPath
  cases hc : c.compilePath path with
  | error cause => exact .inl ⟨_, .compile hc, rfl⟩
  | ok flows =>
    rcases ht : c.tracker.track now requester path flows with ⟨e | commands, t⟩
    · obtain ⟨rfl, hend, rfl⟩ := Tracker.track_eq_error ht
      exact .inl ⟨_, .exhausted hc hend, by simp only [ht]⟩
    · obtain ⟨ids, -, rfl, -⟩ := Tracker.track_eq_ok ht
      exact .inr ⟨flows, by simp only [ht]⟩

theorem not_pathRejected_acceptance (t : Tracker) (requester' : ActorRef) (path' : Path) (flows : List FlowEntry) :
    .pathRejected requester path reason ∉ t.acceptance requester' path' flows := by
  unfold Tracker.acceptance
  split <;> simp

/-- What the confirmation of an entry gives announces a path. -/
theorem not_pathRejected_confirm {t t' : Tracker} {flow : FlowEntry} {command : Option Command}
    (h : t.confirm flow = (.ok command, t')) : .pathRejected requester path reason ∉ command.toList := by
  have heffect := t.effect_perform (.confirm flow)
  simp only [Tracker.perform, h] at heffect
  generalize command.toList = given at heffect
  cases heffect with
  | idle _ _ => exact List.not_mem_nil
  | installed _ _ =>
    unfold Tracker.announcement
    split <;> simp

/-! ## Events -/

theorem handle_eq_error {e : Event} {error : ControllerError} (h : (c.handle now e).1 = .error error) :
    (c.handle now e).2 = c := by
  cases e with
  | linkAdded link =>
    rcases hg : c.graph.addLink link with ⟨e | ⟨⟩, g⟩
    · simp only [handle, hg, Graph.addLink_eq_error hg]
    · simp only [handle, hg] at h; cases h
  | linkDeleted link =>
    rcases hg : c.graph.removeLink link with ⟨e | b, g⟩
    · simp only [handle, hg, Graph.removeLink_eq_error hg]
    · simp only [handle, hg] at h; cases h
  | flowEntryAdded flow =>
    rcases ht : c.tracker.confirm flow with ⟨e | command, t⟩
    · simp only [handle, ht, Tracker.confirm_eq_error ht]
    · simp only [handle, ht] at h; cases h
  | delPath _ | flowEntryDeleted _ => rfl
  | nodeJoined _ | addPath _ _ => cases h

/-- Only the answer to a request for a path rejects it. -/
theorem pathRejected_mem_handle {e : Event} {commands : List Command}
    (h : (c.handle now e).1 = .ok commands) (hmem : .pathRejected requester path reason ∈ commands) :
    e = .addPath requester path ∧ c.Rejects path reason ∧
    c.addPath now requester path = ([.pathRejected requester path reason], c) := by
  cases e with
  | addPath requester' path' =>
    obtain rfl : (c.addPath now requester' path').1 = commands := Except.ok.inj h
    rcases c.addPath_cases now requester' path' with ⟨reason', hrejects, heq⟩ | ⟨flows, hcommands⟩
    · rw [heq, List.mem_singleton] at hmem
      cases hmem
      exact ⟨rfl, hrejects, heq⟩
    · rw [hcommands] at hmem
      exact absurd hmem (not_pathRejected_acceptance _ _ _ _)
  | flowEntryAdded flow =>
    rcases ht : c.tracker.confirm flow with ⟨e | command, t⟩
    · simp only [handle, ht] at h; cases h
    · simp only [handle, ht] at h
      cases h
      exact absurd hmem (not_pathRejected_confirm ht)
  | linkAdded link =>
    rcases hg : c.graph.addLink link with ⟨e | ⟨⟩, g⟩ <;> simp only [handle, hg] at h <;> cases h
    cases hmem
  | linkDeleted link =>
    rcases hg : c.graph.removeLink link with ⟨e | b, g⟩ <;> simp only [handle, hg] at h <;> cases h
    cases hmem
  | nodeJoined _ => cases h; cases hmem
  | delPath _ | flowEntryDeleted _ => cases h

/-! ## Main result -/

/-- An event that is answered with an error leaves the controller as it was. So does a request for a path that is
rejected, for a path that does not compile or for want of an ID; then the rejection is all that is answered, with
the requester and the path of the request. -/
theorem failed_event_unchanged (c : Controller) (now : Timestamp) (e : Event) :
    (∀ error, (c.handle now e).1 = .error error → (c.handle now e).2 = c) ∧
    ∀ commands requester path reason, (c.handle now e).1 = .ok commands →
      .pathRejected requester path reason ∈ commands →
      (c.handle now e).2 = c ∧ e = .addPath requester path ∧ commands = [.pathRejected requester path reason] ∧
      c.Rejects path reason := by
  refine ⟨fun error h => handle_eq_error h, fun commands requester path reason h hmem => ?_⟩
  obtain ⟨rfl, hrejects, heq⟩ := pathRejected_mem_handle h hmem
  simp only [handle, heq, Except.ok.injEq] at h ⊢
  exact ⟨trivial, trivial, h.symm, hrejects⟩

/-- A controller that has given out all path IDs. -/
def exhausted : Controller :=
  { new default with
    tracker := { Tracker.new ⟨"path", "0"⟩ with
      ids := ⟨(Dict.empty IdCounters.dictName).insert IdCounters.pathCounter 18446744073709551615⟩ } }

/-- From one port of `n1` to the other. -/
def crossing : Path where
  priority := 1
  pathlets := [⟨⟨[.inPort ⟨"n1$$1"⟩]⟩, [], [.forward [⟨"n1$$2"⟩]]⟩]

/-- Why it rejects a path that compiles. -/
def noIdLeft : TrackerError := .ids (.exhausted IdCounters.pathCounter 18446744073709551615 1)

theorem failed_event_unchanged_exhausted :
    (exhausted.handle .epoch (.delPath crossing)).2 = exhausted ∧
    (exhausted.handle .epoch (.addPath ⟨"net", "user"⟩ crossing)).1 =
      .ok [.pathRejected ⟨"net", "user"⟩ crossing noIdLeft.message] ∧
    (exhausted.handle .epoch (.addPath ⟨"net", "user"⟩ crossing)).2 = exhausted := by
  have hcompile : exhausted.compilePath crossing = .ok
      [⟨"", ⟨"n1"⟩, ⟨[.inPort ⟨"n1$$1"⟩]⟩, [.forward [⟨"n1$$2"⟩]], 1, .zero, .zero⟩] := by decide +kernel
  have htrack : ∀ flows, (exhausted.tracker.track .epoch ⟨"net", "user"⟩ crossing flows).1 = .error noIdLeft :=
    fun _ => rfl
  have hanswer : (exhausted.handle .epoch (.addPath ⟨"net", "user"⟩ crossing)).1 =
      .ok [.pathRejected ⟨"net", "user"⟩ crossing noIdLeft.message] := by
    simp only [handle, addPath, hcompile]
    split
    · next ht => cases (htrack _).symm.trans (congrArg Prod.fst ht); rfl
    · next ht => cases (htrack _).symm.trans (congrArg Prod.fst ht)
  refine ⟨(failed_event_unchanged exhausted .epoch (.delPath crossing)).1 _ rfl, hanswer, ?_⟩
  exact ((failed_event_unchanged exhausted .epoch _).2 _ _ _ _ hanswer (List.mem_singleton_self _)).1

end Controller

end ControlPlane
