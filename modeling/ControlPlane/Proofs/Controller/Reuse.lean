/-
When a controller gives a path the ID of another one. Along a run there is a record for every path ID below the
counter (`Tracker.Filled`), and none for the others. A controller that goes on with such records, but perhaps with
another counter, gives an ID again exactly if its counter is behind the records (`reusesIds_iff`): the next path
gets the ID of the counter, and a counter that is not behind never meets a record.
-/
import ControlPlane.Proofs.Controller.Failure

namespace ControlPlane

theorem IdCounters.next_of_reservePath {ids ids' : IdCounters} {n : UInt64} (h : ids.reservePath = (.ok n, ids')) :
    ids'.next pathCounter = ids.next pathCounter + 1 := by
  rcases hr : ids.reserve pathCounter 1 with ⟨e | range, ids''⟩
  · rw [reservePath, hr] at h; cases h
  · rw [reservePath, hr] at h
    cases h
    obtain ⟨-, -, rfl⟩ := reserve_eq_ok hr
    exact next_insert_self _ _ _

namespace Tracker

variable {t : Tracker}

/-! ## Records of all IDs that were given out -/

/-- Every path ID below the counter has its record. -/
def Filled (t : Tracker) : Prop := ∀ n, n < t.ids.next IdCounters.pathCounter → ∃ r, t.record? (Path.idText n) = some r

theorem filled_new (identity : ActorRef) : (new identity).Filled := fun _ hn => absurd hn UInt64.not_lt_zero

theorem Filled.track (h : t.Filled) (now : Timestamp) (requester : ActorRef) (path : Path) (flows : List FlowEntry) :
    (t.track now requester path flows).2.Filled := by
  unfold Tracker.track
  split
  · next hids =>
    obtain ⟨-, -, rfl⟩ := IdCounters.reservePath_eq_error hids
    exact h
  · next n ids hids =>
    obtain ⟨rfl, -⟩ := IdCounters.reservePath_eq_ok hids
    intro n hn
    rw [IdCounters.next_of_reservePath hids, UInt64.lt_iff_toNat_lt, UInt64.toNat_add] at hn
    rw [record?_insert]
    split
    · exact ⟨_, rfl⟩
    · next hne =>
      have hle := Nat.lt_succ_iff.1 (Nat.lt_of_lt_of_le hn (Nat.mod_le _ _))
      refine h n (UInt64.lt_iff_toNat_lt.2 (Nat.lt_of_le_of_ne hle fun heq => hne ?_))
      rw [UInt64.toNat_inj.1 heq]

theorem Filled.confirm (h : t.Filled) (flow : FlowEntry) : (t.confirm flow).2.Filled := by
  by_cases hawaits : ∃ r, t.record? flow.id = some r ∧ r.Awaits flow
  · obtain ⟨r, hr, hawaits⟩ := hawaits
    rw [confirm_of_awaits hr hawaits]
    intro n hn
    rw [record?_insert]
    split
    · exact ⟨_, rfl⟩
    · exact h n hn
  · obtain ⟨e, he⟩ := confirm_of_not_awaits fun r hr' hawaits' => hawaits ⟨r, hr', hawaits'⟩
    rw [he]
    exact h

theorem perform_track (t : Tracker) (now : Timestamp) (requester : ActorRef) (path : Path) (flows : List FlowEntry) :
    (t.perform (.track now requester path flows)).2 = (t.track now requester path flows).2 := by
  rcases ht : t.track now requester path flows with ⟨_ | _, _⟩ <;> simp only [perform, ht]

theorem perform_confirm (t : Tracker) (flow : FlowEntry) : (t.perform (.confirm flow)).2 = (t.confirm flow).2 := by
  rcases ht : t.confirm flow with ⟨_ | _, _⟩ <;> simp only [perform, ht]

end Tracker

/-- The ID of the path that the command belongs to, if the path was accepted. -/
def Command.acceptedId? : Command → Option String
  | .addFlowEntry flow _ => some flow.id
  | .pathAdded _ path => some path.id
  | .pathRejected _ _ _ => none

theorem Tracker.acceptedId?_acceptance {t : Tracker} {requester : ActorRef} {path : Path} {flows : List FlowEntry}
    {command : Command}
    (h : command ∈ t.acceptance requester (named path t.nextPath) (labelled flows t.nextPath)) :
    command.acceptedId? = some t.nextPath := by
  unfold acceptance at h
  split at h
  · rw [List.mem_singleton.1 h]
    rfl
  · obtain ⟨flow, hflow, rfl⟩ := List.mem_map.1 h
    obtain ⟨f, -, rfl⟩ := List.mem_map.1 hflow
    rfl

namespace Controller

variable {c : Controller}

theorem filled_handle (h : c.tracker.Filled) (now : Timestamp) (e : Event) : (c.handle now e).2.tracker.Filled := by
  rw [tracker_handle]
  cases e with
  | addPath requester path =>
    rw [operation?]
    cases c.compilePath path with
    | error _ => exact h
    | ok flows =>
      show (c.tracker.perform (.track now requester path flows)).2.Filled
      rw [Tracker.perform_track]
      exact h.track now requester path flows
  | flowEntryAdded flow =>
    show (c.tracker.perform (.confirm flow)).2.Filled
    rw [Tracker.perform_confirm]
    exact h.confirm flow
  | linkAdded _ | linkDeleted _ | nodeJoined _ | delPath _ | flowEntryDeleted _ => exact h

theorem filled_after (h : c.tracker.Filled) (events : List (Timestamp × Event)) : (c.after events).tracker.Filled := by
  induction events generalizing c with
  | nil => exact h
  | cons e events ih => exact ih (filled_handle h e.1 e.2)

/-! ## IDs that are given again -/

/-- After some events, a path is accepted under an ID that the controller already had a record for. -/
def ReusesIds (c : Controller) : Prop :=
  ∃ (events : List (Timestamp × Event)) (now : Timestamp) (requester : ActorRef) (path : Path)
    (commands : List Command) (command : Command) (id : String),
    ((c.after events).handle now (.addPath requester path)).1 = .ok commands ∧ command ∈ commands ∧
    command.acceptedId? = some id ∧ (c.tracker.record? id).isSome = true

/-- Records that are there stay there, and no ID is given again. -/
theorem records_after (hS : c.tracker.Sound) (events : List (Timestamp × Event)) : (c.after events).tracker.Sound ∧
    ∀ id, (c.tracker.record? id).isSome = true → ((c.after events).tracker.record? id).isSome = true := by
  induction events generalizing c with
  | nil => exact ⟨hS, fun _ h => h⟩
  | cons e events ih =>
    have hstep := c.tracker_handle e.1 e.2
    obtain ⟨hsound, hrecords⟩ := ih (c := (c.handle e.1 e.2).2) (hstep ▸ hS.run _)
    refine ⟨hsound, fun id hid => hrecords id ?_⟩
    obtain ⟨r, hr⟩ := Option.isSome_iff_exists.1 hid
    rw [hstep, hS.record?_run hr]
    rfl

/-- The counter of path IDs is above all records, and stays there, so no ID is given again. -/
theorem not_reusesIds (hS : c.tracker.Sound) : ¬ c.ReusesIds := by
  rintro ⟨events, now, requester, path, commands, command, id, hhandle, hmem, hid, hstored⟩
  obtain ⟨hsound, hkept⟩ := records_after hS events
  have hcommands : commands = ((c.after events).addPath now requester path).1 := (Except.ok.inj hhandle).symm
  rcases (c.after events).addPath_cases now requester path with ⟨reason, -, hreject⟩ | ⟨flows, haccept⟩
  · rw [hcommands, hreject] at hmem
    rw [List.mem_singleton.1 hmem] at hid
    cases hid
  · rw [hcommands, haccept] at hmem
    rw [Tracker.acceptedId?_acceptance hmem, Option.some.injEq] at hid
    have hsome := hkept id hstored
    rw [← hid, hsound.record?_nextPath] at hsome
    cases hsome

/-- A path that is accepted whatever the topology, as nothing has to be done for it. -/
def idlePath : Path := { priority := 1, pathlets := [⟨⟨[.inPort ⟨"a$$1"⟩]⟩, [], []⟩] }

theorem compilePath_idlePath (c : Controller) : c.compilePath idlePath = .ok [] := by
  have hnode : (⟨"a$$1"⟩ : Uid).portNode = .ok ⟨"a"⟩ := by decide +kernel
  have hflows : Compiler.pathletFlows ⟨c.graph, c.config.compiler⟩ 1 ⟨⟨[.inPort ⟨"a$$1"⟩]⟩, [], []⟩ none =
      .ok ([], []) := by
    show (do let sources ← (do return [← (⟨"a$$1"⟩ : Uid).portNode]); _ : Except CompileError _) = _
    rw [hnode]
    rfl
  simp only [compilePath, Compiler.compile, idlePath, Compiler.advance, List.foldlM_cons, hflows]
  rfl

/-- The path is accepted under the next ID, as long as there is one. -/
theorem addPath_idlePath (now : Timestamp) (requester : ActorRef)
    (hleft : (c.tracker.ids.next IdCounters.pathCounter).toNat + 1 < UInt64.size) :
    (c.addPath now requester idlePath).1 = [.pathAdded requester (Tracker.named idlePath c.tracker.nextPath)] := by
  rcases ht : c.tracker.track now requester idlePath [] with ⟨e | commands, t⟩
  · exact absurd (Tracker.track_eq_error ht).2.1 (Nat.ne_of_lt hleft)
  · obtain ⟨ids, -, rfl, -⟩ := Tracker.track_eq_ok ht
    simp only [addPath, compilePath_idlePath, ht]
    rfl

/-- If there is a record for every path ID below a number, and for no other, an ID is given again exactly if the
counter is below that number. -/
theorem reusesIds_iff {m : UInt64} (hcounted : ∀ {id r}, c.tracker.record? id = some r → r.Counted)
    (hpathId : ∀ {id r}, c.tracker.record? id = some r → r.path.id = id)
    (hrecords : ∀ id, (c.tracker.record? id).isSome = true ↔ ∃ n, n < m ∧ id = Path.idText n) :
    c.ReusesIds ↔ c.tracker.ids.next IdCounters.pathCounter < m := by
  constructor
  · intro hreuses
    by_contra hle
    refine not_reusesIds ⟨fun hr => ?_, hpathId, hcounted⟩ hreuses
    obtain ⟨n, hn, hid⟩ := (hrecords _).1 (Option.isSome_of_eq_some hr)
    exact ⟨n, UInt64.lt_of_lt_of_le hn (UInt64.not_lt.1 hle), hid⟩
  · intro hlt
    have hstored : (c.tracker.record? c.tracker.nextPath).isSome = true := (hrecords _).2 ⟨_, hlt, rfl⟩
    have hleft : (c.tracker.ids.next IdCounters.pathCounter).toNat + 1 < UInt64.size :=
      Nat.lt_of_le_of_lt (UInt64.lt_iff_toNat_lt.1 hlt) m.toNat_lt
    have haccept := addPath_idlePath .epoch ⟨"", ""⟩ hleft
    exact ⟨[], .epoch, ⟨"", ""⟩, idlePath, _, _, _, congrArg Except.ok haccept, List.mem_singleton_self _, rfl, hstored⟩

end Controller

end ControlPlane
