/-
Completing an accepted path. When a path is accepted, the controller asks for its entries, and they are
reported as installed, each of them once. The order of the reports and what happens between them do not
matter: the answers are the verdicts of the record of the path (`Controller.answers_eq`).

All reports succeed and the last one announces the path, if no entry has a field twice in its match or in what
it writes. An entry that has is not equal to itself, so it is not found when it is reported; then the path is
never announced. No other paths are affected than those of which a pathlet has a field twice.
-/
import ControlPlane.Proofs.Controller.Events
import ControlPlane.Proofs.Flow.Repetition
import ControlPlane.Proofs.Path.Reports

namespace ControlPlane

/-- The entry that the command asks for. -/
def Command.entry? : Command → Option FlowEntry
  | .addFlowEntry flow _ => some flow
  | _ => none

theorem Tracker.filterMap_entry?_acceptance (t : Tracker) (requester : ActorRef) (path : Path)
    (flows : List FlowEntry) : (t.acceptance requester path flows).filterMap Command.entry? = flows := by
  rw [acceptance]
  cases flows with
  | nil => rfl
  | cons f flows =>
    rw [if_neg (by simp), List.filterMap_map]
    exact List.filterMap_some

/-- The entry that the event reports as installed, if it is one of the entries or is taken for one of them. -/
def Event.reported? (entries : List FlowEntry) : Event → Option FlowEntry
  | .flowEntryAdded flow =>
    if entries.any fun f => f.id == flow.id && (f == flow || f.equals flow) then some flow else none
  | _ => none

theorem Event.reported?_eq_some {entries : List FlowEntry} {e : Event} {flow : FlowEntry} :
    e.reported? entries = some flow ↔
      e = .flowEntryAdded flow ∧ ∃ f ∈ entries, f.id = flow.id ∧ (f = flow ∨ f.equals flow = true) := by
  cases e with
  | flowEntryAdded flow' =>
    rw [reported?, Option.ite_none_right_eq_some]
    simp only [List.any_eq_true, Bool.and_eq_true, Bool.or_eq_true, beq_iff_eq, Option.some.injEq,
      Event.flowEntryAdded.injEq]
    constructor
    · rintro ⟨h, rfl⟩; exact ⟨rfl, h⟩
    · rintro ⟨rfl, h⟩; exact ⟨h, rfl⟩
  | linkAdded _ | linkDeleted _ | nodeJoined _ | addPath _ _ | delPath _ | flowEntryDeleted _ =>
    simp [reported?]

/-- The entries that events report, in the order of the reports. -/
def Event.reports (entries : List FlowEntry) (events : List (Timestamp × Event)) : List FlowEntry :=
  events.filterMap fun e => e.2.reported? entries

namespace Controller

variable {c : Controller} {now : Timestamp} {flow : FlowEntry} {entries : List FlowEntry} {r : PathRecord}

/-! ## The answers to reports -/

/-- The answers to those of the events that report one of the entries. -/
def answers (c : Controller) (entries : List FlowEntry) :
    List (Timestamp × Event) → List (Except ControllerError (List Command))
  | [] => []
  | (now, e) :: later =>
    if (e.reported? entries).isSome then (c.handle now e).1 :: (c.handle now e).2.answers entries later
    else (c.handle now e).2.answers entries later

/-- The answer of the controller to a report, given that of the record. -/
def reply : Except TrackerError (Option Command) → Except ControllerError (List Command)
  | .ok command => .ok command.toList
  | .error e => .error (.tracker e)

theorem isOk_reply (v : Except TrackerError (Option Command)) : (reply v).isOk = v.isOk := by cases v <;> rfl

theorem handle_flowEntryAdded (hr : c.tracker.record? flow.id = some r) :
    (c.handle now (.flowEntryAdded flow)).1 = reply (r.verdict flow) := by
  rw [handle, ← Tracker.confirm_fst hr]
  split <;> next h => rw [h]; rfl

theorem confirmAll_of_not_reported {id : String} (hid : ∀ f ∈ entries, f.id = id) (hentries : r.entries = entries)
    {e : Event} (he : e.reported? entries = none) : r.confirmAll (e.confirmed? id).toList = r := by
  cases hc : e.confirmed? id with
  | none => rfl
  | some flow =>
    obtain ⟨rfl, hflowid⟩ := Event.confirmed?_eq_some.1 hc
    -- what is none of the entries has no place among them
    refine PathRecord.confirm_of_not_awaits ?_
    rintro ⟨i, hi, -⟩
    obtain ⟨hlt, hequal, -⟩ := PathRecord.place?_eq_some_iff.1 hi
    have hmem : r.entries[i] ∈ entries := hentries ▸ List.getElem_mem hlt
    have hsome := Event.reported?_eq_some.2
      ⟨rfl, _, hmem, (hid _ hmem).trans hflowid.symm, .inr hequal⟩
    rw [he] at hsome
    cases hsome

-- The induction is on the events; the record changes with the reports only, so those in between do not count.
theorem answers_eq (hS : c.Sound) {id : String} (hr : c.tracker.record? id = some r) (hentries : r.entries = entries)
    (hid : ∀ f ∈ entries, f.id = id) (later : List (Timestamp × Event)) :
    c.answers entries later = (r.verdicts (Event.reports entries later)).map reply := by
  induction later generalizing c r with
  | nil => rfl
  | cons e later ih =>
    obtain ⟨now, e⟩ := e
    have hnext := hS.record?_handle hr now e
    have hframe := (r.confirmAll_frame (e.confirmed? id).toList).2.2.trans hentries
    rw [answers, ih (hS.handle now e) hnext hframe]
    cases he : e.reported? entries with
    | some flow =>
      have hcons : Event.reports entries ((now, e) :: later) = flow :: Event.reports entries later :=
        List.filterMap_cons_some he
      obtain ⟨rfl, f, hf, hflow, -⟩ := Event.reported?_eq_some.1 he
      have hflowid : flow.id = id := hflow.symm.trans (hid f hf)
      rw [hcons, PathRecord.verdicts, List.map_cons, Option.isSome_some, if_pos rfl,
        handle_flowEntryAdded (hflowid ▸ hr), Event.confirmed?, if_pos hflowid]
      rfl
    | none =>
      have hcons : Event.reports entries ((now, e) :: later) = Event.reports entries later :=
        List.filterMap_cons_none he
      rw [hcons, confirmAll_of_not_reported hid hentries he]
      rfl

/-! ## Main result -/

/-- Just after the entries of a path were asked for, its record is a new one with these entries. -/
theorem Sound.record?_of_asked (hS : c.Sound) {requester : ActorRef} {path : Path} {commands : List Command}
    {c' : Controller} (haccept : c.handle now (.addPath requester path) = (.ok commands, c'))
    (hentries : commands.filterMap Command.entry? = entries) (hasked : entries ≠ []) :
    ∃ flows r, c.compilePath path = .ok flows ∧ c'.tracker.record? c.tracker.nextPath = some r ∧ r.Fresh ∧
      r.requester = requester ∧ r.path = Tracker.named path c.tracker.nextPath ∧ r.entries = entries ∧
      entries = Tracker.labelled flows c.tracker.nextPath := by
  have hcommand : ∃ flow ack, .addFlowEntry flow ack ∈ commands := by
    obtain ⟨flow, hflow⟩ := List.exists_mem_of_ne_nil _ (hentries ▸ hasked)
    obtain ⟨command, hmem, hsome⟩ := List.mem_filterMap.1 hflow
    cases command <;> cases hsome
    exact ⟨_, _, hmem⟩
  obtain ⟨flows, hflows, htrack⟩ := addPath_eq haccept hcommand
  obtain ⟨ids, -, rfl, htracker⟩ := Tracker.track_eq_ok htrack
  rw [Tracker.filterMap_entry?_acceptance] at hentries
  refine ⟨flows, _, hflows, ?_, PathRecord.fresh_newRecord now requester (Tracker.named path _) ?_, rfl, rfl,
    (Tracker.entries_newRecord _ _ _ _).trans hentries, hentries.symm⟩
  · rw [htracker, Tracker.record?_insert, if_pos rfl]
  · obtain ⟨s, -, rfl⟩ := Compiler.compile_eq_ok hS.graph.wellFormed hflows
    exact List.pairwise_map.2 (FlowEntry.essential_pairwise _)

/-- After the entries of an accepted path were asked for, they are reported as installed, each of them once, in
any order and between any other events. If none of them has a field twice, all reports succeed and the last one
announces the path to its requester, under the ID that the entries have. Otherwise a report fails, and the path
is not announced. No entry has a field twice if no pathlet has. -/
theorem completes_unless_repeated {config : ControllerConfig} {before later : List (Timestamp × Event)}
    {now : Timestamp} {requester : ActorRef} {path : Path} {commands : List Command} {c : Controller}
    {entries : List FlowEntry}
    (haccept : ((new config).after before).handle now (.addPath requester path) = (.ok commands, c))
    (hentries : commands.filterMap Command.entry? = entries) (hasked : entries ≠ [])
    -- a list in memory is never too long for the 64 bits of the counter
    (hfits : entries.length < UInt64.size) (hreports : (Event.reports entries later).Perm entries) :
    ∃ id, (∀ f ∈ entries, f.id = id) ∧
      ((∀ f ∈ entries, f.Unrepeated) → c.answers entries later =
        List.replicate (entries.length - 1) (.ok []) ++ [.ok [.pathAdded requester { path with id }]]) ∧
      ((∃ f ∈ entries, ¬ f.Unrepeated) → (∃ a ∈ c.answers entries later, a.isOk = false) ∧
        ∀ a ∈ c.answers entries later, ∀ given, a = .ok given → given = []) ∧
      ((∀ p ∈ path.pathlets, p.Unrepeated) → ∀ f ∈ entries, f.Unrepeated) := by
  have hS₀ := (sound_new config).after before
  have hS : c.Sound := by simpa only [haccept] using hS₀.handle now (.addPath requester path)
  obtain ⟨flows, r, hflows, hr, hfresh, rfl, hrpath, rfl, hlabelled⟩ := hS₀.record?_of_asked haccept hentries hasked
  have hid : ∀ f ∈ r.entries, f.id = ((new config).after before).tracker.nextPath := by
    rw [hlabelled]
    exact List.forall_mem_map.2 fun _ _ => rfl
  have hanswers := answers_eq hS hr rfl hid later
  refine ⟨_, hid, fun hall => ?_, fun hsome => ?_, fun hpath => ?_⟩
  · have hself : ∀ f ∈ r.entries, f.equals f = true := fun f hf => FlowEntry.equals_self_iff.2 (hall f hf)
    rw [hanswers, hfresh.verdicts_of_equals_self hfits hasked hself hreports, hrpath, List.map_append,
      List.map_replicate]
    rfl
  · have hself : ∃ f ∈ r.entries, f.equals f = false := hsome.imp fun f hf =>
      ⟨hf.1, Bool.not_eq_true _ ▸ fun he => hf.2 (FlowEntry.equals_self_iff.1 he)⟩
    obtain ⟨⟨v, hv, hno⟩, hnever⟩ := hfresh.verdicts_of_not_equals_self hfits hself hreports
    rw [hanswers]
    refine ⟨⟨_, List.mem_map_of_mem hv, ?_⟩, fun a ha given hok => ?_⟩
    · rw [isOk_reply, hno]
    · obtain ⟨v', hv', rfl⟩ := List.mem_map.1 ha
      rcases v' with e | _ | command
      · cases hok
      · cases hok; rfl
      · exact absurd hv' (hnever command)
  · have hunrepeated := Compiler.unrepeated_of_compile hS₀.graph.wellFormed hflows hpath
    rw [hlabelled]
    exact List.forall_mem_map.2 hunrepeated

/-- A controller that knows a link from `a` to `b`. -/
def linked : Controller := (new default).after [(.epoch, .linkAdded (.between ⟨"a$$1"⟩ ⟨"b$$1"⟩))]

/-- From port 9 of `a` to port 9 of `b`, for one VLAN, with a new priority in the tag. -/
def relay : Path where
  priority := 3
  pathlets := [⟨⟨[.inPort ⟨"a$$9"⟩, .vlanId 7]⟩, [], [.writeFields [.vlanPcp 1], .forward [⟨"b$$9"⟩]]⟩]

def relayEntry (id : String) (node inPort outPort : Uid) : FlowEntry :=
  { id, node, pattern := ⟨[.vlanId 7, .inPort inPort]⟩, actions := [.writeFields [.vlanPcp 1], .forward [outPort]],
    priority := 3 }

def relayEntries (id : String) : List FlowEntry :=
  [relayEntry id ⟨"a"⟩ ⟨"a$$9"⟩ ⟨"a$$1"⟩, relayEntry id ⟨"b"⟩ ⟨"b$$1"⟩ ⟨"b$$9"⟩]

theorem compilePath_relay : linked.compilePath relay = .ok (relayEntries "") := by
  decide +kernel

def relaying : Controller := (linked.handle .epoch (.addPath ⟨"net", "user"⟩ relay)).2

/-- The entries are reported in the other order, and in between the link is lost. -/
def relayReports : List (Timestamp × Event) :=
  [(.epoch, .flowEntryAdded (relayEntry "0" ⟨"b"⟩ ⟨"b$$1"⟩ ⟨"b$$9"⟩)),
    (.epoch, .linkDeleted (.between ⟨"a$$1"⟩ ⟨"b$$1"⟩)),
    (.epoch, .flowEntryAdded (relayEntry "0" ⟨"a"⟩ ⟨"a$$9"⟩ ⟨"a$$1"⟩))]

theorem completes_unless_repeated_relay : relaying.answers (relayEntries "0") relayReports =
    [.ok [], .ok [.pathAdded ⟨"net", "user"⟩ { relay with id := "0" }]] := by
  have hcommands : (linked.handle .epoch (.addPath ⟨"net", "user"⟩ relay)).1 =
      .ok ((relayEntries "0").map (.addFlowEntry · ⟨"path", "0"⟩)) := by
    simp only [handle, addPath, compilePath_relay]
    decide +kernel
  have haccept : linked.handle .epoch (.addPath ⟨"net", "user"⟩ relay) =
      (.ok ((relayEntries "0").map (.addFlowEntry · ⟨"path", "0"⟩)), relaying) := Prod.ext hcommands rfl
  have hreversed : Event.reports (relayEntries "0") relayReports = (relayEntries "0").reverse := by decide
  obtain ⟨id, hid, hcompletes, -⟩ := completes_unless_repeated haccept rfl (by decide) (by decide)
    (hreversed ▸ List.reverse_perm _)
  obtain rfl : "0" = id := hid _ List.mem_cons_self
  exact hcompletes (by decide)

/-- A path that sets the same tag twice. -/
def taggedTwice : Path where
  priority := 1
  pathlets := [⟨⟨[.inPort ⟨"n1$$1"⟩]⟩, [], [.writeFields [.vlanId 3, .vlanId 3], .forward [⟨"n1$$2"⟩]]⟩]

def taggingTwice (id : String) : FlowEntry :=
  { id, node := ⟨"n1"⟩, pattern := ⟨[.inPort ⟨"n1$$1"⟩]⟩,
    actions := [.writeFields [.vlanId 3, .vlanId 3], .forward [⟨"n1$$2"⟩]], priority := 1 }

/-- The entry that is asked for is unknown when it is reported. -/
theorem taggedTwice_never_completes :
    ((new default).handle .epoch (.addPath ⟨"net", "user"⟩ taggedTwice)).1 =
      .ok [.addFlowEntry (taggingTwice "0") ⟨"path", "0"⟩] ∧
    (((new default).handle .epoch (.addPath ⟨"net", "user"⟩ taggedTwice)).2.handle .epoch
      (.flowEntryAdded (taggingTwice "0"))).1 = .error (.tracker (.unknownFlow "0" (taggingTwice "0"))) := by
  have hcompile : (new default).compilePath taggedTwice = .ok [taggingTwice ""] := by decide +kernel
  constructor
  · simp only [handle, addPath, hcompile]
    rfl
  · simp only [handle, addPath, hcompile]
    rfl

end Controller

end ControlPlane
