/-
Saving and restoring. The four dicts of a controller keep their names along every run (`Named`), so each of them
is found again under its own name in the directory of the configuration. What is restored from it is the
controller that was saved; with the same events it goes on in the same way, and only the dates of records that
are new depend on the clock.
-/
import ControlPlane.Proofs.Controller.Clock
import ControlPlane.Proofs.Json.Records
import ControlPlane.Proofs.Storage.Snapshot

namespace ControlPlane

/-! ## The names of the dicts -/

theorem IdCounters.name_reservePath (ids : IdCounters) : ids.reservePath.2.counters.name = ids.counters.name := by
  show (ids.reserve pathCounter 1).2.counters.name = _
  unfold reserve
  dsimp only
  split <;> exact ids.counters.name_entry pathCounter 0

namespace Graph

theorem name_discard (g : Graph) (origin : Uid) (link : Link) :
    (g.discard origin link).adjacency.name = g.adjacency.name := by
  unfold discard
  split
  · rfl
  · dsimp only
    split <;> rfl

theorem name_addLink (g : Graph) (link : Link) : (g.addLink link).2.adjacency.name = g.adjacency.name := by
  rcases g.addLink_cases link with ⟨e, he⟩ | ⟨origin, groups, -, -, hok⟩
  · rw [he]
  · rw [hok]
    exact g.name_discard origin link

theorem name_removeLink (g : Graph) (link : Link) : (g.removeLink link).2.adjacency.name = g.adjacency.name := by
  unfold removeLink
  split
  · rfl
  · exact g.name_discard _ _

end Graph

namespace Tracker

/-- The tracker confirms to the same actor, and its dicts have the same names. -/
structure SameNames (t t' : Tracker) : Prop where
  identity : t'.identity = t.identity
  paths : t'.paths.name = t.paths.name
  counters : t'.ids.counters.name = t.ids.counters.name

theorem sameNames_track (t : Tracker) (now : Timestamp) (requester : ActorRef) (path : Path)
    (flows : List FlowEntry) : t.SameNames (t.track now requester path flows).2 := by
  have hname := t.ids.name_reservePath
  unfold track
  split <;> next hids => rw [hids] at hname; exact ⟨rfl, rfl, hname⟩

theorem sameNames_confirm (t : Tracker) (flow : FlowEntry) : t.SameNames (t.confirm flow).2 := by
  unfold confirm
  split
  · exact ⟨rfl, rfl, rfl⟩
  · split <;> exact ⟨rfl, rfl, rfl⟩

end Tracker

namespace Controller

/-- The state is kept in dicts with their proper names, and confirmations go to the actor of the configuration. -/
structure Named (config : ControllerConfig) (c : Controller) : Prop where
  configured : c.config = config
  adjacency : c.graph.adjacency.name = Graph.dictName
  nodes : c.nodes.name = nodeDictName
  identity : c.tracker.identity = config.identity
  paths : c.tracker.paths.name = Tracker.dictName
  counters : c.tracker.ids.counters.name = IdCounters.dictName

variable {config : ControllerConfig} {c : Controller} {dir : String} {t t' : FileTree}

theorem named_new (config : ControllerConfig) : Named config (new config) := ⟨rfl, rfl, rfl, rfl, rfl, rfl⟩

theorem Named.withGraph (h : Named config c) {graph : Graph}
    (hname : graph.adjacency.name = c.graph.adjacency.name) : Named config { c with graph } :=
  ⟨h.configured, hname.trans h.adjacency, h.nodes, h.identity, h.paths, h.counters⟩

theorem Named.withTracker (h : Named config c) {tracker : Tracker} (hnames : c.tracker.SameNames tracker) :
    Named config { c with tracker } :=
  ⟨h.configured, h.adjacency, h.nodes, hnames.identity.trans h.identity, hnames.paths.trans h.paths,
    hnames.counters.trans h.counters⟩

theorem Named.handle (h : Named config c) (now : Timestamp) (e : Event) : Named config (c.handle now e).2 := by
  cases e with
  | linkAdded link =>
    have hname := c.graph.name_addLink link
    rw [Controller.handle]
    split <;> next hg => rw [hg] at hname; exact h.withGraph hname
  | linkDeleted link =>
    have hname := c.graph.name_removeLink link
    rw [Controller.handle]
    split <;> next hg => rw [hg] at hname; exact h.withGraph hname
  | nodeJoined node => exact ⟨h.configured, h.adjacency, h.nodes, h.identity, h.paths, h.counters⟩
  | delPath _ | flowEntryDeleted _ => exact h
  | addPath requester path =>
    show Named config (c.addPath now requester path).2
    rw [addPath]
    split
    · exact h
    · next flows _ =>
      have hnames := c.tracker.sameNames_track now requester path flows
      split <;> next ht => rw [ht] at hnames; exact h.withTracker hnames
  | flowEntryAdded flow =>
    have hnames := c.tracker.sameNames_confirm flow
    rw [Controller.handle]
    split <;> next ht => rw [ht] at hnames; exact h.withTracker hnames

theorem Named.after (h : Named config c) (events : List (Timestamp × Event)) : Named config (c.after events) := by
  induction events generalizing c with
  | nil => exact h
  | cons e events ih => exact ih (h.handle e.1 e.2)

/-! ## What is saved -/

/-- The directory has the snapshots of all four dicts. -/
structure StoredIn (c : Controller) (dir : String) (t : FileTree) : Prop where
  adjacency : c.graph.adjacency.StoredIn dir t
  nodes : c.nodes.StoredIn dir t
  paths : c.tracker.paths.StoredIn dir t
  counters : c.tracker.ids.counters.StoredIn dir t

theorem Named.storedIn_of_save (hnames : Named config c) (hdir : config.stateDir = some dir)
    (h : t.run c.save = (.ok (), t')) : c.StoredIn dir t' := by
  have hgraph : '/' ∉ c.graph.adjacency.name.toList := by rw [hnames.adjacency]; decide
  have hnodes : '/' ∉ c.nodes.name.toList := by rw [hnames.nodes]; decide
  have hpaths : '/' ∉ c.tracker.paths.name.toList := by rw [hnames.paths]; decide
  have hcounters : '/' ∉ c.tracker.ids.counters.name.toList := by rw [hnames.counters]; decide
  rw [← hnames.configured] at hdir
  simp only [save, hdir] at h
  obtain ⟨_, t₁, h₁, h⟩ := FileTree.run_bind_eq_ok (FileTree.run_adapt_eq_ok h)
  obtain ⟨_, t₂, h₂, h⟩ := FileTree.run_bind_eq_ok h
  obtain ⟨_, t₃, h₃, h₄⟩ := FileTree.run_bind_eq_ok h
  refine ⟨?_, ?_, ?_, Dict.storedIn_of_save h₄⟩
  · have hstored := (Dict.storedIn_of_save h₁).save hgraph hnodes (by rw [hnames.adjacency, hnames.nodes]; decide) h₂
    have hstored := hstored.save hgraph hpaths (by rw [hnames.adjacency, hnames.paths]; decide) h₃
    exact hstored.save hgraph hcounters (by rw [hnames.adjacency, hnames.counters]; decide) h₄
  · have hstored := (Dict.storedIn_of_save h₂).save hnodes hpaths (by rw [hnames.nodes, hnames.paths]; decide) h₃
    exact hstored.save hnodes hcounters (by rw [hnames.nodes, hnames.counters]; decide) h₄
  · exact (Dict.storedIn_of_save h₃).save hpaths hcounters (by rw [hnames.paths, hnames.counters]; decide) h₄

theorem Named.run_restore (hnames : Named config c) (hdir : config.stateDir = some dir) (h : c.StoredIn dir t) :
    t.run (restore config) = (.ok c, t) := by
  have hadjacency : t.run (Dict.load Graph.dictName dir) = (.ok c.graph.adjacency, t) :=
    hnames.adjacency ▸ h.adjacency.load
  have hnodes : t.run (Dict.load nodeDictName dir) = (.ok c.nodes, t) := hnames.nodes ▸ h.nodes.load
  have hpaths : t.run (Dict.load Tracker.dictName dir) = (.ok c.tracker.paths, t) := hnames.paths ▸ h.paths.load
  have hcounters : t.run (Dict.load IdCounters.dictName dir) = (.ok c.tracker.ids.counters, t) :=
    hnames.counters ▸ h.counters.load
  have hstate : c = ⟨config, ⟨c.graph.adjacency⟩, c.nodes,
      ⟨config.identity, c.tracker.paths, ⟨c.tracker.ids.counters⟩⟩⟩ := by
    rw [← hnames.identity, ← hnames.configured]
  simp only [restore, hdir]
  rw [FileTree.run_adapt, FileTree.run_bind_of_ok hadjacency, FileTree.run_bind_of_ok hnodes,
    FileTree.run_bind_of_ok hpaths, FileTree.run_bind_of_ok hcounters]
  exact congrArg (fun c => (Except.ok c, t)) hstate.symm

/-! ## Main result -/

/-- After a successful save, restoring with the same configuration succeeds, without a change to the files, and
gives the controller that was saved: the same topology, nodes, records and counters. Whatever happens next, both
controllers give the same answers to the same events, whatever the clock reads, and are the same up to the dates
of records; and the records that were saved stay the same with their dates. -/
theorem restore_of_save {config : ControllerConfig} {dir : String} (hdir : config.stateDir = some dir)
    (events : List (Timestamp × Event)) {t t' : FileTree}
    (hsave : t.run ((new config).after events).save = (.ok (), t')) :
    ∃ c, t'.run (restore config) = (.ok c, t') ∧ c = (new config).after events ∧
      ∀ later later' : List (Timestamp × Event), later.map Prod.snd = later'.map Prod.snd →
        c.results later = ((new config).after events).results later' ∧
        (c.after later).undated = (((new config).after events).after later').undated ∧
        ∀ id r, ((new config).after events).tracker.record? id = some r →
          (c.after later).tracker.record? id = (((new config).after events).after later').tracker.record? id := by
  have hnames := (named_new config).after events
  have hS := (sound_new config).after events
  refine ⟨_, hnames.run_restore hdir (hnames.storedIn_of_save hdir hsave), rfl, fun later later' hevents => ?_⟩
  obtain ⟨hresults, hafter⟩ := results_eq rfl hevents
  refine ⟨hresults, hafter, fun id r hr => ?_⟩
  rw [hS.record?_after hr, hS.record?_after hr, hevents]

/-! ## A state that is saved -/

/-- A tree with a directory for the state, in which there are only files. -/
structure Prepared (t : FileTree) : Prop where
  directory : t.isDirectory ["state"] = true
  files : ∀ name, t.isDirectory ["state", name] = false

/-- The tree with nothing but this directory. -/
def prepared : FileTree := FileTree.empty.put ["state"] .directory

theorem prepared_spec : Prepared prepared := by
  have hs : ¬ FileTree.IsStart ["state"] := by simp [FileTree.IsStart]
  refine ⟨by rw [FileTree.isDirectory, prepared, FileTree.get?_put_self hs]; rfl, fun name => ?_⟩
  have hs : ¬ FileTree.IsStart ["state", name] := by simp [FileTree.IsStart]
  have hne : "/".intercalate ["state", name] ≠ "/".intercalate ["state"] := by
    intro h
    have hlen := congrArg String.length h
    simp only [String.intercalate_cons_cons, String.intercalate_singleton, String.length_append] at hlen
    have : "/".length = 1 := rfl
    omega
  rw [FileTree.isDirectory, prepared, FileTree.get?_put_of_ne hne, FileTree.get?_of_not_isStart hs]
  rfl

theorem goTo_state : FileTree.goTo [] "state" = ["state"] := rfl

theorem isName_state : isName "state" = true := by decide

theorem snapshotPlace_state {name : String} (hname : '/' ∉ name.toList) :
    snapshotPlace "state" name = "state/" ++ (name ++ ".json") := by
  have hstart : (name ++ ".json").startsWith "/" = false := by
    rw [String.startsWith_string_eq_false_iff]
    intro h
    have hmem : '/' ∈ (name ++ ".json").toList := h.subset (by decide)
    simp [hname] at hmem
  have hend : "state".endsWith "/" = false := by
    rw [← Bool.not_eq_true, String.endsWith_eq_endsWith_toSlice, String.Slice.endsWith_string_iff]
    decide
  rw [snapshotPlace, joinPlace, hstart, hend]
  exact String.append_assoc

theorem Prepared.createDirectories (h : Prepared t) : t.createDirectories "state" = (true, t) := by
  have hplace : isPlace "state" = true := by
    rw [isPlace, String.contains_char_eq]
    decide
  have hnames : namesOf "state" = ("", ["state"]) := by decide +kernel
  have hcreated : namesToCreate ["state"] = ["state"] := by decide +kernel
  have hget : t.get? ["state"] = some .directory := by simpa [FileTree.isDirectory] using h.directory
  have hfind : t.find? "state" = some ["state"] := by
    rw [FileTree.find?, if_pos hplace, hnames]
    rfl
  have hcreate : FileTree.createFrom (FileTree.startOf "") ["state"] t = t := by
    show FileTree.createFrom [] ["state"] t = t
    rw [FileTree.createFrom]
    simp only [goTo_state, isName_state, hget, Bool.not_true, Bool.false_eq_true, if_false]
    rfl
  rw [FileTree.createDirectories, if_neg (by decide), if_pos hplace, hnames, hcreated, hcreate]
  simp only [FileTree.entry?, hfind, Option.bind_some, hget]
  rfl

theorem Prepared.find?_snapshotPlace (h : Prepared t) {name : String}
    (hname : name ∈ [Graph.dictName, nodeDictName, Tracker.dictName, IdCounters.dictName]) :
    t.find? (snapshotPlace "state" name) = some ["state", name ++ ".json"] := by
  have hplace : isPlace (snapshotPlace "state" name) = true ∧
      namesOf (snapshotPlace "state" name) = ("", ["state", name ++ ".json"]) ∧ isName (name ++ ".json") = true ∧
      FileTree.goTo ["state"] (name ++ ".json") = ["state", name ++ ".json"] := by
    have hslash : ∀ name ∈ [Graph.dictName, nodeDictName, Tracker.dictName, IdCounters.dictName],
        '/' ∉ name.toList := by decide
    rw [snapshotPlace_state (hslash name hname), isPlace, String.contains_char_eq]
    revert name
    decide +kernel
  obtain ⟨hplace, hnames, hfile, hgo⟩ := hplace
  rw [FileTree.find?, if_pos hplace, hnames]
  show t.follow? [] ["state", name ++ ".json"] = _
  have hstart : t.isDirectory [] = true := rfl
  simp only [FileTree.follow?, hstart, isName_state, goTo_state, h.directory, hfile, hgo, Bool.and_true, if_true]

theorem Prepared.exists_save {α : Type} [JsonForm α] (h : Prepared t) {d : Dict α}
    (hname : d.name ∈ [Graph.dictName, nodeDictName, Tracker.dictName, IdCounters.dictName]) :
    ∃ t', t.run (d.save "state") = (.ok (), t') ∧ Prepared t' := by
  refine ⟨_, Dict.run_save h.createDirectories (h.find?_snapshotPlace hname) (h.files _), ?_, fun name => ?_⟩
  · rw [FileTree.isDirectory_put (h.files _)]; exact h.directory
  · rw [FileTree.isDirectory_put (h.files _)]; exact h.files name

/-- A configuration that names this directory. -/
def lasting : ControllerConfig := { stateDir := some "state" }

/-- A path is asked for that leads across one node. -/
def acrossOne : Event :=
  .addPath ⟨"net", "user"⟩ { priority := 1, pathlets := [⟨⟨[.inPort ⟨"n1$$1"⟩]⟩, [], [.forward [⟨"n1$$2"⟩]]⟩] }

/-- A node joins, a link is found and the path is asked for. -/
def busy : List (Timestamp × Event) :=
  [(.epoch, .nodeJoined { id := "n1" }), (.epoch, .linkAdded (.between ⟨"n1$$2"⟩ ⟨"n2$$1"⟩)), (.ofNanos 5, acrossOne)]

theorem exists_save (hnames : Named lasting c) (h : Prepared t) : ∃ t', t.run c.save = (.ok (), t') := by
  obtain ⟨t₁, h₁, hp⟩ := h.exists_save (d := c.graph.adjacency) (by simp [hnames.adjacency])
  obtain ⟨t₂, h₂, hp⟩ := hp.exists_save (d := c.nodes) (by simp [hnames.nodes])
  obtain ⟨t₃, h₃, hp⟩ := hp.exists_save (d := c.tracker.paths) (by simp [hnames.paths])
  obtain ⟨t₄, h₄, -⟩ := hp.exists_save (d := c.tracker.ids.counters) (by simp [hnames.counters])
  have hdir : c.config.stateDir = some "state" := by rw [hnames.configured]; rfl
  refine ⟨t₄, ?_⟩
  simp only [save, hdir]
  rw [FileTree.run_adapt, FileTree.run_bind_of_ok h₁, FileTree.run_bind_of_ok h₂, FileTree.run_bind_of_ok h₃, h₄]
  rfl

theorem restore_of_save_busy : ∃ t' c, prepared.run ((new lasting).after busy).save = (.ok (), t') ∧
    t'.run (restore lasting) = (.ok c, t') ∧ (c.tracker.record? "0").isSome = true ∧
    c.results [(.ofNanos 7, acrossOne)] = ((new lasting).after busy).results [(.ofNanos 9, acrossOne)] := by
  obtain ⟨t', hsave⟩ := exists_save ((named_new lasting).after busy) prepared_spec
  obtain ⟨c, hrestore, hc, hlater⟩ := restore_of_save rfl busy hsave
  refine ⟨t', c, hsave, hrestore, ?_, (hlater [(.ofNanos 7, acrossOne)] [(.ofNanos 9, acrossOne)] rfl).1⟩
  rw [hc]
  decide +kernel

end Controller

end ControlPlane
