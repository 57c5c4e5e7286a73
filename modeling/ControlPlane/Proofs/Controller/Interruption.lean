/-
Saves that stop early, and what is restored afterwards. A controller handles events and saves its state again and
again, and a save may write only the first of the snapshots; one that may write four files is a save as it is
(`run_save_of_four_le`). Each snapshot in the directory is then that of the controller as it was when it was written
for the last time, or there is none (`Kept`). So a restored controller has its records from one moment and its
counters from another one, and it gives a path the ID of another one exactly if paths were accepted in between, that
is, if the records were saved without the counters (`ids_reused_iff`).
-/
import ControlPlane.Proofs.Controller.Restoration
import ControlPlane.Proofs.Controller.Reuse
import ControlPlane.Proofs.Storage.Interruption

namespace ControlPlane

namespace Controller

variable {config : ControllerConfig} {c : Controller} {dir : String}

/-! ## Snapshots in their order -/

/-- The names of the snapshots, in the order in which they are written. -/
def snapshotNames : List String := [Graph.dictName, nodeDictName, Tracker.dictName, IdCounters.dictName]

/-- The snapshots of the state, in the order in which they are written. -/
def snapshots (c : Controller) : List (String × String) :=
  [(c.graph.adjacency.name, c.graph.adjacency.snapshot), (c.nodes.name, c.nodes.snapshot),
    (c.tracker.paths.name, c.tracker.paths.snapshot),
    (c.tracker.ids.counters.name, c.tracker.ids.counters.snapshot)]

theorem Named.map_snapshots (h : Named config c) : c.snapshots.map Prod.fst = snapshotNames := by
  simp only [snapshots, List.map_cons, List.map_nil, h.adjacency, h.nodes, h.paths, h.counters]
  rfl

theorem not_slash_mem_snapshotNames : ∀ name ∈ snapshotNames, '/' ∉ name.toList := by decide

/-- A save writes the snapshots, up to the first that cannot be written. -/
theorem run_save_limited (hdir : c.config.stateDir = some dir) (s : LimitedTree) :
    (s.run c.save).2 = s.saveTexts dir c.snapshots := by
  simp only [save, hdir]
  rw [LimitedTree.run_adapt]
  simp only [LimitedTree.run_save_bind, LimitedTree.run_save, snapshots, LimitedTree.saveTexts]
  rcases s.saveText dir c.graph.adjacency.name c.graph.adjacency.snapshot with ⟨_ | _, s₁⟩
  · rfl
  dsimp only
  rcases s₁.saveText dir c.nodes.name c.nodes.snapshot with ⟨_ | _, s₂⟩
  · rfl
  dsimp only
  rcases s₂.saveText dir c.tracker.paths.name c.tracker.paths.snapshot with ⟨_ | _, s₃⟩
  · rfl
  dsimp only
  rcases s₃.saveText dir c.tracker.ids.counters.name c.tracker.ids.counters.snapshot with ⟨_ | _, s₄⟩ <;> rfl

/-- A save that can write four files is not limited. -/
theorem run_save_of_four_le (c : Controller) (t : FileTree) {writes : ℕ} (hle : 4 ≤ writes) :
    ∃ left, LimitedTree.run ⟨t, writes⟩ c.save = ((t.run c.save).1, ⟨(t.run c.save).2, left⟩) := by
  unfold save
  cases c.config.stateDir with
  | none => exact ⟨writes, rfl⟩
  | some dir =>
    have hagree : LimitedTree.Agree 4 _ _ := ((LimitedTree.agree_save c.graph.adjacency dir).bind fun _ =>
      (LimitedTree.agree_save c.nodes dir).bind fun _ => (LimitedTree.agree_save c.tracker.paths dir).bind fun _ =>
        LimitedTree.agree_save c.tracker.ids.counters dir).adapt ControllerError.store
    obtain ⟨left, -, hrun⟩ := hagree t writes hle
    exact ⟨left, hrun⟩

end Controller

/-- A controller with the file tree that it saves its state to. -/
structure Deployment where
  controller : Controller
  tree : FileTree

namespace Deployment

/-- What happens to a controller. -/
inductive Move where
  | event (now : Timestamp) (e : Event)
  /-- The state is saved, but no more than so many files can be written. -/
  | save (writes : ℕ)

/-- A new controller. -/
def start (config : ControllerConfig) (tree : FileTree) : Deployment := ⟨.new config, tree⟩

def perform (d : Deployment) : Move → Deployment
  | .event now e => { d with controller := (d.controller.handle now e).2 }
  | .save writes => { d with tree := (LimitedTree.run ⟨d.tree, writes⟩ d.controller.save).2.tree }

def run (d : Deployment) (moves : List Move) : Deployment := moves.foldl perform d

/-- The number of snapshots that a save writes if it can write so many files. -/
def written (d : Deployment) (writes : ℕ) : ℕ := writes - (LimitedTree.run ⟨d.tree, writes⟩ d.controller.save).2.writes

/-- The controller as it was when a snapshot, counted from zero, was written for the last time, or the given one if
it was not. -/
def lastSaved (snapshot : ℕ) (d : Deployment) (last : Controller) : List Move → Controller
  | [] => last
  | .event now e :: moves => lastSaved snapshot (d.perform (.event now e)) last moves
  | .save writes :: moves =>
    lastSaved snapshot (d.perform (.save writes)) (if snapshot < d.written writes then d.controller else last) moves

/-! ## What lies in the directory -/

variable {config : ControllerConfig} {dir : String} {d : Deployment} {last : ℕ → Controller}

/-- Every snapshot in the directory is that of the controller as it was when it was written for the last time. One
that was not written yet is missing, and the controller was a new one. -/
structure Kept (config : ControllerConfig) (dir : String) (d : Deployment) (last : ℕ → Controller) : Prop where
  current : ∃ events, d.controller = (Controller.new config).after events
  earlier : ∀ i, ∃ events, last i = (Controller.new config).after events
  held : ∀ i name text, (last i).snapshots[i]? = some (name, text) →
    d.tree.Holds (snapshotPlace dir name) (some text) ∨
    last i = .new config ∧ d.tree.Holds (snapshotPlace dir name) none

theorem kept_start (dir : String) {tree : FileTree}
    (hfresh : ∀ name ∈ Controller.snapshotNames, tree.Holds (snapshotPlace dir name) none) :
    Kept config dir (start config tree) fun _ => .new config := by
  refine ⟨⟨[], rfl⟩, fun _ => ⟨[], rfl⟩, fun i name text h => .inr ⟨rfl, hfresh name ?_⟩⟩
  rw [← (Controller.named_new config).map_snapshots]
  exact List.mem_map_of_mem (List.mem_of_getElem? h)

theorem Kept.event (h : Kept config dir d last) (now : Timestamp) (e : Event) :
    Kept config dir (d.perform (.event now e)) last := by
  obtain ⟨events, hevents⟩ := h.current
  refine ⟨⟨events ++ [(now, e)], ?_⟩, h.earlier, h.held⟩
  rw [Controller.after_append, ← hevents]
  rfl

/-- The controller has been new, and has handled events since. -/
theorem named_of_after {c : Controller} (h : ∃ events, c = (Controller.new config).after events) :
    Controller.Named config c := by
  obtain ⟨events, rfl⟩ := h
  exact (Controller.named_new config).after events

/-- The name under which a snapshot is written is not that of one before. -/
theorem not_mem_take_snapshotNames {i k : ℕ} {name : String} (hi : Controller.snapshotNames[i]? = some name)
    (hk : k ≤ i) : name ∉ Controller.snapshotNames.take k := by
  intro hmem
  obtain ⟨j, hj⟩ := List.mem_iff_getElem?.1 hmem
  rw [List.getElem?_take, Option.ite_none_right_eq_some] at hj
  obtain ⟨hjk, hj⟩ := hj
  obtain ⟨hilt, hi⟩ := List.getElem?_eq_some_iff.1 hi
  obtain ⟨hjlt, hj⟩ := List.getElem?_eq_some_iff.1 hj
  have hnodup : Controller.snapshotNames.Nodup := by decide
  have heq := hnodup.getElem_inj_iff.1 (hi.trans hj.symm)
  omega

/-- A save writes the first of the snapshots, and what lies under the other names stays. -/
theorem save_spec (hnamed : Controller.Named config d.controller) (hdir : config.stateDir = some dir) (writes : ℕ) :
    (∀ f ∈ d.controller.snapshots.take (d.written writes),
      (d.perform (.save writes)).tree.Holds (snapshotPlace dir f.1) (some f.2)) ∧
    ∀ name content, '/' ∉ name.toList → name ∉ Controller.snapshotNames.take (d.written writes) →
      d.tree.Holds (snapshotPlace dir name) content →
      (d.perform (.save writes)).tree.Holds (snapshotPlace dir name) content := by
  have hnodup : (d.controller.snapshots.map Prod.fst).Nodup := by rw [hnamed.map_snapshots]; decide
  have hslash : ∀ f ∈ d.controller.snapshots, '/' ∉ f.1.toList := fun f hf =>
    Controller.not_slash_mem_snapshotNames _ (hnamed.map_snapshots ▸ List.mem_map_of_mem hf)
  obtain ⟨k, hk, -, hwritten, hkept⟩ := LimitedTree.saveTexts_spec hnodup hslash dir ⟨d.tree, writes⟩
  rw [← Controller.run_save_limited (hnamed.configured ▸ hdir)] at hk hwritten hkept
  have hcount : d.written writes = k := by
    rw [written]
    dsimp only at hk
    omega
  rw [List.map_take, hnamed.map_snapshots] at hkept
  rw [hcount]
  exact ⟨hwritten, hkept⟩

theorem Kept.save (h : Kept config dir d last) (hdir : config.stateDir = some dir) (writes : ℕ) :
    Kept config dir (d.perform (.save writes)) fun i => if i < d.written writes then d.controller else last i := by
  obtain ⟨hwritten, hkept⟩ := save_spec (named_of_after h.current) hdir writes
  refine ⟨h.current, fun i => ?_, fun i name text hi => ?_⟩
  · split
    · exact h.current
    · exact h.earlier i
  · by_cases hlt : i < d.written writes
    · rw [if_pos hlt] at hi
      have hmem : (name, text) ∈ d.controller.snapshots.take (d.written writes) :=
        List.mem_of_getElem? ((List.getElem?_take_of_lt hlt).trans hi)
      exact .inl (hwritten (name, text) hmem)
    · rw [if_neg hlt] at hi ⊢
      have hname : Controller.snapshotNames[i]? = some name := by
        rw [← (named_of_after (h.earlier i)).map_snapshots, List.getElem?_map, hi]
        rfl
      have hslash : '/' ∉ name.toList := Controller.not_slash_mem_snapshotNames _ (List.mem_of_getElem? hname)
      have hstays content := hkept name content hslash (not_mem_take_snapshotNames hname (Nat.not_lt.1 hlt))
      exact (h.held i name text hi).imp (hstays _) (And.imp_right (hstays _))

-- The induction is on the moves, whatever was saved before them.
theorem Kept.run (h : Kept config dir d last) (hdir : config.stateDir = some dir) (moves : List Move) :
    Kept config dir (d.run moves) fun i => lastSaved i d (last i) moves := by
  induction moves generalizing d last with
  | nil => exact h
  | cons move moves ih =>
    cases move with
    | event now e => exact ih (h.event now e)
    | save writes => exact ih (h.save hdir writes)

/-! ## What is restored -/

/-- The controller with the topology, the nodes, the records and the counters that were saved last. -/
def merged (config : ControllerConfig) (last : ℕ → Controller) : Controller :=
  { config
    graph := (last 0).graph
    nodes := (last 1).nodes
    tracker := ⟨config.identity, (last 2).tracker.paths, (last 3).tracker.ids⟩ }

/-- A snapshot is loaded as it was written for the last time, and an empty dict if it was not written. -/
theorem Kept.load {α : Type} [JsonForm α] [LawfulJsonForm α] (h : Kept config dir d last)
    (hfiles : ∀ name ∈ Controller.snapshotNames, d.tree.read (snapshotPlace dir name) ≠ .unreadable) (i : ℕ)
    (dict : Controller → Dict α) (hsnapshot : ∀ c, c.snapshots[i]? = some ((dict c).name, (dict c).snapshot))
    (hnew : (dict (.new config)).entries = .empty) :
    d.tree.run (Dict.load (dict (last i)).name dir) = (.ok (dict (last i)), d.tree) := by
  have hmem : (dict (last i)).name ∈ Controller.snapshotNames := by
    rw [← (named_of_after (h.earlier i)).map_snapshots]
    exact List.mem_map_of_mem (List.mem_of_getElem? (hsnapshot (last i)))
  have hheld := h.held i _ _ (hsnapshot (last i))
  refine Dict.load_of_holds (hheld.imp_right (And.imp_left fun hlast => ?_)) (hfiles _ hmem)
  rw [hlast, hnew]

theorem Kept.restore (h : Kept config dir d last) (hdir : config.stateDir = some dir)
    (hfiles : ∀ name ∈ Controller.snapshotNames, d.tree.read (snapshotPlace dir name) ≠ .unreadable) :
    d.tree.run (Controller.restore config) = (.ok (merged config last), d.tree) := by
  have hnamed i := named_of_after (h.earlier i)
  have hgraph := h.load hfiles 0 (·.graph.adjacency) (fun _ => rfl) rfl
  have hnodes := h.load hfiles 1 (·.nodes) (fun _ => rfl) rfl
  have hpaths := h.load hfiles 2 (·.tracker.paths) (fun _ => rfl) rfl
  have hcounters := h.load hfiles 3 (·.tracker.ids.counters) (fun _ => rfl) rfl
  rw [(hnamed 0).adjacency] at hgraph
  rw [(hnamed 1).nodes] at hnodes
  rw [(hnamed 2).paths] at hpaths
  rw [(hnamed 3).counters] at hcounters
  simp only [Controller.restore, hdir]
  rw [FileTree.run_adapt, FileTree.run_bind_of_ok hgraph, FileTree.run_bind_of_ok hnodes,
    FileTree.run_bind_of_ok hpaths, FileTree.run_bind_of_ok hcounters]
  rfl

theorem Kept.reusesIds_merged (h : Kept config dir d last) : (merged config last).ReusesIds ↔
    (last 3).tracker.ids.next IdCounters.pathCounter < (last 2).tracker.ids.next IdCounters.pathCounter := by
  have hsound : (last 2).tracker.Sound := by
    obtain ⟨events, hevents⟩ := h.earlier 2
    exact hevents ▸ ((Controller.sound_new config).after events).tracker
  have hfilled : (last 2).tracker.Filled := by
    obtain ⟨events, hevents⟩ := h.earlier 2
    exact hevents ▸ Controller.filled_after (Tracker.filled_new _) events
  refine Controller.reusesIds_iff (c := merged config last) hsound.counted hsound.pathId fun id => ⟨fun hid => ?_, ?_⟩
  · obtain ⟨r, hr⟩ := Option.isSome_iff_exists.1 hid
    exact hsound.issued hr
  · rintro ⟨n, hn, rfl⟩
    exact Option.isSome_iff_exists.2 (hfilled n hn)

/-- No save of the records stops before the counters. -/
def CountersFollow (d : Deployment) : List Move → Prop
  | [] => True
  | .event now e :: moves => (d.perform (.event now e)).CountersFollow moves
  | .save writes :: moves => d.written writes ≠ 3 ∧ (d.perform (.save writes)).CountersFollow moves

theorem lastSaved_eq_of_countersFollow {last : Controller} {moves : List Move} (h : d.CountersFollow moves) :
    lastSaved 2 d last moves = lastSaved 3 d last moves := by
  induction moves generalizing d last with
  | nil => rfl
  | cons move moves ih =>
    cases move with
    | event now e => exact ih h
    | save writes =>
      obtain ⟨hne, h⟩ := h
      have hiff : 2 < d.written writes ↔ 3 < d.written writes := by omega
      rw [lastSaved, lastSaved, if_congr hiff rfl rfl]
      exact ih h

/-! ## Main result -/

/-- A new controller handles events and saves its state to a directory without snapshots, again and again, and each
save may stop before any of its writes. If there are files where the snapshots are looked for, or nothing, a controller
is restored from the directory at the end, with the records and the counters as they were when they were saved last.
It gives a path an ID under which it has a record exactly if the counter of path IDs was behind, when the counters
were saved last, what it was when the records were saved last. This does not happen if no save of the records stopped
before the counters. -/
theorem ids_reused_iff (hdir : config.stateDir = some dir) {tree : FileTree}
    (hfresh : ∀ name ∈ Controller.snapshotNames, tree.Holds (snapshotPlace dir name) none) {moves : List Move}
    (hrun : (start config tree).run moves = d)
    (hfiles : ∀ name ∈ Controller.snapshotNames, d.tree.read (snapshotPlace dir name) ≠ .unreadable) :
    ∃ restored atRecords atCounters, d.tree.run (Controller.restore config) = (.ok restored, d.tree) ∧
      atRecords = lastSaved 2 (start config tree) (.new config) moves ∧
      atCounters = lastSaved 3 (start config tree) (.new config) moves ∧
      restored.tracker.paths = atRecords.tracker.paths ∧ restored.tracker.ids = atCounters.tracker.ids ∧
      (restored.ReusesIds ↔
        atCounters.tracker.ids.next IdCounters.pathCounter < atRecords.tracker.ids.next IdCounters.pathCounter) ∧
      ((start config tree).CountersFollow moves → ¬ restored.ReusesIds) := by
  have hstart : Kept config dir (start config tree) fun _ => .new config := kept_start dir hfresh
  have hkept := hstart.run hdir moves
  rw [hrun] at hkept
  refine ⟨_, _, _, hkept.restore hdir hfiles, rfl, rfl, rfl, rfl, hkept.reusesIds_merged, fun hfollow hreuse => ?_⟩
  have hlt := hkept.reusesIds_merged.1 hreuse
  rw [lastSaved_eq_of_countersFollow hfollow] at hlt
  exact UInt64.lt_irrefl _ hlt

/-! ## A directory that is there -/

/-- The state is kept in a directory in which there are only files. -/
structure Ready (d : Deployment) : Prop where
  named : Controller.Named Controller.lasting d.controller
  prepared : Controller.Prepared d.tree

theorem saveTexts_prepared {tree : FileTree} {files : List (String × String)} (h : Controller.Prepared tree)
    (hnames : ∀ f ∈ files, f.1 ∈ Controller.snapshotNames) (writes : ℕ) :
    Controller.Prepared (LimitedTree.saveTexts "state" files ⟨tree, writes⟩).tree ∧
      (LimitedTree.saveTexts "state" files ⟨tree, writes⟩).writes = writes - files.length := by
  induction files generalizing tree writes with
  | nil => exact ⟨h, rfl⟩
  | cons f files ih =>
    obtain ⟨name, text⟩ := f
    rw [List.forall_mem_cons] at hnames
    cases writes with
    | zero =>
      simp only [LimitedTree.saveTexts, LimitedTree.saveText, h.createDirectories, LimitedTree.write, Nat.zero_sub]
      exact ⟨h, trivial⟩
    | succ writes =>
      have hwrite : tree.write (snapshotPlace "state" name) text =
          (true, tree.put ["state", name ++ ".json"] (.file text)) := by
        rw [FileTree.write, h.find?_snapshotPlace hnames.1]
        simp [h.files]
      have hput : Controller.Prepared (tree.put ["state", name ++ ".json"] (.file text)) :=
        ⟨by rw [FileTree.isDirectory_put (h.files _)]; exact h.directory,
          fun name' => by rw [FileTree.isDirectory_put (h.files _)]; exact h.files name'⟩
      simp only [LimitedTree.saveTexts, LimitedTree.saveText, h.createDirectories, LimitedTree.write, hwrite,
        List.length_cons, Nat.add_sub_add_right]
      exact ih hput hnames.2 writes

theorem ready_start : (start Controller.lasting Controller.prepared).Ready :=
  ⟨Controller.named_new _, Controller.prepared_spec⟩

theorem Ready.event (h : d.Ready) (now : Timestamp) (e : Event) : (d.perform (.event now e)).Ready :=
  ⟨h.named.handle now e, h.prepared⟩

theorem Ready.save (h : d.Ready) (writes : ℕ) : (d.perform (.save writes)).Ready ∧ d.written writes = min writes 4 := by
  have hdir : d.controller.config.stateDir = some "state" := by rw [h.named.configured]; rfl
  have hnames : ∀ f ∈ d.controller.snapshots, f.1 ∈ Controller.snapshotNames :=
    fun f hf => h.named.map_snapshots ▸ List.mem_map_of_mem hf
  have hrun := Controller.run_save_limited hdir ⟨d.tree, writes⟩
  have hsaved := saveTexts_prepared h.prepared hnames writes
  rw [← hrun] at hsaved
  refine ⟨⟨h.named, hsaved.1⟩, ?_⟩
  rw [written, hsaved.2]
  show writes - (writes - 4) = _
  omega

theorem Ready.read_ne (h : d.Ready) : ∀ name ∈ Controller.snapshotNames,
    d.tree.read (snapshotPlace "state" name) ≠ .unreadable := by
  intro name hname hread
  have hfile := h.prepared.files (name ++ ".json")
  rw [FileTree.read, FileTree.entry?, h.prepared.find?_snapshotPlace hname, Option.bind_some] at hread
  rw [FileTree.isDirectory] at hfile
  split at hread
  · cases hread
  · next hdir => rw [hdir] at hfile; cases hfile
  · cases hread

/-- In the directory there is nothing. -/
theorem holds_prepared : ∀ name ∈ Controller.snapshotNames,
    Controller.prepared.Holds (snapshotPlace "state" name) none := by
  intro name hname text hget
  have hs : ¬ FileTree.IsStart ["state", name ++ ".json"] := by simp [FileTree.IsStart]
  rw [← FileTree.eq_wayTo (Controller.prepared_spec.find?_snapshotPlace hname), FileTree.get?_of_not_isStart hs,
    Controller.prepared, FileTree.put, SortedMap.get?_insert] at hget
  split at hget <;> cases hget

/-- A path is accepted and saved with its counter. The next one is accepted, and the save stops before the records. -/
def keepingUp : List Move :=
  [.event .epoch Controller.acrossOne, .save 4, .event .epoch Controller.acrossOne, .save 2]

theorem ids_reused_iff_keepingUp : ∃ d restored,
    (start Controller.lasting Controller.prepared).run keepingUp = d ∧
    d.tree.run (Controller.restore Controller.lasting) = (.ok restored, d.tree) ∧
    (restored.tracker.record? "0").isSome = true ∧ ¬ restored.ReusesIds := by
  have h₁ := ready_start.event .epoch Controller.acrossOne
  obtain ⟨h₂, hfirst⟩ := h₁.save 4
  have h₃ := h₂.event .epoch Controller.acrossOne
  obtain ⟨h₄, hsecond⟩ := h₃.save 2
  have hrun : (start Controller.lasting Controller.prepared).run keepingUp = _ := rfl
  obtain ⟨restored, atRecords, _, hrestore, hrecords, -, hpaths, -, -, hfollow⟩ :=
    ids_reused_iff rfl holds_prepared hrun h₄.read_ne
  refine ⟨_, restored, rfl, hrestore, ?_, hfollow ⟨?_, ?_, trivial⟩⟩
  · have hlast : atRecords = ((Controller.new Controller.lasting).handle .epoch Controller.acrossOne).2 := by
      rw [hrecords]
      simp only [keepingUp, lastSaved, hfirst, hsecond]
      rfl
    rw [Tracker.record?, hpaths, hlast]
    decide +kernel
  · rw [hfirst]; decide
  · rw [hsecond]; decide

/-- A path is accepted, and the save stops when the records are written and the counters are not. -/
def cutShort : List Move := [.event .epoch Controller.acrossOne, .save 3]

theorem cutShort_reuses : ∃ d restored,
    (start Controller.lasting Controller.prepared).run cutShort = d ∧
    d.tree.run (Controller.restore Controller.lasting) = (.ok restored, d.tree) ∧ restored.ReusesIds := by
  have h₁ := ready_start.event .epoch Controller.acrossOne
  obtain ⟨h₂, hsave⟩ := h₁.save 3
  have hstart : Kept Controller.lasting "state" (start _ Controller.prepared) fun _ => .new Controller.lasting :=
    kept_start "state" holds_prepared
  have hkept := hstart.run rfl cutShort
  refine ⟨_, _, rfl, hkept.restore rfl h₂.read_ne, hkept.reusesIds_merged.2 ?_⟩
  simp only [cutShort, lastSaved, hsave]
  decide +kernel

end Deployment

end ControlPlane
