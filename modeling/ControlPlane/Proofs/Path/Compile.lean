/-
What the compiler does, function by function: the flow entries along a route, those that lead to an
out-port, those of a pathlet, and those of a whole path before the redundant ones are dropped. Each
law says which parts must have succeeded, and that the flow entries are those of the parts.

The pathlets are compiled one after the other under one invariant (`Compiled`): the out-ports that the
compiler holds are those by which traffic leaves the pathlets so far, and every pathlet so far was
compiled with everything that it may inherit.
-/
import ControlPlane.Proofs.Path.Ports
import ControlPlane.Proofs.Topology.Routes

namespace ControlPlane

theorem RouteSelection.subset {s : RouteSelection} {routes : List (List Link)} : s.select routes ⊆ routes := by
  cases s with
  | all => exact List.Subset.refl _
  | first => exact List.take_subset 1 routes

namespace Compiler

variable {c : Compiler} {priority : UInt16} {p : Pathlet}

/-! ## Flow entries along a route -/

/-- The in-port at a place of a route, counted in links: where traffic enters the route, and then the
peer of the link before. -/
def enteredAt (inPort : Option Uid) (route : List Link) : Nat → Option Uid
  | 0 => inPort
  | j + 1 => route[j]?.bind Link.peer?

theorem enteredAt_cons (inPort : Option Uid) (link : Link) (route : List Link) (j : Nat) :
    enteredAt inPort (link :: route) (j + 1) = enteredAt link.peer? route j := by
  cases j <;> rfl

/-- The flow entry on the node that a link of a route leaves. -/
def transitEntry (c : Compiler) (priority : UInt16) (p : Pathlet) (node : Uid) (inPort : Option Uid)
    (link : Link) : FlowEntry :=
  c.entry priority node (p.patternAt inPort) (p.transitActions ++ [.forward [link.origin]])

/-- The flow entry on the last node of a route. -/
def terminalEntry (c : Compiler) (priority : UInt16) (p : Pathlet) (target : Uid) (inPort : Option Uid) :
    FlowEntry :=
  c.entry priority target (p.patternAt inPort) p.actions

theorem routeFlows_cons {target : Uid} {inPort : Option Uid} {link : Link} {route : List Link}
    {flows : List FlowEntry} (h : c.routeFlows priority p target inPort (link :: route) = .ok flows) :
    ∃ node rest, link.origin.nodeOfPort = .ok node ∧
      c.routeFlows priority p target link.peer? route = .ok rest ∧
      flows = c.transitEntry priority p node inPort link :: rest := by
  obtain ⟨node, hnode, h⟩ := bind_eq_ok h
  obtain ⟨rest, hrest, h⟩ := bind_eq_ok h
  cases h
  exact ⟨node, rest, Uid.portNode_eq_ok.1 hnode, hrest, rfl⟩

/-- The flow entries along a route depend on the compiler by the timeouts only. -/
theorem routeFlows_congr (c c' : Compiler) {target : Uid} (hidle : c.config.idleTimeout = c'.config.idleTimeout)
    (hhard : c.config.hardTimeout = c'.config.hardTimeout) : ∀ (inPort : Option Uid) (route : List Link),
    c.routeFlows priority p target inPort route = c'.routeFlows priority p target inPort route
  | _, [] => by simp only [routeFlows, entry, hidle, hhard]
  | inPort, link :: route => by
    simp only [routeFlows, entry, hidle, hhard, routeFlows_congr c c' hidle hhard link.peer? route]

/-- The flow entries along links that leave ports of nodes cannot fail. -/
theorem exists_routeFlows {target : Uid} : ∀ {route : List Link} {inPort : Option Uid},
    (∀ l ∈ route, ∃ node, l.origin.nodeOfPort = .ok node) →
    ∃ flows, c.routeFlows priority p target inPort route = .ok flows
  | [], _, _ => ⟨_, rfl⟩
  | link :: route, inPort, h => by
    obtain ⟨⟨node, hnode⟩, hroute⟩ := List.forall_mem_cons.1 h
    obtain ⟨rest, hrest⟩ : ∃ rest, c.routeFlows priority p target link.peer? route = .ok rest :=
      exists_routeFlows hroute
    rw [routeFlows, Uid.portNode_eq_ok.2 hnode]
    simp only [bind, Except.bind, hrest]
    exact ⟨_, rfl⟩

theorem origin_of_mem_paths {g : Graph} (hg : g.WellFormed) {source target : Uid} {r : Routes}
    (hr : g.shortestRoutes source target = .ok (some r)) {route : List Link} (hroute : route ∈ r.paths) :
    ∀ l ∈ route, ∃ node, l.origin.nodeOfPort = .ok node := by
  obtain ⟨w, hw, rfl⟩ := Graph.exists_walk_of_mem_paths hr hroute
  intro l hl
  obtain ⟨e, he, rfl⟩ := List.mem_map.1 hl
  exact ⟨e.origin, (hg.recordedBetween (hw.1.hasEntry e he)).origin⟩

/-- Every link of a route has its entry, for traffic that comes by the link before. -/
theorem transitEntry_mem {target : Uid} {link : Link} {j : Nat} : ∀ {route : List Link} {inPort : Option Uid}
    {flows : List FlowEntry}, c.routeFlows priority p target inPort route = .ok flows → route[j]? = some link →
    ∃ node, link.origin.nodeOfPort = .ok node ∧
      c.transitEntry priority p node (enteredAt inPort route j) link ∈ flows
  | [], _, _, _, hj => by simp at hj
  | link' :: route, inPort, flows, h, hj => by
    obtain ⟨node, rest, hnode, hrest, rfl⟩ := routeFlows_cons h
    cases j with
    | zero =>
      cases hj
      exact ⟨node, hnode, List.mem_cons_self⟩
    | succ j =>
      obtain ⟨node', hnode', hmem⟩ := transitEntry_mem hrest hj
      rw [enteredAt_cons]
      exact ⟨node', hnode', List.mem_cons_of_mem _ hmem⟩

/-- The end of a route has its entry, for traffic that comes by the last link. -/
theorem terminalEntry_mem {target : Uid} : ∀ {route : List Link} {inPort : Option Uid} {flows : List FlowEntry},
    c.routeFlows priority p target inPort route = .ok flows →
    c.terminalEntry priority p target (enteredAt inPort route route.length) ∈ flows
  | [], _, _, h => by cases h; exact List.mem_cons_self
  | link :: route, inPort, flows, h => by
    obtain ⟨node, rest, -, hrest, rfl⟩ := routeFlows_cons h
    rw [List.length_cons, enteredAt_cons]
    exact List.mem_cons_of_mem _ (terminalEntry_mem hrest)

/-! ## Flow entries that lead to an out-port -/

/-- The routes that get flow entries. At no distance it is the one that has no links. -/
def routesTaken (c : Compiler) (r : Routes) : List (List Link) :=
  if r.length = 0 then [[]] else c.config.selection.select r.paths

theorem mem_routesTaken {source target : Uid} {r : Routes}
    (h : c.graph.shortestRoutes source target = .ok (some r)) {route : List Link}
    (hr : route ∈ c.config.selection.select r.paths) : route ∈ c.routesTaken r := by
  have h0 : r.length ≠ 0 := by
    intro h0
    -- at no distance there are no routes
    obtain rfl := Graph.atDistance_zero.1 (h0 ▸ Graph.atDistance_of_shortestRoutes h)
    rw [Graph.shortestRoutes_self] at h
    cases h
    cases RouteSelection.subset hr
  rw [routesTaken, if_neg h0]
  exact hr

/-- The routes that get flow entries are the links of shortest walks. -/
theorem exists_walk_of_mem_routesTaken {source target : Uid} {r : Routes}
    (h : c.graph.shortestRoutes source target = .ok (some r)) {route : List Link} (hr : route ∈ c.routesTaken r) :
    ∃ w, c.graph.IsShortestWalk source w target ∧ route = w.map Entry.link := by
  unfold routesTaken at hr
  split at hr
  · next h0 =>
    have hd := Graph.atDistance_of_shortestRoutes h
    rw [h0] at hd
    exact ⟨[], (Graph.isShortestWalk_iff hd).2 ⟨Graph.atDistance_zero.1 hd, rfl⟩, List.mem_singleton.1 hr⟩
  · exact Graph.exists_walk_of_mem_paths h (RouteSelection.subset hr)

theorem flowsTo_eq_ok {inPort : Option Uid} {source outport : Uid} {flows : List FlowEntry}
    (h : c.flowsTo priority p inPort source outport = .ok flows) : ∃ target r,
    outport.nodeOfPort = .ok target ∧ c.graph.shortestRoutes source target = .ok (some r) ∧
    (∀ route ∈ c.routesTaken r, ∃ part, c.routeFlows priority p target inPort route = .ok part) ∧
    ∀ f, f ∈ flows ↔ ∃ route ∈ c.routesTaken r, ∃ part,
      c.routeFlows priority p target inPort route = .ok part ∧ f ∈ part := by
  obtain ⟨target, htarget, h⟩ := bind_eq_ok h
  obtain ⟨found, hfound, h⟩ := bind_eq_ok h
  rw [Uid.portNode_eq_ok] at htarget
  have hfound := mapError_eq_ok hfound
  cases found with
  | none => cases h
  | some r =>
    refine ⟨target, r, htarget, hfound, ?_⟩
    dsimp only at h
    unfold routesTaken
    split at h
    · next h0 =>
      cases h
      rw [if_pos h0]
      refine ⟨fun route hroute => ?_, fun f => ?_⟩
      · rw [List.mem_singleton.1 hroute]
        exact ⟨_, rfl⟩
      · constructor
        · intro hf; exact ⟨[], List.mem_singleton_self _, _, rfl, hf⟩
        · rintro ⟨route, hroute, part, hpart, hf⟩
          rw [List.mem_singleton.1 hroute] at hpart
          cases hpart
          exact hf
    · next h0 =>
      rw [if_neg h0]
      obtain ⟨parts, hparts, h⟩ := bind_eq_ok h
      cases h
      refine ⟨fun route hroute => ?_, fun f => mem_flatten_results hparts⟩
      obtain ⟨part, -, hpart⟩ := exists_result hparts hroute
      exact ⟨part, hpart⟩

/-! ## Flow entries of a pathlet -/

/-- The node is one that traffic comes from. -/
def StartsAt (c : Compiler) : Option Uid → Uid → Prop
  | some port, source => port.nodeOfPort = .ok source
  | none, source => source ∈ c.graph.nodes

theorem mem_sources {inPort : Option Uid} {sources : List Uid} (h : c.graph.sources inPort = .ok sources)
    {source : Uid} : source ∈ sources ↔ c.StartsAt inPort source := by
  cases inPort with
  | none => cases h; rfl
  | some port =>
    obtain ⟨node, hnode, h⟩ := bind_eq_ok h
    cases h
    rw [Uid.portNode_eq_ok] at hnode
    rw [StartsAt, hnode, List.mem_singleton, Except.ok.injEq]
    exact eq_comm

theorem pathletFlows_eq_ok {inherited : Option Uid} {flows : List FlowEntry} {qs : List Uid}
    (h : c.pathletFlows priority p inherited = .ok (flows, qs)) : p.outports c.graph = .ok qs ∧
    ∃ inPort, p.effectiveInPort inherited = .ok inPort ∧
      (∀ port, inPort = some port → ∃ source, port.nodeOfPort = .ok source) ∧
      (∀ source q, c.StartsAt inPort source → p.IsOutport c.graph q →
        ∃ part, c.flowsTo priority p inPort source q = .ok part) ∧
      ∀ f, f ∈ flows ↔ ∃ source q, c.StartsAt inPort source ∧ p.IsOutport c.graph q ∧
        ∃ part, c.flowsTo priority p inPort source q = .ok part ∧ f ∈ part := by
  obtain ⟨qs', hqs, h⟩ := bind_eq_ok h
  obtain ⟨inPort, hin, h⟩ := bind_eq_ok h
  obtain ⟨sources, hsources, h⟩ := bind_eq_ok h
  obtain ⟨parts, hparts, h⟩ := bind_eq_ok h
  cases h
  refine ⟨hqs, inPort, hin, ?_, fun source q hs hq => ?_, fun f => ?_⟩
  · rintro port rfl
    obtain ⟨node, hnode, -⟩ := bind_eq_ok hsources
    exact ⟨node, Uid.portNode_eq_ok.1 hnode⟩
  · obtain ⟨row, -, hrow⟩ := exists_result hparts ((mem_sources hsources).2 hs)
    obtain ⟨part, -, hpart⟩ := exists_result hrow ((Pathlet.mem_outports hqs).2 hq)
    exact ⟨part, hpart⟩
  · rw [List.mem_flatten]
    constructor
    · rintro ⟨part, hpart, hf⟩
      obtain ⟨source, hs, row, hrow, hpart⟩ := (mem_flatten_results hparts).1 hpart
      obtain ⟨q, hq, hflows⟩ := exists_element hrow hpart
      exact ⟨source, q, (mem_sources hsources).1 hs, (Pathlet.mem_outports hqs).1 hq, part, hflows, hf⟩
    · rintro ⟨source, q, hs, hq, part, hpart, hf⟩
      obtain ⟨row, hmem, hrow⟩ := exists_result hparts ((mem_sources hsources).2 hs)
      obtain ⟨part', hmem', hpart'⟩ := exists_result hrow ((Pathlet.mem_outports hqs).2 hq)
      rw [hpart] at hpart'
      cases hpart'
      exact ⟨part, List.mem_flatten.2 ⟨row, hmem, hmem'⟩, hf⟩

/-! ## Flow entries of a path -/

/-- What is compiled of the pathlets, the latest one first: the out-ports are those that traffic leaves
by, and the flow entries are those of every pathlet with everything that it may inherit. -/
structure Compiled (c : Compiler) (priority : UInt16) (pathlets : List Pathlet) (s : Progress) : Prop where
  outports : ∀ q, q ∈ s.outports ↔ c.Leaves pathlets q
  flows : ∀ p before, (p :: before) <:+ pathlets → ∀ inherited, c.Inherits (c.Leaves before) inherited →
    ∃ part qs, c.pathletFlows priority p inherited = .ok (part, qs) ∧ part ⊆ s.flows
  origin : ∀ f ∈ s.flows, ∃ p before, (p :: before) <:+ pathlets ∧ ∃ inherited,
    c.Inherits (c.Leaves before) inherited ∧
    ∃ part qs, c.pathletFlows priority p inherited = .ok (part, qs) ∧ f ∈ part

theorem compiled_nil : Compiled c priority [] ⟨[], []⟩ := by
  refine ⟨fun q => by simp [Leaves], fun p before h => ?_, fun f hf => by cases hf⟩
  cases List.suffix_nil.1 h

/-- One more pathlet is compiled once with everything that it may inherit. -/
theorem advance_eq (c : Compiler) (priority : UInt16) (s : Progress) (p : Pathlet) :
    c.advance priority s p = (c.inheritances s.outports).mapM (c.pathletFlows priority p) >>= fun parts =>
      .ok ⟨s.flows ++ parts.flatMap (·.1), parts.flatMap (·.2)⟩ := by
  unfold advance inheritances
  split
  · cases h : c.pathletFlows priority p none with
    | error e => simp only [List.mapM_cons, h]; rfl
    | ok part => simp only [List.mapM_cons, List.mapM_nil, h]; simp [bind, Except.bind, pure, Except.pure]
  · rw [List.mapM_map]
    rfl

theorem Compiled.advance (hg : c.graph.WellFormed) {pathlets : List Pathlet} {s s' : Progress}
    (hS : Compiled c priority pathlets s) (h : c.advance priority s p = .ok s') :
    Compiled c priority (p :: pathlets) s' := by
  rw [advance_eq] at h
  obtain ⟨parts, hparts, h⟩ := bind_eq_ok h
  cases h
  have hin (i : Option Uid) : i ∈ c.inheritances s.outports ↔ c.Inherits (c.Leaves pathlets) i :=
    mem_inheritances_iff hg hS.outports
  refine ⟨fun q => ?_, fun p' before hsuf i hi => ?_, fun f hf => ?_⟩
  · -- the out-ports do not depend on what is inherited
    rw [List.mem_flatMap]
    constructor
    · rintro ⟨⟨part, qs⟩, hpart, hq⟩
      obtain ⟨i, hi, hflows⟩ := exists_element hparts hpart
      exact ⟨(Pathlet.mem_outports (pathletFlows_eq_ok hflows).1).1 hq, i, (hin i).1 hi⟩
    · rintro ⟨hq, i, hi⟩
      obtain ⟨⟨part, qs⟩, hpart, hflows⟩ := exists_result hparts ((hin i).2 hi)
      exact ⟨(part, qs), hpart, (Pathlet.mem_outports (pathletFlows_eq_ok hflows).1).2 hq⟩
  · -- the pathlet is the one just compiled or an earlier one
    rcases List.suffix_cons_iff.1 hsuf with heq | hsuf
    · cases heq
      obtain ⟨⟨part, qs⟩, hpart, hflows⟩ := exists_result hparts ((hin i).2 hi)
      refine ⟨part, qs, hflows, fun f hf => List.mem_append_right _ ?_⟩
      exact List.mem_flatMap.2 ⟨(part, qs), hpart, hf⟩
    · obtain ⟨part, qs, hflows, hsub⟩ := hS.flows p' before hsuf i hi
      exact ⟨part, qs, hflows, fun f hf => List.mem_append_left _ (hsub hf)⟩
  · rcases List.mem_append.1 hf with hf | hf
    · obtain ⟨p', before, hsuf, hrest⟩ := hS.origin f hf
      exact ⟨p', before, hsuf.trans (List.suffix_cons _ _), hrest⟩
    · obtain ⟨⟨part, qs⟩, hpart, hf⟩ := List.mem_flatMap.1 hf
      obtain ⟨i, hi, hflows⟩ := exists_element hparts hpart
      exact ⟨p, pathlets, List.suffix_refl _, i, (hin i).1 hi, part, qs, hflows, hf⟩

theorem Compiled.foldlM (hg : c.graph.WellFormed) : ∀ {pathlets before : List Pathlet} {s s' : Progress},
    Compiled c priority before s → pathlets.foldlM (c.advance priority) s = .ok s' →
    Compiled c priority (pathlets.reverse ++ before) s'
  | [], before, s, s', hS, h => by cases h; exact hS
  | p :: pathlets, before, s, s', hS, h => by
    rw [List.foldlM_cons] at h
    obtain ⟨s₁, h1, h2⟩ := bind_eq_ok h
    rw [List.reverse_cons, List.append_assoc]
    exact Compiled.foldlM hg (hS.advance hg h1) h2

theorem compiled_of_foldlM (hg : c.graph.WellFormed) {pathlets : List Pathlet} {s : Progress}
    (h : pathlets.foldlM (c.advance priority) ⟨[], []⟩ = .ok s) : Compiled c priority pathlets.reverse s := by
  have hS := compiled_nil.foldlM hg h
  rwa [List.append_nil] at hS

theorem compile_of_pathlets_eq_nil {path : Path} (h : path.pathlets = []) : c.compile path = .error .emptyPath := by
  unfold compile
  rw [h]
  rfl

/-- The pathlets are compiled first, and of all that what is essential is kept. -/
theorem compile_eq_map {path : Path} (hne : path.pathlets ≠ []) : c.compile path =
    (path.pathlets.foldlM (c.advance path.priority) ⟨[], []⟩).map fun s => FlowEntry.essential s.flows := by
  unfold compile
  rw [if_neg (by simpa using hne)]
  cases path.pathlets.foldlM (c.advance path.priority) ⟨[], []⟩ <;> rfl

theorem compile_eq_ok_iff {path : Path} {flows : List FlowEntry} : c.compile path = .ok flows ↔ path.pathlets ≠ [] ∧
    ∃ s, path.pathlets.foldlM (c.advance path.priority) ⟨[], []⟩ = .ok s ∧ FlowEntry.essential s.flows = flows := by
  by_cases hne : path.pathlets = []
  · rw [compile_of_pathlets_eq_nil hne]
    exact iff_of_false (fun h => nomatch h) fun h => h.1 hne
  · rw [compile_eq_map hne, and_iff_right hne]
    cases path.pathlets.foldlM (c.advance path.priority) ⟨[], []⟩ <;> simp [Except.map]

/-- The flow entries of a path are the essential ones of what is compiled of all pathlets. -/
theorem compile_eq_ok (hg : c.graph.WellFormed) {path : Path} {flows : List FlowEntry}
    (h : c.compile path = .ok flows) :
    ∃ s, Compiled c path.priority path.pathlets.reverse s ∧ flows = FlowEntry.essential s.flows := by
  obtain ⟨-, s, hs, rfl⟩ := compile_eq_ok_iff.1 h
  exact ⟨s, compiled_of_foldlM hg hs, rfl⟩

end Compiler

end ControlPlane
