/-
Compiling on topologies that hold the same links in another order. If every route gets flow entries, each function of
the compiler agrees on both: it fails on both, or its lists have the same members on both. The order of the links
changes the order of the routes, of the ports that are flooded and of the in-ports that are inherited, so the flow
entries come in another order and another number of times (`agree_foldlM`).

The redundancy of entries does not depend on either, as long as no match and no action that writes has two fields of
the same kind. So the path compiles on both topologies or on neither, and the entries that are left can be paired
(`compile_of_alike`).
-/
import ControlPlane.Proofs.Flow.Representatives
import ControlPlane.Proofs.Topology.Alike

namespace ControlPlane

/-! ## Ports -/

namespace Graph

variable {g g' : Graph}

theorem WellFormed.alike_of_allLinks (hg : g.WellFormed) (hg' : g'.WellFormed)
    (h : SameMembers g.allLinks g'.allLinks) : g.Alike g' := by
  refine hg.alike hg' fun u v l => ?_
  rw [hg.mem_linksBetween, hg'.mem_linksBetween, h l]

theorem Alike.links_sameMembers (h : g.Alike g') (node : Uid) : SameMembers (g.links node) (g'.links node) := by
  intro l
  rw [mem_links, mem_links]
  exact exists_congr fun v => (h.links node v).mem_iff

theorem Alike.hasLinkFrom_eq (h : g.Alike g') (port : Uid) : g.hasLinkFrom port = g'.hasLinkFrom port := by
  unfold hasLinkFrom
  split
  · next node _ =>
    rw [Bool.eq_iff_iff, List.any_eq_true, List.any_eq_true]
    exact exists_congr fun l => and_congr_left fun _ => h.links_sameMembers node l
  · rfl

theorem Alike.inheritedInPorts (h : g.Alike g') (addressing : InPortAddressing) {left left' : List Uid}
    (hleft : SameMembers left left') :
    SameMembers (g.inheritedInPorts addressing left) (g'.inheritedInPorts addressing left') := by
  intro port
  unfold Graph.inheritedInPorts
  cases addressing with
  | samePort => simp only [List.mem_eraseDups, List.mem_filter, hleft port, h.hasLinkFrom_eq]
  | peer =>
    simp only [List.mem_eraseDups, List.mem_flatMap, hleft _]
    refine exists_congr fun q => and_congr_right fun _ => ?_
    split
    · next node _ => simp only [List.mem_flatMap, List.mem_filter, h.links_sameMembers node _]
    · rfl

theorem Alike.inheritances (h : g.Alike g') (config : CompilerConfig) {left left' : List Uid}
    (hleft : SameMembers left left') :
    SameMembers ((Compiler.mk g config).inheritances left) ((Compiler.mk g' config).inheritances left') := by
  intro inherited
  unfold Compiler.inheritances
  rw [hleft.isEmpty_eq]
  split
  · rfl
  · simp only [List.mem_map, h.inheritedInPorts config.addressing hleft _]

theorem Alike.sources_eq (h : g.Alike g') (inPort : Option Uid) : g.sources inPort = g'.sources inPort := by
  cases inPort with
  | none => rw [sources, sources, h.origins]
  | some port => rfl

theorem Alike.action_outports (h : g.Alike g') (a : Action) : Agree SameMembers (a.outports g) (a.outports g') := by
  cases a with
  | flood inPort =>
    refine (Agree.refl (fun _ => rfl) inPort.portNode).bind ?_
    rintro node _ rfl
    refine .ok fun q => ?_
    simp only [List.mem_filter, List.mem_map, h.links_sameMembers node _]
  | _ => exact Agree.refl .refl _

theorem Alike.pathlet_outports (h : g.Alike g') (p : Pathlet) : Agree SameMembers (p.outports g) (p.outports g') := by
  refine (Agree.mapM (.refl p.actions) h.action_outports).bind fun qs qs' hqs => .ok fun q => ?_
  rw [List.mem_eraseDups, List.mem_eraseDups]
  exact hqs.sameMembers_flatten q

end Graph

/-! ## Flow entries -/

namespace Compiler

variable {g g' : Graph} {config : CompilerConfig} {priority : UInt16} {p : Pathlet}

/-- What is compiled so far has the same members. -/
structure Progress.SameMembers (s s' : Progress) : Prop where
  flows : ControlPlane.SameMembers s.flows s'.flows
  outports : ControlPlane.SameMembers s.outports s'.outports

section Agreement

variable (h : g.Alike g') (hg : g.WellFormed) (hg' : g'.WellFormed) (hall : config.selection = .all)
include h hg hg' hall

theorem agree_flowsTo (priority : UInt16) (p : Pathlet) (inPort : Option Uid) (source outport : Uid) : Agree SameMembers
    ((Compiler.mk g config).flowsTo priority p inPort source outport)
    ((Compiler.mk g' config).flowsTo priority p inPort source outport) := by
  refine (Agree.refl (fun _ => rfl) outport.portNode).bind ?_
  rintro target _ rfl
  obtain ⟨found, found', hfound, hfound', hrel⟩ := h.routes hg hg' source target
  dsimp only
  rw [hfound, hfound']
  refine Agree.bind (.ok hrel) fun found found' hrel => ?_
  cases hrel with
  | none => exact .error _ _
  | @some r r' hr =>
    obtain ⟨hlength, hpaths⟩ := hr
    dsimp only
    rw [← hlength, hall]
    split
    · exact Agree.refl .refl _
    · have hroute (route : List Link) : Agree SameMembers
          ((Compiler.mk g config).routeFlows priority p target inPort route)
          ((Compiler.mk g' config).routeFlows priority p target inPort route) := by
        rw [routeFlows_congr ⟨g, config⟩ ⟨g', config⟩ rfl rfl]
        exact Agree.refl .refl _
      refine (Agree.mapM (fun _ => hpaths.mem_iff) hroute).bind fun parts parts' hparts => ?_
      exact .ok hparts.sameMembers_flatten

theorem agree_pathletFlows (priority : UInt16) (p : Pathlet) (inherited : Option Uid) :
    Agree (fun part part' => SameMembers part.1 part'.1 ∧ SameMembers part.2 part'.2)
      ((Compiler.mk g config).pathletFlows priority p inherited)
      ((Compiler.mk g' config).pathletFlows priority p inherited) := by
  refine (h.pathlet_outports p).bind fun qs qs' hqs => ?_
  refine (Agree.refl (fun _ => rfl) (p.effectiveInPort inherited)).bind ?_
  rintro inPort _ rfl
  dsimp only
  rw [h.sources_eq inPort]
  refine (Agree.refl (fun _ => rfl) (g'.sources inPort)).bind ?_
  rintro sources _ rfl
  have hlegs (source : Uid) := Agree.mapM hqs (agree_flowsTo h hg hg' hall priority p inPort source)
  refine (Agree.mapM (.refl sources) hlegs).bind fun rows rows' hrows => .ok ⟨?_, hqs⟩
  exact hrows.flatten.sameMembers_flatten

/-- After a pathlet, what is compiled so far has the same members again. -/
theorem agree_advance {s s' : Progress} (hs : s.SameMembers s') (p : Pathlet) : Agree Progress.SameMembers
    ((Compiler.mk g config).advance priority s p) ((Compiler.mk g' config).advance priority s' p) := by
  rw [advance_eq, advance_eq]
  have hin := h.inheritances config hs.outports
  refine (Agree.mapM hin (agree_pathletFlows h hg hg' hall priority p)).bind fun parts parts' hparts => ?_
  refine .ok ⟨hs.flows.append ?_, ?_⟩
  · exact hparts.flatMap fun _ _ hpart => hpart.1
  · exact hparts.flatMap fun _ _ hpart => hpart.2

theorem agree_foldlM (priority : UInt16) (pathlets : List Pathlet) : Agree Progress.SameMembers
    (pathlets.foldlM ((Compiler.mk g config).advance priority) ⟨[], []⟩)
    (pathlets.foldlM ((Compiler.mk g' config).advance priority) ⟨[], []⟩) :=
  Agree.foldlM (fun _ _ p hs => agree_advance h hg hg' hall hs p) pathlets ⟨.refl [], .refl []⟩

end Agreement

/-! ## Flow entries without repeated kinds -/

end Compiler

/-- Neither the match, in-ports apart, nor what the actions write has two fields of the same kind. -/
structure Pathlet.Distinct (p : Pathlet) : Prop where
  pattern : p.pattern.withoutInPort.Distinct
  actions : ∀ a ∈ p.actions, a.Distinct

theorem Justified.distinct {g : Graph} {p : Pathlet} {f : FlowEntry} (h : Justified g p f) (hp : p.Distinct) :
    f.Distinct := by
  refine ⟨Match.pairwise_of_withoutInPort (fun hne => hne) h.inPorts ?_, fun a ha => ?_⟩
  · rw [h.others]
    exact hp.pattern
  · rcases h.mem_actions ha with ha | ⟨ports, rfl⟩
    · exact hp.actions a ha
    · trivial

namespace Compiler

variable {c : Compiler} {priority : UInt16}

theorem distinct_of_foldlM (hg : c.graph.WellFormed) {pathlets : List Pathlet} (hp : ∀ p ∈ pathlets, p.Distinct)
    {s : Progress} (h : pathlets.foldlM (c.advance priority) ⟨[], []⟩ = .ok s) : ∀ f ∈ s.flows, f.Distinct := by
  intro f hf
  have hS := compiled_of_foldlM hg h
  obtain ⟨p, before, hsuf, inherited, -, part, qs, hpart, hf⟩ := hS.origin f hf
  have hmem : p ∈ pathlets := List.mem_reverse.1 (hsuf.subset List.mem_cons_self)
  exact (justified_of_pathletFlows hg hpart f hf).2.distinct (hp p hmem)

/-! ## Main result -/

/-- On topologies that were built link by link and hold the same links, whatever their order, a path of which no match,
in-ports apart, and no action that writes has two fields of the same kind compiles on both or on neither, if all
routes get flow entries. The flow entries are as many on both, and they can be paired with equal ones. -/
theorem compile_of_alike {g g' : Graph} (hg : g.Reachable) (hg' : g'.Reachable) (h : g.Alike g')
    {config : CompilerConfig} (hall : config.selection = .all) {path : Path} (hpath : ∀ p ∈ path.pathlets, p.Distinct) :
    ((∃ flows, (Compiler.mk g config).compile path = .ok flows) ↔
      ∃ flows, (Compiler.mk g' config).compile path = .ok flows) ∧
    ∀ flows flows', (Compiler.mk g config).compile path = .ok flows →
      (Compiler.mk g' config).compile path = .ok flows' → flows.length = flows'.length ∧
      ∃ paired, paired.Perm flows' ∧ List.Forall₂ (fun f f' => f.equals f' = true) flows paired := by
  have hagree := agree_foldlM h hg.wellFormed hg'.wellFormed hall path.priority path.pathlets
  constructor
  · simp only [compile_eq_ok_iff]
    constructor
    · rintro ⟨_, hne, s, hs, -⟩
      obtain ⟨s', hs', -⟩ := hagree.exists_left hs
      exact ⟨_, hne, s', hs', rfl⟩
    · rintro ⟨_, hne, s', hs', -⟩
      obtain ⟨s, hs, -⟩ := hagree.exists_right hs'
      exact ⟨_, hne, s, hs, rfl⟩
  · intro flows flows' hflows hflows'
    obtain ⟨-, s, hs, rfl⟩ := compile_eq_ok_iff.1 hflows
    obtain ⟨-, s', hs', rfl⟩ := compile_eq_ok_iff.1 hflows'
    obtain ⟨s'', hs'', hsame⟩ := hagree.exists_left hs
    obtain rfl : s' = s'' := Except.ok.inj (hs'.symm.trans hs'')
    have hdistinct := distinct_of_foldlM hg.wellFormed hpath hs
    obtain ⟨paired, hperm, hpairs⟩ := FlowEntry.essential_of_sameMembers hdistinct hsame.flows
    exact ⟨hpairs.length_eq.trans hperm.length_eq, paired, hperm, hpairs.imp fun _ _ hpair => hpair.equals⟩

/-- The links of `parallel`, found in another order. -/
def parallelAgain : Graph :=
  (((Graph.empty.addLink (.between ⟨"b$$3"⟩ ⟨"c$$1"⟩)).2.addLink (.between ⟨"a$$2"⟩ ⟨"b$$2"⟩)).2.addLink
    (.between ⟨"a$$1"⟩ ⟨"b$$1"⟩)).2

theorem reachable_parallelAgain : parallelAgain.Reachable := .add _ (.add _ (.add _ .empty))

theorem alike_parallelAgain : Graph.parallel.Alike parallelAgain := by
  have hagain : parallelAgain.allLinks =
      [.between ⟨"a$$2"⟩ ⟨"b$$2"⟩, .between ⟨"a$$1"⟩ ⟨"b$$1"⟩, .between ⟨"b$$3"⟩ ⟨"c$$1"⟩] := by decide +kernel
  refine Graph.reachable_parallel.wellFormed.alike_of_allLinks reachable_parallelAgain.wellFormed fun l => ?_
  rw [allLinks_parallel, hagain]
  simp only [List.mem_cons, List.not_mem_nil, or_false]
  exact or_left_comm

theorem distinct_across : ∀ p ∈ across.pathlets, p.Distinct := by
  intro p hp
  rw [List.mem_singleton.1 hp]
  exact ⟨by decide, by decide⟩

/-- Both routes from `a` to `c` end with the same entry on `c`, which is left once. -/
theorem compile_across_parallel :
    ∃ flows, (Compiler.mk Graph.parallel {}).compile across = .ok flows ∧ flows.length = 5 := by
  have hlength : ((Compiler.mk Graph.parallel {}).compile across).map List.length = .ok 5 := by decide +kernel
  cases hflows : (Compiler.mk Graph.parallel {}).compile across with
  | error e =>
    rw [hflows] at hlength
    cases hlength
  | ok flows =>
    rw [hflows] at hlength
    exact ⟨flows, rfl, Except.ok.inj hlength⟩

/-- The two routes are found in the other order, and so are the entries on `a` and `b`. -/
theorem compile_of_alike_parallel : ∃ flows flows', (Compiler.mk Graph.parallel {}).compile across = .ok flows ∧
    (Compiler.mk parallelAgain {}).compile across = .ok flows' ∧ flows.length = 5 ∧ flows'.length = 5 ∧
    ∃ paired, paired.Perm flows' ∧ List.Forall₂ (fun f f' => f.equals f' = true) flows paired := by
  have hall : ({} : CompilerConfig).selection = .all := rfl
  obtain ⟨hok, hpairs⟩ := compile_of_alike Graph.reachable_parallel reachable_parallelAgain alike_parallelAgain hall
    distinct_across
  obtain ⟨flows, hflows, hlength⟩ := compile_across_parallel
  obtain ⟨flows', hflows'⟩ := hok.1 ⟨flows, hflows⟩
  obtain ⟨hsame, hpaired⟩ := hpairs flows flows' hflows hflows'
  exact ⟨flows, flows', hflows, hflows', hlength, hsame ▸ hlength, hpaired⟩

end Compiler

end ControlPlane
