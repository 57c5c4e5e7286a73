/-
Routes are realised: wherever a pathlet is compiled, every route that the configuration selects from an
in-port of the pathlet to one of its out-ports has a flow entry for each of its nodes among the flow
entries of the path (`compile_realises`). Each of them accepts the traffic of the pathlet that comes by
the port where the route enters the node.

Dropping redundant entries may put a broader entry, also one of another route or pathlet, in the place
of the one that was made for a node. So an entry of the node is found by what it does, not by how it was
made (`FlowEntry.Serves`).
-/
import ControlPlane.Proofs.Flow.Redundancy
import ControlPlane.Proofs.Path.Compile

namespace ControlPlane

/-! ## Entries that serve a place of a route -/

/-- The entry is one of the node with the priority, it does the actions or equal ones, and it accepts
what the pathlet's other fields accept and comes in by the port. Without repeated kinds of fields, its
match also subsumes that of the pathlet with this in-port. -/
structure FlowEntry.Serves (s : FlowEntry) (p : Pathlet) (priority : UInt16) (node inPort : Uid)
    (actions : List Action) : Prop where
  node : s.node = node
  priority : s.priority = priority
  actions : s.actions = actions ∨ Action.listEquals s.actions actions = true
  accepts : ∀ pkt : Packet, p.pattern.withoutInPort.accepts pkt → pkt.value? .inPort = some inPort →
    s.pattern.accepts pkt
  subsumes : p.pattern.withoutInPort.Distinct → s.pattern.subsumes (p.patternAt (some inPort)) = true

/-- Among the entries there is one for each node of the route, which the in-port leads into: it takes the
traffic that comes by the link before out of the next link's port, and on the last node it does all the
actions of the pathlet. -/
def Realises (flows : List FlowEntry) (p : Pathlet) (priority : UInt16) (inPort target : Uid)
    (route : List Link) : Prop :=
  (∀ j link, route[j]? = some link → ∃ node port, link.origin.nodeOfPort = .ok node ∧
    Compiler.enteredAt (some inPort) route j = some port ∧
    ∃ s ∈ flows, s.Serves p priority node port (p.transitActions ++ [.forward [link.origin]])) ∧
  ∃ port, Compiler.enteredAt (some inPort) route route.length = some port ∧
    ∃ s ∈ flows, s.Serves p priority target port p.actions

/-- What was made for a place is served after the redundant entries are dropped. -/
theorem FlowEntry.exists_serves {candidates : List FlowEntry} {f : FlowEntry} (hf : f ∈ candidates)
    {p : Pathlet} {inPort : Uid} (hp : f.pattern = p.patternAt (some inPort)) :
    ∃ s ∈ essential candidates, s.Serves p f.priority f.node inPort f.actions := by
  have key : ∀ s : FlowEntry, s.node = f.node → s.priority = f.priority →
      (s.actions = f.actions ∨ Action.listEquals s.actions f.actions = true) →
      s.pattern.Covers f.pattern → s.Serves p f.priority f.node inPort f.actions := by
    -- covering is enough to accept, also where a kind is repeated and nothing subsumes the match
    intro s hnode hpriority hactions hcovers
    rw [hp] at hcovers
    refine ⟨hnode, hpriority, hactions, fun pkt hpkt hport => ?_, fun hd => ?_⟩
    · exact hcovers.accepts (Pathlet.accepts_patternAt.2 ⟨hpkt, hport⟩)
    · exact Match.subsumes_of_covers (Pathlet.distinct_patternAt hd inPort) hcovers
  rcases exists_essential_covering hf with hs | ⟨s, hs, htarget, hcovers⟩
  · exact ⟨f, hs, key f rfl rfl (.inl rfl) (Match.covers_refl _)⟩
  · obtain ⟨hnode, hpriority, hactions⟩ := sameTarget_iff.1 htarget
    exact ⟨s, hs, key s hnode hpriority (.inr hactions) hcovers⟩

namespace Compiler

variable {c : Compiler} {priority : UInt16} {p : Pathlet}

/-! ## In-ports along a route -/

/-- On a well-formed topology, every link of a route has a peer. -/
theorem exists_peer (hg : c.graph.WellFormed) {source target : Uid} {r : Routes}
    (h : c.graph.shortestRoutes source target = .ok (some r)) {route : List Link} (hr : route ∈ c.routesTaken r)
    {link : Link} (hl : link ∈ route) : ∃ port, link.peer? = some port := by
  obtain ⟨w, hw, rfl⟩ := exists_walk_of_mem_routesTaken h hr
  obtain ⟨e, he, rfl⟩ := List.mem_map.1 hl
  have hrec := hg.recordedBetween (hw.1.hasEntry e he)
  obtain ⟨port, ports, hports⟩ := List.exists_cons_of_ne_nil hrec.targets_ne_nil
  exact ⟨port, by rw [Link.peer?, hports]; rfl⟩

theorem exists_enteredAt {inPort : Uid} {route : List Link} (h : ∀ link ∈ route, ∃ port, link.peer? = some port) :
    ∀ j ≤ route.length, ∃ port, enteredAt (some inPort) route j = some port
  | 0, _ => ⟨inPort, rfl⟩
  | j + 1, hj => by
    obtain ⟨port, hport⟩ := h route[j] (List.getElem_mem hj)
    exact ⟨port, by rw [enteredAt, List.getElem?_eq_getElem hj, Option.bind_some, hport]⟩

/-! ## From the entries of a route to those of the path -/

theorem realises_of_routeFlows {target inPort : Uid} {route : List Link} {part candidates : List FlowEntry}
    (hpeer : ∀ link ∈ route, ∃ port, link.peer? = some port)
    (h : c.routeFlows priority p target (some inPort) route = .ok part) (hsub : part ⊆ candidates) :
    Realises (FlowEntry.essential candidates) p priority inPort target route := by
  constructor
  · intro j link hj
    obtain ⟨hlt, -⟩ := List.getElem?_eq_some_iff.1 hj
    obtain ⟨port, hport⟩ := exists_enteredAt hpeer j (Nat.le_of_lt hlt)
    obtain ⟨node, hnode, hmem⟩ := transitEntry_mem h hj
    rw [hport] at hmem
    exact ⟨node, port, hnode, hport, FlowEntry.exists_serves (hsub hmem) rfl⟩
  · obtain ⟨port, hport⟩ := exists_enteredAt hpeer route.length (Nat.le_refl _)
    have hmem := terminalEntry_mem h
    rw [hport] at hmem
    exact ⟨port, hport, FlowEntry.exists_serves (hsub hmem) rfl⟩

/-- A pathlet is compiled with each of its effective in-ports. -/
theorem EffectiveInPort.exists_inherited {before : List Pathlet} {inPort : Uid} (hc : c.Compiles before)
    (h : c.EffectiveInPort before p inPort) : ∃ inherited, c.Inherits (c.Leaves before) inherited ∧
      ∀ effective, p.effectiveInPort inherited = .ok effective → effective = some inPort := by
  rcases h with h | ⟨h, hi⟩
  · obtain ⟨inherited, hi⟩ := hc
    refine ⟨inherited, hi, fun effective he => ?_⟩
    rw [Pathlet.eq_of_effectiveInPort he, h]
    rfl
  · refine ⟨some inPort, hi, fun effective he => ?_⟩
    rw [Pathlet.eq_of_effectiveInPort he, h]
    rfl

/-! ## Main result -/

/-- Whatever the topology that was built link by link, the configuration and the path: when the path
compiles, the flow entries realise every selected route from every effective in-port of every pathlet
that is not skipped to every out-port of the pathlet, and also the way from the in-port to the out-port
on one node. -/
theorem compile_realises (c : Compiler) (hg : c.graph.Reachable) {path : Path} {flows : List FlowEntry}
    (h : c.compile path = .ok flows) {before after : List Pathlet} {p : Pathlet}
    (hp : path.pathlets = before ++ p :: after) (hc : c.Compiles before.reverse) {inPort outport : Uid}
    (hin : c.EffectiveInPort before.reverse p inPort) (hout : p.IsOutport c.graph outport) :
    ∃ source target r, inPort.nodeOfPort = .ok source ∧ outport.nodeOfPort = .ok target ∧
      c.graph.shortestRoutes source target = .ok (some r) ∧
      (∀ route ∈ c.config.selection.select r.paths, Realises flows p path.priority inPort target route) ∧
      (r.length = 0 → Realises flows p path.priority inPort target []) := by
  have hwf := hg.wellFormed
  obtain ⟨s, hS, rfl⟩ := compile_eq_ok hwf h
  have hsuf : (p :: before.reverse) <:+ path.pathlets.reverse := ⟨after.reverse, by simp [hp]⟩
  obtain ⟨inherited, hi, heff⟩ := hin.exists_inherited hc
  obtain ⟨part, qs, hflows, hsub⟩ := hS.flows p before.reverse hsuf inherited hi
  obtain ⟨-, effective, he, hsource, htotal, hmem⟩ := pathletFlows_eq_ok hflows
  obtain rfl := heff effective he
  obtain ⟨source, hsource⟩ := hsource inPort rfl
  -- one leg of the pathlet, from the node of the in-port to that of the out-port
  obtain ⟨leg, hleg⟩ := htotal source outport hsource hout
  obtain ⟨target, r, htarget, hr, hroutes, hlegmem⟩ := flowsTo_eq_ok hleg
  have hlegsub : leg ⊆ s.flows := fun f hf => hsub ((hmem f).2 ⟨source, outport, hsource, hout, leg, hleg, hf⟩)
  have htaken : ∀ route ∈ c.routesTaken r,
      Realises (FlowEntry.essential s.flows) p path.priority inPort target route := by
    intro route hroute
    obtain ⟨part, hpart⟩ := hroutes route hroute
    refine realises_of_routeFlows (fun link hl => exists_peer hwf hr hroute hl) hpart fun f hf => ?_
    exact hlegsub ((hlegmem f).2 ⟨route, hroute, part, hpart, hf⟩)
  refine ⟨source, target, r, hsource, htarget, hr, fun route hroute => ?_, fun h0 => ?_⟩
  · exact htaken route (mem_routesTaken hr hroute)
  · apply htaken
    rw [routesTaken, if_pos h0]
    exact List.mem_singleton_self _

/-- Traffic of a port of `b` is sent out of the port towards `c`. -/
def relay : Pathlet := ⟨⟨[.inPort ⟨"b$$1"⟩]⟩, [], [.forward [⟨"b$$3"⟩]]⟩

/-- Traffic is sent out of port 9 of `c` without its tag. -/
def deliver : Pathlet := ⟨.any, [], [.popVlan, .forward [⟨"c$$9"⟩]]⟩

def relayed : Path := { priority := 7, pathlets := [relay, deliver] }

/-- The compiler of the topology with parallel links. -/
def ofParallel : Compiler := ⟨Graph.parallel, {}⟩

def relayedFlows : List FlowEntry :=
  [ofParallel.entry 7 ⟨"b"⟩ ⟨[.inPort ⟨"b$$1"⟩]⟩ [.forward [⟨"b$$3"⟩]],
    ofParallel.entry 7 ⟨"b"⟩ ⟨[.inPort ⟨"b$$3"⟩]⟩ [.popVlan, .forward [⟨"b$$3"⟩]],
    ofParallel.entry 7 ⟨"c"⟩ ⟨[.inPort ⟨"c$$1"⟩]⟩ [.popVlan, .forward [⟨"c$$9"⟩]]]

theorem compile_relayed : ofParallel.compile relayed = .ok relayedFlows := by
  decide +kernel

/-- The second pathlet inherits the port of `b`, and its route to `c` is realised. -/
theorem compile_realises_relayed : ofParallel.compile relayed = .ok relayedFlows ∧
    ofParallel.EffectiveInPort [relay] deliver ⟨"b$$3"⟩ ∧
    Realises relayedFlows deliver 7 ⟨"b$$3"⟩ ⟨"c"⟩ [.between ⟨"b$$3"⟩ ⟨"c$$1"⟩] := by
  have hlink : ∃ l ∈ ofParallel.graph.allLinks, l.origin = ⟨"b$$3"⟩ :=
    Graph.reachable_parallel.wellFormed.hasLinkFrom_iff.1 (by decide +kernel)
  have hstart : ofParallel.Inherits (ofParallel.Leaves []) none := fun q hq => hq
  have hinherits : ofParallel.Inherits (ofParallel.Leaves [relay]) (some ⟨"b$$3"⟩) :=
    ⟨⟨⟨_, List.mem_singleton_self _, List.mem_singleton_self _⟩, none, hstart⟩, hlink⟩
  have hin : ofParallel.EffectiveInPort [relay] deliver ⟨"b$$3"⟩ := .inr ⟨rfl, hinherits⟩
  have hout : deliver.IsOutport ofParallel.graph ⟨"c$$9"⟩ :=
    ⟨.forward [⟨"c$$9"⟩], List.mem_cons_of_mem _ (List.mem_singleton_self _), List.mem_singleton_self _⟩
  obtain ⟨source, target, r, hsource, htarget, hr, hroutes, -⟩ := compile_realises ofParallel
    Graph.reachable_parallel compile_relayed (show relayed.pathlets = [relay] ++ deliver :: [] from rfl)
    ⟨_, hinherits⟩ hin hout
  have hsource' : (Uid.mk "b$$3").nodeOfPort = .ok ⟨"b"⟩ := by decide +kernel
  have htarget' : (Uid.mk "c$$9").nodeOfPort = .ok ⟨"c"⟩ := by decide +kernel
  have hr' : ofParallel.graph.shortestRoutes ⟨"b"⟩ ⟨"c"⟩ =
      .ok (some ⟨1, [[.between ⟨"b$$3"⟩ ⟨"c$$1"⟩]]⟩) := by decide +kernel
  cases hsource'.symm.trans hsource
  cases htarget'.symm.trans htarget
  cases hr'.symm.trans hr
  exact ⟨compile_relayed, hin, hroutes _ (List.mem_singleton_self _)⟩

end Compiler

end ControlPlane
