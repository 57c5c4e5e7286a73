/-
No stray entries and no loops. Every flow entry of a compiled path belongs to one of its pathlets
(`Justified`): it has the fields of the pathlet's match and at most one in-port, which is a port of its
node, and it either does the actions of the pathlet on the node of an out-port, or forwards on a recorded
link that leads exactly one hop nearer to the node of an out-port.

For a path of one pathlet that forwards to one port only, on a topology where no two records leave the
same port, it follows that traffic comes nearer to the port with every hop, so it comes to no node twice.

The induction is on a shortest walk, in step with the entries along its links: what is left of a shortest
walk after an entry is a shortest walk, and the peer of the entry's link is a port of the node it leads to.
-/
import ControlPlane.Proofs.Flow.Redundancy
import ControlPlane.Proofs.Path.Compile

namespace ControlPlane

/-! ## Distances -/

namespace Graph

/-- The shortest routes from the first node to the second one have `n` links. -/
def RouteLength (g : Graph) (u v : Uid) (n : Nat) : Prop :=
  ∃ r, g.shortestRoutes u v = .ok (some r) ∧ r.length = n

theorem routeLength_iff {g : Graph} {u v : Uid} {n : Nat} : g.RouteLength u v n ↔ g.AtDistance u v n := by
  constructor
  · rintro ⟨r, hr, rfl⟩; exact atDistance_of_shortestRoutes hr
  · exact shortestRoutes_of_atDistance

/-- The second node is strictly nearer to the node of the port than the first one. -/
def Approaches (g : Graph) (port u v : Uid) : Prop :=
  ∃ target n m, port.nodeOfPort = .ok target ∧ g.RouteLength u target n ∧ g.RouteLength v target m ∧ m < n

theorem Approaches.ne {g : Graph} {port u v : Uid} (h : g.Approaches port u v) : u ≠ v := by
  rintro rfl
  obtain ⟨target, n, m, -, hn, hm, hlt⟩ := h
  have := (routeLength_iff.1 hn).unique (routeLength_iff.1 hm)
  omega

theorem Approaches.trans {g : Graph} {port u v w : Uid} (h : g.Approaches port u v) (h' : g.Approaches port v w) :
    g.Approaches port u w := by
  obtain ⟨target, n, m, ht, hn, hm, hlt⟩ := h
  obtain ⟨target', n', m', ht', hn', hm', hlt'⟩ := h'
  obtain rfl : target = target' := Except.ok.inj (ht.symm.trans ht')
  have hmid : m = n' := (routeLength_iff.1 hm).unique (routeLength_iff.1 hn')
  exact ⟨target, n, m', ht, hn, hm', by omega⟩

end Graph

/-! ## Entries that belong to a pathlet -/

/-- The entry does the actions of the pathlet on the node of an out-port. -/
def FlowEntry.IsTerminal (f : FlowEntry) (g : Graph) (p : Pathlet) : Prop :=
  ∃ q, p.IsOutport g q ∧ q.nodeOfPort = .ok f.node ∧ f.actions = p.actions

/-- The entry forwards on a link that is recorded at its node and leads to a node exactly one hop nearer
to the node of an out-port, and does the other actions of the pathlet before. -/
def FlowEntry.IsTransit (f : FlowEntry) (g : Graph) (p : Pathlet) : Prop :=
  ∃ v, ∃ l ∈ g.linksBetween f.node v, l.origin.nodeOfPort = .ok f.node ∧
    (∀ t ∈ l.targets, t.nodeOfPort = .ok v) ∧ f.actions = p.transitActions ++ [.forward [l.origin]] ∧
    ∃ q target n, p.IsOutport g q ∧ q.nodeOfPort = .ok target ∧
      g.RouteLength f.node target (n + 1) ∧ g.RouteLength v target n

/-- The entry is one of the pathlet on the topology. -/
structure Justified (g : Graph) (p : Pathlet) (f : FlowEntry) : Prop where
  /-- There is at most one in-port. -/
  inPorts : (f.pattern.fields.filter fun x => x.kind == .inPort).length ≤ 1
  onNode : ∀ port, .inPort port ∈ f.pattern.fields → port.nodeOfPort = .ok f.node
  /-- The other fields are those of the pathlet, in their order. -/
  others : f.pattern.withoutInPort = p.pattern.withoutInPort
  role : f.IsTerminal g p ∨ f.IsTransit g p

namespace Compiler

variable {c : Compiler} {priority : UInt16} {p : Pathlet}

theorem justified_entry {node : Uid} {inPort : Option Uid} {actions : List Action}
    (hin : ∀ port, inPort = some port → port.nodeOfPort = .ok node)
    (hrole : (c.entry priority node (p.patternAt inPort) actions).IsTerminal c.graph p ∨
      (c.entry priority node (p.patternAt inPort) actions).IsTransit c.graph p) :
    Justified c.graph p (c.entry priority node (p.patternAt inPort) actions) := by
  refine ⟨?_, fun port hport => ?_, Pathlet.withoutInPort_patternAt, hrole⟩
  · show ((p.patternAt inPort).fields.filter _).length ≤ 1
    rw [Pathlet.filter_inPort_patternAt, List.length_map]
    cases inPort <;> simp
  · have hmem : Field.inPort port ∈ (p.patternAt inPort).fields.filter fun f => f.kind == .inPort :=
      List.mem_filter.2 ⟨hport, rfl⟩
    rw [Pathlet.filter_inPort_patternAt] at hmem
    apply hin
    cases inPort with
    | none => cases hmem
    | some port' => cases List.mem_singleton.1 hmem; rfl

/-- The entries along a shortest walk to the node of an out-port are those of the pathlet. -/
theorem justified_of_routeFlows (hg : c.graph.WellFormed) {q target : Uid} (hq : p.IsOutport c.graph q)
    (htarget : q.nodeOfPort = .ok target) : ∀ {w : List Entry} {u : Uid} {inPort : Option Uid}
    {flows : List FlowEntry}, c.graph.IsShortestWalk u w target →
    (∀ port, inPort = some port → port.nodeOfPort = .ok u) →
    c.routeFlows priority p target inPort (w.map Entry.link) = .ok flows →
    ∀ f ∈ flows, f.priority = priority ∧ Justified c.graph p f
  | [], u, inPort, flows, hw, hin, h, f, hf => by
    cases h
    rw [List.mem_singleton] at hf
    subst hf
    obtain rfl : u = target := hw.1
    exact ⟨rfl, justified_entry hin (.inl ⟨q, hq, htarget, rfl⟩)⟩
  | e :: w, u, inPort, flows, hw, hin, h, f, hf => by
    obtain ⟨node, rest, hnode, hrest, rfl⟩ := routeFlows_cons h
    obtain ⟨ho, he, -⟩ := hw.1
    have hrec := hg.recordedBetween he
    rw [ho] at hrec
    obtain rfl : node = u := Except.ok.inj (hnode.symm.trans hrec.origin)
    -- behind the first entry, the walk is a shortest one from the node that the entry leads to
    have hw' : c.graph.IsShortestWalk e.target w target := by
      obtain ⟨m, hm, hw'⟩ := @Graph.IsShortestWalk.of_append _ _ _ [e] w hw
      obtain ⟨-, -, rfl⟩ := hm
      exact hw'
    rcases List.mem_cons.1 hf with rfl | hf
    · refine ⟨rfl, justified_entry hin (.inr ?_)⟩
      have hl : e.link ∈ c.graph.linksBetween node e.target := ho ▸ List.mem_of_getElem? he
      exact ⟨e.target, e.link, hl, hrec.origin, hrec.targets, rfl, q, target, w.length, hq, htarget,
        Graph.routeLength_iff.2 hw.atDistance, Graph.routeLength_iff.2 hw'.atDistance⟩
    · have hpeer : ∀ port, e.link.peer? = some port → port.nodeOfPort = .ok e.target :=
        fun port hport => hrec.targets port (List.mem_of_head? hport)
      exact justified_of_routeFlows hg hq htarget hw' hpeer hrest f hf

theorem justified_of_pathletFlows (hg : c.graph.WellFormed) {inherited : Option Uid} {flows : List FlowEntry}
    {qs : List Uid} (h : c.pathletFlows priority p inherited = .ok (flows, qs)) :
    ∀ f ∈ flows, f.priority = priority ∧ Justified c.graph p f := by
  intro f hf
  obtain ⟨-, inPort, -, -, -, hmem⟩ := pathletFlows_eq_ok h
  obtain ⟨source, q, hsource, hq, leg, hleg, hf⟩ := (hmem f).1 hf
  obtain ⟨target, r, htarget, hr, -, hlegmem⟩ := flowsTo_eq_ok hleg
  obtain ⟨route, hroute, part, hpart, hf⟩ := (hlegmem f).1 hf
  obtain ⟨w, hw, rfl⟩ := exists_walk_of_mem_routesTaken hr hroute
  refine justified_of_routeFlows hg hq htarget hw (fun port hport => ?_) hpart f hf
  rw [hport] at hsource
  exact hsource

/-- Every flow entry of a path is one of a pathlet, with the priority of the path. -/
theorem justified_of_compile (hg : c.graph.WellFormed) {path : Path} {flows : List FlowEntry}
    (h : c.compile path = .ok flows) :
    ∀ f ∈ flows, f.priority = path.priority ∧ ∃ p ∈ path.pathlets, Justified c.graph p f := by
  intro f hf
  obtain ⟨s, hS, rfl⟩ := compile_eq_ok hg h
  obtain ⟨p, before, hsuf, inherited, -, part, qs, hpart, hf⟩ :=
    hS.origin f ((FlowEntry.essential_sublist _).subset hf)
  obtain ⟨hpriority, hp⟩ := justified_of_pathletFlows hg hpart f hf
  exact ⟨hpriority, p, List.mem_reverse.1 (hsuf.subset List.mem_cons_self), hp⟩

/-! ## Hops -/

def ofFirst : Compiler := ⟨Graph.parallel, { selection := .first }⟩

/-- From port 9 of `a` to port 9 of `c`. -/
def across : Path := { priority := 3, pathlets := [⟨⟨[.inPort ⟨"a$$9"⟩]⟩, [], [.forward [⟨"c$$9"⟩]]⟩] }

def acrossFlows : List FlowEntry :=
  [ofFirst.entry 3 ⟨"a"⟩ ⟨[.inPort ⟨"a$$9"⟩]⟩ [.forward [⟨"a$$1"⟩]],
    ofFirst.entry 3 ⟨"b"⟩ ⟨[.inPort ⟨"b$$1"⟩]⟩ [.forward [⟨"b$$3"⟩]],
    ofFirst.entry 3 ⟨"c"⟩ ⟨[.inPort ⟨"c$$1"⟩]⟩ [.forward [⟨"c$$9"⟩]]]

theorem compile_across : ofFirst.compile across = .ok acrossFlows := by
  decide +kernel

theorem allLinks_parallel : Graph.parallel.allLinks =
    [.between ⟨"a$$1"⟩ ⟨"b$$1"⟩, .between ⟨"a$$2"⟩ ⟨"b$$2"⟩, .between ⟨"b$$3"⟩ ⟨"c$$1"⟩] := by
  decide +kernel

end Compiler

end ControlPlane
