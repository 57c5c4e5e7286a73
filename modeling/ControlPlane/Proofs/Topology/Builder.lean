/-
Connecting nodes. Every port that is handed out is new: its number is the next one of its node, and the UID of a
port tells the node and the number, whatever the name of the node (`portUid_inj`). So a connection never replaces a
link, and if both its ports are ports of different nodes, it records one link in each direction behind the others
(`connect_eq_ok`).

A name that is an ID and does not end in a dollar is the node of its ports. Connections between different names of
this kind succeed one after the other, and between two nodes there are then as many links as there are connections
of the two, in whichever order they are named (`ofConnections_eq_ok`).
-/
import ControlPlane.Topology.Builder
import ControlPlane.Proofs.Numeral
import ControlPlane.Proofs.Topology.Operations

namespace ControlPlane

/-! ## Links between two ports -/

namespace Graph

variable {g : Graph} {p q u v : Uid}

theorem acceptable_between (hp : p.nodeOfPort = .ok u) (hq : q.nodeOfPort = .ok v) (hne : u ≠ v) :
    (Link.between p q).Acceptable := by
  refine ⟨u, Uid.portOf_iff.2 hp, List.cons_ne_nil _ _, fun t ht => ?_⟩
  obtain rfl := List.mem_singleton.1 ht
  exact ⟨v, Uid.portOf_iff.2 hq, hne.symm⟩

theorem targetsOn_between (hq : q.nodeOfPort = .ok v) (m : Uid) :
    (Link.between p q).targetsOn m = if m = v then [q] else [] := by
  have hon : q.onNode m = true ↔ m = v := by rw [Uid.onNode_iff, hq, Except.ok.injEq, eq_comm]
  simp only [Link.targetsOn, Link.between, List.filter_cons, List.filter_nil, hon]

/-- No recorded link leaves the port. -/
def Free (g : Graph) (p : Uid) : Prop := ∀ s t, ∀ l ∈ g.linksBetween s t, l.origin ≠ p

/-- A link between ports of different nodes whose origin starts no other link is recorded behind the others. -/
theorem addLink_between (hp : p.nodeOfPort = .ok u) (hq : q.nodeOfPort = .ok v) (hne : u ≠ v) (hfree : g.Free p) :
    ∃ g', g.addLink (.between p q) = (.ok (), g') ∧
      ∀ s t, g'.linksBetween s t = g.linksBetween s t ++ if s = u ∧ t = v then [.between p q] else [] := by
  obtain ⟨g', hg'⟩ := exists_addLink_eq_ok_iff (g := g).2 (acceptable_between hp hq hne)
  refine ⟨g', hg', fun s t => ?_⟩
  have hothers : otherLinks (.between p q) (g.linksBetween s t) = g.linksBetween s t := by
    refine List.filter_eq_self.2 fun l hl => ?_
    have : l.origin ≠ (Link.between p q).origin := hfree s t l hl
    simp [Link.sameIdentity, this]
  rw [linksBetween_of_addLink hg' hp, hothers, narrowed, targetsOn_between hq]
  by_cases hs : s = u <;> by_cases ht : t = v <;> simp [hs, ht, Link.between]

theorem eq_of_mem_ite {c : Prop} [Decidable c] {l l' : Link} (h : l ∈ if c then [l'] else []) : l = l' := by
  split at h
  · exact List.mem_singleton.1 h
  · cases h

/-- One link in each direction between two ports that start no other link. -/
theorem addLink_both (hp : p.nodeOfPort = .ok u) (hq : q.nodeOfPort = .ok v) (hne : u ≠ v) (hfree : g.Free p)
    (hfree' : g.Free q) : ∃ g₁ g₂, g.addLink (.between p q) = (.ok (), g₁) ∧
      g₁.addLink (.between q p) = (.ok (), g₂) ∧ ∀ s t, g₂.linksBetween s t = g.linksBetween s t ++
        (if s = u ∧ t = v then [.between p q] else []) ++ if s = v ∧ t = u then [.between q p] else [] := by
  obtain ⟨g₁, hadd₁, hlinks₁⟩ := addLink_between hp hq hne hfree
  have hpq : p ≠ q := by
    rintro rfl
    exact hne (Except.ok.inj (hp.symm.trans hq))
  -- the first link leaves `p`, so it does not hinder the second, which leaves `q`
  have hfree₁ : g₁.Free q := by
    intro s t l hl
    rw [hlinks₁, List.mem_append] at hl
    rcases hl with hl | hl
    · exact hfree' s t l hl
    · rw [eq_of_mem_ite hl]
      exact hpq
  obtain ⟨g₂, hadd₂, hlinks₂⟩ := addLink_between hq hp hne.symm hfree₁
  refine ⟨g₁, g₂, hadd₁, hadd₂, fun s t => ?_⟩
  rw [hlinks₂, hlinks₁]

end Graph

namespace Builder

variable {b : Builder} {node other : String} {p q u v : Uid}

/-! ## Ports are new -/

/-- The number of the next port of a node. -/
def next (b : Builder) (node : String) : Nat := (b.nextPort.get? node).getD 1

/-- A port of a node by its number. -/
def portUid (node : String) (number : Nat) : Uid := .join [node, Numeral.decimal number]

theorem toList_portUid (node : String) (number : Nat) :
    (portUid node number).text.toList = (node.toList ++ ['$']) ++ '$' :: (Numeral.decimal number).toList := by
  simp [portUid, Uid.toList_join, List.intercalate]

/-- The UID of a port tells its node and its number, also if the name of the node holds dollars. -/
theorem portUid_inj {i j : Nat} : portUid node i = portUid other j ↔ node = other ∧ i = j := by
  refine ⟨fun h => ?_, ?_⟩
  · have htext := congrArg (·.text.toList) h
    simp only [toList_portUid] at htext
    obtain ⟨hnode, hnumber⟩ := append_cons_inj_of_notMem_right (Numeral.dollar_notMem_decimal i)
      (Numeral.dollar_notMem_decimal j) htext
    exact ⟨String.toList_inj.1 (List.append_cancel_right hnode),
      Numeral.decimal_injective (String.toList_inj.1 hnumber)⟩
  · rintro ⟨rfl, rfl⟩; rfl

/-- The port was handed out. -/
def Used (b : Builder) (p : Uid) : Prop := ∃ node i, p = portUid node i ∧ i < b.next node

theorem port_fst (b : Builder) (node : String) : (b.port node).1 = portUid node (b.next node) := rfl

theorem next_port (b : Builder) (node other : String) :
    (b.port node).2.next other = if other = node then b.next node + 1 else b.next other := by
  simp only [next, port, SortedMap.get?_insert]
  split <;> rfl

theorem not_used_port (b : Builder) (node : String) : ¬ b.Used (b.port node).1 := by
  rintro ⟨n, i, h, hi⟩
  obtain ⟨rfl, rfl⟩ := portUid_inj.1 h
  exact Nat.lt_irrefl _ hi

theorem used_port_iff : (b.port node).2.Used p ↔ p = (b.port node).1 ∨ b.Used p := by
  constructor
  · rintro ⟨n, i, rfl, hi⟩
    rw [next_port] at hi
    split at hi
    · next hn =>
      subst hn
      rcases Nat.lt_succ_iff_lt_or_eq.1 hi with hi | rfl
      · exact .inr ⟨n, i, rfl, hi⟩
      · exact .inl rfl
    · exact .inr ⟨n, i, rfl, hi⟩
  · rintro (rfl | ⟨n, i, rfl, hi⟩)
    · exact ⟨node, b.next node, rfl, by simp [next_port]⟩
    · refine ⟨n, i, rfl, ?_⟩
      rw [next_port]
      split
      · next hn => subst hn; omega
      · exact hi

/-! ## Connections -/

/-- The invariant of a topology under construction. -/
structure Built (b : Builder) : Prop where
  reachable : b.graph.Reachable
  /-- Every link leaves a port that was handed out. -/
  origins : ∀ u v, ∀ l ∈ b.graph.linksBetween u v, b.Used l.origin

theorem built_empty : Built .empty := by
  refine ⟨.empty, fun u v l hl => ?_⟩
  rw [show Builder.empty.graph = .empty from rfl, Graph.linksBetween_of_get?_none rfl] at hl
  cases hl

theorem Built.free (hb : b.Built) (hp : ¬ b.Used p) : b.graph.Free p := by
  rintro s t l hl rfl
  exact hp (hb.origins s t l hl)

/-- A connection between ports of different nodes records one link in each direction. -/
theorem connect_eq_ok (hb : b.Built) (hp : (b.port node).1 = p) (hq : ((b.port node).2.port other).1 = q)
    (hu : p.nodeOfPort = .ok u) (hv : q.nodeOfPort = .ok v) (hne : u ≠ v) :
    ∃ b', b.connect node other = (.ok (), b') ∧ b'.Built ∧ ∀ s t, b'.graph.linksBetween s t =
      b.graph.linksBetween s t ++ (if s = u ∧ t = v then [.between p q] else []) ++
        if s = v ∧ t = u then [.between q p] else [] := by
  have hnp : ¬ b.Used p := hp ▸ not_used_port b node
  have hnq : ¬ b.Used q := fun h => not_used_port (b.port node).2 other (hq ▸ used_port_iff.2 (.inr h))
  have hused {r : Uid} (h : r = q ∨ r = p ∨ b.Used r) : ((b.port node).2.port other).2.Used r := by
    rw [used_port_iff, used_port_iff, hp, hq]
    exact h
  obtain ⟨g₁, g₂, hadd₁, hadd₂, hlinks⟩ := Graph.addLink_both hu hv hne (hb.free hnp) (hb.free hnq)
  refine ⟨{ ((b.port node).2.port other).2 with graph := g₂ }, ?_, ⟨?_, fun s t l hl => ?_⟩, hlinks⟩
  · have hgraph : ((b.port node).2.port other).2.graph = b.graph := rfl
    unfold connect
    dsimp only
    rw [hgraph, hp, hq, hadd₁]
    dsimp only
    rw [hadd₂]
  · have hg₁ := hb.reachable.add (.between p q)
    rw [hadd₁] at hg₁
    have hg₂ := hg₁.add (.between q p)
    rwa [hadd₂] at hg₂
  · simp only [hlinks, List.mem_append] at hl
    rcases hl with (hl | hl) | hl
    · exact hused (.inr (.inr (hb.origins s t l hl)))
    · exact hused (.inr (.inl (by rw [Graph.eq_of_mem_ite hl, Link.between])))
    · exact hused (.inl (by rw [Graph.eq_of_mem_ite hl, Link.between]))

/-! ## Connections by name -/

/-- The text is the ID of the node of its ports. -/
structure IsName (node : String) : Prop where
  isId : Uid.IsId node
  not_endsInDollar : ¬ Uid.EndsInDollar node

theorem isId_decimal (n : Nat) : Uid.IsId (Numeral.decimal n) := by
  refine ⟨fun h => ?_, Uid.not_delimited_of_not_mem (Numeral.dollar_notMem_decimal n)⟩
  have htext := congrArg String.toList h
  rw [Numeral.toList_decimal] at htext
  exact Nat.toDigits_ne_nil htext

theorem IsName.nodeOfPort (h : IsName node) (i : Nat) : (portUid node i).nodeOfPort = .ok ⟨node⟩ :=
  (Uid.nodeOfPort_join_iff h.isId (isId_decimal i)).2 h.not_endsInDollar

/-- The pairs are connections that can be made: between different names of nodes. -/
def Connectable (pairs : List (String × String)) : Prop :=
  ∀ pair ∈ pairs, IsName pair.1 ∧ IsName pair.2 ∧ pair.1 ≠ pair.2

theorem connectAll_eq_ok {pairs : List (String × String)} (hpairs : Connectable pairs) (hb : b.Built) :
    ∃ b', b.connectAll pairs = .ok b' ∧ b'.Built ∧ ∀ s t, (b'.graph.linksBetween s t).length =
      (b.graph.linksBetween s t).length + pairs.count (s.text, t.text) + pairs.count (t.text, s.text) := by
  induction pairs generalizing b with
  | nil => exact ⟨b, rfl, hb, fun s t => rfl⟩
  | cons pair pairs ih =>
    obtain ⟨node, other⟩ := pair
    obtain ⟨⟨hnode, hother, hne⟩, hpairs⟩ := List.forall_mem_cons.1 hpairs
    obtain ⟨b₁, hconnect, hb₁, hlinks₁⟩ := connect_eq_ok hb (port_fst b node) (port_fst _ other) (hnode.nodeOfPort _)
      (hother.nodeOfPort _) fun h => hne (Uid.mk.inj h)
    obtain ⟨b', hb', hbuilt, hlinks⟩ := ih hpairs hb₁
    refine ⟨b', by rw [connectAll, hconnect]; exact hb', hbuilt, fun s t => ?_⟩
    obtain ⟨s⟩ := s
    obtain ⟨t⟩ := t
    rw [hlinks, hlinks₁]
    simp only [List.length_append, List.count_cons, Uid.mk.injEq, beq_iff_eq, Prod.mk.injEq, apply_ite List.length,
      List.length_singleton, List.length_nil, eq_comm (a := node), eq_comm (a := other)]
    simp only [and_comm (a := t = node)]
    omega

end Builder

/-- The topology of connections between different names: between two nodes stands one link for each connection of the
two. -/
theorem Graph.ofConnections_eq_ok {pairs : List (String × String)} (h : Builder.Connectable pairs) :
    ∃ g, Graph.ofConnections pairs = .ok g ∧ g.Reachable ∧ ∀ s t, (g.linksBetween s t).length =
      pairs.count (s.text, t.text) + pairs.count (t.text, s.text) := by
  obtain ⟨b, hb, hbuilt, hlinks⟩ := Builder.connectAll_eq_ok h Builder.built_empty
  refine ⟨b.graph, by rw [ofConnections, hb]; rfl, hbuilt.reachable, fun s t => ?_⟩
  rw [hlinks, show Builder.empty.graph = .empty from rfl, linksBetween_of_get?_none rfl, List.length_nil, Nat.zero_add]

end ControlPlane
