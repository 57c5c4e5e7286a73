/-
A builder that is asked for ports and connections, in any order and by any names. What it has built are the links of
the connections that were made, two for each, between ports of which none serves twice (`Sound`). A connection that is
refused has changed nothing but the numbers of the next ports; one that is made could not have been cut short, because
the link back is accepted where the link there was (`connect_cases`).

So the topology can be taken backwards link by link (`Sound.symmetric`), and the routes between two nodes are the same
in both directions (`built_symmetric`).
-/
import ControlPlane.Proofs.Topology.Builder
import ControlPlane.Proofs.Topology.Reversal

namespace ControlPlane

namespace Graph

variable {g g' : Graph} {p q u v : Uid}

/-- A link between two ports is recorded only if they are ports of different nodes. -/
theorem nodes_of_addLink (h : g.addLink (.between p q) = (.ok (), g')) :
    ∃ u v, p.nodeOfPort = .ok u ∧ q.nodeOfPort = .ok v ∧ u ≠ v := by
  obtain ⟨u, hu, -, htargets⟩ := exists_addLink_eq_ok_iff.1 ⟨g', h⟩
  obtain ⟨v, hv, hne⟩ := htargets q List.mem_cons_self
  exact ⟨u, v, Uid.portOf_iff.1 hu, Uid.portOf_iff.1 hv, hne.symm⟩

end Graph

/-- What is asked of a builder. -/
inductive Builder.Request where
  | port (node : String)
  | connect (node other : String)

/-- A builder, and what it has handed out and built so far. -/
structure Construction where
  builder : Builder
  /-- The ports that were handed out, also for connections that were refused. -/
  ports : List Uid
  /-- The two ports of every connection that was made. -/
  connections : List (Uid × Uid)

namespace Construction

def start : Construction := ⟨.empty, [], []⟩

def perform (c : Construction) : Builder.Request → Construction
  | .port node => ⟨(c.builder.port node).2, c.ports ++ [(c.builder.port node).1], c.connections⟩
  | .connect node other =>
    let p := (c.builder.port node).1
    let q := ((c.builder.port node).2.port other).1
    match c.builder.connect node other with
    | (.error _, b) => ⟨b, c.ports ++ [p, q], c.connections⟩
    | (.ok (), b) => ⟨b, c.ports ++ [p, q], c.connections ++ [(p, q)]⟩

/-- What comes of requests to a new builder. -/
def construct (requests : List Builder.Request) : Construction := requests.foldl perform start

/-- The links of a connection. -/
def bothWays (ends : Uid × Uid) : List Link := [.between ends.1 ends.2, .between ends.2 ends.1]

end Construction

namespace Builder

variable {b b' : Builder} {p q : Uid} {ports : List Uid}

/-! ## Ports that were handed out -/

/-- The ports were handed out, and none of them twice. -/
structure Issued (b : Builder) (ports : List Uid) : Prop where
  used : ∀ p ∈ ports, b.Used p
  nodup : ports.Nodup

theorem Issued.port (h : b.Issued ports) (node : String) : (b.port node).2.Issued (ports ++ [(b.port node).1]) := by
  refine ⟨fun p hp => used_port_iff.2 ?_, List.nodup_append'.2 ⟨h.nodup, List.nodup_singleton _, ?_⟩⟩
  · exact (List.mem_append.1 hp).symm.imp List.mem_singleton.1 (h.used p)
  · rw [List.disjoint_singleton]
    exact fun hp => not_used_port b node (h.used _ hp)

theorem Issued.congr (hnext : b'.nextPort = b.nextPort) (h : b.Issued ports) : b'.Issued ports := by
  refine ⟨fun p hp => ?_, h.nodup⟩
  have hused := h.used p hp
  unfold Used next at hused ⊢
  rwa [hnext]

theorem nextPort_connect (b : Builder) (node other : String) :
    (b.connect node other).2.nextPort = ((b.port node).2.port other).2.nextPort := by
  unfold connect
  dsimp only
  split <;> rfl

/-- A connection uses up two ports, whether it is made or not. -/
theorem Issued.connect (h : b.Issued ports) (node other : String) : (b.connect node other).2.Issued
    (ports ++ [(b.port node).1, ((b.port node).2.port other).1]) := by
  refine Issued.congr (nextPort_connect b node other) ?_
  have hports := (h.port node).port other
  rwa [List.append_assoc] at hports

/-- Handing out a port builds nothing. -/
theorem Built.port (hb : b.Built) (node : String) : (b.port node).2.Built :=
  ⟨hb.reachable, fun u v l hl => used_port_iff.2 (.inr (hb.origins u v l hl))⟩

/-! ## One connection -/

theorem mem_allLinks_of_linksBetween {u v : Uid} (hlinks : ∀ s t, b'.graph.linksBetween s t =
      b.graph.linksBetween s t ++ (if s = u ∧ t = v then [.between p q] else []) ++
        if s = v ∧ t = u then [.between q p] else []) (l : Link) :
    l ∈ b'.graph.allLinks ↔ l ∈ b.graph.allLinks ∨ l ∈ Construction.bothWays (p, q) := by
  simp only [Graph.mem_allLinks, Construction.bothWays, List.mem_cons, List.not_mem_nil, or_false, hlinks,
    List.mem_append]
  constructor
  · rintro ⟨s, t, (hl | hl) | hl⟩
    · exact .inl ⟨s, t, hl⟩
    · exact .inr (.inl (Graph.eq_of_mem_ite hl))
    · exact .inr (.inr (Graph.eq_of_mem_ite hl))
  · rintro (⟨s, t, hl⟩ | rfl | rfl)
    · exact ⟨s, t, .inl (.inl hl)⟩
    · exact ⟨u, v, .inl (.inr (by simp))⟩
    · exact ⟨v, u, .inr (by simp)⟩

/-- The links between two ports that were not handed out before are new. -/
theorem Built.nodup_append_bothWays (hb : b.Built) (hp : ¬ b.Used p) (hq : ¬ b.Used q) (hpq : p ≠ q) :
    (b.graph.allLinks ++ Construction.bothWays (p, q)).Nodup := by
  have hfree : ∀ l ∈ b.graph.allLinks, l.origin ≠ p ∧ l.origin ≠ q := by
    intro l hl
    obtain ⟨s, t, hl⟩ := Graph.mem_allLinks.1 hl
    exact ⟨hb.free hp s t l hl, hb.free hq s t l hl⟩
  refine List.nodup_append'.2 ⟨hb.reachable.wellFormed.nodup_allLinks, ?_, List.disjoint_left.2 fun l hl hnew => ?_⟩
  · simp [Construction.bothWays, Link.between, hpq]
  · simp only [Construction.bothWays, List.mem_cons, List.not_mem_nil, or_false] at hnew
    rcases hnew with rfl | rfl
    · exact (hfree _ hl).1 rfl
    · exact (hfree _ hl).2 rfl

/-- A connection is refused, and nothing is built, or it is made in both directions. -/
theorem connect_cases (hb : b.Built) (node other : String) (hp : (b.port node).1 = p)
    (hq : ((b.port node).2.port other).1 = q) :
    (∃ e, b.connect node other = (.error e, ((b.port node).2.port other).2)) ∨
    ∃ b', b.connect node other = (.ok (), b') ∧ b'.Built ∧
      b'.graph.allLinks.Perm (b.graph.allLinks ++ Construction.bothWays (p, q)) := by
  rcases hadd : b.graph.addLink (.between p q) with ⟨e | _, g'⟩
  · have hgraph : ((b.port node).2.port other).2.graph = b.graph := rfl
    obtain rfl := Graph.addLink_eq_error hadd
    refine .inl ⟨e, ?_⟩
    unfold connect
    dsimp only
    rw [hgraph, hp, hq, hadd]
    rfl
  · obtain ⟨u, v, hu, hv, hne⟩ := Graph.nodes_of_addLink hadd
    obtain ⟨b', hconnect, hb', hlinks⟩ := connect_eq_ok hb hp hq hu hv hne
    have hpq : p ≠ q := by
      rintro rfl
      exact hne (Except.ok.inj (hu.symm.trans hv))
    have hnp : ¬ b.Used p := hp ▸ not_used_port b node
    have hnq : ¬ b.Used q := fun h => not_used_port (b.port node).2 other (hq ▸ used_port_iff.2 (.inr h))
    refine .inr ⟨b', hconnect, hb', ?_⟩
    refine (List.perm_ext_iff_of_nodup hb'.reachable.wellFormed.nodup_allLinks
      (hb.nodup_append_bothWays hnp hnq hpq)).2 fun l => ?_
    rw [mem_allLinks_of_linksBetween hlinks, List.mem_append]

end Builder

namespace Construction

variable {c : Construction}

/-! ## Any number of requests -/

/-- The ports of a connection. -/
def bothEnds (ends : Uid × Uid) : List Uid := [ends.1, ends.2]

/-- What has been built are the links of the connections, between ports that were handed out once. -/
structure Sound (c : Construction) : Prop where
  built : c.builder.Built
  issued : c.builder.Issued c.ports
  ends : (c.connections.flatMap bothEnds).Sublist c.ports
  links : c.builder.graph.allLinks.Perm (c.connections.flatMap bothWays)

theorem sound_start : start.Sound :=
  ⟨Builder.built_empty, ⟨by simp [start], List.nodup_nil⟩, List.Sublist.refl _, List.Perm.refl _⟩

theorem Sound.perform (h : c.Sound) (request : Builder.Request) : (c.perform request).Sound := by
  cases request with
  | port node =>
    exact ⟨h.built.port node, h.issued.port node, h.ends.trans (List.sublist_append_left _ _), h.links⟩
  | connect node other =>
    have hissued := h.issued.connect node other
    unfold Construction.perform
    dsimp only
    rcases Builder.connect_cases h.built node other rfl rfl with ⟨e, he⟩ | ⟨b', hb', hbuilt, hlinks⟩
    · rw [he] at hissued ⊢
      exact ⟨(h.built.port node).port other, hissued, h.ends.trans (List.sublist_append_left _ _), h.links⟩
    · rw [hb'] at hissued ⊢
      refine ⟨hbuilt, hissued, ?_, ?_⟩
      · rw [List.flatMap_append]
        exact h.ends.append (List.Sublist.refl _)
      · rw [List.flatMap_append]
        exact hlinks.trans (h.links.append_right _)

theorem Sound.foldl_perform (requests : List Builder.Request) (h : c.Sound) :
    (requests.foldl Construction.perform c).Sound := by
  induction requests generalizing c with
  | nil => exact h
  | cons request requests ih => exact ih (h.perform request)

theorem sound_construct (requests : List Builder.Request) : (construct requests).Sound :=
  sound_start.foldl_perform requests

/-! ## The topology can be taken backwards -/

theorem mem_bothWays {l : Link} {ends : Uid × Uid} :
    l ∈ bothWays ends ↔ l = .between ends.1 ends.2 ∨ l = .between ends.2 ends.1 := by
  simp [bothWays]

theorem reversed_mem_bothWays {l : Link} {ends : Uid × Uid} (h : l ∈ bothWays ends) :
    l.reversed ∈ bothWays ends := by
  rcases mem_bothWays.1 h with rfl | rfl
  · exact mem_bothWays.2 (.inr (Link.reversed_between _ _))
  · exact mem_bothWays.2 (.inl (Link.reversed_between _ _))

theorem Sound.mem_allLinks (h : c.Sound) {l : Link} :
    l ∈ c.builder.graph.allLinks ↔ ∃ ends ∈ c.connections, l ∈ bothWays ends := by
  rw [h.links.mem_iff, List.mem_flatMap]

/-- Every link leads to one port, and the link back is recorded too. -/
theorem Sound.single_and_reversed (h : c.Sound) {l : Link} (hl : l ∈ c.builder.graph.allLinks) :
    (∃ q, l.targets = [q]) ∧ l.reversed ∈ c.builder.graph.allLinks := by
  obtain ⟨ends, hends, hl⟩ := h.mem_allLinks.1 hl
  refine ⟨?_, h.mem_allLinks.2 ⟨ends, hends, reversed_mem_bothWays hl⟩⟩
  rcases mem_bothWays.1 hl with rfl | rfl <;> exact ⟨_, rfl⟩

theorem Sound.symmetric (h : c.Sound) : c.builder.graph.Symmetric := by
  have hwf := h.built.reachable.wellFormed
  refine ⟨fun u v l hl => (h.single_and_reversed (Graph.mem_allLinks.2 ⟨u, v, hl⟩)).1, fun u v l hl => ?_⟩
  obtain ⟨hmem, ho, t, ht, hv⟩ := hwf.mem_linksBetween.1 hl
  obtain ⟨⟨q, hq⟩, hback⟩ := h.single_and_reversed hmem
  obtain rfl : t = q := by simpa [hq] using ht
  refine hwf.mem_linksBetween.2 ⟨hback, ?_, l.origin, List.mem_singleton_self _, ho⟩
  simpa [Link.reversed, Link.peer?, hq] using hv

/-- No port starts two links. -/
theorem Sound.nodup_origins (h : c.Sound) : (c.builder.graph.allLinks.map Link.origin).Nodup := by
  have hperm := h.links.map Link.origin
  rw [List.map_flatMap] at hperm
  exact hperm.nodup_iff.2 (h.ends.nodup h.issued.nodup)

theorem Sound.numLinks_eq (h : c.Sound) : c.builder.graph.numLinks = 2 * c.connections.length := by
  rw [Graph.numLinks, h.links.length_eq, List.length_flatMap]
  simp [bothWays, Nat.mul_comm]

/-- Whatever ports and connections are asked for, and by whatever names: no port is handed out twice, a further
connection is refused without a change or adds one link in each direction, every link leads to one port and is
recorded in the other direction too, no port starts two links, there are two links for each connection that was
made, and the routes between two nodes are the same in both directions. -/
theorem built_symmetric (requests : List Builder.Request) :
    (construct requests).ports.Nodup ∧
    (∀ node other, (∃ e b, (construct requests).builder.connect node other = (.error e, b) ∧
        b.graph = (construct requests).builder.graph) ∨
      (∃ b, (construct requests).builder.connect node other = (.ok (), b) ∧
        b.graph.allLinks.Perm ((construct requests).builder.graph.allLinks ++
          bothWays (((construct requests).builder.port node).1,
            (((construct requests).builder.port node).2.port other).1)))) ∧
    (∀ l ∈ (construct requests).builder.graph.allLinks,
      (∃ q, l.targets = [q]) ∧ l.reversed ∈ (construct requests).builder.graph.allLinks) ∧
    ((construct requests).builder.graph.allLinks.map Link.origin).Nodup ∧
    (construct requests).builder.graph.numLinks = 2 * (construct requests).connections.length ∧
    ∀ u v, ∃ found back, (construct requests).builder.graph.shortestRoutes u v = .ok found ∧
      (construct requests).builder.graph.shortestRoutes v u = .ok back ∧
      Option.Rel (fun r r' => r.length = r'.length ∧ (r.paths.map Graph.reversedRoute).Perm r'.paths) found back := by
  have h := sound_construct requests
  refine ⟨h.issued.nodup, fun node other => ?_, fun l hl => h.single_and_reversed hl, h.nodup_origins, h.numLinks_eq,
    h.symmetric.routes h.built.reachable.wellFormed⟩
  rcases Builder.connect_cases h.built node other rfl rfl with ⟨e, he⟩ | ⟨b', hb', -, hlinks⟩
  · exact .inl ⟨e, _, he, rfl⟩
  · exact .inr ⟨b', hb', hlinks⟩

-- the ports of `a$` are ports of `a`, so the second connection is refused; the ports of an empty name are malformed
example : (construct [.connect "a$" "b", .connect "a$" "a", .connect "" "b", .connect "a" "b"]).connections =
    [(⟨"a$$$1"⟩, ⟨"b$$1"⟩), (⟨"a$$2"⟩, ⟨"b$$3"⟩)] := by decide +kernel

end Construction

end ControlPlane
