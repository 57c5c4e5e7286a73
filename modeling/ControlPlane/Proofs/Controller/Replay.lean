/-
A topology that is announced to a fresh controller, record by record and in the order of the listing. Every record is
a link that the controller accepts. But a link takes the place of the records of its identity, so what the controller
knows are the last records of the identities (`linksBetween_withLinks`): of a link that was recorded for several
nodes, only the record for the last of them. The topology comes out as it was exactly if no identity is recorded twice
(`replay_reproduces_iff`).

The proof is in the order of the records. The last ones after one more announcement are the last ones before, less
those of its identity, and itself behind them, which is what an announcement does to the links between two nodes. And
the listing of a well-formed topology holds the links between any two nodes in their order.
-/
import ControlPlane.Proofs.Controller.Restoration
import ControlPlane.Proofs.Topology.Alike
import ControlPlane.Proofs.Topology.Removal

namespace ControlPlane

theorem Link.sameIdentity_comm (a b : Link) : a.sameIdentity b = b.sameIdentity a := by
  rw [Bool.eq_iff_iff, sameIdentity_iff, sameIdentity_iff, eq_comm]

/-- The link leaves a port of the first node and leads to a port of the second. -/
def Link.connects (l : Link) (u v : Uid) : Bool := l.origin.onNode u && l.targets.any (·.onNode v)

namespace Graph

variable {g g' : Graph} {link l : Link} {links : List Link} {u v s t : Uid}

/-! ## The last record of every identity -/

/-- The links without those that are followed by one of the same identity. -/
def latest : List Link → List Link
  | [] => []
  | l :: links => if links.any (·.sameIdentity l) then latest links else l :: latest links

theorem latest_sublist : ∀ links : List Link, (latest links).Sublist links
  | [] => .slnil
  | l :: links => by
    unfold latest
    split
    · exact (latest_sublist links).cons l
    · exact (latest_sublist links).cons_cons l

/-- A link takes the place of those of its identity. -/
theorem latest_append_singleton (links : List Link) (link : Link) :
    latest (links ++ [link]) = otherLinks link (latest links) ++ [link] := by
  induction links with
  | nil => rfl
  | cons l links ih =>
    have hany : (links ++ [link]).any (·.sameIdentity l) = (links.any (·.sameIdentity l) || l.sameIdentity link) := by
      simp [Link.sameIdentity_comm l link]
    rw [List.cons_append, latest, latest, hany, ih]
    by_cases hlinks : links.any (·.sameIdentity l) = true
    · simp [hlinks]
    · by_cases hlink : l.sameIdentity link = true <;> simp [hlinks, hlink, otherLinks]

theorem latest_eq_self_iff : latest links = links ↔ (links.map Link.identity).Nodup := by
  induction links with
  | nil => simp [latest]
  | cons l links ih =>
    have hany : links.any (·.sameIdentity l) = true ↔ l.identity ∈ links.map Link.identity := by
      simp only [List.any_eq_true, Link.sameIdentity_iff, List.mem_map]
    rw [List.map_cons, List.nodup_cons, ← hany, ← ih, latest]
    split
    · next h =>
      have hlength := (latest_sublist links).length_le
      refine ⟨fun heq => ?_, fun hnot => absurd h hnot.1⟩
      rw [heq, List.length_cons] at hlength
      omega
    · next h => simp [h]

/-! ## The listing holds the links between two nodes in their order -/

theorem RecordedBetween.connects_iff (h : RecordedBetween s t l) : l.connects u v = true ↔ u = s ∧ v = t := by
  simp only [Link.connects, Bool.and_eq_true, List.any_eq_true, Uid.onNode_iff]
  constructor
  · rintro ⟨hu, p, hp, hv⟩
    exact ⟨Except.ok.inj (hu.symm.trans h.origin), Except.ok.inj (hv.symm.trans (h.targets p hp))⟩
  · rintro ⟨rfl, rfl⟩
    exact ⟨h.origin, h.exists_target⟩

theorem WellFormed.filter_links (hg : g.WellFormed) (n u v : Uid) :
    (g.links n).filter (·.connects u v) = if n = u then g.linksBetween u v else [] := by
  have hconnects : ∀ h ∈ g.neighbors n, h.2.connects u v = true ↔ n = u ∧ h.1 = v := fun h hh =>
    (hg.recorded n h.1 h.2 (mem_neighbors.1 hh)).connects_iff.trans (and_congr eq_comm eq_comm)
  rw [Graph.links, List.filter_map]
  split
  · next hn =>
    subst hn
    rw [← filterMap_neighbors, ← List.filterMap_eq_map, List.filterMap_filter]
    refine List.filterMap_congr fun h hh => ?_
    have := hconnects h hh
    by_cases hv : h.1 = v <;> simp_all
  · next hn =>
    rw [List.map_eq_nil_iff, List.filter_eq_nil_iff]
    exact fun h hh hc => hn ((hconnects h hh).1 hc).1

theorem WellFormed.filter_allLinks (hg : g.WellFormed) (u v : Uid) :
    g.allLinks.filter (·.connects u v) = g.linksBetween u v := by
  rw [allLinks_eq_flatMap_links, List.filter_flatMap]
  simp only [hg.filter_links]
  rw [flatMap_ite g.nodup_nodes]
  split
  · rfl
  · next hu => exact (List.eq_nil_iff_forall_not_mem.2 fun l hl => hu (mem_nodes_of_mem_linksBetween hl)).symm

/-! ## Announcing links one after the other -/

/-- The topology with links added one after the other, each of them accepted or not. -/
def withLinks (g : Graph) (links : List Link) : Graph := links.foldl (fun g l => (g.addLink l).2) g

theorem RecordedBetween.acceptable (h : RecordedBetween s t l) : l.Acceptable :=
  ⟨s, Uid.portOf_iff.2 h.origin, h.targets_ne_nil, fun p hp => ⟨t, Uid.portOf_iff.2 (h.targets p hp), h.ne.symm⟩⟩

theorem WellFormed.exists_recordedBetween (hg : g.WellFormed) : ∀ l ∈ g.allLinks, ∃ s t, RecordedBetween s t l := by
  intro l hl
  obtain ⟨s, t, hst⟩ := mem_allLinks.1 hl
  exact ⟨s, t, hg.recorded s t l hst⟩

theorem WellFormed.acceptable_of_mem_allLinks (hg : g.WellFormed) : ∀ l ∈ g.allLinks, l.Acceptable := by
  intro l hl
  obtain ⟨s, t, hst⟩ := hg.exists_recordedBetween l hl
  exact hst.acceptable

/-- A record for one node is not narrowed any further. -/
theorem RecordedBetween.narrowed (h : RecordedBetween s t l) (v : Uid) :
    Graph.narrowed l v = if v = t then [l] else [] := by
  have hon : ∀ p ∈ l.targets, p.onNode v = true ↔ t = v := fun p hp => by
    rw [Uid.onNode_iff, h.targets p hp, Except.ok.injEq]
  unfold Graph.narrowed Link.targetsOn
  by_cases hv : v = t
  · rw [if_pos hv]
    have hall : l.targets.filter (·.onNode v) = l.targets :=
      List.filter_eq_self.2 fun p hp => (hon p hp).2 hv.symm
    rw [hall, if_neg h.targets_ne_nil]
  · rw [if_neg hv, if_pos]
    exact List.filter_eq_nil_iff.2 fun p hp hp' => hv ((hon p hp).1 hp').symm

/-- One more announcement, seen between two nodes. -/
theorem linksBetween_addLink (h : RecordedBetween s t link)
    (hlinks : ∀ l ∈ links, ∃ s t, RecordedBetween s t l)
    (hg : ∀ u v, g.linksBetween u v = links.filter (·.connects u v)) (u v : Uid) :
    (g.addLink link).2.linksBetween u v = (otherLinks link links ++ [link]).filter (·.connects u v) := by
  obtain ⟨g', hg'⟩ := exists_addLink_eq_ok_iff (g := g).2 h.acceptable
  have hlast : [link].filter (·.connects u v) = if u = s then narrowed link v else [] := by
    rw [h.narrowed]
    have := h.connects_iff (u := u) (v := v)
    by_cases hu : u = s <;> by_cases hv : v = t <;> simp_all
  have hcomm : (otherLinks link links).filter (·.connects u v) = otherLinks link (g.linksBetween u v) := by
    rw [hg, otherLinks, otherLinks, List.filter_filter, List.filter_filter]
    simp only [Bool.and_comm]
  rw [List.filter_append, hlast, hcomm, hg', linksBetween_of_addLink hg' h.origin]
  split
  · rfl
  · next hu =>
    -- the links that leave another node have another identity
    rw [List.append_nil, otherLinks_eq_self]
    intro l hl
    rw [hg, List.mem_filter] at hl
    obtain ⟨s', t', hl'⟩ := hlinks l hl.1
    obtain ⟨rfl, -⟩ := hl'.connects_iff.1 hl.2
    exact not_sameIdentity_of_node h.origin hl'.origin hu

/-- What is announced to the empty topology: the last record of every identity stays. -/
theorem linksBetween_withLinks (hlinks : ∀ l ∈ links, ∃ s t, RecordedBetween s t l) (u v : Uid) :
    (empty.withLinks links).linksBetween u v = (latest links).filter (·.connects u v) := by
  induction links using List.reverseRecOn generalizing u v with
  | nil => exact linksBetween_of_get?_none rfl v
  | append_singleton links link ih =>
    rw [List.forall_mem_append] at hlinks
    obtain ⟨s, t, hlink⟩ := hlinks.2 link (List.mem_singleton_self link)
    rw [withLinks, List.foldl_append, latest_append_singleton]
    exact linksBetween_addLink hlink (fun l hl => hlinks.1 l ((latest_sublist links).subset hl)) (ih hlinks.1) u v

theorem Reachable.withLinks (h : g.Reachable) (links : List Link) : (g.withLinks links).Reachable := by
  induction links generalizing g with
  | nil => exact h
  | cons l links ih => exact ih (h.add l)

/-! ## Equal topologies -/

theorem Reachable.name_adjacency (h : g.Reachable) : g.adjacency.name = dictName := by
  induction h with
  | empty => rfl
  | add link _ ih => rw [name_addLink, ih]
  | remove link _ ih => rw [name_removeLink, ih]

/-- In a well-formed topology, the links between two nodes say whether there is a group of them. -/
theorem WellFormed.get?_outgoing (hg : g.WellFormed) (u v : Uid) :
    (g.outgoing u).get? v = if g.linksBetween u v = [] then none else some (g.linksBetween u v) := by
  unfold linksBetween
  cases h : (g.outgoing u).get? v with
  | none => simp
  | some ls => simp [hg.outgoing_ne_nil h]

/-- Topologies that were built link by link are the same if they hold the same links, in the same order. -/
theorem Reachable.eq_of_linksBetween (hg : g.Reachable) (hg' : g'.Reachable)
    (h : ∀ u v, g.linksBetween u v = g'.linksBetween u v) : g = g' := by
  have houtgoing : ∀ u, g.outgoing u = g'.outgoing u := fun u => SortedMap.ext_get? fun v => by
    rw [hg.wellFormed.get?_outgoing, hg'.wellFormed.get?_outgoing, h]
  have hkeys : g.adjacency.keys = g'.adjacency.keys := SortedMap.keys_eq_of_mem_iff fun key => by
    have hkey : key ∈ g.adjacency.keys ↔ key ∈ g'.adjacency.keys := by
      rw [hg.wellFormed.mem_keys, hg'.wellFormed.mem_keys]
      simp only [h]
    exact hkey
  have hentries : g.adjacency.entries = g'.adjacency.entries := SortedMap.ext_get? fun key => by
    have hmem : key ∈ g.adjacency.entries.keys ↔ key ∈ g'.adjacency.entries.keys := by
      rw [show g.adjacency.entries.keys = g'.adjacency.entries.keys from hkeys]
    have hadj := houtgoing ⟨key⟩
    rw [SortedMap.mem_keys_iff, SortedMap.mem_keys_iff] at hmem
    unfold outgoing Dict.get? at hadj
    cases ha : g.adjacency.entries.get? key <;> cases ha' : g'.adjacency.entries.get? key <;> simp_all
  have hadjacency : g.adjacency = g'.adjacency := by
    have hname := hg.name_adjacency.trans hg'.name_adjacency.symm
    cases hA : g.adjacency
    cases hA' : g'.adjacency
    simp_all
  cases g
  cases g'
  exact congrArg Graph.mk hadjacency

end Graph

namespace Controller

/-! ## The controller -/

theorem handle_linkAdded (c : Controller) (now : Timestamp) {link : Link} (h : link.Acceptable) :
    c.handle now (.linkAdded link) = (.ok [], { c with graph := (c.graph.addLink link).2 }) := by
  have hok : (c.graph.addLink link).1 = .ok () := Graph.addLink_eq_ok_iff.2 h
  rcases hadd : c.graph.addLink link with ⟨result, graph⟩
  obtain rfl : result = .ok () := by rw [hadd] at hok; exact hok
  rw [handle, hadd]

/-- Links that can be accepted are handled one after the other. -/
theorem addLinks_eq_ok (now : Timestamp) {links : List Link} (h : ∀ l ∈ links, l.Acceptable) (c : Controller) :
    c.addLinks now links = .ok { c with graph := c.graph.withLinks links } := by
  induction links generalizing c with
  | nil => rfl
  | cons l links ih =>
    rw [List.forall_mem_cons] at h
    rw [addLinks, handle_linkAdded c now h.1]
    exact ih h.2 _

/-! ## Main result -/

/-- A topology that was built link by link, announced to a fresh controller in the order of its listing: every record
is accepted, and nothing but the topology of the controller changes. Between two nodes it then knows the records that
are the last ones of their identity, in their order. This is the topology that was announced exactly if no identity
is recorded twice; then all routes and flow entries are the same too. -/
theorem replay_reproduces_iff {g : Graph} (h : g.Reachable) (config : ControllerConfig) (now : Timestamp) :
    ∃ c, (new config).addLinks now g.allLinks = .ok c ∧ c = { new config with graph := c.graph } ∧
      (∀ u v, c.graph.linksBetween u v = (Graph.latest g.allLinks).filter (·.connects u v)) ∧
      (c.graph = g ↔ (g.allLinks.map Link.identity).Nodup) ∧
      ((g.allLinks.map Link.identity).Nodup →
        (∀ source target, c.graph.shortestRoutes source target = g.shortestRoutes source target) ∧
        ∀ path, c.compilePath path = (Compiler.mk g config.compiler).compile path) := by
  have hg := h.wellFormed
  have hlinks : ∀ u v, (Graph.empty.withLinks g.allLinks).linksBetween u v =
      (Graph.latest g.allLinks).filter (·.connects u v) := Graph.linksBetween_withLinks hg.exists_recordedBetween
  have hiff : Graph.empty.withLinks g.allLinks = g ↔ (g.allLinks.map Link.identity).Nodup := by
    rw [← Graph.latest_eq_self_iff]
    constructor
    · intro heq
      -- every record is still there, so none was followed by another one of its identity
      have hsub : g.allLinks ⊆ Graph.latest g.allLinks := fun l hl => by
        obtain ⟨u, v, huv⟩ := Graph.mem_allLinks.1 hl
        rw [← heq, hlinks] at huv
        exact (List.mem_filter.1 huv).1
      exact (Graph.latest_sublist _).eq_of_length_le (List.subperm_of_subset hg.nodup_allLinks hsub).length_le
    · intro heq
      refine (Graph.Reachable.empty.withLinks _).eq_of_linksBetween h fun u v => ?_
      rw [hlinks, heq, hg.filter_allLinks]
  refine ⟨_, addLinks_eq_ok now hg.acceptable_of_mem_allLinks (new config), rfl, hlinks, hiff, fun hnodup => ?_⟩
  have heq : (new config).graph.withLinks g.allLinks = g := hiff.2 hnodup
  rw [heq]
  exact ⟨fun _ _ => rfl, fun _ => rfl⟩

/-- Two parallel links and one that goes on from them come out as they were. -/
theorem replay_reproduces_iff_parallel : ∃ c,
    (new default).addLinks .epoch Graph.parallel.allLinks = .ok c ∧ c.graph = Graph.parallel := by
  obtain ⟨c, hc, -, -, hiff, -⟩ := replay_reproduces_iff Graph.reachable_parallel default .epoch
  exact ⟨c, hc, hiff.2 (by decide +kernel)⟩

/-- The link from `a` to `b` and `c` is recorded for each of them, and the second record takes the place of the first:
the controller knows no way from `a` to `b`. -/
theorem replay_loses_fork : (Graph.empty.addLink Graph.fork).2.Reachable ∧ ∃ c,
    (new default).addLinks .epoch (Graph.empty.addLink Graph.fork).2.allLinks = .ok c ∧
    (Graph.empty.addLink Graph.fork).2.shortestRoutes ⟨"a"⟩ ⟨"b"⟩ =
      .ok (some ⟨1, [[{ Graph.fork with targets := [⟨"b$$1"⟩] }]]⟩) ∧
    c.graph.shortestRoutes ⟨"a"⟩ ⟨"b"⟩ = .ok none ∧ c.graph ≠ (Graph.empty.addLink Graph.fork).2 := by
  have hreachable : (Graph.empty.addLink Graph.fork).2.Reachable := .add _ .empty
  have hbefore : (Graph.empty.addLink Graph.fork).2.shortestRoutes ⟨"a"⟩ ⟨"b"⟩ =
      .ok (some ⟨1, [[{ Graph.fork with targets := [⟨"b$$1"⟩] }]]⟩) := by decide +kernel
  have hafter : (Graph.empty.withLinks (Graph.empty.addLink Graph.fork).2.allLinks).shortestRoutes ⟨"a"⟩ ⟨"b"⟩ =
      .ok none := by decide +kernel
  refine ⟨hreachable, _, addLinks_eq_ok .epoch hreachable.wellFormed.acceptable_of_mem_allLinks _, hbefore, hafter, ?_⟩
  intro heq
  have hroutes := congrArg (fun g => g.shortestRoutes ⟨"a"⟩ ⟨"b"⟩) heq
  dsimp only at hroutes
  rw [hbefore] at hroutes
  exact absurd (hafter.symm.trans hroutes) (by simp)

end Controller

end ControlPlane
