/-
All recorded links of a topology. A link is in the list of all links exactly if it is recorded between two nodes
(`mem_allLinks`). On a topology that was built link by link, the ports of a link tell at which nodes it is recorded
(`WellFormed.mem_linksBetween`), and no link is listed twice (`WellFormed.nodup_allLinks`).
-/
import ControlPlane.Proofs.Topology.Adjacency

namespace ControlPlane

/-- What identifies a link: the port that it leaves, and its ID. -/
def Link.identity (l : Link) : Uid × String := (l.origin, l.id)

theorem Link.sameIdentity_iff {a b : Link} : a.sameIdentity b = true ↔ a.identity = b.identity := by
  simp [sameIdentity, identity]

namespace Graph

theorem mem_hops {g : Graph} {v : Uid} {l : Link} : (v, l) ∈ g.hops ↔ ∃ u, l ∈ g.linksBetween u v := by
  unfold hops
  rw [List.mem_flatMap]
  constructor
  · rintro ⟨⟨key, a⟩, he, hl⟩
    have hget : g.adjacency.get? (Uid.mk key).text = some a := SortedMap.get?_eq_some_iff.2 he
    refine ⟨⟨key⟩, ?_⟩
    rw [linksBetween_of_get? hget]
    exact mem_hopsOf.1 hl
  · rintro ⟨u, hl⟩
    cases hget : g.adjacency.get? u.text with
    | none => rw [linksBetween_of_get?_none hget] at hl; cases hl
    | some a =>
      rw [linksBetween_of_get? hget] at hl
      exact ⟨(u.text, a), SortedMap.get?_eq_some_iff.1 hget, mem_hopsOf.2 hl⟩

theorem mem_allLinks {g : Graph} {l : Link} : l ∈ g.allLinks ↔ ∃ u v, l ∈ g.linksBetween u v := by
  simp only [allLinks, List.mem_map, Prod.exists, exists_eq_right, mem_hops]
  exact exists_comm

/-- On a well-formed topology, the links that leave a node are those that leave its ports. -/
theorem WellFormed.mem_links {g : Graph} (hg : g.WellFormed) {node : Uid} {l : Link} :
    l ∈ g.links node ↔ l ∈ g.allLinks ∧ l.origin.nodeOfPort = .ok node := by
  rw [Graph.mem_links, mem_allLinks]
  constructor
  · rintro ⟨v, hl⟩; exact ⟨⟨node, v, hl⟩, (hg.recorded node v l hl).origin⟩
  · rintro ⟨⟨u, v, hl⟩, ho⟩
    rw [(hg.recorded u v l hl).origin] at ho
    cases ho
    exact ⟨v, hl⟩

theorem WellFormed.hasLinkFrom_iff {g : Graph} (hg : g.WellFormed) {port : Uid} :
    g.hasLinkFrom port = true ↔ ∃ l ∈ g.allLinks, l.origin = port := by
  unfold hasLinkFrom
  constructor
  · intro h
    split at h
    · obtain ⟨l, hl, ho⟩ := List.any_eq_true.1 h
      exact ⟨l, (hg.mem_links.1 hl).1, beq_iff_eq.1 ho⟩
    · cases h
  · rintro ⟨l, hl, rfl⟩
    obtain ⟨u, v, huv⟩ := mem_allLinks.1 hl
    have ho := (hg.recorded u v l huv).origin
    rw [ho]
    exact List.any_eq_true.2 ⟨l, hg.mem_links.2 ⟨hl, ho⟩, beq_self_eq_true _⟩

/-- The recorded links determine between which nodes they are recorded. -/
theorem WellFormed.mem_linksBetween {g : Graph} (hg : g.WellFormed) {u v : Uid} {l : Link} : l ∈ g.linksBetween u v ↔
    l ∈ g.allLinks ∧ l.origin.nodeOfPort = .ok u ∧ ∃ t ∈ l.targets, t.nodeOfPort = .ok v := by
  constructor
  · intro hl
    exact ⟨mem_allLinks.2 ⟨u, v, hl⟩, (hg.recorded u v l hl).origin, (hg.recorded u v l hl).exists_target⟩
  · rintro ⟨hl, ho, t, ht, hv⟩
    obtain ⟨u', v', hl⟩ := mem_allLinks.1 hl
    have hrec := hg.recorded u' v' l hl
    obtain rfl : u = u' := Except.ok.inj (ho.symm.trans hrec.origin)
    obtain rfl : v = v' := Except.ok.inj (hv.symm.trans (hrec.targets t ht))
    exact hl

/-! ## Links in the order of their listing -/

/-- The links of an adjacency in order. -/
def listed (a : Adjacency) : List Link := a.entries.flatMap fun e => e.2

theorem map_hopsOf (a : Adjacency) : (hopsOf a).map (·.2) = listed a := by
  simp [hopsOf, listed, List.map_flatMap, Function.comp_def]

theorem links_eq_listed (g : Graph) (u : Uid) : g.links u = listed (g.outgoing u) := map_hopsOf _

theorem allLinks_eq_listed (g : Graph) : g.allLinks = g.adjacency.toList.flatMap fun e => listed e.2 := by
  simp only [allLinks, hops, List.map_flatMap, map_hopsOf]

theorem listed_of_mem {g : Graph} {e : String × Adjacency} (he : e ∈ g.adjacency.toList) :
    listed e.2 = g.links ⟨e.1⟩ := by
  have hget : g.adjacency.get? (Uid.mk e.1).text = some e.2 := SortedMap.get?_eq_some_iff.2 he
  rw [links_eq_listed, outgoing, hget, Option.getD_some]

theorem allLinks_eq_flatMap_links (g : Graph) : g.allLinks = g.nodes.flatMap g.links := by
  rw [allLinks_eq_listed, nodes, Dict.keys, SortedMap.keys, List.flatMap_map, List.flatMap_map]
  exact List.flatMap_congr fun e he => listed_of_mem he

theorem nodup_nodes (g : Graph) : g.nodes.Nodup := by
  refine List.pairwise_map.2 (List.pairwise_map.2 (g.adjacency.entries.sorted.imp fun {e e'} hlt heq => ?_))
  exact StrictOrder.irrefl _ (Uid.mk.inj heq ▸ hlt)

theorem linksBetween_of_mem_entries {g : Graph} {u : Uid} {e : Uid × List Link} (he : e ∈ (g.outgoing u).entries) :
    g.linksBetween u e.1 = e.2 := by
  rw [linksBetween, SortedMap.get?_eq_some_iff.2 he, Option.getD_some]

theorem mem_nodes_of_mem_linksBetween {g : Graph} {u v : Uid} {l : Link} (h : l ∈ g.linksBetween u v) :
    u ∈ g.nodes := by
  cases ha : g.adjacency.get? u.text with
  | none => rw [linksBetween_of_get?_none ha] at h; cases h
  | some a => exact List.mem_map.2 ⟨u.text, SortedMap.mem_keys_iff.2 ⟨a, ha⟩, rfl⟩

/-! ## No link is listed twice -/

theorem WellFormed.nodup_linksBetween {g : Graph} (hg : g.WellFormed) (u v : Uid) : (g.linksBetween u v).Nodup := by
  refine (hg.identities u v).imp fun hab heq => ?_
  subst heq
  simp [Link.sameIdentity] at hab

theorem WellFormed.nodup_links {g : Graph} (hg : g.WellFormed) (u : Uid) : (g.links u).Nodup := by
  rw [links_eq_listed]
  refine List.nodup_flatMap.2 ⟨fun e he => linksBetween_of_mem_entries he ▸ hg.nodup_linksBetween u e.1, ?_⟩
  refine (g.outgoing u).sorted.imp_of_mem fun {e e'} he he' hlt => ?_
  refine List.disjoint_left.2 fun l (hl : l ∈ e.2) (hl' : l ∈ e'.2) => ?_
  rw [← linksBetween_of_mem_entries he] at hl
  rw [← linksBetween_of_mem_entries he'] at hl'
  -- the link leads to one node only
  obtain ⟨-, hsame⟩ := (hg.recorded u e.1 l hl).unique (hg.recorded u e'.1 l hl')
  exact StrictOrder.irrefl _ (hsame ▸ hlt)

theorem WellFormed.nodup_allLinks {g : Graph} (hg : g.WellFormed) : g.allLinks.Nodup := by
  rw [allLinks_eq_listed]
  refine List.nodup_flatMap.2 ⟨fun e he => listed_of_mem he ▸ hg.nodup_links ⟨e.1⟩, ?_⟩
  refine g.adjacency.entries.sorted.imp_of_mem fun {e e'} he he' hlt => ?_
  refine List.disjoint_left.2 fun l (hl : l ∈ listed e.2) (hl' : l ∈ listed e'.2) => ?_
  rw [listed_of_mem he] at hl
  rw [listed_of_mem he'] at hl'
  -- the link leaves one node only
  have hsame := Except.ok.inj ((hg.mem_links.1 hl).2.symm.trans (hg.mem_links.1 hl').2)
  exact StrictOrder.irrefl _ (Uid.mk.inj hsame ▸ hlt)

end Graph

end ControlPlane
