/-
The routes that are left when a link is lost. A topology is part of another one if it holds some of the links between
any two nodes, in their order (`PartOf`). Its walks are walks of the whole, in the same order, though at other positions
(`PartOf.exists_embedding`), so distances are not smaller there. Where a distance stays the same, the routes are those
of the whole that the part still holds, in their order (`PartOf.paths_eq`).

To remove a link leaves the part without the links of its identity. So the routes that avoid them are left if there
are any, and otherwise the distance has grown (`routes_after_removal`).
-/
import ControlPlane.Proofs.Topology.Operations
import ControlPlane.Proofs.Topology.Routes
import Mathlib.Data.List.NodupEquivFin
import Mathlib.Data.List.Sort

namespace ControlPlane

/-- No link of the route has the identity of the link. -/
def Link.AvoidedBy (link : Link) (route : List Link) : Prop := ∀ l ∈ route, l.sameIdentity link = false

instance (link : Link) (route : List Link) : Decidable (link.AvoidedBy route) :=
  inferInstanceAs (Decidable (∀ _ ∈ _, _))

namespace Graph

variable {g g' : Graph} {u v : Uid} {w : List Entry} {f : Entry → Entry}

/-! ## Parts of a topology -/

/-- Between any two nodes the topology holds some of the links of the other one, in their order. -/
def PartOf (g' g : Graph) : Prop := ∀ u v, (g'.linksBetween u v).Sublist (g.linksBetween u v)

/-- Every entry of the first topology is found in the second one between the same nodes and with the same link, maybe
at another position, but in the same order. -/
structure Embeds (g' g : Graph) (f : Entry → Entry) : Prop where
  origin : ∀ e, (f e).origin = e.origin
  target : ∀ e, (f e).target = e.target
  link : ∀ e, (f e).link = e.link
  hasEntry : ∀ e, g'.HasEntry e → g.HasEntry (f e)
  precedes : ∀ e e', e.Precedes e' → (f e).Precedes (f e')

theorem PartOf.exists_embedding (h : g'.PartOf g) : ∃ f, Embeds g' g f := by
  have hpositions : ∀ u v, ∃ position : ℕ ↪o ℕ, ∀ i, (g'.linksBetween u v)[i]? = (g.linksBetween u v)[position i]? :=
    fun u v => List.sublist_iff_exists_orderEmbedding_getElem?_eq.1 (h u v)
  choose position hposition using hpositions
  refine ⟨fun e => { e with position := position e.origin e.target e.position }, fun _ => rfl, fun _ => rfl,
    fun _ => rfl, fun e he => ?_, fun e e' hee' => ⟨hee'.target, ?_⟩⟩
  · exact (hposition e.origin e.target e.position).symm.trans he
  · rcases hee'.place with hlt | ⟨ho, hlt⟩
    · exact .inl hlt
    · refine .inr ⟨ho, ?_⟩
      dsimp only
      rw [ho, hee'.target]
      exact (position _ _).lt_iff_lt.2 hlt

/-! ## Walks of a part -/

theorem Embeds.isWalk (hf : Embeds g' g f) (hw : g'.IsWalk u w v) : g.IsWalk u (w.map f) v := by
  induction w generalizing u with
  | nil => exact hw
  | cons e w ih =>
    obtain ⟨ho, he, hw⟩ := hw
    refine ⟨(hf.origin e).trans ho, hf.hasEntry e he, ?_⟩
    rw [hf.target]
    exact ih hw

theorem Embeds.map_link (hf : Embeds g' g f) (w : List Entry) : (w.map f).map Entry.link = w.map Entry.link := by
  rw [List.map_map]
  exact List.map_congr_left fun e _ => hf.link e

/-- A walk of which the part holds every link is found in the part. -/
theorem PartOf.exists_isWalk (h : g'.PartOf g) (hg : g.WellFormed) (hw : g.IsWalk u w v)
    (hlinks : ∀ e ∈ w, e.link ∈ g'.allLinks) : ∃ w', g'.IsWalk u w' v ∧ w'.map Entry.link = w.map Entry.link := by
  induction w generalizing u with
  | nil => exact ⟨[], hw, rfl⟩
  | cons e w ih =>
    obtain ⟨ho, he, hw⟩ := hw
    obtain ⟨hlink, hlinks⟩ := List.forall_mem_cons.1 hlinks
    obtain ⟨w', hw', hmap⟩ := ih hw hlinks
    -- the link is recorded between the nodes of the entry only
    obtain ⟨o, t, hot⟩ := mem_allLinks.1 hlink
    obtain ⟨rfl, rfl⟩ := (hg.recorded o t _ ((h o t).subset hot)).unique (hg.recordedBetween he)
    obtain ⟨i, hi⟩ := List.mem_iff_getElem?.1 hot
    exact ⟨⟨e.origin, e.target, i, e.link⟩ :: w', ⟨ho, hi, hw'⟩, by rw [List.map_cons, hmap, List.map_cons]⟩

theorem PartOf.le_of_atDistance (h : g'.PartOf g) {n n' : ℕ} (hd : g.AtDistance u v n) (hd' : g'.AtDistance u v n') :
    n ≤ n' := by
  obtain ⟨f, hf⟩ := h.exists_embedding
  obtain ⟨⟨w', hw', rfl⟩, -⟩ := hd'
  rw [← w'.length_map f]
  exact hd.2 _ (hf.isWalk hw')

theorem IsWalk.mem_allLinks (hw : g.IsWalk u w v) : ∀ e ∈ w, e.link ∈ g.allLinks :=
  fun e he => Graph.mem_allLinks.2 ⟨e.origin, e.target, List.mem_of_getElem? (hw.hasEntry e he)⟩

/-! ## Routes of a part -/

section Routes

variable {source target : Uid} {r r' : Routes}

/-- Where the distance is the same, the part has the routes that it holds, in their order. -/
theorem PartOf.paths_eq (h : g'.PartOf g) (hg : g.WellFormed) (hne : source ≠ target)
    (hr : g.shortestRoutes source target = .ok (some r)) (hr' : g'.shortestRoutes source target = .ok (some r'))
    (hlength : r'.length = r.length) : r'.paths = r.paths.filter fun route => ∀ l ∈ route, l ∈ g'.allLinks := by
  have hd := atDistance_of_shortestRoutes hr
  have hd' := hlength ▸ atDistance_of_shortestRoutes hr'
  obtain ⟨walks, hordered, hmem, hpaths⟩ := ordered_paths_of_shortestRoutes hne hr
  obtain ⟨walks', hordered', hmem', hpaths'⟩ := ordered_paths_of_shortestRoutes hne hr'
  obtain ⟨f, hf⟩ := h.exists_embedding
  -- both lists of walks of the whole are in order, so they are the same if they have the same members
  have hwalks : walks'.map (·.map f) = walks.filter fun w => ∀ e ∈ w, e.link ∈ g'.allLinks := by
    have himage : (walks'.map (·.map f)).Pairwise WalkPrecedes :=
      List.pairwise_map.2 (hordered'.imp fun hww' => hww'.map hf.precedes)
    refine himage.eq_of_mem_iff (hordered.filter _) fun w => ?_
    simp only [List.mem_map, List.mem_filter, hmem, hmem', isShortestWalk_iff hd, isShortestWalk_iff hd',
      decide_eq_true_eq]
    constructor
    · rintro ⟨w', ⟨hw', hn⟩, rfl⟩
      refine ⟨⟨hf.isWalk hw', by rw [List.length_map, hn]⟩, fun e he => ?_⟩
      obtain ⟨e', he', rfl⟩ := List.mem_map.1 he
      rw [hf.link]
      exact hw'.mem_allLinks e' he'
    · rintro ⟨⟨hw, hn⟩, hlinks⟩
      obtain ⟨w', hw', hmap⟩ := h.exists_isWalk hg hw hlinks
      have hn' : w'.length = w.length := by simpa only [List.length_map] using congrArg List.length hmap
      refine ⟨w', ⟨hw', hn'.trans hn⟩, hg.walk_eq (hf.isWalk hw').hasEntry hw.hasEntry ?_⟩
      rw [hf.map_link, hmap]
  calc r'.paths
      = (walks'.map (·.map f)).map (·.map Entry.link) := by
        rw [hpaths', List.map_map]
        exact List.map_congr_left fun w _ => (hf.map_link w).symm
    _ = r.paths.filter fun route => ∀ l ∈ route, l ∈ g'.allLinks := by
        rw [hwalks, hpaths, List.filter_map]
        simp only [Function.comp_def, List.forall_mem_map]

/-- If the part holds a route, the distance has not grown. -/
theorem PartOf.shortestRoutes_eq (h : g'.PartOf g) (hg : g.WellFormed) (hne : source ≠ target)
    (hr : g.shortestRoutes source target = .ok (some r)) {route : List Link} (hroute : route ∈ r.paths)
    (hheld : ∀ l ∈ route, l ∈ g'.allLinks) : g'.shortestRoutes source target =
      .ok (some ⟨r.length, r.paths.filter fun route => ∀ l ∈ route, l ∈ g'.allLinks⟩) := by
  have hd := atDistance_of_shortestRoutes hr
  obtain ⟨w, hw, rfl⟩ := exists_walk_of_mem_paths hr hroute
  obtain ⟨w', hw', hmap⟩ := h.exists_isWalk hg hw.1 (List.forall_mem_map.1 hheld)
  have hn : w'.length = r.length := by
    rw [← hw.atDistance.unique hd, ← w'.length_map Entry.link, hmap, List.length_map]
  have hd' : g'.AtDistance source target r.length := by
    refine ⟨⟨w', hw', hn⟩, fun w'' hw'' => ?_⟩
    obtain ⟨f, hf⟩ := h.exists_embedding
    rw [← w''.length_map f]
    exact hd.2 _ (hf.isWalk hw'')
  obtain ⟨r', hr', hlength⟩ := shortestRoutes_of_atDistance hd'
  rw [hr', ← h.paths_eq hg hne hr hr' hlength, ← hlength]

/-- The part has no routes of the same length if it holds none of those of the whole. -/
theorem PartOf.lt_length (h : g'.PartOf g) (hne : source ≠ target) (hr : g.shortestRoutes source target = .ok (some r))
    (hr' : g'.shortestRoutes source target = .ok (some r')) (hnone : ∀ route ∈ r.paths, ∃ l ∈ route, l ∉ g'.allLinks) :
    r.length < r'.length := by
  have hd := atDistance_of_shortestRoutes hr
  have hd' := atDistance_of_shortestRoutes hr'
  refine Nat.lt_of_le_of_ne (h.le_of_atDistance hd hd') fun heq => ?_
  obtain ⟨f, hf⟩ := h.exists_embedding
  obtain ⟨⟨w', hw', hn⟩, -⟩ := hd'
  obtain ⟨walks, -, hmem, hpaths⟩ := paths_of_shortestRoutes hne hr
  have hshortest : g.IsShortestWalk source (w'.map f) target :=
    (isShortestWalk_iff hd).2 ⟨hf.isWalk hw', by rw [List.length_map, hn, heq]⟩
  have hroute : w'.map Entry.link ∈ r.paths := by
    rw [hpaths, ← hf.map_link]
    exact List.mem_map_of_mem ((hmem _).2 hshortest)
  obtain ⟨l, hl, habsent⟩ := hnone _ hroute
  obtain ⟨e, he, rfl⟩ := List.mem_map.1 hl
  exact habsent (hw'.mem_allLinks e he)

theorem mem_allLinks_of_mem_paths (hr : g.shortestRoutes source target = .ok (some r)) {route : List Link}
    (hroute : route ∈ r.paths) : ∀ l ∈ route, l ∈ g.allLinks := by
  obtain ⟨w, hw, rfl⟩ := exists_walk_of_mem_paths hr hroute
  exact List.forall_mem_map.2 hw.1.mem_allLinks

end Routes

/-! ## Removing a link -/

theorem partOf_discard (g : Graph) (origin : Uid) (link : Link) : (g.discard origin link).PartOf g := by
  intro u v
  rw [linksBetween_discard]
  split
  · exact otherLinks_sublist _ _
  · exact List.Sublist.refl _

/-- A route of the topology is left exactly if it avoids the link. -/
theorem WellFormed.holds_iff_avoidedBy (hg : g.WellFormed) {link : Link} {origin : Uid}
    (ho : link.origin.nodeOfPort = .ok origin) {route : List Link} (hroute : ∀ l ∈ route, l ∈ g.allLinks) :
    (∀ l ∈ route, l ∈ (g.discard origin link).allLinks) ↔ link.AvoidedBy route := by
  refine forall₂_congr fun l hl => ?_
  rw [hg.allLinks_discard ho, otherLinks, List.mem_filter, Bool.not_eq_true']
  exact and_iff_right (hroute l hl)

/-! ## Main result -/

/-- What is left of the routes between two different nodes when a link is removed whose origin is the port of a node.
If some of them avoid the identity of the link, their number of links stays what it was, and they are listed in the
order in which they were; so the first route stays the first one if it avoids the link. If none of them does, the nodes
are no longer connected, or their distance is greater. -/
theorem routes_after_removal (h : g.Reachable) {link : Link} (hport : ∃ node, link.origin.PortOf node)
    {source target : Uid} (hne : source ≠ target) {r : Routes}
    (hr : g.shortestRoutes source target = .ok (some r)) :
    (∃ found, (g.removeLink link).1 = .ok found) ∧
    ((∃ route ∈ r.paths, link.AvoidedBy route) → (g.removeLink link).2.shortestRoutes source target =
      .ok (some ⟨r.length, r.paths.filter fun route => link.AvoidedBy route⟩)) ∧
    (∀ first, r.paths.head? = some first → link.AvoidedBy first →
      ∃ r', (g.removeLink link).2.shortestRoutes source target = .ok (some r') ∧ r'.paths.head? = some first) ∧
    ((∀ route ∈ r.paths, ¬ link.AvoidedBy route) →
      ∃ found, (g.removeLink link).2.shortestRoutes source target = .ok found ∧
        ∀ r', found = some r' → r.length < r'.length) := by
  have hg := h.wellFormed
  obtain ⟨origin, ho⟩ := hport
  rw [Uid.portOf_iff] at ho
  rw [removeLink_of_ok ho]
  have hpart := partOf_discard g origin link
  have hholds : ∀ route ∈ r.paths,
      (∀ l ∈ route, l ∈ (g.discard origin link).allLinks) ↔ link.AvoidedBy route :=
    fun route hroute => hg.holds_iff_avoidedBy ho (mem_allLinks_of_mem_paths hr hroute)
  have hleft : (∃ route ∈ r.paths, link.AvoidedBy route) → (g.discard origin link).shortestRoutes source target =
      .ok (some ⟨r.length, r.paths.filter fun route => link.AvoidedBy route⟩) := by
    rintro ⟨route, hroute, havoided⟩
    rw [hpart.shortestRoutes_eq hg hne hr hroute ((hholds route hroute).2 havoided)]
    have hpaths : (r.paths.filter fun route => ∀ l ∈ route, l ∈ (g.discard origin link).allLinks) =
        r.paths.filter fun route => link.AvoidedBy route :=
      List.filter_congr fun route hroute => decide_eq_decide.2 (hholds route hroute)
    rw [hpaths]
  refine ⟨⟨_, rfl⟩, hleft, fun first hfirst havoided => ?_, fun hnone => ?_⟩
  · refine ⟨_, hleft ⟨first, List.mem_of_head? hfirst, havoided⟩, ?_⟩
    obtain ⟨rest, hrest⟩ := List.head?_eq_some_iff.1 hfirst
    simp only [hrest, List.filter_cons, decide_eq_true havoided, if_true, List.head?_cons]
  · obtain ⟨found, hfound, -⟩ := exists_shortestRoutes (g.discard origin link) source target
    refine ⟨found, hfound, fun r' hr' => ?_⟩
    rw [hr'] at hfound
    refine hpart.lt_length hne hr hfound fun route hroute => ?_
    simpa only [not_forall, exists_prop] using mt (hholds route hroute).1 (hnone route hroute)

/-- The link from `a` to `b` and `c` together. -/
def fork : Link := ⟨"0", ⟨"a$$1"⟩, [⟨"b$$1"⟩, ⟨"c$$1"⟩], .up⟩

/-- Two links from `a` to `b`, of which one leads to `c` too, and one from `b` to `c`. -/
def bypassed : Graph :=
  (((Graph.empty.addLink fork).2.addLink (.between ⟨"a$$2"⟩ ⟨"b$$2"⟩)).2.addLink (.between ⟨"b$$3"⟩ ⟨"c$$2"⟩)).2

theorem reachable_bypassed : bypassed.Reachable := .add _ (.add _ (.add _ .empty))

/-- Without the fork, one route is left from `a` to `b`, and `c` is further away. -/
theorem routes_after_removal_fork :
    (bypassed.removeLink fork).2.shortestRoutes ⟨"a"⟩ ⟨"b"⟩ =
      .ok (some ⟨1, [[.between ⟨"a$$2"⟩ ⟨"b$$2"⟩]]⟩) ∧
    ∃ found, (bypassed.removeLink fork).2.shortestRoutes ⟨"a"⟩ ⟨"c"⟩ = .ok found ∧
      ∀ r', found = some r' → 1 < r'.length := by
  have hport : ∃ node, fork.origin.PortOf node := ⟨⟨"a"⟩, Uid.portOf_iff.2 (by decide +kernel)⟩
  constructor
  · have hr : bypassed.shortestRoutes ⟨"a"⟩ ⟨"b"⟩ = .ok (some ⟨1, [[{ fork with targets := [⟨"b$$1"⟩] }],
        [.between ⟨"a$$2"⟩ ⟨"b$$2"⟩]]⟩) := by decide +kernel
    exact (routes_after_removal reachable_bypassed hport (by decide) hr).2.1
      ⟨_, List.mem_cons_of_mem _ List.mem_cons_self, by decide⟩
  · have hr : bypassed.shortestRoutes ⟨"a"⟩ ⟨"c"⟩ =
        .ok (some ⟨1, [[{ fork with targets := [⟨"c$$1"⟩] }]]⟩) := by decide +kernel
    exact (routes_after_removal reachable_bypassed hport (by decide) hr).2.2.2 (by decide)

end Graph

end ControlPlane
