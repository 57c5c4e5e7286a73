/-
The shortest routes between two nodes, for every topology, also one taken over without checks. The
search answers always: with no routes exactly when no walk leads to the target, and otherwise with the
number of entries of a shortest walk (`shortestRoutes_total`). Between two different nodes the routes are
the links of the shortest walks, each walk giving one route; on a topology that was built link by link no
route is listed twice (`shortestRoutes_exact`).
-/
import ControlPlane.Proofs.Topology.Adjacency
import ControlPlane.Proofs.Topology.Listing

namespace ControlPlane.Graph

/-! ## Distances on the sealed topology -/

theorem atDistance_iff {g : Graph} {u v : Uid} {n : Nat} :
    g.AtDistance u v n ↔ ∃ w, g.IsShortestWalk u w v ∧ w.length = n := by
  constructor
  · rintro ⟨⟨w, hw, rfl⟩, hmin⟩; exact ⟨w, ⟨hw, hmin⟩, rfl⟩
  · rintro ⟨w, hw, rfl⟩; exact hw.atDistance

theorem atDistance_sealed {g : Graph} {u v : Uid} {n : Nat} :
    (g.sealed v).AtDistance u v n ↔ g.AtDistance u v n := by
  simp only [atDistance_iff, isShortestWalk_sealed]

/-! ## The answer of the search -/

/-- The search of every topology comes to its end and knows the distances from its source. -/
theorem exists_search (g : Graph) (source target : Uid) : ∃ s done,
    (Search.start source).run g target = .ok s ∧ Search.Searching (g.sealed target) source done s ∧ s.queue = [] :=
  (Search.searching_start (g.sealed target) source).exists_run

theorem shortestRoutes_self (g : Graph) (u : Uid) : g.shortestRoutes u u = .ok (some ⟨0, []⟩) := by
  rw [shortestRoutes, if_pos rfl]

section Search

variable {g : Graph} {source target : Uid} {s : Search} {done : List (Nat × Uid)}

/-- The routes between different nodes, as the finished search lists them. -/
theorem shortestRoutes_eq (hne : source ≠ target) (hrun : (Search.start source).run g target = .ok s)
    (hS : Search.Searching (g.sealed target) source done s) (hq : s.queue = []) :
    g.shortestRoutes source target = .ok ((s.visited.get? target).map fun v =>
      ⟨v.distance, Search.routesInto (g.sealed target) done source v.distance target⟩) := by
  rw [shortestRoutes, if_neg hne, hrun]
  dsimp only [bind, Except.bind]
  cases hv : s.visited.get? target with
  | none => rfl
  | some v =>
    have hd := (hS.mem_done_iff hq).1 ((hS.mem_done hq).2 ⟨v, hv, rfl⟩)
    have hlist := (Search.listRoutes_eq hS hq hd (Nat.le_refl _) Search.final_empty).1
    simp only [Option.map_some, hlist]
    rfl

end Search

/-- The search answers with the distance of the target, or with nothing if no walk leads there. -/
theorem exists_shortestRoutes (g : Graph) (source target : Uid) : ∃ found,
    g.shortestRoutes source target = .ok found ∧ (found = none ↔ ∀ w, ¬ g.IsWalk source w target) ∧
      ∀ r, found = some r → g.AtDistance source target r.length := by
  by_cases hne : source = target
  · subst hne
    refine ⟨_, shortestRoutes_self g source, ?_, fun r hr => ?_⟩
    · simp only [reduceCtorEq, false_iff, not_forall, not_not]
      exact ⟨[], rfl⟩
    · cases hr; exact atDistance_zero.2 rfl
  · obtain ⟨s, done, hrun, hS, hq⟩ := exists_search g source target
    refine ⟨_, shortestRoutes_eq hne hrun hS hq, ?_, fun r hr => ?_⟩
    · rw [Option.map_eq_none_iff]
      constructor
      · intro hv w hw
        obtain ⟨w', -, hw'⟩ := exists_isWalk_sealed hw
        obtain ⟨v, hv', -⟩ := hS.get?_of_isWalk hq hw'
        rw [hv] at hv'
        cases hv'
      · intro hno
        refine Option.eq_none_iff_forall_ne_some.2 fun v hv => ?_
        obtain ⟨w, hw, -⟩ := hS.exists_isWalk hq ((hS.mem_done hq).2 ⟨v, hv, rfl⟩)
        exact hno w (isWalk_sealed.1 hw).1
    · obtain ⟨v, hv, rfl⟩ := Option.map_eq_some_iff.1 hr
      exact atDistance_sealed.1 ((hS.mem_done_iff hq).1 ((hS.mem_done hq).2 ⟨v, hv, rfl⟩))

theorem atDistance_of_shortestRoutes {g : Graph} {source target : Uid} {r : Routes}
    (h : g.shortestRoutes source target = .ok (some r)) : g.AtDistance source target r.length := by
  obtain ⟨found, hf, -, hd⟩ := exists_shortestRoutes g source target
  rw [h] at hf
  exact hd r (Except.ok.inj hf).symm

/-- Where a walk leads, the search finds routes. -/
theorem shortestRoutes_of_atDistance {g : Graph} {source target : Uid} {n : Nat}
    (h : g.AtDistance source target n) : ∃ r, g.shortestRoutes source target = .ok (some r) ∧ r.length = n := by
  obtain ⟨found, hf, hnone, hd⟩ := exists_shortestRoutes g source target
  cases found with
  | none =>
    obtain ⟨⟨w, hw, -⟩, -⟩ := h
    exact absurd hw (hnone.1 rfl w)
  | some r => exact ⟨r, hf, (hd r rfl).unique h⟩

/-- Between different nodes the routes are the links of the shortest walks, listed in the order of the walks. -/
theorem ordered_paths_of_shortestRoutes {g : Graph} {source target : Uid} (hne : source ≠ target) {r : Routes}
    (h : g.shortestRoutes source target = .ok (some r)) : ∃ walks : List (List Entry), walks.Pairwise WalkPrecedes ∧
      (∀ w, w ∈ walks ↔ g.IsShortestWalk source w target) ∧ r.paths = walks.map (·.map Entry.link) := by
  obtain ⟨s, done, hrun, hS, hq⟩ := exists_search g source target
  rw [shortestRoutes_eq hne hrun hS hq, Except.ok.injEq, Option.map_eq_some_iff] at h
  obtain ⟨v, hv, rfl⟩ := h
  have hd := (hS.mem_done_iff hq).1 ((hS.mem_done hq).2 ⟨v, hv, rfl⟩)
  refine ⟨_, Search.pairwise_walksInto hS v.distance target, fun w => ?_, rfl⟩
  rw [Search.mem_walksInto hS hq hd, isShortestWalk_sealed]

theorem paths_of_shortestRoutes {g : Graph} {source target : Uid} (hne : source ≠ target) {r : Routes}
    (h : g.shortestRoutes source target = .ok (some r)) : ∃ walks : List (List Entry), walks.Nodup ∧
      (∀ w, w ∈ walks ↔ g.IsShortestWalk source w target) ∧ r.paths = walks.map (·.map Entry.link) := by
  obtain ⟨walks, hordered, hmem, hpaths⟩ := ordered_paths_of_shortestRoutes hne h
  exact ⟨walks, hordered.nodup, hmem, hpaths⟩

theorem exists_walk_of_mem_paths {g : Graph} {source target : Uid} {r : Routes}
    (h : g.shortestRoutes source target = .ok (some r)) {route : List Link} (hr : route ∈ r.paths) :
    ∃ w, g.IsShortestWalk source w target ∧ route = w.map Entry.link := by
  by_cases hne : source = target
  · subst hne
    rw [shortestRoutes_self] at h
    cases h
    cases hr
  · obtain ⟨walks, -, hmem, hpaths⟩ := paths_of_shortestRoutes hne h
    rw [hpaths] at hr
    obtain ⟨w, hw, rfl⟩ := List.mem_map.1 hr
    exact ⟨w, (hmem w).1 hw, rfl⟩

/-! ## Walks and their links on a well-formed topology -/

theorem IsWalk.hasEntry {g : Graph} {u v : Uid} {w : List Entry} (hw : g.IsWalk u w v) : ∀ e ∈ w, g.HasEntry e := by
  induction w generalizing u with
  | nil => simp
  | cons e w ih =>
    obtain ⟨-, he, hw⟩ := hw
    exact fun e' h => (List.mem_cons.1 h).elim (fun h => h ▸ he) (ih hw e')

/-- On a well-formed topology, a link is recorded in one place between two nodes. -/
theorem WellFormed.recordedBetween {g : Graph} (hg : g.WellFormed) {e : Entry} (he : g.HasEntry e) :
    RecordedBetween e.origin e.target e.link :=
  hg.recorded _ _ _ (List.mem_of_getElem? he)

theorem WellFormed.entry_eq {g : Graph} (hg : g.WellFormed) {e e' : Entry} (he : g.HasEntry e)
    (he' : g.HasEntry e') (h : e.link = e'.link) : e = e' := by
  have hr := hg.recordedBetween he
  have hr' := hg.recordedBetween he'
  obtain ⟨u, v, i, l⟩ := e
  obtain ⟨u', v', j, l'⟩ := e'
  dsimp only at h hr hr'
  subst h
  obtain ⟨rfl, rfl⟩ := hr.unique hr'
  -- the same link at two positions would be two records of one identity
  have hsame : l.sameIdentity l = true := by simp [Link.sameIdentity]
  have hids := List.pairwise_iff_getElem.1 (hg.identities u v)
  obtain ⟨hi, hli⟩ := List.getElem?_eq_some_iff.1 he
  obtain ⟨hj, hlj⟩ := List.getElem?_eq_some_iff.1 he'
  dsimp only at hi hli hj hlj
  rcases Nat.lt_trichotomy i j with hij | rfl | hij
  · have := hids i j hi hj hij
    rw [hli, hlj, hsame] at this
    cases this
  · rfl
  · have := hids j i hj hi hij
    rw [hli, hlj, hsame] at this
    cases this

theorem WellFormed.walk_eq {g : Graph} (hg : g.WellFormed) : ∀ {w w' : List Entry}, (∀ e ∈ w, g.HasEntry e) →
    (∀ e ∈ w', g.HasEntry e) → w.map Entry.link = w'.map Entry.link → w = w'
  | [], [], _, _, _ => rfl
  | e :: w, e' :: w', h, h', hm => by
    simp only [List.map_cons, List.cons.injEq] at hm
    rw [hg.entry_eq (h e List.mem_cons_self) (h' e' List.mem_cons_self) hm.1,
      hg.walk_eq (fun x hx => h x (List.mem_cons_of_mem _ hx)) (fun x hx => h' x (List.mem_cons_of_mem _ hx)) hm.2]

/-! ## Main results -/

/-- The search of every topology answers, whatever its source and target: the listing of its routes ends
because there is no endless descent along back-links, there is no answer exactly when no walk leads to the
target, and otherwise the length is the smallest number of entries of a walk. -/
theorem shortestRoutes_total (g : Graph) (source target : Uid) :
    (∃ s, (Search.start source).run g target = .ok s ∧
      WellFounded fun before n => ∃ l, (before, l) ∈ Search.backLinks s.visited n) ∧
    ∃ found, g.shortestRoutes source target = .ok found ∧
      (found = none ↔ ∀ w, ¬ g.IsWalk source w target) ∧
      ∀ r, found = some r → ((∃ w, g.IsWalk source w target ∧ w.length = r.length) ∧
        (∀ w, g.IsWalk source w target → r.length ≤ w.length) ∧ (r.length = 0 ↔ source = target)) := by
  obtain ⟨s, done, hrun, hS, hq⟩ := exists_search g source target
  obtain ⟨found, hf, hnone, hd⟩ := exists_shortestRoutes g source target
  refine ⟨⟨s, hrun, Search.wellFounded_backLinks hS hq⟩, found, hf, hnone, fun r hr => ?_⟩
  have hr := hd r hr
  refine ⟨hr.1, hr.2, fun h0 => atDistance_zero.1 (h0 ▸ hr), fun h => ?_⟩
  exact hr.unique (atDistance_zero.2 h)

/-- Between two different nodes the listed routes are exactly the shortest walks, one route for each walk;
and on a topology that was built link by link they all differ. -/
theorem shortestRoutes_exact (g : Graph) {source target : Uid} (hne : source ≠ target) {r : Routes}
    (h : g.shortestRoutes source target = .ok (some r)) :
    (∃ walks : List (List Entry), walks.Nodup ∧ (∀ w, w ∈ walks ↔ g.IsShortestWalk source w target) ∧
      r.paths = walks.map (·.map Entry.link)) ∧
    (∀ route ∈ r.paths, route.length = r.length) ∧ r.paths ≠ [] ∧ (g.Reachable → r.paths.Nodup) := by
  obtain ⟨walks, hnodup, hmem, hpaths⟩ := paths_of_shortestRoutes hne h
  have hd := atDistance_of_shortestRoutes h
  refine ⟨⟨walks, hnodup, hmem, hpaths⟩, fun route hr => ?_, ?_, fun hg => ?_⟩
  · obtain ⟨w, hw, rfl⟩ := exists_walk_of_mem_paths h hr
    rw [List.length_map]
    exact hw.atDistance.unique hd
  · obtain ⟨w, hw, -⟩ := atDistance_iff.1 hd
    rw [hpaths]
    exact List.ne_nil_of_mem (List.mem_map_of_mem ((hmem w).2 hw))
  · rw [hpaths]
    refine hnodup.map_on fun w hw w' hw' heq => ?_
    exact hg.wellFormed.walk_eq ((hmem w).1 hw).1.hasEntry ((hmem w').1 hw').1.hasEntry heq

/-- Two links from `a` to `b` and one from `b` to `c`, added one after the other. -/
def parallel : Graph :=
  (((Graph.empty.addLink (.between ⟨"a$$1"⟩ ⟨"b$$1"⟩)).2.addLink (.between ⟨"a$$2"⟩ ⟨"b$$2"⟩)).2.addLink
    (.between ⟨"b$$3"⟩ ⟨"c$$1"⟩)).2

theorem reachable_parallel : parallel.Reachable := .add _ (.add _ (.add _ .empty))

theorem parallel_routes : parallel.shortestRoutes ⟨"a"⟩ ⟨"c"⟩ = .ok (some ⟨2,
    [[.between ⟨"a$$1"⟩ ⟨"b$$1"⟩, .between ⟨"b$$3"⟩ ⟨"c$$1"⟩],
      [.between ⟨"a$$2"⟩ ⟨"b$$2"⟩, .between ⟨"b$$3"⟩ ⟨"c$$1"⟩]]⟩) := by
  decide +kernel

theorem shortestRoutes_exact_parallel : ∃ r, parallel.shortestRoutes ⟨"a"⟩ ⟨"c"⟩ = .ok (some r) ∧
    r.paths.length = 2 ∧ r.paths.Nodup ∧ ∀ route ∈ r.paths, route.length = 2 := by
  have h := shortestRoutes_exact parallel (by decide) parallel_routes
  exact ⟨_, parallel_routes, rfl, h.2.2.2 reachable_parallel, h.2.1⟩

end ControlPlane.Graph
