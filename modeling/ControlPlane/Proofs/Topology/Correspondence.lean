/-
Topologies with the same walks under another guise. The walks between two nodes of one topology correspond to those
between two nodes of another if each of them is found again there with its links changed in a way that keeps their
number and loses nothing (`Corresponding`). Then shortest walks correspond to shortest walks, so the distances are
the same; and since no route is listed twice on topologies that were built link by link, the routes of the one are
the changed routes of the other, up to their order (`Corresponding.routes`).
-/
import ControlPlane.Proofs.Topology.Routes

namespace ControlPlane.Graph

variable {g g' : Graph} {source target source' target' : Uid} {f : List Link → List Link}

/-- On a well-formed topology no route is listed twice. -/
theorem WellFormed.nodup_paths (hg : g.WellFormed) {r : Routes} (h : g.shortestRoutes source target = .ok (some r)) :
    r.paths.Nodup := by
  by_cases hne : source = target
  · subst hne
    rw [shortestRoutes_self] at h
    cases h
    exact List.nodup_nil
  · obtain ⟨walks, hnodup, hmem, hpaths⟩ := paths_of_shortestRoutes hne h
    rw [hpaths]
    refine hnodup.map_on fun w hw w' hw' heq => ?_
    exact hg.walk_eq ((hmem w).1 hw).1.hasEntry ((hmem w').1 hw').1.hasEntry heq

/-! ## Walks and distances -/

/-- The walks between two nodes of a topology are those between two nodes of another one, with their links changed. -/
structure Corresponding (g g' : Graph) (source target source' target' : Uid) (f : List Link → List Link) : Prop where
  length : ∀ links, (f links).length = links.length
  forth : ∀ w, g.IsWalk source w target → ∃ w', g'.IsWalk source' w' target' ∧ w'.map Entry.link = f (w.map Entry.link)
  back : ∀ w', g'.IsWalk source' w' target' → ∃ w, g.IsWalk source w target ∧ w'.map Entry.link = f (w.map Entry.link)
  inj : ∀ w₁ w₂, g.IsWalk source w₁ target → g.IsWalk source w₂ target →
    f (w₁.map Entry.link) = f (w₂.map Entry.link) → w₁.map Entry.link = w₂.map Entry.link

namespace Corresponding

variable {w w' : List Entry}

theorem length_eq (h : Corresponding g g' source target source' target' f)
    (hlinks : w'.map Entry.link = f (w.map Entry.link)) : w'.length = w.length := by
  simpa only [List.length_map, h.length] using congrArg List.length hlinks

theorem isShortestWalk_forth (h : Corresponding g g' source target source' target' f)
    (hw : g.IsShortestWalk source w target) :
    ∃ w', g'.IsShortestWalk source' w' target' ∧ w'.map Entry.link = f (w.map Entry.link) := by
  obtain ⟨w', hw', hlinks⟩ := h.forth w hw.1
  refine ⟨w', ⟨hw', fun w₁' hw₁' => ?_⟩, hlinks⟩
  obtain ⟨w₁, hw₁, hlinks₁⟩ := h.back w₁' hw₁'
  rw [h.length_eq hlinks, h.length_eq hlinks₁]
  exact hw.2 w₁ hw₁

theorem isShortestWalk_back (h : Corresponding g g' source target source' target' f)
    (hw' : g'.IsShortestWalk source' w' target') :
    ∃ w, g.IsShortestWalk source w target ∧ w'.map Entry.link = f (w.map Entry.link) := by
  obtain ⟨w, hw, hlinks⟩ := h.back w' hw'.1
  refine ⟨w, ⟨hw, fun w₁ hw₁ => ?_⟩, hlinks⟩
  obtain ⟨w₁', hw₁', hlinks₁⟩ := h.forth w₁ hw₁
  rw [← h.length_eq hlinks, ← h.length_eq hlinks₁]
  exact hw'.2 w₁' hw₁'

theorem atDistance (h : Corresponding g g' source target source' target' f) {n : ℕ}
    (hd : g.AtDistance source target n) : g'.AtDistance source' target' n := by
  obtain ⟨w, hw, rfl⟩ := atDistance_iff.1 hd
  obtain ⟨w', hw', hlinks⟩ := h.isShortestWalk_forth hw
  exact atDistance_iff.2 ⟨w', hw', h.length_eq hlinks⟩

theorem eq_iff (h : Corresponding g g' source target source' target' f) : source = target ↔ source' = target' := by
  constructor
  · intro heq
    exact atDistance_zero.1 (h.atDistance (atDistance_zero.2 heq))
  · intro heq
    obtain ⟨w, hw, hlinks⟩ := h.back [] heq
    have hnil : w = [] := List.length_eq_zero_iff.1 (h.length_eq hlinks).symm
    rw [hnil] at hw
    exact hw

/-! ## Routes -/

/-- The routes of the one topology are those of the other, changed. -/
theorem mem_paths_iff (h : Corresponding g g' source target source' target' f) {r r' : Routes}
    (hr : g.shortestRoutes source target = .ok (some r)) (hr' : g'.shortestRoutes source' target' = .ok (some r'))
    {route' : List Link} : route' ∈ r'.paths ↔ ∃ route ∈ r.paths, f route = route' := by
  by_cases hne : source = target
  · -- from a node to itself no route is listed
    obtain rfl := hne
    obtain rfl := h.eq_iff.1 rfl
    rw [shortestRoutes_self] at hr hr'
    cases hr
    cases hr'
    simp
  · obtain ⟨walks, -, hmem, hpaths⟩ := paths_of_shortestRoutes hne hr
    obtain ⟨walks', -, hmem', hpaths'⟩ := paths_of_shortestRoutes (mt h.eq_iff.2 hne) hr'
    simp only [hpaths, hpaths', List.mem_map, exists_exists_and_eq_and, hmem, hmem']
    constructor
    · rintro ⟨w', hw', rfl⟩
      obtain ⟨w, hw, hlinks⟩ := h.isShortestWalk_back hw'
      exact ⟨w, hw, hlinks.symm⟩
    · rintro ⟨w, hw, rfl⟩
      exact h.isShortestWalk_forth hw

/-- The search reaches the second pair of nodes if it reaches the first one, over the same length, by the changed
routes up to their order. -/
theorem routes (h : Corresponding g g' source target source' target' f) (hg : g.WellFormed) (hg' : g'.WellFormed) :
    ∃ found found', g.shortestRoutes source target = .ok found ∧ g'.shortestRoutes source' target' = .ok found' ∧
      Option.Rel (fun r r' => r.length = r'.length ∧ (r.paths.map f).Perm r'.paths) found found' := by
  obtain ⟨found, hfound, hnone, hdist⟩ := exists_shortestRoutes g source target
  obtain ⟨found', hfound', hnone', -⟩ := exists_shortestRoutes g' source' target'
  refine ⟨found, found', hfound, hfound', ?_⟩
  cases found with
  | none =>
    have hno : found' = none := hnone'.2 fun w' hw' => by
      obtain ⟨w, hw, -⟩ := h.back w' hw'
      exact hnone.1 rfl w hw
    rw [hno]
    exact .none
  | some r =>
    obtain ⟨r', hr', hlength⟩ := shortestRoutes_of_atDistance (h.atDistance (hdist r rfl))
    obtain rfl : found' = some r' := Except.ok.inj (hfound'.symm.trans hr')
    have hnodup : (r.paths.map f).Nodup := by
      refine (hg.nodup_paths hfound).map_on fun route₁ h₁ route₂ h₂ heq => ?_
      obtain ⟨w₁, hw₁, rfl⟩ := exists_walk_of_mem_paths hfound h₁
      obtain ⟨w₂, hw₂, rfl⟩ := exists_walk_of_mem_paths hfound h₂
      exact h.inj w₁ w₂ hw₁.1 hw₂.1 heq
    refine .some ⟨hlength.symm, (List.perm_ext_iff_of_nodup hnodup (hg'.nodup_paths hfound')).2 fun route' => ?_⟩
    rw [List.mem_map, h.mem_paths_iff hfound hfound']

end Corresponding

end ControlPlane.Graph
