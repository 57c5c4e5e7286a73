/-
Topologies that hold the same links in another order. Their origins and destinations are the same, and the links
from one node to another are the same up to their order (`Alike`). A walk of one is a walk of the other with the
same links (`Alike.exists_walk`), so the distances are the same, and so are the routes up to their order on topologies
that were built link by link (`Alike.routes`).
-/
import ControlPlane.Proofs.Topology.Correspondence
import ControlPlane.Proofs.Topology.Records

namespace ControlPlane.Graph

/-- The topologies have the same origins and destinations, and the same links between any two nodes, which may be
in another order. -/
structure Alike (g g' : Graph) : Prop where
  origins : g.nodes = g'.nodes
  targets : ∀ u, (g.outgoing u).keys = (g'.outgoing u).keys
  links : ∀ u v, (g.linksBetween u v).Perm (g'.linksBetween u v)

variable {g g' : Graph}

/-! ## Well-formed topologies with the same links -/

theorem WellFormed.mem_targets (hg : g.WellFormed) {u v : Uid} :
    v ∈ (g.outgoing u).keys ↔ g.linksBetween u v ≠ [] := by
  rw [SortedMap.mem_keys_iff]
  constructor
  · rintro ⟨ls, hls⟩
    rw [linksBetween, hls]
    exact hg.outgoing_ne_nil hls
  · intro hne
    rw [linksBetween] at hne
    cases hls : (g.outgoing u).get? v with
    | none => exact absurd (by rw [hls]; rfl) hne
    | some ls => exact ⟨ls, rfl⟩

theorem WellFormed.mem_keys (hg : g.WellFormed) {key : String} :
    key ∈ g.adjacency.keys ↔ ∃ v, g.linksBetween ⟨key⟩ v ≠ [] := by
  refine SortedMap.mem_keys_iff.trans ⟨?_, ?_⟩
  · rintro ⟨a, ha⟩
    obtain ⟨v, ls, hls⟩ := hg.groups key a ha
    refine ⟨v, ?_⟩
    rw [linksBetween_of_get? (u := ⟨key⟩) ha, hls]
    exact hg.links key a v ls ha hls
  · rintro ⟨v, hne⟩
    cases ha : g.adjacency.get? key with
    | none => exact absurd (linksBetween_of_get?_none (u := ⟨key⟩) ha v) hne
    | some a => exact ⟨a, ha⟩

/-- Well-formed topologies are alike if the same links are recorded between any two nodes. -/
theorem WellFormed.alike (hg : g.WellFormed) (hg' : g'.WellFormed)
    (h : ∀ u v l, l ∈ g.linksBetween u v ↔ l ∈ g'.linksBetween u v) : g.Alike g' := by
  have hperm : ∀ u v, (g.linksBetween u v).Perm (g'.linksBetween u v) := fun u v =>
    (List.perm_ext_iff_of_nodup (hg.nodup_linksBetween u v) (hg'.nodup_linksBetween u v)).2 (h u v)
  have hnil : ∀ u v, g.linksBetween u v ≠ [] ↔ g'.linksBetween u v ≠ [] := fun u v =>
    not_congr ⟨fun heq => (heq ▸ hperm u v).nil_eq.symm, fun heq => (heq ▸ hperm u v).eq_nil⟩
  refine ⟨congrArg (List.map Uid.mk) (SortedMap.keys_eq_of_mem_iff fun key => ?_),
    fun u => SortedMap.keys_eq_of_mem_iff fun v => ?_, hperm⟩
  · exact hg.mem_keys.trans ((exists_congr fun v => hnil ⟨key⟩ v).trans hg'.mem_keys.symm)
  · exact hg.mem_targets.trans ((hnil u v).trans hg'.mem_targets.symm)

/-! ## Walks and distances -/

theorem Alike.symm (h : g.Alike g') : g'.Alike g :=
  ⟨h.origins.symm, fun u => (h.targets u).symm, fun u v => (h.links u v).symm⟩

/-- A walk is found again with the same links, perhaps at other positions. -/
theorem Alike.exists_walk (h : g.Alike g') {u v : Uid} {w : List Entry} (hw : g.IsWalk u w v) :
    ∃ w', g'.IsWalk u w' v ∧ w'.map Entry.link = w.map Entry.link := by
  induction w generalizing u with
  | nil => exact ⟨[], hw, rfl⟩
  | cons e w ih =>
    obtain ⟨ho, he, hw⟩ := hw
    obtain ⟨w', hw', hlinks⟩ := ih hw
    have hmem := (h.links e.origin e.target).mem_iff.1 (List.mem_of_getElem? he)
    obtain ⟨i, hi⟩ := List.mem_iff_getElem?.1 hmem
    exact ⟨⟨e.origin, e.target, i, e.link⟩ :: w', ⟨ho, hi, hw'⟩, by rw [List.map_cons, hlinks, List.map_cons]⟩

theorem Alike.corresponding (h : g.Alike g') (source target : Uid) :
    Corresponding g g' source target source target id := by
  refine ⟨fun _ => rfl, fun w hw => h.exists_walk hw, fun w' hw' => ?_, fun _ _ _ _ heq => heq⟩
  obtain ⟨w, hw, hlinks⟩ := h.symm.exists_walk hw'
  exact ⟨w, hw, hlinks.symm⟩

/-! ## Routes -/

/-- The routes have the same length, and are the same up to their order. -/
def RoutesAlike (r r' : Routes) : Prop := r.length = r'.length ∧ r.paths.Perm r'.paths

/-- On topologies that are alike, the search reaches the same nodes, and lists the same routes. -/
theorem Alike.routes (h : g.Alike g') (hg : g.WellFormed) (hg' : g'.WellFormed) (source target : Uid) :
    ∃ found found', g.shortestRoutes source target = .ok found ∧ g'.shortestRoutes source target = .ok found' ∧
      Option.Rel RoutesAlike found found' := by
  have hroutes := (h.corresponding source target).routes hg hg'
  simp only [List.map_id] at hroutes
  exact hroutes

end ControlPlane.Graph
