/-
Topologies on which every link can be taken backwards: each recorded link leads to a single port, and the link in the
other direction is recorded too (`Symmetric`). A walk read backwards, with every link reversed, is then a walk again
(`Symmetric.exists_walk`), so the routes from one node to another are the reversed routes of the way back
(`Symmetric.routes`).
-/
import ControlPlane.Proofs.Topology.Correspondence

namespace ControlPlane

/-- The link in the other direction, from the first port that it leads to. -/
def Link.reversed (l : Link) : Link := { l with origin := l.peer?.getD l.origin, targets := [l.origin] }

theorem Link.reversed_between (p q : Uid) : (Link.between p q).reversed = .between q p := rfl

/-- A link to a single port is what it was when it is reversed twice. -/
theorem Link.reversed_reversed {l : Link} {q : Uid} (h : l.targets = [q]) : l.reversed.reversed = l := by
  cases l
  simp_all [Link.reversed, Link.peer?]

namespace Graph

variable {g : Graph} {u v : Uid} {w : List Entry}

/-- Every link leads to a single port and is recorded in the other direction too. -/
structure Symmetric (g : Graph) : Prop where
  single : ∀ u v, ∀ l ∈ g.linksBetween u v, ∃ q, l.targets = [q]
  reversed : ∀ u v, ∀ l ∈ g.linksBetween u v, l.reversed ∈ g.linksBetween v u

/-- The route in the other direction. -/
def reversedRoute (route : List Link) : List Link := (route.map Link.reversed).reverse

theorem reversedRoute_cons (l : Link) (route : List Link) :
    reversedRoute (l :: route) = reversedRoute route ++ [l.reversed] := by
  simp [reversedRoute]

theorem Symmetric.reversed_reversed (hg : g.Symmetric) {e : Entry} (he : g.HasEntry e) :
    e.link.reversed.reversed = e.link := by
  obtain ⟨q, hq⟩ := hg.single _ _ _ (List.mem_of_getElem? he)
  exact Link.reversed_reversed hq

theorem Symmetric.reversedRoute_reversedRoute (hg : g.Symmetric) (hw : g.IsWalk u w v) :
    reversedRoute (reversedRoute (w.map Entry.link)) = w.map Entry.link := by
  simp only [reversedRoute, List.map_reverse, List.reverse_reverse, List.map_map]
  exact List.map_congr_left fun e he => hg.reversed_reversed (hw.hasEntry e he)

/-- A walk read backwards is a walk along the reversed links. -/
theorem Symmetric.exists_walk (hg : g.Symmetric) (hw : g.IsWalk u w v) :
    ∃ w', g.IsWalk v w' u ∧ w'.map Entry.link = reversedRoute (w.map Entry.link) := by
  induction w generalizing u with
  | nil => exact ⟨[], Eq.symm hw, rfl⟩
  | cons e w ih =>
    obtain ⟨rfl, he, hw⟩ := hw
    obtain ⟨w', hw', hlinks⟩ := ih hw
    have hback := hg.reversed _ _ _ (List.mem_of_getElem? he)
    obtain ⟨i, hi⟩ := List.mem_iff_getElem?.1 hback
    let e' : Entry := ⟨e.target, e.origin, i, e.link.reversed⟩
    have he' : g.HasEntry e' := hi
    refine ⟨w' ++ [e'], isWalk_snoc.2 ⟨hw', he', rfl⟩, ?_⟩
    rw [List.map_append, hlinks, List.map_cons (l := w), reversedRoute_cons]
    rfl

theorem Symmetric.corresponding (hg : g.Symmetric) (u v : Uid) : Corresponding g g u v v u reversedRoute := by
  refine ⟨fun links => by simp [reversedRoute], fun w hw => hg.exists_walk hw, fun w' hw' => ?_, ?_⟩
  · obtain ⟨w, hw, hlinks⟩ := hg.exists_walk hw'
    exact ⟨w, hw, by rw [hlinks, hg.reversedRoute_reversedRoute hw']⟩
  · intro w₁ w₂ hw₁ hw₂ heq
    rw [← hg.reversedRoute_reversedRoute hw₁, heq, hg.reversedRoute_reversedRoute hw₂]

/-- The routes from one node to another and back are as long and the same ones, read backwards. -/
theorem Symmetric.routes (hg : g.Symmetric) (hwf : g.WellFormed) (u v : Uid) : ∃ found back,
    g.shortestRoutes u v = .ok found ∧ g.shortestRoutes v u = .ok back ∧
      Option.Rel (fun r r' => r.length = r'.length ∧ (r.paths.map reversedRoute).Perm r'.paths) found back :=
  (hg.corresponding u v).routes hwf hwf

end Graph

end ControlPlane
