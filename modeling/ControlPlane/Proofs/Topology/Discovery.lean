/-
The order of discovery. Links are added and removed, with or without success, and at the end there is one link
standing for some of the identities: the last one that was added with success, unless it was removed since. The
topology holds exactly the standing links, each of them narrowed to the ports of every node it leads to
(`Holds`), so two histories with the same standing links lead to topologies that are alike, whatever was replaced,
announced again or refused on the way.
-/
import ControlPlane.Proofs.Topology.Alike

namespace ControlPlane

namespace Graph

/-! ## Histories -/

/-- What is discovered. -/
inductive Change where
  | add (link : Link)
  | remove (link : Link)

/-- The link of each identity that was added last and not removed since. -/
abbrev Standing := Uid × String → Option Link

/-- The topology after a change, which may fail. -/
def change (g : Graph) : Change → Graph
  | .add link => (g.addLink link).2
  | .remove link => (g.removeLink link).2

/-- The standing links after a change of a topology. A link that is refused does not take the place of another. -/
def Standing.change (standing : Standing) (g : Graph) : Change → Standing
  | .add link =>
    match (g.addLink link).1 with
    | .ok () => Function.update standing link.identity (some link)
    | .error _ => standing
  | .remove link => Function.update standing link.identity none

/-- The topology and the standing links after one change after the other. -/
def history (g : Graph) (standing : Standing) : List Change → Graph × Standing
  | [] => (g, standing)
  | c :: changes => (g.change c).history (standing.change g c) changes

/-- The topology that is discovered with changes of the empty one. -/
def discovered (changes : List Change) : Graph := (Graph.empty.history (fun _ => none) changes).1

/-- The links that stand after changes of the empty topology. -/
def standingLinks (changes : List Change) : Standing := (Graph.empty.history (fun _ => none) changes).2

/-- Whether a link is refused does not depend on the topology. -/
theorem addLink_fst (g g' : Graph) (link : Link) : (g.addLink link).1 = (g'.addLink link).1 := by
  unfold addLink
  cases link.origin.nodeOfPort with
  | error e => rfl
  | ok origin =>
    dsimp only
    cases targetGroups link origin <;> rfl

/-! ## Standing links -/

variable {g g' : Graph} {standing : Standing} {link whole : Link} {origin : Uid}

/-- The link is the standing one of its identity. -/
def Standing.Has (standing : Standing) (l : Link) : Prop := standing l.identity = some l

theorem has_dropped {identity : Uid × String} :
    Standing.Has (Function.update standing identity none) whole ↔ standing.Has whole ∧ whole.identity ≠ identity := by
  unfold Standing.Has
  by_cases h : whole.identity = identity
  · simp [h]
  · simp [h]

theorem has_put : Standing.Has (Function.update standing link.identity (some link)) whole ↔
    whole = link ∨ Standing.Has (Function.update standing link.identity none) whole := by
  rw [has_dropped]
  unfold Standing.Has
  by_cases h : whole.identity = link.identity
  · rw [h, Function.update_self, Option.some.injEq]
    constructor
    · rintro rfl; exact .inl rfl
    · rintro (rfl | ⟨-, hne⟩)
      · rfl
      · exact absurd rfl hne
  · rw [Function.update_of_ne h]
    constructor
    · intro hw; exact .inr ⟨hw, h⟩
    · rintro (rfl | ⟨hw, -⟩)
      · exact absurd rfl h
      · exact hw

/-! ## The topology holds the standing links -/

/-- Between two nodes, the topology holds the standing links that leave the first one, narrowed to the second. -/
def Holds (g : Graph) (standing : Standing) : Prop :=
  ∀ u v l, l ∈ g.linksBetween u v ↔
    ∃ whole, standing.Has whole ∧ whole.origin.nodeOfPort = .ok u ∧ l ∈ narrowed whole v

theorem identity_of_mem_narrowed {l : Link} {v : Uid} (h : l ∈ narrowed link v) : l.identity = link.identity := by
  obtain ⟨rfl, -⟩ := mem_narrowed.1 h
  rfl

theorem origin_eq_of_identity_eq (h : whole.identity = link.identity) : whole.origin = link.origin :=
  congrArg Prod.fst h

theorem holds_empty : Holds .empty fun _ => none := by
  intro u v l
  rw [linksBetween_of_get?_none rfl]
  simp [Standing.Has]

/-- Dropping an identity leaves the links of the others, which are all that leave another node. -/
theorem Holds.mem_discard (h : g.Holds standing) (ho : link.origin.nodeOfPort = .ok origin) {u v : Uid} {l : Link} :
    l ∈ (g.discard origin link).linksBetween u v ↔ l ∈ g.linksBetween u v ∧ l.identity ≠ link.identity := by
  rw [linksBetween_discard]
  split
  · rw [otherLinks, List.mem_filter, Bool.not_eq_true', ← Bool.not_eq_true, Link.sameIdentity_iff]
  · next hu =>
    refine ⟨fun hl => ⟨hl, fun hid => hu ?_⟩, And.left⟩
    obtain ⟨whole, -, hnode, hwhole⟩ := (h u v l).1 hl
    rw [origin_eq_of_identity_eq ((identity_of_mem_narrowed hwhole).symm.trans hid), ho] at hnode
    exact (Except.ok.inj hnode).symm

theorem Holds.discard (h : g.Holds standing) (ho : link.origin.nodeOfPort = .ok origin) :
    (g.discard origin link).Holds (Function.update standing link.identity none) := by
  intro u v l
  rw [h.mem_discard ho, h u v l]
  constructor
  · rintro ⟨⟨whole, hstands, hnode, hwhole⟩, hne⟩
    exact ⟨whole, has_dropped.2 ⟨hstands, identity_of_mem_narrowed hwhole ▸ hne⟩, hnode, hwhole⟩
  · rintro ⟨whole, hstands, hnode, hwhole⟩
    obtain ⟨hstands, hne⟩ := has_dropped.1 hstands
    exact ⟨⟨whole, hstands, hnode, hwhole⟩, identity_of_mem_narrowed hwhole ▸ hne⟩

theorem Holds.add (h : g.Holds standing) (hg' : g.addLink link = (.ok (), g')) :
    g'.Holds (Function.update standing link.identity (some link)) := by
  obtain ⟨origin, -, ho, -, -⟩ := addLink_eq_ok hg'
  intro u v l
  have hmem : l ∈ g'.linksBetween u v ↔
      l ∈ (g.discard origin link).linksBetween u v ∨ u = origin ∧ l ∈ narrowed link v := by
    rw [linksBetween_of_addLink hg' ho, linksBetween_discard]
    split <;> next hu => simp [hu]
  rw [hmem, h.discard ho u v l]
  constructor
  · rintro (⟨whole, hstands, hrest⟩ | ⟨rfl, hl⟩)
    · exact ⟨whole, has_put.2 (.inr hstands), hrest⟩
    · exact ⟨link, has_put.2 (.inl rfl), ho, hl⟩
  · rintro ⟨whole, hstands, hnode, hwhole⟩
    rcases has_put.1 hstands with rfl | hstands
    · exact .inr ⟨Except.ok.inj (hnode.symm.trans ho), hwhole⟩
    · exact .inl ⟨whole, hstands, hnode, hwhole⟩

theorem Holds.remove (h : g.Holds standing) (link : Link) :
    (g.removeLink link).2.Holds (Function.update standing link.identity none) := by
  unfold removeLink
  split
  · -- a link that leaves a malformed port has no identity of a link that is held
    next e he =>
    intro u v l
    rw [h u v l]
    refine exists_congr fun whole => and_congr_left ?_
    rintro ⟨hnode, -⟩
    rw [has_dropped, iff_self_and]
    rintro - heq
    rw [origin_eq_of_identity_eq heq, he] at hnode
    cases hnode
  · next origin ho => exact h.discard ho

theorem Holds.change (h : g.Holds standing) (c : Change) : (g.change c).Holds (standing.change g c) := by
  cases c with
  | remove link => exact h.remove link
  | add link =>
    rcases hadd : g.addLink link with ⟨_ | _, g'⟩ <;> simp only [Graph.change, Standing.change, hadd]
    · exact addLink_eq_error hadd ▸ h
    · exact h.add hadd

-- The induction is on the changes, from any topology that holds its standing links.
theorem Holds.history (h : g.Holds standing) (changes : List Change) :
    (g.history standing changes).1.Holds (g.history standing changes).2 := by
  induction changes generalizing g standing with
  | nil => exact h
  | cons c changes ih => exact ih (h.change c)

theorem Reachable.history (h : g.Reachable) (changes : List Change) : (g.history standing changes).1.Reachable := by
  induction changes generalizing g standing with
  | nil => exact h
  | cons c changes ih =>
    cases c with
    | add link => exact ih (h.add link)
    | remove link => exact ih (h.remove link)

/-! ## Main result -/

/-- Two histories of the empty topology, with the same standing links at the end: the topologies have the same
origins and the same destinations, the links between any two nodes are the same up to their order, and a search
reaches the same nodes, over the same length, by the same routes up to their order. -/
theorem discovery_order_irrelevant {changes changes' : List Change}
    (h : ∀ identity, standingLinks changes identity = standingLinks changes' identity) :
    (discovered changes).Alike (discovered changes') ∧
    ∀ source target, ∃ found found', (discovered changes).shortestRoutes source target = .ok found ∧
      (discovered changes').shortestRoutes source target = .ok found' ∧
      Option.Rel (fun r r' => r.length = r'.length ∧ r.paths.Perm r'.paths) found found' := by
  have hg : (discovered changes).WellFormed := (Reachable.empty.history changes).wellFormed
  have hg' : (discovered changes').WellFormed := (Reachable.empty.history changes').wellFormed
  have hholds : (discovered changes).Holds (standingLinks changes) := holds_empty.history changes
  have hholds' : (discovered changes').Holds (standingLinks changes') := holds_empty.history changes'
  rw [funext h] at hholds
  have halike := hg.alike hg' fun u v l => (hholds u v l).trans (hholds' u v l).symm
  exact ⟨halike, halike.routes hg hg'⟩

/-- A link from `a` to `b` and `c`. -/
def forked : Link := ⟨"0", ⟨"a$$1"⟩, [⟨"b$$1"⟩, ⟨"c$$1"⟩], .up⟩

/-- A link from `b` to `c` comes after the one from `a`. -/
def direct : List Change := [.add forked, .add (.between ⟨"b$$2"⟩ ⟨"c$$2"⟩)]

/-- The same links in the other order, around one that is removed, one that is replaced and one that is refused. -/
def roundabout : List Change :=
  [.remove (.between ⟨"c$$3"⟩ ⟨"d$$1"⟩), .add (.between ⟨"b$$2"⟩ ⟨"c$$2"⟩), .add (.between ⟨"c$$3"⟩ ⟨"d$$1"⟩),
    .add { forked with targets := [⟨"d$$1"⟩] }, .remove (.between ⟨"c$$3"⟩ ⟨"d$$1"⟩), .add forked,
    .add { forked with targets := [⟨"b$$1"⟩, ⟨"a$$2"⟩] }]

theorem standingLinks_roundabout : standingLinks direct = standingLinks roundabout := by
  have hforked (g : Graph) : (g.addLink forked).1 = .ok () :=
    (addLink_fst g .empty _).trans (by decide +kernel)
  have hbetween (g : Graph) : (g.addLink (.between ⟨"b$$2"⟩ ⟨"c$$2"⟩)).1 = .ok () :=
    (addLink_fst g .empty _).trans (by decide +kernel)
  have hremoved (g : Graph) : (g.addLink (.between ⟨"c$$3"⟩ ⟨"d$$1"⟩)).1 = .ok () :=
    (addLink_fst g .empty _).trans (by decide +kernel)
  have hreplaced (g : Graph) : (g.addLink { forked with targets := [⟨"d$$1"⟩] }).1 = .ok () :=
    (addLink_fst g .empty _).trans (by decide +kernel)
  have hrefused (g : Graph) : (g.addLink { forked with targets := [⟨"b$$1"⟩, ⟨"a$$2"⟩] }).1 =
      .error (.selfLoop forked.uid ⟨"a"⟩) :=
    (addLink_fst g .empty _).trans (by decide +kernel)
  simp only [standingLinks, direct, roundabout, history, Standing.change, hforked, hbetween, hremoved, hreplaced,
    hrefused]
  funext identity
  have hsame : ∀ targets, { forked with targets }.identity = forked.identity := fun _ => rfl
  simp only [Function.update_apply, hsame]
  by_cases h₁ : identity = forked.identity
  · subst h₁
    rw [if_neg (by decide), if_pos rfl, if_pos rfl]
  · simp only [if_neg h₁]
    by_cases h₂ : identity = (Link.between ⟨"c$$3"⟩ ⟨"d$$1"⟩).identity
    · subst h₂
      rw [if_neg (by decide), if_pos rfl]
    · simp only [if_neg h₂]

/-- Both histories lead to the same link from `a` to `c`, which is the only route. -/
theorem discovery_order_irrelevant_roundabout :
    (∀ identity, standingLinks direct identity = standingLinks roundabout identity) ∧
    (discovered direct).Alike (discovered roundabout) ∧
    (discovered direct).shortestRoutes ⟨"a"⟩ ⟨"c"⟩ = .ok (some ⟨1, [[{ forked with targets := [⟨"c$$1"⟩] }]]⟩) ∧
    (discovered roundabout).shortestRoutes ⟨"a"⟩ ⟨"c"⟩ = .ok (some ⟨1, [[{ forked with targets := [⟨"c$$1"⟩] }]]⟩) := by
  obtain ⟨halike, hroutes⟩ := discovery_order_irrelevant (congrFun standingLinks_roundabout)
  obtain ⟨found, found', hfound, hfound', hsame⟩ := hroutes ⟨"a"⟩ ⟨"c"⟩
  have hdirect : (discovered direct).shortestRoutes ⟨"a"⟩ ⟨"c"⟩ =
      .ok (some ⟨1, [[{ forked with targets := [⟨"c$$1"⟩] }]]⟩) := by decide +kernel
  refine ⟨congrFun standingLinks_roundabout, halike, hdirect, hfound'.trans ?_⟩
  obtain rfl : found = some _ := Except.ok.inj (hfound.symm.trans hdirect)
  -- a permutation of a single route is this route
  cases hsame with
  | @some _ r h =>
    obtain ⟨length, paths⟩ := r
    obtain ⟨hlength, hpaths⟩ := h
    rw [List.singleton_perm.1 hpaths, show length = 1 from hlength.symm]

end Graph

end ControlPlane
