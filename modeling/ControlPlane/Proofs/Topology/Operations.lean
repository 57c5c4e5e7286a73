/-
What one operation does to a topology that was built link by link. The links are those of a map from identities to
links, stored once for each node that the link leads to: adding a link replaces the records of its identity by those
of the new link, removing one drops them, and every other link stays where it is (`operations_refine`).

The law of the look-ups is in `linksBetween_of_addLink` and `linksBetween_discard`. Here it is said when a link is
accepted (`addLink_eq_ok_iff`), and that nothing is left behind where there was nothing to drop
(`WellFormed.discard_eq_self`): no empty group and no origin without groups.
-/
import ControlPlane.Proofs.Topology.Records
import ControlPlane.Proofs.Uid

namespace ControlPlane

/-! ## Ports of a node -/

/-- The UID is that of a port of the node: cut at the delimiters, it is the ID of the node and one of a port. -/
def Uid.PortOf (port node : Uid) : Prop := ∃ id, port.split = [node.text, id] ∧ node.text ≠ "" ∧ id ≠ ""

theorem Uid.portOf_iff {port node : Uid} : port.PortOf node ↔ port.nodeOfPort = .ok node :=
  exists_congr (fun _ => portParts_eq_ok_iff.symm) |>.trans nodeOfPort_eq_ok_iff.symm

/-- The link leaves a port of a node, and it leads to ports of other nodes only, at least to one. -/
def Link.Acceptable (l : Link) : Prop :=
  ∃ u, l.origin.PortOf u ∧ l.targets ≠ [] ∧ ∀ t ∈ l.targets, ∃ v, t.PortOf v ∧ v ≠ u

theorem Link.origin_eq_of_sameIdentity {a b : Link} (h : a.sameIdentity b = true) : a.origin = b.origin :=
  congrArg Prod.fst (sameIdentity_iff.1 h)

/-! ## What is listed of a restricted map -/

namespace SortedMap

variable {κ α β γ : Type} [LT κ]

/-- If every value lists what is left of its list, so do all of them together. -/
theorem flatMap_filterMap {f : κ → α → Option β} {m : SortedMap κ α} (list : α → List γ) (list' : β → List γ)
    {keep : γ → Bool} (h : ∀ e ∈ m.entries, (f e.1 e.2).elim [] list' = (list e.2).filter keep) :
    ((m.filterMap f).entries.flatMap fun e => list' e.2) = (m.entries.flatMap fun e => list e.2).filter keep := by
  rw [filterMap, List.filter_flatMap]
  dsimp only
  revert h
  induction m.entries with
  | nil => exact fun _ => rfl
  | cons e entries ih =>
    intro h
    rw [List.forall_mem_cons] at h
    rw [List.filterMap_cons, List.flatMap_cons, ← h.1, ← ih h.2]
    cases f e.1 e.2 <;> rfl

end SortedMap

namespace Graph

variable {g g' : Graph} {link : Link} {origin : Uid}

/-! ## When a link is accepted -/

theorem groupTarget_eq_ok_iff {groups : SortedMap Uid (List Uid)} {port : Uid} :
    (∃ groups', groupTarget link origin groups port = .ok groups') ↔ ∃ v, port.nodeOfPort = .ok v ∧ v ≠ origin := by
  unfold groupTarget
  cases port.nodeOfPort with
  | error e => simp
  | ok node => by_cases h : node = origin <;> simp [h]

theorem foldlM_groupTarget_eq_ok_iff {ports : List Uid} : ∀ {groups : SortedMap Uid (List Uid)},
    (∃ groups', ports.foldlM (groupTarget link origin) groups = .ok groups') ↔
      ∀ t ∈ ports, ∃ v, t.nodeOfPort = .ok v ∧ v ≠ origin := by
  induction ports with
  | nil => exact fun {groups} => ⟨fun _ t ht => absurd ht List.not_mem_nil, fun _ => ⟨groups, rfl⟩⟩
  | cons port ports ih =>
    intro groups
    rw [List.forall_mem_cons, List.foldlM_cons]
    constructor
    · rintro ⟨groups', h⟩
      obtain ⟨groups₁, h₁, h⟩ := bind_eq_ok h
      exact ⟨groupTarget_eq_ok_iff.1 ⟨groups₁, h₁⟩, ih.1 ⟨groups', h⟩⟩
    · rintro ⟨hport, hports⟩
      obtain ⟨groups₁, h₁⟩ : ∃ groups₁, groupTarget link origin groups port = .ok groups₁ :=
        groupTarget_eq_ok_iff.2 hport
      rw [h₁]
      exact ih.2 hports

theorem targetGroups_eq_ok_iff : (∃ groups, targetGroups link origin = .ok groups) ↔
    link.targets ≠ [] ∧ ∀ t ∈ link.targets, ∃ v, t.nodeOfPort = .ok v ∧ v ≠ origin := by
  unfold targetGroups
  split
  · next h => simp [List.isEmpty_iff.1 h]
  · next h => rw [foldlM_groupTarget_eq_ok_iff, and_iff_right (mt List.isEmpty_iff.2 h)]

theorem exists_addLink_eq_ok_iff : (∃ g', g.addLink link = (.ok (), g')) ↔ link.Acceptable := by
  simp only [Link.Acceptable, Uid.portOf_iff, ← targetGroups_eq_ok_iff]
  constructor
  · rintro ⟨g', h⟩
    obtain ⟨origin, groups, ho, hgroups, -⟩ := addLink_eq_ok h
    exact ⟨origin, ho, groups, hgroups⟩
  · rintro ⟨origin, ho, groups, hgroups⟩
    simp only [addLink, ho, hgroups]
    exact ⟨_, rfl⟩

theorem addLink_eq_ok_iff : (g.addLink link).1 = .ok () ↔ link.Acceptable := by
  rw [← exists_addLink_eq_ok_iff (g := g)]
  constructor
  · exact fun h => ⟨_, Prod.ext h rfl⟩
  · rintro ⟨g', h⟩
    rw [h]

/-! ## What is added -/

theorem outgoing_of_addLink (h : g.addLink link = (.ok (), g')) (ho : link.origin.nodeOfPort = .ok origin) {s : Uid}
    (hs : s ≠ origin) : g'.outgoing s = g.outgoing s := by
  obtain ⟨origin', groups, ho', -, rfl⟩ := addLink_eq_ok h
  obtain rfl : origin = origin' := Except.ok.inj (ho.symm.trans ho')
  have hkey : s.text ≠ origin.text := mt Uid.text_inj.1 hs
  rw [outgoing, Dict.get?_insert_of_ne _ _ hkey, get?_discard, if_neg hkey, outgoing]

/-! ## What is removed -/

/-- What is left of the adjacency of a node, if anything is. -/
def remaining (origin : Uid) (link : Link) (key : String) (a : Adjacency) : Option Adjacency :=
  if key = origin.text then if (withoutLink a link).isEmpty then none else some (withoutLink a link) else some a

theorem remaining_self (origin : Uid) (link : Link) : remaining origin link origin.text =
    fun a => if (withoutLink a link).isEmpty then none else some (withoutLink a link) :=
  funext fun _ => if_pos rfl

theorem remaining_of_ne {key : String} (h : key ≠ origin.text) : remaining origin link key = some :=
  funext fun _ => if_neg h

theorem adjacency_discard (g : Graph) (origin : Uid) (link : Link) :
    (g.discard origin link).adjacency = ⟨g.adjacency.name, g.adjacency.entries.filterMap (remaining origin link)⟩ := by
  have hname : (g.discard origin link).adjacency.name = g.adjacency.name := by
    unfold discard
    split
    · rfl
    · dsimp only
      split <;> rfl
  have hentries : (g.discard origin link).adjacency.entries =
      g.adjacency.entries.filterMap (remaining origin link) := by
    refine SortedMap.ext_get? fun key => ?_
    rw [SortedMap.get?_filterMap]
    refine (get?_discard g origin link key).trans ?_
    by_cases hkey : key = origin.text
    · rw [if_pos hkey, hkey, remaining_self]
      rfl
    · rw [if_neg hkey, remaining_of_ne hkey, Option.bind_fun_some]
      rfl
  rw [← hname, ← hentries]

theorem listed_withoutLink (a : Adjacency) (link : Link) :
    listed (withoutLink a link) = otherLinks link (listed a) := by
  refine SortedMap.flatMap_filterMap id id fun e _ => ?_
  dsimp only [id]
  split
  · next h => exact (List.isEmpty_iff.1 h).symm
  · rfl

/-- Links that leave another node have another identity. -/
theorem not_sameIdentity_of_node {l : Link} {u : Uid} (ho : link.origin.nodeOfPort = .ok origin)
    (hl : l.origin.nodeOfPort = .ok u) (hu : u ≠ origin) : l.sameIdentity link = false := by
  refine Bool.eq_false_iff.2 fun hsame => hu ?_
  rw [Link.origin_eq_of_sameIdentity hsame, ho] at hl
  exact (Except.ok.inj hl).symm

theorem otherLinks_eq_self {links : List Link} (h : ∀ l ∈ links, l.sameIdentity link = false) :
    otherLinks link links = links :=
  List.filter_eq_self.2 fun l hl => by rw [h l hl]; rfl

/-- Dropping a link's identity leaves all other links in order. -/
theorem WellFormed.allLinks_discard (hg : g.WellFormed) (ho : link.origin.nodeOfPort = .ok origin) :
    (g.discard origin link).allLinks = otherLinks link g.allLinks := by
  rw [allLinks_eq_listed, allLinks_eq_listed, adjacency_discard]
  refine SortedMap.flatMap_filterMap listed listed fun e he => ?_
  unfold remaining
  split
  · rw [← otherLinks, ← listed_withoutLink]
    split
    · next hempty => rw [listed, List.isEmpty_iff.1 hempty]; rfl
    · rfl
  · next hkey =>
    refine (otherLinks_eq_self fun l (hl : l ∈ listed e.2) => ?_).symm
    rw [listed_of_mem he] at hl
    exact not_sameIdentity_of_node ho (hg.mem_links.1 hl).2 (mt Uid.text_inj.2 hkey)

theorem withoutLink_eq_self {a : Adjacency} (h : ∀ v ls, a.get? v = some ls → ls ≠ [])
    (hother : ∀ v, ∀ l ∈ (a.get? v).getD [], l.sameIdentity link = false) : withoutLink a link = a := by
  refine SortedMap.ext_get? fun v => ?_
  rw [get?_withoutLink]
  cases hv : a.get? v with
  | none => rfl
  | some ls =>
    have hls : otherLinks link ls = ls := otherLinks_eq_self fun l hl => hother v l (by rwa [hv])
    rw [Option.bind_some, hls, if_neg (mt List.isEmpty_iff.1 (h v ls hv))]

/-- Where nothing is recorded of an identity, dropping it changes nothing. -/
theorem WellFormed.discard_eq_self (hg : g.WellFormed) (h : ∀ l ∈ g.links origin, l.sameIdentity link = false) :
    g.discard origin link = g := by
  unfold Graph.discard
  split
  · rfl
  · next a ha =>
    have hrest : withoutLink a link = a := by
      refine withoutLink_eq_self (fun v ls => hg.links origin.text a v ls ha) fun v l hl => h l ?_
      exact Graph.mem_links.2 ⟨v, by rwa [linksBetween_of_get? ha]⟩
    have hfilled : a.isEmpty ≠ true := by
      obtain ⟨v, ls, hv⟩ := hg.groups origin.text a ha
      intro hempty
      rw [SortedMap.isEmpty_iff.1 hempty v] at hv
      cases hv
    dsimp only
    rw [hrest, if_neg hfilled, Dict.insert_of_get? ha]

theorem records_iff {a : Adjacency} : records a link = true ↔ ∃ l ∈ listed a, l.sameIdentity link = true := by
  simp only [records, SortedMap.values, listed, List.any_eq_true, List.mem_map, List.mem_flatMap]
  constructor
  · rintro ⟨-, ⟨e, he, rfl⟩, l, hl, hsame⟩
    exact ⟨l, ⟨e, he, hl⟩, hsame⟩
  · rintro ⟨l, ⟨e, he, hl⟩, hsame⟩
    exact ⟨e.2, ⟨e, he, rfl⟩, l, hl, hsame⟩

theorem records_outgoing_iff :
    records (g.outgoing origin) link = true ↔ ∃ l ∈ g.links origin, l.sameIdentity link = true := by
  rw [records_iff, links_eq_listed]

/-- A record of the identity is one that leaves the node of the port. -/
theorem WellFormed.exists_same_iff (hg : g.WellFormed) (ho : link.origin.nodeOfPort = .ok origin) :
    (∃ l ∈ g.links origin, l.sameIdentity link = true) ↔ ∃ l ∈ g.allLinks, l.sameIdentity link = true := by
  constructor
  · rintro ⟨l, hl, hsame⟩
    exact ⟨l, (hg.mem_links.1 hl).1, hsame⟩
  · rintro ⟨l, hl, hsame⟩
    exact ⟨l, hg.mem_links.2 ⟨hl, Link.origin_eq_of_sameIdentity hsame ▸ ho⟩, hsame⟩

/-! ## The operations -/

theorem addLink_of_accepted (hok : (g.addLink link).1 = .ok ()) (ho : link.origin.nodeOfPort = .ok origin) :
    (∀ v, (g.addLink link).2.linksBetween origin v = otherLinks link (g.linksBetween origin v) ++ narrowed link v) ∧
    ∀ s, s ≠ origin → (g.addLink link).2.outgoing s = g.outgoing s := by
  have hadd : g.addLink link = (.ok (), (g.addLink link).2) := Prod.ext hok rfl
  exact ⟨fun v => (linksBetween_of_addLink hadd ho origin v).trans (if_pos rfl), fun s => outgoing_of_addLink hadd ho⟩

theorem addLink_of_refused (hno : (g.addLink link).1 ≠ .ok ()) : (g.addLink link).2 = g := by
  rcases h : g.addLink link with ⟨_ | _, g'⟩
  · exact addLink_eq_error h
  · exact absurd (by rw [h]) hno

theorem removeLink_of_ok (ho : link.origin.nodeOfPort = .ok origin) :
    g.removeLink link = (.ok (records (g.outgoing origin) link), g.discard origin link) := by
  rw [removeLink, ho]

theorem removeLink_of_error {e : Uid.Error} (ho : link.origin.nodeOfPort = .error e) :
    g.removeLink link = (.error (.malformedLink e), g) := by
  rw [removeLink, ho]

theorem removeLink_eq_error_iff : (∃ e, (g.removeLink link).1 = .error e) ↔ ¬ ∃ u, link.origin.PortOf u := by
  simp only [Uid.portOf_iff]
  cases ho : link.origin.nodeOfPort with
  | error e => simp [removeLink_of_error ho]
  | ok origin => simp [removeLink_of_ok ho]

theorem removeLink_of_refused (h : ∃ e, (g.removeLink link).1 = .error e) : (g.removeLink link).2 = g := by
  obtain ⟨e, he⟩ := h
  cases ho : link.origin.nodeOfPort with
  | error e => rw [removeLink_of_error ho]
  | ok origin => rw [removeLink_of_ok ho] at he; cases he

/-- What the answer of a removal says: where the link leaves, and whether it was recorded. -/
theorem removeLink_eq_ok {found : Bool} (h : (g.removeLink link).1 = .ok found) :
    ∃ origin, link.origin.nodeOfPort = .ok origin ∧ (g.removeLink link).2 = g.discard origin link ∧
      (found = true ↔ ∃ l ∈ g.links origin, l.sameIdentity link = true) := by
  cases ho : link.origin.nodeOfPort with
  | error e => rw [removeLink_of_error ho] at h; cases h
  | ok origin =>
    rw [removeLink_of_ok ho] at h ⊢
    cases h
    exact ⟨origin, rfl, rfl, records_outgoing_iff⟩

theorem WellFormed.removeLink_eq_true_iff (hg : g.WellFormed) :
    (g.removeLink link).1 = .ok true ↔ ∃ l ∈ g.allLinks, l.sameIdentity link = true := by
  constructor
  · intro h
    obtain ⟨origin, ho, -, hfound⟩ := removeLink_eq_ok h
    exact (hg.exists_same_iff ho).1 (hfound.1 rfl)
  · rintro ⟨l, hl, hsame⟩
    -- the record leaves the port that the link leaves, so this is the port of a node
    obtain ⟨u, v, huv⟩ := mem_allLinks.1 hl
    have ho := (hg.recorded u v l huv).origin
    rw [Link.origin_eq_of_sameIdentity hsame] at ho
    rw [removeLink_of_ok ho, records_outgoing_iff.2 ((hg.exists_same_iff ho).2 ⟨l, hl, hsame⟩)]

theorem WellFormed.removeLink_of_found (hg : g.WellFormed) (h : (g.removeLink link).1 = .ok true) :
    (g.removeLink link).2.allLinks = otherLinks link g.allLinks ∧
      ∀ u v, (g.removeLink link).2.linksBetween u v = otherLinks link (g.linksBetween u v) := by
  obtain ⟨origin, ho, hafter, -⟩ := removeLink_eq_ok h
  rw [hafter]
  refine ⟨hg.allLinks_discard ho, fun u v => ?_⟩
  rw [linksBetween_discard]
  split
  · rfl
  · next hu => exact (otherLinks_eq_self fun l hl => not_sameIdentity_of_node ho (hg.recorded u v l hl).origin hu).symm

theorem WellFormed.removeLink_of_absent (hg : g.WellFormed) (h : (g.removeLink link).1 = .ok false) :
    (g.removeLink link).2 = g := by
  obtain ⟨origin, -, hafter, hfound⟩ := removeLink_eq_ok h
  rw [hafter]
  exact hg.discard_eq_self fun l hl => Bool.eq_false_iff.2 fun hsame => Bool.false_ne_true (hfound.2 ⟨l, hl, hsame⟩)

/-! ## Main result -/

/-- Adding a link succeeds exactly if the ports of the link are those of nodes, at least one of them is a target, and
no target is on the node of the origin. Between that node and each other one, the records of the same identity then
give place to one copy of the link, narrowed to the ports of the other node, if it has any; the links of all other
origins are what they were, and so is the whole topology if the link is refused. Removing a link fails exactly if its
origin is no port, and tells whether there were records of its identity; it drops them and leaves all other links in
order, and if it fails or there were none, the topology is what it was. -/
theorem operations_refine (h : g.Reachable) (link : Link) :
    ((g.addLink link).1 = .ok () ↔ link.Acceptable) ∧
    (∀ u, (g.addLink link).1 = .ok () → link.origin.PortOf u →
      (∀ v, (g.addLink link).2.linksBetween u v = otherLinks link (g.linksBetween u v) ++ narrowed link v) ∧
      ∀ s, s ≠ u → (g.addLink link).2.outgoing s = g.outgoing s) ∧
    ((g.addLink link).1 ≠ .ok () → (g.addLink link).2 = g) ∧
    ((∃ e, (g.removeLink link).1 = .error e) ↔ ¬ ∃ u, link.origin.PortOf u) ∧
    ((∃ e, (g.removeLink link).1 = .error e) → (g.removeLink link).2 = g) ∧
    ((g.removeLink link).1 = .ok true ↔ ∃ l ∈ g.allLinks, l.sameIdentity link = true) ∧
    ((g.removeLink link).1 = .ok true → (g.removeLink link).2.allLinks = otherLinks link g.allLinks ∧
      ∀ u v, (g.removeLink link).2.linksBetween u v = otherLinks link (g.linksBetween u v)) ∧
    ((g.removeLink link).1 = .ok false → (g.removeLink link).2 = g) := by
  have hg := h.wellFormed
  exact ⟨addLink_eq_ok_iff, fun u hok hu => addLink_of_accepted hok (Uid.portOf_iff.1 hu), addLink_of_refused,
    removeLink_eq_error_iff, removeLink_of_refused, hg.removeLink_eq_true_iff, hg.removeLink_of_found,
    hg.removeLink_of_absent⟩

/-- The link to `c` and `d` is announced again with other ports, and then removed. -/
theorem operations_refine_rerouted :
    (rerouted.addLink ⟨"0", ⟨"a$$1"⟩, [⟨"d$$2"⟩, ⟨"b$$1"⟩, ⟨"d$$3"⟩], .up⟩).1 = .ok () ∧
    (rerouted.addLink ⟨"0", ⟨"a$$1"⟩, [⟨"d$$2"⟩, ⟨"b$$1"⟩, ⟨"d$$3"⟩], .up⟩).2.linksBetween ⟨"a"⟩ ⟨"d"⟩ =
      [⟨"0", ⟨"a$$1"⟩, [⟨"d$$2"⟩, ⟨"d$$3"⟩], .up⟩] ∧
    (rerouted.removeLink ⟨"0", ⟨"a$$1"⟩, [], .up⟩).1 = .ok true ∧
    (rerouted.removeLink ⟨"0", ⟨"a$$1"⟩, [], .up⟩).2.allLinks = [⟨"1", ⟨"a$$1"⟩, [⟨"c$$4"⟩], .up⟩] ∧
    (rerouted.removeLink ⟨"0", ⟨"b$$1"⟩, [], .up⟩).2 = rerouted := by
  have hport : ∀ {port : Uid} (node : Uid), port.nodeOfPort = .ok node → port.PortOf node := fun _ => Uid.portOf_iff.2
  obtain ⟨hok, hadd, -⟩ := operations_refine reachable_rerouted ⟨"0", ⟨"a$$1"⟩, [⟨"d$$2"⟩, ⟨"b$$1"⟩, ⟨"d$$3"⟩], .up⟩
  obtain ⟨-, -, -, -, -, hfound, hremove, -⟩ := operations_refine reachable_rerouted ⟨"0", ⟨"a$$1"⟩, [], .up⟩
  obtain ⟨-, -, -, -, -, -, -, habsent⟩ := operations_refine reachable_rerouted ⟨"0", ⟨"b$$1"⟩, [], .up⟩
  have ha : Uid.PortOf ⟨"a$$1"⟩ ⟨"a"⟩ := hport _ (by decide +kernel)
  have hsuccess := hok.2 ⟨⟨"a"⟩, ha, by decide, by
    simp only [List.forall_mem_cons, List.not_mem_nil, false_implies, implies_true, and_true]
    exact ⟨⟨⟨"d"⟩, hport _ (by decide +kernel), by decide⟩, ⟨⟨"b"⟩, hport _ (by decide +kernel), by decide⟩,
      ⟨⟨"d"⟩, hport _ (by decide +kernel), by decide⟩⟩⟩
  have htrue := hfound.2 (by decide +kernel)
  refine ⟨hsuccess, ?_, htrue, ?_, habsent (by decide +kernel)⟩
  · rw [(hadd ⟨"a"⟩ hsuccess ha).1]
    decide +kernel
  · rw [(hremove htrue).1]
    decide +kernel

end Graph

end ControlPlane
