/-
Adding and removing links. Each operation has one law that says what it does to the links between two
nodes: removing drops the records of one identity, and adding drops them and then records, for every
node with target ports, one copy of the link narrowed to these ports (`linksBetween_discard`,
`linksBetween_of_addLink`).

From the two laws follows the invariant of the adjacency (`Reachable.wellFormed`): whatever the order
of the operations and whether they succeed, no origin is without groups and no group without links, and
a link recorded from one node to another leaves a port of the first, leads to ports of the second only,
and is the only one of its identity there.
-/
import ControlPlane.Proofs.Outcome
import ControlPlane.Proofs.Topology.Walk
import Mathlib.Tactic.ByContra

namespace ControlPlane

theorem Uid.text_inj {a b : Uid} : a.text = b.text ↔ a = b := by
  cases a; cases b; simp

/-- The UID is one of a port of the node. -/
def Uid.onNode (port node : Uid) : Bool :=
  match port.nodeOfPort with
  | .ok n => n == node
  | .error _ => false

theorem Uid.onNode_iff {port node : Uid} : port.onNode node = true ↔ port.nodeOfPort = .ok node := by
  unfold Uid.onNode
  split
  · next n h => rw [h, beq_iff_eq, Except.ok.injEq]
  · next e h => simp [h]

/-- The target ports of a link on a node, in order. -/
def Link.targetsOn (l : Link) (node : Uid) : List Uid := l.targets.filter (·.onNode node)

theorem SortedMap.isEmpty_iff {κ α : Type} [LT κ] [DecidableLT κ] [StrictOrder κ] {m : SortedMap κ α} :
    m.isEmpty = true ↔ ∀ k, m.get? k = none := by
  constructor
  · intro h k
    have hm : m.entries = [] := List.isEmpty_iff.1 h
    simp [get?, hm, lookup]
  · intro h
    refine List.isEmpty_iff.2 (List.eq_nil_iff_forall_not_mem.2 fun e he => ?_)
    have := get?_eq_some_iff.2 he
    rw [h] at this
    cases this

namespace Graph

/-! ## What is looked up after a link is dropped -/

/-- The records that are left of a group when those of a link's identity are dropped. -/
def otherLinks (link : Link) (links : List Link) : List Link := links.filter fun l => !l.sameIdentity link

theorem get?_withoutLink (a : Adjacency) (link : Link) (v : Uid) : (withoutLink a link).get? v =
    (a.get? v).bind fun ls => if (otherLinks link ls).isEmpty then none else some (otherLinks link ls) :=
  SortedMap.get?_filterMap _ _ _

theorem getD_get?_withoutLink (a : Adjacency) (link : Link) (v : Uid) :
    ((withoutLink a link).get? v).getD [] = otherLinks link ((a.get? v).getD []) := by
  rw [get?_withoutLink]
  cases a.get? v with
  | none => rfl
  | some ls =>
    simp only [Option.bind_some, Option.getD_some]
    split
    · next h => simp [List.isEmpty_iff.1 h]
    · rfl

theorem get?_discard (g : Graph) (origin : Uid) (link : Link) (key : String) :
    (g.discard origin link).adjacency.get? key = if key = origin.text then
      (g.adjacency.get? origin.text).bind fun a =>
        if (withoutLink a link).isEmpty then none else some (withoutLink a link)
    else g.adjacency.get? key := by
  unfold discard
  split
  · next h =>
    split
    · next hk => rw [hk, h]; rfl
    · rfl
  · next a h =>
    rw [h]
    dsimp only [Option.bind_some]
    by_cases hk : key = origin.text
    · subst hk
      rw [if_pos rfl]
      split
      · exact Dict.get?_erase_self _ _
      · exact Dict.get?_insert_self _ _ _
    · rw [if_neg hk]
      split
      · exact Dict.get?_erase_of_ne _ hk
      · exact Dict.get?_insert_of_ne _ _ hk

theorem get?_outgoing_discard (g : Graph) (origin : Uid) (link : Link) (u v : Uid) :
    ((g.discard origin link).outgoing u).get? v =
      if u = origin then (withoutLink (g.outgoing u) link).get? v else (g.outgoing u).get? v := by
  unfold outgoing
  simp only [get?_discard, Uid.text_inj]
  split
  · next h =>
    subst h
    cases g.adjacency.get? u.text with
    | none => simp [get?_withoutLink]
    | some a =>
      simp only [Option.bind_some, Option.getD_some]
      split
      · next he => simp [SortedMap.isEmpty_iff.1 he v]
      · rfl
  · rfl

/-- Dropping a link's identity leaves the other links in order. -/
theorem linksBetween_discard (g : Graph) (origin : Uid) (link : Link) (u v : Uid) :
    (g.discard origin link).linksBetween u v =
      if u = origin then otherLinks link (g.linksBetween u v) else g.linksBetween u v := by
  unfold linksBetween
  rw [get?_outgoing_discard]
  split
  · exact getD_get?_withoutLink _ _ _
  · rfl

/-! ## What is looked up after a link is recorded -/

/-- The target ports of a link in groups: every group holds the ports on its node, none is empty, and
none is the one of the node that the link leaves. -/
structure Grouped (targets : List Uid) (origin : Uid) (groups : SortedMap Uid (List Uid)) : Prop where
  ports : ∀ v, (groups.get? v).getD [] = targets.filter (·.onNode v)
  ne_nil : ∀ v ports, groups.get? v = some ports → ports ≠ []
  node : ∀ t ∈ targets, ∃ v, t.nodeOfPort = .ok v ∧ v ≠ origin

theorem grouped_empty (origin : Uid) : Grouped [] origin .empty :=
  ⟨by simp, by simp, by simp⟩

theorem Grouped.groupTarget {targets : List Uid} {origin : Uid} {groups groups' : SortedMap Uid (List Uid)}
    {link : Link} {port : Uid} (hG : Grouped targets origin groups)
    (h : Graph.groupTarget link origin groups port = .ok groups') :
    Grouped (targets ++ [port]) origin groups' := by
  unfold Graph.groupTarget at h
  split at h
  · cases h
  · next node hnode =>
    split at h
    · cases h
    · next hne =>
      cases h
      have hon : ∀ v, port.onNode v = true ↔ v = node := by
        intro v
        rw [Uid.onNode_iff, hnode, Except.ok.injEq]
        exact eq_comm
      refine ⟨fun v => ?_, fun v ports hv => ?_, fun t ht => ?_⟩
      · rw [SortedMap.get?_insert, List.filter_append]
        split
        · next hv => simp [hv, hG.ports, (hon node).2 rfl]
        · next hv => simp [hG.ports, mt (hon v).1 hv]
      · rw [SortedMap.get?_insert] at hv
        split at hv
        · cases hv; simp
        · exact hG.ne_nil v ports hv
      · rcases List.mem_append.1 ht with ht | ht
        · exact hG.node t ht
        · rw [List.mem_singleton.1 ht]
          exact ⟨node, hnode, hne⟩

theorem Grouped.foldlM {origin : Uid} {link : Link} : ∀ {ports targets : List Uid}
    {groups groups' : SortedMap Uid (List Uid)}, Grouped targets origin groups →
    ports.foldlM (Graph.groupTarget link origin) groups = .ok groups' → Grouped (targets ++ ports) origin groups'
  | [], targets, groups, groups', hG, h => by cases h; simpa using hG
  | port :: ports, targets, groups, groups', hG, h => by
    rw [List.foldlM_cons] at h
    obtain ⟨groups₁, h1, h2⟩ := bind_eq_ok h
    simpa using Grouped.foldlM (hG.groupTarget h1) h2

theorem grouped_of_targetGroups {link : Link} {origin : Uid} {groups : SortedMap Uid (List Uid)}
    (h : targetGroups link origin = .ok groups) : link.targets ≠ [] ∧ Grouped link.targets origin groups := by
  unfold targetGroups at h
  split at h
  · cases h
  · next hne => exact ⟨by simpa using hne, by simpa using (grouped_empty origin).foldlM h⟩

/-- Recording a link once for each group appends it to the links to the node of the group. -/
theorem get?_foldl_insert (link : Link) (v : Uid) : ∀ (groups : List (Uid × List Uid)) (a : Adjacency),
    groups.Pairwise (fun p q => p.1 < q.1) →
    (groups.foldl (fun a group => a.insert group.1 ((a.get? group.1).getD [] ++ [{ link with targets := group.2 }]))
      a).get? v = match SortedMap.lookup v groups with
        | none => a.get? v
        | some ports => some ((a.get? v).getD [] ++ [{ link with targets := ports }])
  | [], a, _ => rfl
  | (n, ports) :: groups, a, h => by
    obtain ⟨hn, hgroups⟩ := List.pairwise_cons.1 h
    rw [List.foldl_cons, get?_foldl_insert link v groups _ hgroups, SortedMap.lookup, SortedMap.get?_insert]
    have hsome : ∀ ports', SortedMap.lookup v groups = some ports' → n < v := fun ports' hv =>
      hn _ ((SortedMap.lookup_eq_some_iff hgroups).1 hv)
    by_cases hv : v = n
    · subst hv
      have hnone : SortedMap.lookup v groups = none := by
        cases hl : SortedMap.lookup v groups with
        | none => rfl
        | some ports' => exact absurd (hsome _ hl) (StrictOrder.irrefl _)
      simp [hnone, StrictOrder.irrefl]
    · rw [if_neg hv]
      by_cases hlt : v < n
      · have hnone : SortedMap.lookup v groups = none := by
          cases hl : SortedMap.lookup v groups with
          | none => rfl
          | some ports' => exact absurd (StrictOrder.trans hlt (hsome _ hl)) (StrictOrder.irrefl _)
        simp [hnone, hlt]
      · have hlt' : n < v := ((StrictOrder.total v n).resolve_left hlt).resolve_left hv
        rw [if_neg hlt, if_pos hlt']

theorem get?_withLink (a : Adjacency) (link : Link) (groups : SortedMap Uid (List Uid)) (v : Uid) :
    (withLink a link groups).get? v = match groups.get? v with
      | none => a.get? v
      | some ports => some ((a.get? v).getD [] ++ [{ link with targets := ports }]) :=
  get?_foldl_insert link v groups.entries a groups.sorted

/-- The links that a link is recorded as between its node and another one. -/
def narrowed (link : Link) (v : Uid) : List Link :=
  if link.targetsOn v = [] then [] else [{ link with targets := link.targetsOn v }]

/-- A link is refused without a change, or it is recorded in place of those of the same identity. -/
theorem addLink_cases (g : Graph) (link : Link) : (∃ e, g.addLink link = (.error e, g)) ∨
    ∃ origin groups, link.origin.nodeOfPort = .ok origin ∧ targetGroups link origin = .ok groups ∧
      g.addLink link = (.ok (), ⟨(g.discard origin link).adjacency.insert origin.text
        (withLink ((g.discard origin link).outgoing origin) link groups)⟩) := by
  unfold addLink
  cases ho : link.origin.nodeOfPort with
  | error e => exact .inl ⟨_, rfl⟩
  | ok origin =>
    cases hgroups : targetGroups link origin with
    | error e => exact .inl ⟨e, by simp only [hgroups]⟩
    | ok groups => exact .inr ⟨origin, groups, rfl, hgroups, by simp only [hgroups]⟩

theorem addLink_eq_error {g g' : Graph} {link : Link} {e : GraphError} (h : g.addLink link = (.error e, g')) :
    g' = g := by
  rcases g.addLink_cases link with ⟨e', he⟩ | ⟨origin, groups, -, -, hok⟩
  · rw [he] at h
    exact (congrArg Prod.snd h).symm
  · rw [hok] at h
    cases h

theorem addLink_eq_ok {g g' : Graph} {link : Link} (h : g.addLink link = (.ok (), g')) :
    ∃ origin groups, link.origin.nodeOfPort = .ok origin ∧ targetGroups link origin = .ok groups ∧
      g' = ⟨(g.discard origin link).adjacency.insert origin.text
        (withLink ((g.discard origin link).outgoing origin) link groups)⟩ := by
  rcases g.addLink_cases link with ⟨e, he⟩ | ⟨origin, groups, ho, hgroups, hok⟩
  · rw [he] at h
    cases h
  · rw [hok] at h
    exact ⟨origin, groups, ho, hgroups, (congrArg Prod.snd h).symm⟩

/-- A link that is added stands behind the others, narrowed to the ports of each node. -/
theorem linksBetween_of_addLink {g g' : Graph} {link : Link} {origin : Uid} (h : g.addLink link = (.ok (), g'))
    (ho : link.origin.nodeOfPort = .ok origin) (u v : Uid) : g'.linksBetween u v =
      if u = origin then otherLinks link (g.linksBetween u v) ++ narrowed link v else g.linksBetween u v := by
  obtain ⟨origin', groups, ho', hgroups, rfl⟩ := addLink_eq_ok h
  rw [ho] at ho'
  cases ho'
  obtain ⟨-, hG⟩ := grouped_of_targetGroups hgroups
  have hdis := linksBetween_discard g origin link u v
  rw [linksBetween_insert]
  split
  · next hu =>
    subst hu
    rw [if_pos rfl] at hdis
    rw [get?_withLink, ← hdis, narrowed, Link.targetsOn, ← hG.ports]
    cases hv : groups.get? v with
    | none => simp [linksBetween]
    | some ports => simp [linksBetween, hG.ne_nil v ports hv]
  · next hu =>
    rw [if_neg hu] at hdis
    exact hdis

/-! ## The invariant of the adjacency -/

/-- What holds of a link that is recorded from one node to another. -/
structure RecordedBetween (u v : Uid) (l : Link) : Prop where
  origin : l.origin.nodeOfPort = .ok u
  targets_ne_nil : l.targets ≠ []
  targets : ∀ t ∈ l.targets, t.nodeOfPort = .ok v
  ne : u ≠ v

theorem RecordedBetween.exists_target {u v : Uid} {l : Link} (h : RecordedBetween u v l) :
    ∃ t ∈ l.targets, t.nodeOfPort = .ok v := by
  obtain ⟨t, ht⟩ := List.exists_mem_of_ne_nil _ h.targets_ne_nil
  exact ⟨t, ht, h.targets t ht⟩

/-- The ports of a link tell between which nodes it is recorded. -/
theorem RecordedBetween.unique {u v u' v' : Uid} {l : Link} (h : RecordedBetween u v l)
    (h' : RecordedBetween u' v' l) : u = u' ∧ v = v' := by
  obtain ⟨t, ht, hv⟩ := h.exists_target
  exact ⟨Except.ok.inj (h.origin.symm.trans h'.origin), Except.ok.inj (hv.symm.trans (h'.targets t ht))⟩

/-- The invariant of an adjacency that was built link by link. -/
structure WellFormed (g : Graph) : Prop where
  /-- Every origin has a group. -/
  groups : ∀ key a, g.adjacency.get? key = some a → ∃ v ls, a.get? v = some ls
  /-- Every group has a link. -/
  links : ∀ key a v ls, g.adjacency.get? key = some a → a.get? v = some ls → ls ≠ []
  recorded : ∀ u v, ∀ l ∈ g.linksBetween u v, RecordedBetween u v l
  /-- No two links of a group have the same identity. -/
  identities : ∀ u v, (g.linksBetween u v).Pairwise fun a b => a.sameIdentity b = false

/-- The topologies that come from the empty one by adding and removing links, with or without success. -/
inductive Reachable : Graph → Prop where
  | empty : Reachable .empty
  | add {g : Graph} (link : Link) : Reachable g → Reachable (g.addLink link).2
  | remove {g : Graph} (link : Link) : Reachable g → Reachable (g.removeLink link).2

theorem wellFormed_empty : WellFormed .empty := by
  have hget : ∀ key, Graph.empty.adjacency.get? key = none := fun _ => rfl
  have hlinks : ∀ u v, Graph.empty.linksBetween u v = [] := fun u => linksBetween_of_get?_none (hget u.text)
  refine ⟨fun key a h => ?_, fun key a v ls h => ?_, fun u v l hl => ?_, fun u v => ?_⟩
  · rw [hget] at h; cases h
  · rw [hget] at h; cases h
  · rw [hlinks] at hl; cases hl
  · rw [hlinks]; exact .nil

theorem otherLinks_sublist (link : Link) (ls : List Link) : (otherLinks link ls).Sublist ls :=
  List.filter_sublist

theorem WellFormed.discard {g : Graph} (hg : g.WellFormed) (origin : Uid) (link : Link) :
    (g.discard origin link).WellFormed := by
  have hsub : ∀ u v, ((g.discard origin link).linksBetween u v).Sublist (g.linksBetween u v) := by
    intro u v
    rw [linksBetween_discard]
    split
    · exact otherLinks_sublist _ _
    · exact List.Sublist.refl _
  -- the adjacency of an origin is an old one, or what is left of an old one and not empty
  have hget : ∀ key a, (g.discard origin link).adjacency.get? key = some a → g.adjacency.get? key = some a ∨
      ∃ a₀, a = withoutLink a₀ link ∧ a.isEmpty = false := by
    intro key a h
    rw [get?_discard] at h
    split at h
    · obtain ⟨a₀, -, h⟩ := Option.bind_eq_some_iff.1 h
      split at h
      · cases h
      · next hne =>
        cases h
        exact .inr ⟨a₀, rfl, by simpa using hne⟩
    · exact .inl h
  refine ⟨fun key a h => ?_, fun key a v ls h hv => ?_, fun u v l hl => hg.recorded u v l ((hsub u v).subset hl),
    fun u v => (hg.identities u v).sublist (hsub u v)⟩
  · rcases hget key a h with h | ⟨a₀, -, hne⟩
    · exact hg.groups key a h
    · by_contra hno
      have := SortedMap.isEmpty_iff.2 fun v => Option.eq_none_iff_forall_ne_some.2 fun ls hv => hno ⟨v, ls, hv⟩
      rw [hne] at this
      cases this
  · rcases hget key a h with h | ⟨a₀, rfl, -⟩
    · exact hg.links key a v ls h hv
    · rw [get?_withoutLink] at hv
      obtain ⟨ls₀, -, hv⟩ := Option.bind_eq_some_iff.1 hv
      split at hv
      · cases hv
      · next hne => cases hv; simpa using hne

theorem mem_narrowed {link l : Link} {v : Uid} :
    l ∈ narrowed link v ↔ l = { link with targets := link.targetsOn v } ∧ link.targetsOn v ≠ [] := by
  unfold narrowed
  split
  · next h => simp [h]
  · next h => simp [h]

/-- There is a group for the node of the first target port. -/
theorem Grouped.exists_group {targets : List Uid} {origin : Uid} {groups : SortedMap Uid (List Uid)}
    (hG : Grouped targets origin groups) (hne : targets ≠ []) : ∃ v ports, groups.get? v = some ports := by
  obtain ⟨t, ht⟩ := List.exists_mem_of_ne_nil _ hne
  obtain ⟨v, hv, -⟩ := hG.node t ht
  refine ⟨v, ?_⟩
  cases h : groups.get? v with
  | none =>
    have hnil := hG.ports v
    rw [h, Option.getD_none] at hnil
    have hmem : t ∈ targets.filter (·.onNode v) := List.mem_filter.2 ⟨ht, Uid.onNode_iff.2 hv⟩
    rw [← hnil] at hmem
    cases hmem
  | some ports => exact ⟨ports, rfl⟩

theorem Grouped.recordedBetween {link l : Link} {origin v : Uid} {groups : SortedMap Uid (List Uid)}
    (hG : Grouped link.targets origin groups) (ho : link.origin.nodeOfPort = .ok origin) (hl : l ∈ narrowed link v) :
    RecordedBetween origin v l := by
  obtain ⟨rfl, hports⟩ := mem_narrowed.1 hl
  refine ⟨ho, hports, fun t ht => Uid.onNode_iff.1 (List.mem_filter.1 ht).2, ?_⟩
  obtain ⟨t, ht⟩ := List.exists_mem_of_ne_nil _ hports
  obtain ⟨htargets, hon⟩ := List.mem_filter.1 ht
  obtain ⟨v', hv', hne⟩ := hG.node t htargets
  rw [Uid.onNode_iff.1 hon] at hv'
  cases hv'
  exact hne.symm

/-- The records of the same identity are gone before the link is recorded. -/
theorem pairwise_otherLinks_narrowed {link : Link} {v : Uid} {ls : List Link}
    (h : ls.Pairwise fun a b => a.sameIdentity b = false) :
    (otherLinks link ls ++ narrowed link v).Pairwise fun a b => a.sameIdentity b = false := by
  refine List.pairwise_append.2 ⟨h.sublist (otherLinks_sublist _ _), ?_, fun a ha b hb => ?_⟩
  · unfold narrowed
    split
    · exact .nil
    · exact List.pairwise_singleton _ _
  · obtain ⟨rfl, -⟩ := mem_narrowed.1 hb
    have hsame : a.sameIdentity { link with targets := link.targetsOn v } = a.sameIdentity link := rfl
    rw [hsame]
    simpa using (List.mem_filter.1 ha).2

theorem WellFormed.outgoing_ne_nil {g : Graph} (hg : g.WellFormed) {origin v : Uid} {ls : List Link}
    (h : (g.outgoing origin).get? v = some ls) : ls ≠ [] := by
  unfold outgoing at h
  cases ho : g.adjacency.get? origin.text with
  | none => simp [ho] at h
  | some a => rw [ho] at h; exact hg.links _ a v ls ho h

theorem WellFormed.of_addLink {g g' : Graph} (hg : g.WellFormed) {link : Link} (h : g.addLink link = (.ok (), g')) :
    g'.WellFormed := by
  obtain ⟨origin, groups, ho, hgroups, hg'⟩ := addLink_eq_ok h
  obtain ⟨hne, hG⟩ := grouped_of_targetGroups hgroups
  have hrest := hg.discard origin link
  have hlinks := linksBetween_of_addLink h ho
  -- the adjacency of an origin is the old one, or the one that the link was recorded in
  have hget : ∀ key a, g'.adjacency.get? key = some a → (g.discard origin link).adjacency.get? key = some a ∨
      a = withLink ((g.discard origin link).outgoing origin) link groups := by
    intro key a h
    rw [hg'] at h
    by_cases hk : key = origin.text
    · subst hk
      exact .inr (Option.some.inj ((Dict.get?_insert_self _ _ _).symm.trans h)).symm
    · exact .inl ((Dict.get?_insert_of_ne _ _ hk).symm.trans h)
  refine ⟨fun key a h => ?_, fun key a v ls h hv => ?_, fun u v l hl => ?_, fun u v => ?_⟩
  · rcases hget key a h with h | rfl
    · exact hrest.groups key a h
    · obtain ⟨v, ports, hv⟩ := hG.exists_group hne
      have hgroup := get?_withLink ((g.discard origin link).outgoing origin) link groups v
      rw [hv] at hgroup
      exact ⟨v, _, hgroup⟩
  · rcases hget key a h with h | rfl
    · exact hrest.links key a v ls h hv
    · rw [get?_withLink] at hv
      split at hv
      · exact hrest.outgoing_ne_nil hv
      · cases hv; simp
  · rw [hlinks] at hl
    split at hl
    · next hu =>
      subst hu
      rcases List.mem_append.1 hl with hl | hl
      · exact hg.recorded u v l ((otherLinks_sublist _ _).subset hl)
      · exact hG.recordedBetween ho hl
    · exact hg.recorded u v l hl
  · rw [hlinks]
    split
    · exact pairwise_otherLinks_narrowed (hg.identities u v)
    · exact hg.identities u v

theorem WellFormed.addLink {g : Graph} (hg : g.WellFormed) (link : Link) : (g.addLink link).2.WellFormed := by
  rcases h : g.addLink link with ⟨_ | _, g'⟩
  · exact addLink_eq_error h ▸ hg
  · exact hg.of_addLink h

theorem WellFormed.removeLink {g : Graph} (hg : g.WellFormed) (link : Link) : (g.removeLink link).2.WellFormed := by
  unfold Graph.removeLink
  split
  · exact hg
  · exact hg.discard _ link

/-- Adding and removing links, in any order and with or without success, keeps the adjacency well formed. -/
theorem Reachable.wellFormed {g : Graph} (h : g.Reachable) : g.WellFormed := by
  induction h with
  | empty => exact wellFormed_empty
  | add link _ ih => exact ih.addLink link
  | remove link _ ih => exact ih.removeLink link

/-! ## What is stored -/

/-- However links were added and removed: an origin has groups, a group has links, and each link of a group
leaves a port of the origin, leads to ports of the target only, and has an identity of its own there. -/
theorem adjacency_invariant {g : Graph} (h : g.Reachable) {origin : String} {groups : Adjacency}
    (ho : (origin, groups) ∈ g.adjacency.toList) : groups.entries ≠ [] ∧
    ∀ target links, (target, links) ∈ groups.entries →
      links ≠ [] ∧ target ≠ ⟨origin⟩ ∧ (links.map fun l => (l.origin, l.id)).Nodup ∧
      ∀ l ∈ links, l.origin.nodeOfPort = .ok ⟨origin⟩ ∧ l.targets ≠ [] ∧
        ∀ t ∈ l.targets, t.nodeOfPort = .ok target := by
  have hg := h.wellFormed
  have hget : g.adjacency.get? origin = some groups := SortedMap.get?_eq_some_iff.2 ho
  refine ⟨fun hnil => ?_, fun target links hmem => ?_⟩
  · obtain ⟨v, ls, hv⟩ := hg.groups origin groups hget
    have hv := SortedMap.get?_eq_some_iff.1 hv
    rw [hnil] at hv
    cases hv
  · have hgroup := SortedMap.get?_eq_some_iff.2 hmem
    have hlinks : g.linksBetween ⟨origin⟩ target = links := by
      rw [linksBetween_of_get? (u := ⟨origin⟩) hget, hgroup]
      rfl
    have hne := hg.links origin groups target links hget hgroup
    have hrec := hg.recorded ⟨origin⟩ target
    have hids := hg.identities ⟨origin⟩ target
    rw [hlinks] at hrec hids
    refine ⟨hne, ?_, List.pairwise_map.2 (hids.imp fun hab heq => ?_), fun l hl => ?_⟩
    · obtain ⟨l, hl⟩ := List.exists_mem_of_ne_nil _ hne
      exact (hrec l hl).ne.symm
    · simp_all [Link.sameIdentity]
    · exact ⟨(hrec l hl).origin, (hrec l hl).targets_ne_nil, (hrec l hl).targets⟩

/-- A link to ports of `b` and `c` is replaced by one of the same identity to ports of `c` and `d`; a second link
leaves the same port, and one that leads back to `a` is refused. -/
def rerouted : Graph :=
  ((((Graph.empty.addLink ⟨"0", ⟨"a$$1"⟩, [⟨"b$$1"⟩, ⟨"c$$1"⟩], .up⟩).2.addLink
    ⟨"1", ⟨"a$$1"⟩, [⟨"c$$4"⟩], .up⟩).2.addLink ⟨"0", ⟨"a$$1"⟩, [⟨"c$$2"⟩, ⟨"d$$1"⟩, ⟨"c$$3"⟩], .up⟩).2.addLink
    ⟨"2", ⟨"a$$2"⟩, [⟨"b$$1"⟩, ⟨"a$$1"⟩], .up⟩).2

theorem reachable_rerouted : rerouted.Reachable := .add _ (.add _ (.add _ (.add _ .empty)))

theorem rerouted_groups : ∃ groups, rerouted.adjacency.get? "a" = some groups ∧ groups.entries =
    [(⟨"c"⟩, [⟨"1", ⟨"a$$1"⟩, [⟨"c$$4"⟩], .up⟩, ⟨"0", ⟨"a$$1"⟩, [⟨"c$$2"⟩, ⟨"c$$3"⟩], .up⟩]),
      (⟨"d"⟩, [⟨"0", ⟨"a$$1"⟩, [⟨"d$$1"⟩], .up⟩])] := by
  refine Option.map_eq_some_iff.1 (?_ : (rerouted.adjacency.get? "a").map (·.entries) = _)
  decide +kernel

theorem adjacency_invariant_rerouted : ∃ groups links, ("a", groups) ∈ rerouted.adjacency.toList ∧
    (⟨"c"⟩, links) ∈ groups.entries ∧ links.length = 2 ∧ (links.map fun l => (l.origin, l.id)).Nodup ∧
    ∀ l ∈ links, l.origin.nodeOfPort = .ok ⟨"a"⟩ ∧ ∀ t ∈ l.targets, t.nodeOfPort = .ok ⟨"c"⟩ := by
  obtain ⟨groups, hstored, hentries⟩ := rerouted_groups
  have ha : ("a", groups) ∈ rerouted.adjacency.toList := SortedMap.get?_eq_some_iff.1 hstored
  obtain ⟨-, hgroups⟩ := adjacency_invariant reachable_rerouted ha
  have hc : (⟨"c"⟩, _) ∈ groups.entries := hentries ▸ List.mem_cons_self
  obtain ⟨-, -, hids, hlinks⟩ := hgroups _ _ hc
  exact ⟨groups, _, ha, hc, rfl, hids, fun l hl => ⟨(hlinks l hl).1, (hlinks l hl).2.2⟩⟩

end Graph

end ControlPlane
