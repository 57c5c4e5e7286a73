/-
Walks along the adjacency of a topology. An entry is a place in the adjacency: an origin, a node it
leads to, a position among the links recorded between the two, and the link there. A walk is a list
of entries, each of which leaves the node that the one before it leads to.

Two entries may hold the same link when the adjacency was taken over from elsewhere, so walks are
lists of entries and not of links. Walks to one node are ordered by where they come from, the last entry
counting first (`WalkPrecedes`). The first part of a shortest walk is a shortest walk, and so is
its last part; a shortest walk comes to its end only once (`isShortestWalk_sealed`).
-/
import ControlPlane.Topology.Graph
import Mathlib.Data.List.Lex
import Mathlib.Data.List.Nodup

namespace ControlPlane

/-- A place in the adjacency, with the link recorded there. -/
structure Entry where
  origin : Uid
  target : Uid
  /-- The position among the links from the origin to the target. -/
  position : Nat
  link : Link
deriving DecidableEq

/-! ## The order of entries and walks -/

/-- Both entries lead to the same node, the first one from a node before that of the second one, or from the same node
at an earlier position. -/
structure Entry.Precedes (e e' : Entry) : Prop where
  target : e.target = e'.target
  place : e.origin < e'.origin ∨ e.origin = e'.origin ∧ e.position < e'.position

instance : Std.Asymm Entry.Precedes where
  asymm e e' h h' := by
    rcases h.place with hlt | ⟨heq, hlt⟩
    · rcases h'.place with hlt' | ⟨heq', -⟩
      · exact StrictOrder.irrefl _ (StrictOrder.trans hlt hlt')
      · exact StrictOrder.irrefl _ (heq' ▸ hlt)
    · rcases h'.place with hlt' | ⟨-, hlt'⟩
      · exact StrictOrder.irrefl _ (heq ▸ hlt')
      · exact Nat.lt_asymm hlt hlt'

/-- The last entries in which the walks differ decide which of them comes first. -/
def WalkPrecedes (w w' : List Entry) : Prop := List.Lex Entry.Precedes w.reverse w'.reverse

instance : Std.Asymm WalkPrecedes where
  asymm w w' := (List.Lex.asymm Entry.Precedes).asymm w.reverse w'.reverse

theorem walkPrecedes_snoc_of_walkPrecedes {w w' : List Entry} (h : WalkPrecedes w w') (e : Entry) :
    WalkPrecedes (w ++ [e]) (w' ++ [e]) := by
  unfold WalkPrecedes at *
  rw [List.reverse_concat, List.reverse_concat]
  exact .cons h

theorem walkPrecedes_snoc_of_precedes {e e' : Entry} (h : e.Precedes e') (w w' : List Entry) :
    WalkPrecedes (w ++ [e]) (w' ++ [e']) := by
  unfold WalkPrecedes
  rw [List.reverse_concat, List.reverse_concat]
  exact .rel h

/-- A change of entries that keeps their order keeps that of walks. -/
theorem WalkPrecedes.map {f : Entry → Entry} (hf : ∀ e e', e.Precedes e' → (f e).Precedes (f e')) {w w' : List Entry}
    (h : WalkPrecedes w w') : WalkPrecedes (w.map f) (w'.map f) := by
  unfold WalkPrecedes at *
  rw [← List.map_reverse, ← List.map_reverse]
  generalize w.reverse = backwards, w'.reverse = backwards' at h ⊢
  induction h with
  | nil => exact .nil
  | cons _ ih => exact .cons ih
  | rel he => exact .rel (hf _ _ he)

namespace Graph

/-- The link of the entry is recorded at its place. -/
def HasEntry (g : Graph) (e : Entry) : Prop :=
  (g.linksBetween e.origin e.target)[e.position]? = some e.link

/-- The entries lead from the first node to the last one. -/
def IsWalk (g : Graph) : Uid → List Entry → Uid → Prop
  | u, [], v => u = v
  | u, e :: w, v => e.origin = u ∧ g.HasEntry e ∧ g.IsWalk e.target w v

/-- A walk between two nodes of which none has fewer entries. -/
def IsShortestWalk (g : Graph) (u : Uid) (w : List Entry) (v : Uid) : Prop :=
  g.IsWalk u w v ∧ ∀ w', g.IsWalk u w' v → w.length ≤ w'.length

/-- The second node can be reached from the first one by `n` entries, and by no fewer. -/
def AtDistance (g : Graph) (u v : Uid) (n : Nat) : Prop :=
  (∃ w, g.IsWalk u w v ∧ w.length = n) ∧ ∀ w, g.IsWalk u w v → n ≤ w.length

/-! ## The links at a node -/

theorem linksBetween_of_get? {g : Graph} {u : Uid} {a : Adjacency} (h : g.adjacency.get? u.text = some a)
    (v : Uid) : g.linksBetween u v = (a.get? v).getD [] := by
  simp [linksBetween, outgoing, h]

theorem linksBetween_of_get?_none {g : Graph} {u : Uid} (h : g.adjacency.get? u.text = none) (v : Uid) :
    g.linksBetween u v = [] := by
  simp [linksBetween, outgoing, h]

theorem linksBetween_insert (g : Graph) (node : Uid) (a : Adjacency) (u v : Uid) :
    (Graph.mk (g.adjacency.insert node.text a)).linksBetween u v =
      if u = node then (a.get? v).getD [] else g.linksBetween u v := by
  split
  · next h =>
    subst h
    simp [linksBetween, outgoing]
  · next h =>
    have ht : u.text ≠ node.text := fun ht => h (by cases u; cases node; simp_all)
    simp [linksBetween, outgoing, Dict.get?_insert_of_ne _ _ ht]

theorem mem_hopsOf {a : Adjacency} {v : Uid} {l : Link} : (v, l) ∈ hopsOf a ↔ l ∈ (a.get? v).getD [] := by
  simp only [hopsOf, List.mem_flatMap, List.mem_map, Prod.mk.injEq]
  constructor
  · rintro ⟨e, he, l', hl, rfl, rfl⟩
    rw [SortedMap.get?_eq_some_iff.2 he]
    exact hl
  · intro h
    cases hv : a.get? v with
    | none => simp [hv] at h
    | some ls =>
      rw [hv] at h
      exact ⟨(v, ls), SortedMap.get?_eq_some_iff.1 hv, l, h, rfl, rfl⟩

theorem mem_neighbors {g : Graph} {u v : Uid} {l : Link} : (v, l) ∈ g.neighbors u ↔ l ∈ g.linksBetween u v :=
  mem_hopsOf

theorem mem_links {g : Graph} {u : Uid} {l : Link} : l ∈ g.links u ↔ ∃ v, l ∈ g.linksBetween u v := by
  simp [links, mem_neighbors]

/-- Among the links of a node, those that lead to one other node stand together and in order. -/
theorem filterMap_hopsOf (a : Adjacency) (v : Uid) :
    (hopsOf a).filterMap (fun h => if h.1 = v then some h.2 else none) = (a.get? v).getD [] := by
  obtain ⟨entries, sorted⟩ := a
  show (entries.flatMap fun e => e.2.map (e.1, ·)).filterMap _ = (SortedMap.lookup v entries).getD []
  induction entries with
  | nil => rfl
  | cons e rest ih =>
    obtain ⟨k, ls⟩ := e
    rw [List.pairwise_cons] at sorted
    rw [List.flatMap_cons, List.filterMap_append, ih sorted.2, List.filterMap_map, SortedMap.lookup]
    by_cases hk : k = v
    · subst hk
      have hrest : SortedMap.lookup k rest = none := by
        cases h : SortedMap.lookup k rest with
        | none => rfl
        | some ls' =>
          have hm := (SortedMap.lookup_eq_some_iff sorted.2).1 h
          exact absurd (sorted.1 _ hm) (StrictOrder.irrefl _)
      simp [hrest, StrictOrder.irrefl]
    · have hnil : ls.filterMap ((fun h : Uid × Link => if h.1 = v then some h.2 else none) ∘ (k, ·)) = [] := by
        simp [hk]
      rw [hnil, List.nil_append]
      split
      · next hv =>
        have hrest : SortedMap.lookup v rest = none := by
          cases h : SortedMap.lookup v rest with
          | none => rfl
          | some ls' =>
            have hm := (SortedMap.lookup_eq_some_iff sorted.2).1 h
            exact absurd (StrictOrder.trans hv (sorted.1 _ hm)) (StrictOrder.irrefl _)
        simp [hrest]
      · next hv =>
        split
        · rfl
        · next hv' =>
          rcases StrictOrder.total v k with h | h | h
          · exact absurd h hv
          · exact absurd h.symm hk
          · exact absurd h hv'

theorem filterMap_neighbors (g : Graph) (u v : Uid) :
    (g.neighbors u).filterMap (fun h => if h.1 = v then some h.2 else none) = g.linksBetween u v :=
  filterMap_hopsOf _ v

/-! ## Entries between two nodes -/

/-- The entries from one node to another, in order. -/
def entriesBetween (g : Graph) (u v : Uid) : List Entry :=
  (g.linksBetween u v).zipIdx.map fun p => ⟨u, v, p.2, p.1⟩

theorem mem_entriesBetween {g : Graph} {u v : Uid} {e : Entry} :
    e ∈ g.entriesBetween u v ↔ e.origin = u ∧ e.target = v ∧ g.HasEntry e := by
  obtain ⟨o, t, i, l⟩ := e
  simp only [entriesBetween, List.mem_map, Prod.exists, Entry.mk.injEq, List.mem_zipIdx_iff_getElem?, HasEntry]
  constructor
  · rintro ⟨l', i', h, rfl, rfl, rfl, rfl⟩; exact ⟨rfl, rfl, h⟩
  · rintro ⟨rfl, rfl, h⟩; exact ⟨l, i, h, rfl, rfl, rfl, rfl⟩

theorem pairwise_entriesBetween (g : Graph) (u v : Uid) : (g.entriesBetween u v).Pairwise Entry.Precedes := by
  have hpositions : ((g.linksBetween u v).zipIdx.map Prod.snd).Pairwise (· < ·) := by
    rw [List.zipIdx_map_snd]
    exact List.pairwise_lt_range'
  refine List.pairwise_map.2 ((List.pairwise_map.1 hpositions).imp fun hlt => ?_)
  exact ⟨rfl, .inr ⟨rfl, hlt⟩⟩

theorem nodup_entriesBetween (g : Graph) (u v : Uid) : (g.entriesBetween u v).Nodup :=
  (pairwise_entriesBetween g u v).nodup

theorem map_link_entriesBetween (g : Graph) (u v : Uid) :
    (g.entriesBetween u v).map Entry.link = g.linksBetween u v := by
  simp [entriesBetween, Function.comp_def, List.zipIdx_map_fst]

/-! ## Parts of walks -/

theorem isWalk_append {g : Graph} {u v : Uid} {w w' : List Entry} :
    g.IsWalk u (w ++ w') v ↔ ∃ m, g.IsWalk u w m ∧ g.IsWalk m w' v := by
  induction w generalizing u with
  | nil => simp [IsWalk]
  | cons e w ih =>
    simp only [List.cons_append, IsWalk, ih]
    constructor
    · rintro ⟨ho, he, m, h1, h2⟩; exact ⟨m, ⟨ho, he, h1⟩, h2⟩
    · rintro ⟨m, ⟨ho, he, h1⟩, h2⟩; exact ⟨ho, he, m, h1, h2⟩

theorem isWalk_snoc {g : Graph} {u v : Uid} {w : List Entry} {e : Entry} :
    g.IsWalk u (w ++ [e]) v ↔ g.IsWalk u w e.origin ∧ g.HasEntry e ∧ e.target = v := by
  rw [isWalk_append]
  constructor
  · rintro ⟨m, hw, rfl, he, ht⟩; exact ⟨hw, he, ht⟩
  · rintro ⟨hw, he, ht⟩; exact ⟨_, hw, rfl, he, ht⟩

theorem AtDistance.unique {g : Graph} {u v : Uid} {n n' : Nat} (h : g.AtDistance u v n)
    (h' : g.AtDistance u v n') : n = n' := by
  obtain ⟨⟨w, hw, rfl⟩, hmin⟩ := h
  obtain ⟨⟨w', hw', rfl⟩, hmin'⟩ := h'
  exact Nat.le_antisymm (hmin w' hw') (hmin' w hw)

theorem isShortestWalk_iff {g : Graph} {u v : Uid} {n : Nat} (h : g.AtDistance u v n) {w : List Entry} :
    g.IsShortestWalk u w v ↔ g.IsWalk u w v ∧ w.length = n := by
  obtain ⟨⟨w₀, hw₀, rfl⟩, hmin⟩ := h
  constructor
  · rintro ⟨hw, hle⟩; exact ⟨hw, Nat.le_antisymm (hle w₀ hw₀) (hmin w hw)⟩
  · rintro ⟨hw, hlen⟩; exact ⟨hw, fun w' hw' => hlen ▸ hmin w' hw'⟩

theorem IsShortestWalk.atDistance {g : Graph} {u v : Uid} {w : List Entry} (h : g.IsShortestWalk u w v) :
    g.AtDistance u v w.length :=
  ⟨⟨w, h.1, rfl⟩, h.2⟩

/-- The last part of a shortest walk is a shortest walk. -/
theorem IsShortestWalk.of_append {g : Graph} {u v : Uid} {w w' : List Entry}
    (h : g.IsShortestWalk u (w ++ w') v) : ∃ m, g.IsWalk u w m ∧ g.IsShortestWalk m w' v := by
  obtain ⟨m, h1, h2⟩ := isWalk_append.1 h.1
  refine ⟨m, h1, h2, fun w'' hw'' => ?_⟩
  have := h.2 (w ++ w'') (isWalk_append.2 ⟨m, h1, hw''⟩)
  simp only [List.length_append] at this
  omega

theorem atDistance_zero {g : Graph} {u v : Uid} : g.AtDistance u v 0 ↔ u = v := by
  constructor
  · rintro ⟨⟨w, hw, hlen⟩, -⟩
    rw [List.eq_nil_of_length_eq_zero hlen] at hw
    exact hw
  · rintro rfl; exact ⟨⟨[], rfl, rfl⟩, fun _ _ => Nat.zero_le _⟩

/-! ## Walks that end at a node when they first come to it -/

/-- The topology without the links that leave a node. -/
def sealed (g : Graph) (node : Uid) : Graph := ⟨g.adjacency.erase node.text⟩

theorem get?_sealed_self (g : Graph) (node : Uid) : (g.sealed node).adjacency.get? node.text = none :=
  Dict.get?_erase_self _ _

theorem get?_sealed_of_ne (g : Graph) {node u : Uid} (h : u ≠ node) :
    (g.sealed node).adjacency.get? u.text = g.adjacency.get? u.text :=
  Dict.get?_erase_of_ne _ fun ht => h (by cases u; cases node; simp_all)

theorem neighbors_sealed_self (g : Graph) (node : Uid) : (g.sealed node).neighbors node = [] := by
  simp [neighbors, outgoing, get?_sealed_self, hopsOf, SortedMap.empty]

theorem neighbors_sealed_of_ne (g : Graph) {node u : Uid} (h : u ≠ node) :
    (g.sealed node).neighbors u = g.neighbors u := by
  simp [neighbors, outgoing, get?_sealed_of_ne g h]

theorem linksBetween_sealed_of_ne (g : Graph) {node u : Uid} (h : u ≠ node) (v : Uid) :
    (g.sealed node).linksBetween u v = g.linksBetween u v := by
  simp [linksBetween, outgoing, get?_sealed_of_ne g h]

theorem hasEntry_sealed {g : Graph} {node : Uid} {e : Entry} :
    (g.sealed node).HasEntry e ↔ e.origin ≠ node ∧ g.HasEntry e := by
  unfold HasEntry
  by_cases h : e.origin = node
  · rw [h, linksBetween_of_get?_none (get?_sealed_self g node)]
    simp
  · rw [linksBetween_sealed_of_ne g h]
    simp [h]

theorem isWalk_sealed {g : Graph} {node u v : Uid} {w : List Entry} :
    (g.sealed node).IsWalk u w v ↔ g.IsWalk u w v ∧ ∀ e ∈ w, e.origin ≠ node := by
  induction w generalizing u with
  | nil => simp [IsWalk]
  | cons e w ih =>
    simp only [IsWalk, ih, hasEntry_sealed, List.mem_cons, forall_eq_or_imp]
    tauto

/-- Up to its first visit, a walk to a node does not leave that node. -/
theorem exists_isWalk_sealed {g : Graph} {node u : Uid} {w : List Entry} (h : g.IsWalk u w node) :
    ∃ w', w' <+: w ∧ (g.sealed node).IsWalk u w' node := by
  induction w generalizing u with
  | nil => exact ⟨[], List.prefix_refl _, h⟩
  | cons e w ih =>
    obtain ⟨ho, he, hw⟩ := h
    by_cases hu : u = node
    · exact ⟨[], List.nil_prefix, hu⟩
    · obtain ⟨w', hp, hw'⟩ := ih hw
      refine ⟨e :: w', (List.cons_prefix_cons).2 ⟨rfl, hp⟩, ho, ?_, hw'⟩
      exact hasEntry_sealed.2 ⟨ho ▸ hu, he⟩

/-- Sealing the end of walks does not change which of them are shortest. -/
theorem isShortestWalk_sealed {g : Graph} {node u : Uid} {w : List Entry} :
    (g.sealed node).IsShortestWalk u w node ↔ g.IsShortestWalk u w node := by
  constructor
  · rintro ⟨hw, hmin⟩
    refine ⟨(isWalk_sealed.1 hw).1, fun w' hw' => ?_⟩
    obtain ⟨w'', hp, hw''⟩ := exists_isWalk_sealed hw'
    exact Nat.le_trans (hmin w'' hw'') hp.length_le
  · rintro ⟨hw, hmin⟩
    obtain ⟨w', hp, hw'⟩ := exists_isWalk_sealed hw
    have hle := hmin w' (isWalk_sealed.1 hw').1
    have he : w' = w := hp.eq_of_length (Nat.le_antisymm hp.length_le hle)
    exact ⟨he ▸ hw', fun w'' hw'' => hmin w'' (isWalk_sealed.1 hw'').1⟩

end Graph

end ControlPlane
