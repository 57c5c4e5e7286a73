/-
The listing of routes from what a search knows. A search that came to its end lists exactly the
shortest walks from its source: `walksInto` enumerates them along the entries by which a node was
reached, all of them and in ascending order (`mem_walksInto`, `pairwise_walksInto`), and the listing gives
the links of these walks, in this order (`listRoutes_eq`).

Every back-link leads one hop closer to the source, so the listing ends without a bound on its depth
(`wellFounded_backLinks`), and every entry of the table is the final answer for its node.
-/
import ControlPlane.Proofs.Topology.Search

namespace ControlPlane.Search

/-- The walks of `k` entries from the source to a node at distance `k`, in the order of discovery. -/
def walksInto (g : Graph) (done : List (Nat × Uid)) (source : Uid) : Nat → Uid → List (List Entry)
  | 0, n => if n = source then [[]] else []
  | k + 1, n => (entriesInto g done (k + 1) n).flatMap fun e =>
      (walksInto g done source k e.origin).map (· ++ [e])

/-- The links of the walks to a node. -/
def routesInto (g : Graph) (done : List (Nat × Uid)) (source : Uid) (k : Nat) (n : Uid) : List (List Link) :=
  (walksInto g done source k n).map (·.map Entry.link)

section Listing

variable {g : Graph} {source : Uid} {done : List (Nat × Uid)} {s : Search}

/-! ## The walks listed are the shortest ones -/

theorem mem_walksInto_iff (hS : Searching g source done s) (hq : s.queue = []) : ∀ {k : Nat} {n : Uid},
    g.AtDistance source n k → ∀ w, w ∈ walksInto g done source k n ↔ g.IsWalk source w n ∧ w.length = k := by
  intro k
  induction k with
  | zero =>
    intro n hn w
    obtain rfl := Graph.atDistance_zero.1 hn
    simp only [walksInto, if_pos, List.mem_singleton]
    constructor
    · rintro rfl; exact ⟨rfl, rfl⟩
    · rintro ⟨-, h⟩; exact List.eq_nil_of_length_eq_zero h
  | succ k ih =>
    intro n hn w
    simp only [walksInto, List.mem_flatMap, List.mem_map]
    constructor
    · rintro ⟨e, he, w', hw', rfl⟩
      obtain ⟨ho, rfl, hh⟩ := mem_entriesInto.1 he
      obtain ⟨h1, h2⟩ := (ih ((hS.mem_done_iff hq).1 ho) w').1 hw'
      exact ⟨Graph.isWalk_snoc.2 ⟨h1, hh, rfl⟩, by simp [h2]⟩
    · rintro ⟨hw, hlen⟩
      obtain ⟨w', e, rfl⟩ : ∃ w' e, w = w' ++ [e] := by
        rcases List.eq_nil_or_concat w with rfl | h
        · simp at hlen
        · simpa using h
      obtain ⟨h1, hh, rfl⟩ := Graph.isWalk_snoc.1 hw
      have hlen' : w'.length = k := by simpa using hlen
      -- a shorter walk to the node before would give a shorter walk to the node
      have hdist : g.AtDistance source e.origin k := by
        refine ⟨⟨w', h1, hlen'⟩, fun w'' hw'' => ?_⟩
        have := hn.2 (w'' ++ [e]) (Graph.isWalk_snoc.2 ⟨hw'', hh, rfl⟩)
        simpa using this
      exact ⟨e, mem_entriesInto.2 ⟨(hS.mem_done_iff hq).2 hdist, rfl, hh⟩, w', (ih hdist w').2 ⟨h1, hlen'⟩, rfl⟩

/-- The listed walks to a node are its shortest ones. -/
theorem mem_walksInto (hS : Searching g source done s) (hq : s.queue = []) {k : Nat} {n : Uid}
    (hn : g.AtDistance source n k) {w : List Entry} :
    w ∈ walksInto g done source k n ↔ g.IsShortestWalk source w n := by
  rw [mem_walksInto_iff hS hq hn, Graph.isShortestWalk_iff hn]

/-! ## The walks are listed in order -/

theorem pairwise_entriesInto (hS : Searching g source done s) (k : Nat) (n : Uid) :
    (entriesInto g done k n).Pairwise Entry.Precedes := by
  have hsorted := (List.pairwise_append.1 hS.sorted).1
  refine List.pairwise_flatMap.2 ⟨fun q _ => ?_, hsorted.imp fun {a b} hab e he e' he' => ?_⟩
  · split
    · exact Graph.pairwise_entriesBetween g q.2 n
    · exact .nil
  · split at he
    · split at he'
      · obtain ⟨ho, ht, -⟩ := Graph.mem_entriesBetween.1 he
        obtain ⟨ho', ht', -⟩ := Graph.mem_entriesBetween.1 he'
        -- both nodes have the same distance, so they are in the order of their UIDs
        rcases hab with hlt | ⟨-, hlt⟩
        · omega
        · exact ⟨ht.trans ht'.symm, .inl (by rwa [ho, ho'])⟩
      · cases he'
    · cases he

/-- The walks to a node are listed in their order. -/
theorem pairwise_walksInto (hS : Searching g source done s) : ∀ (k : Nat) (n : Uid),
    (walksInto g done source k n).Pairwise WalkPrecedes := by
  intro k
  induction k with
  | zero =>
    intro n
    simp only [walksInto]
    split
    · exact List.pairwise_singleton _ _
    · exact .nil
  | succ k ih =>
    intro n
    refine List.pairwise_flatMap.2
      ⟨fun e _ => ?_, (pairwise_entriesInto hS (k + 1) n).imp fun {e e'} he w hw w' hw' => ?_⟩
    · exact List.pairwise_map.2 ((ih e.origin).imp fun h => walkPrecedes_snoc_of_walkPrecedes h e)
    · obtain ⟨w₁, -, rfl⟩ := List.mem_map.1 hw
      obtain ⟨w₂, -, rfl⟩ := List.mem_map.1 hw'
      exact walkPrecedes_snoc_of_precedes he w₁ w₂

/-! ## The listing ends -/

/-- Every back-link leads to a node one hop closer. -/
theorem distance_of_mem_backLinks (hS : Searching g source done s) (hq : s.queue = []) {n : Uid}
    {back : Uid × Link} (hb : back ∈ backLinks s.visited n) :
    ∃ k, g.AtDistance source back.1 k ∧ g.AtDistance source n (k + 1) := by
  cases hv : s.visited.get? n with
  | none => simp [backLinks, hv] at hb
  | some v =>
    rw [hS.backLinks_eq hv] at hb
    obtain ⟨e, he, rfl⟩ := List.mem_map.1 hb
    have hn := (hS.mem_done_iff hq).1 ((hS.mem_done hq).2 ⟨v, hv, rfl⟩)
    cases hd : v.distance with
    | zero => simp [entriesInto, hd] at he
    | succ k =>
      rw [hd] at he hn
      exact ⟨k, (hS.mem_done_iff hq).1 (mem_entriesInto.1 he).1, hn⟩

/-- There is no endless descent along back-links. -/
theorem wellFounded_backLinks (hS : Searching g source done s) (hq : s.queue = []) :
    WellFounded fun before n => ∃ l, (before, l) ∈ backLinks s.visited n := by
  refine Subrelation.wf (r := fun a b => ∃ k, g.AtDistance source a k ∧ g.AtDistance source b (k + 1)) ?_ ?_
  · rintro a b ⟨l, hl⟩
    exact distance_of_mem_backLinks hS hq hl
  · -- nodes at distance `k` are accessible, by induction on `k`
    have hacc : ∀ k b, g.AtDistance source b k →
        Acc (fun a b => ∃ k, g.AtDistance source a k ∧ g.AtDistance source b (k + 1)) b := by
      intro k
      induction k with
      | zero =>
        intro b hb
        refine ⟨_, fun a ⟨k, _, hk⟩ => ?_⟩
        exact absurd (hb.unique hk) (Nat.succ_ne_zero k).symm
      | succ k ih =>
        intro b hb
        refine ⟨_, fun a ⟨k', ha, hk⟩ => ih a ?_⟩
        obtain rfl : k = k' := Nat.succ.inj (hb.unique hk)
        exact ha
    exact ⟨fun b => ⟨_, fun a ⟨k, ha, _⟩ => hacc k a ha⟩⟩

/-! ## The table -/

/-- The back-links of a node at distance `k + 1`, with the routes that end in them. -/
theorem flatMap_backLinks (hS : Searching g source done s) (hq : s.queue = []) {k : Nat} {n : Uid}
    (hn : g.AtDistance source n (k + 1)) {R : Uid → List (List Link)}
    (hR : ∀ m, g.AtDistance source m k → R m = routesInto g done source k m) :
    (backLinks s.visited n).flatMap (fun back => (R back.1).map (· ++ [back.2])) =
      routesInto g done source (k + 1) n := by
  obtain ⟨v, hv, hd⟩ := (hS.mem_done hq).1 ((hS.mem_done_iff hq).2 hn)
  rw [hS.backLinks_eq hv, hd, List.flatMap_map, routesInto, walksInto, List.map_flatMap]
  refine List.flatMap_congr fun e he => ?_
  rw [hR _ ((hS.mem_done_iff hq).1 (mem_entriesInto.1 he).1), routesInto, List.map_map, List.map_map]
  simp [Function.comp_def]

/-- Every entry of the table is the final answer for its node. -/
def Final (g : Graph) (done : List (Nat × Uid)) (source : Uid) (table : RouteTable) : Prop :=
  ∀ n routes, table.get? n = some routes →
    ∃ k, g.AtDistance source n k ∧ routes = routesInto g done source k n

theorem final_empty : Final g done source .empty := by
  intro n routes h
  rw [SortedMap.get?_empty] at h
  cases h

theorem Final.insert {table : RouteTable} (ht : Final g done source table) {n : Uid} {k : Nat}
    (hn : g.AtDistance source n k) : Final g done source (table.insert n (routesInto g done source k n)) := by
  intro m routes h
  rw [SortedMap.get?_insert] at h
  split at h
  · next hm => cases h; exact ⟨k, hm ▸ hn, by rw [hm]⟩
  · exact ht m routes h

/-- Listing the routes to one node after the other appends what each of them gives, and keeps the
table final. -/
theorem foldl_listRoutes (list : Uid → RouteTable → List (List Link) × RouteTable) (R : Uid → List (List Link))
    (P : Uid → Prop) (hlist : ∀ m table, P m → Final g done source table →
      (list m table).1 = R m ∧ Final g done source (list m table).2) :
    ∀ (backs : List (Uid × Link)) (acc : List (List Link) × RouteTable), (∀ b ∈ backs, P b.1) →
      Final g done source acc.2 →
      (backs.foldl (fun acc back =>
          ((acc.1 ++ (list back.1 acc.2).1.map (· ++ [back.2])), (list back.1 acc.2).2)) acc).1 =
        acc.1 ++ backs.flatMap (fun back => (R back.1).map (· ++ [back.2])) ∧
      Final g done source (backs.foldl (fun acc back =>
          ((acc.1 ++ (list back.1 acc.2).1.map (· ++ [back.2])), (list back.1 acc.2).2)) acc).2
  | [], acc, _, ht => ⟨by simp, ht⟩
  | b :: backs, acc, hP, ht => by
    obtain ⟨h1, h2⟩ := hlist b.1 acc.2 (hP b List.mem_cons_self) ht
    obtain ⟨h3, h4⟩ := foldl_listRoutes list R P hlist backs
      (acc.1 ++ (list b.1 acc.2).1.map (· ++ [b.2]), (list b.1 acc.2).2)
      (fun b' hb => hP b' (List.mem_cons_of_mem _ hb)) h2
    refine ⟨?_, h4⟩
    rw [List.foldl_cons, h3, h1, List.flatMap_cons, List.append_assoc]

/-- The listing with a table gives the routes to a node, and leaves a final table. -/
theorem listRoutes_eq (hS : Searching g source done s) (hq : s.queue = []) : ∀ {hops k : Nat} {n : Uid}
    {table : RouteTable}, g.AtDistance source n k → k ≤ hops → Final g done source table →
    (listRoutes s.visited source hops n table).1 = routesInto g done source k n ∧
      Final g done source (listRoutes s.visited source hops n table).2 := by
  intro hops
  induction hops with
  | zero =>
    intro k n table hn hk ht
    obtain rfl : k = 0 := Nat.le_zero.1 hk
    obtain rfl := Graph.atDistance_zero.1 hn
    simp [listRoutes, routesInto, walksInto, ht]
  | succ hops ih =>
    intro k n table hn hk ht
    rw [listRoutes]
    split
    · next h =>
      subst h
      obtain rfl := hn.unique (Graph.atDistance_zero.2 rfl)
      simp [routesInto, walksInto, ht]
    · next hne =>
      split
      · next routes hr =>
        obtain ⟨k', hn', rfl⟩ := ht n routes hr
        obtain rfl := hn.unique hn'
        exact ⟨rfl, ht⟩
      · cases k with
        | zero => exact absurd (Graph.atDistance_zero.1 hn).symm hne
        | succ k =>
          have hP : ∀ b ∈ backLinks s.visited n, g.AtDistance source b.1 k := by
            intro b hb
            obtain ⟨k', h1, h2⟩ := distance_of_mem_backLinks hS hq hb
            obtain rfl : k = k' := Nat.succ.inj (hn.unique h2)
            exact h1
          obtain ⟨h1, h2⟩ := foldl_listRoutes (listRoutes s.visited source hops)
            (routesInto g done source k) (fun m => g.AtDistance source m k)
            (fun m table hm ht => ih hm (Nat.le_of_succ_le_succ hk) ht) (backLinks s.visited n) ([], table) hP ht
          have hlinks := flatMap_backLinks hS hq hn (R := routesInto g done source k) fun _ _ => rfl
          rw [List.nil_append, hlinks] at h1
          refine ⟨h1, ?_⟩
          have := h2.insert hn
          rw [← h1] at this
          exact this

end Listing

end ControlPlane.Search
