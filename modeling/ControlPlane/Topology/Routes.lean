/-
All shortest routes between two nodes, where every link counts as one hop.

The search takes nodes from a queue in the order of their distance and, at equal distance, of their
UIDs. It notes for every node the distance and the back-links: each link by which the node was
reached at that distance, with the node the link comes from. The target itself is not searched from.
The search ends because every step either shortens the queue or reaches a node for the first time.

The routes to a node are, for each of its back-links in order, the routes to the node before,
extended by the link. They are listed with a table of the nodes that are done, so no node is listed
twice.
-/
import ControlPlane.Topology.Graph

namespace ControlPlane

/-- What a search knows of a node. -/
structure Visit where
  distance : Nat
  /-- The links that reach the node at this distance, each with the node it comes from. -/
  backLinks : List (Uid × Link)

/-- The state of a search. -/
structure Search where
  visited : SortedMap Uid Visit
  /-- The nodes to search from, with their distances, in order. -/
  queue : List (Nat × Uid)

/-- All shortest routes between two nodes. -/
structure Routes where
  /-- The number of links of every route. -/
  length : Nat
  /-- The routes, none if both nodes are the same. -/
  paths : List (List Link)
deriving DecidableEq, Repr

namespace Search

/-- The search that knows its source only. -/
def start (source : Uid) : Search :=
  ⟨SortedMap.empty.insert source ⟨0, []⟩, [(0, source)]⟩

/-- Puts a node into a queue ordered by distance and UID. -/
def enqueue (entry : Nat × Uid) : List (Nat × Uid) → List (Nat × Uid)
  | [] => [entry]
  | e :: rest =>
    if entry.1 < e.1 ∨ (entry.1 = e.1 ∧ entry.2 < e.2) then entry :: e :: rest
    else e :: enqueue entry rest

/-- Follows one link from a node at a distance. -/
def follow (node : Uid) (distance : Nat) (s : Search) (hop : Uid × Link) : Except GraphError Search :=
  match s.visited.get? hop.1 with
  | none => .ok
    ⟨s.visited.insert hop.1 ⟨distance + 1, [(node, hop.2)]⟩, enqueue (distance + 1, hop.1) s.queue⟩
  | some v =>
    if v.distance = distance + 1 then
      .ok { s with visited := s.visited.insert hop.1 { v with backLinks := v.backLinks ++ [(node, hop.2)] } }
    else if distance + 1 < v.distance then
      .error (.invalidDistance hop.1 v.distance (distance + 1))
    else .ok s

/-! ## The search ends -/

theorem length_enqueue (entry : Nat × Uid) : ∀ queue, (enqueue entry queue).length = queue.length + 1
  | [] => rfl
  | e :: rest => by
    simp only [enqueue]
    split <;> simp [length_enqueue entry rest]

/-- The links to nodes that are not visited. -/
def unknown (g : Graph) (visited : SortedMap Uid Visit) : Nat :=
  g.hops.countP fun h => !visited.contains h.1

/-- The number of steps that a search can still take: the queue, and the links to unknown nodes. -/
def pending (g : Graph) (s : Search) : Nat := s.queue.length + unknown g s.visited

theorem unknown_insert_le (g : Graph) (visited : SortedMap Uid Visit) (k : Uid) (v : Visit) :
    unknown g (visited.insert k v) ≤ unknown g visited := by
  refine List.countP_mono_left fun h _ hn => ?_
  cases hc : visited.contains h.1
  · rfl
  · simp [SortedMap.contains_insert_of_contains visited v hc] at hn

theorem unknown_insert_lt {g : Graph} {visited : SortedMap Uid Visit} {hop : Uid × Link} (v : Visit)
    (hm : hop ∈ g.hops) (hn : visited.get? hop.1 = none) :
    unknown g (visited.insert hop.1 v) < unknown g visited := by
  -- the links that stay unknown, and those that were unknown only before; the given one is among the latter
  have hsplit := List.countP_eq_countP_filter_add g.hops (fun h => !visited.contains h.1)
    (fun h => !(visited.insert hop.1 v).contains h.1)
  have hstay : g.hops.countP (fun h => !visited.contains h.1 && !(visited.insert hop.1 v).contains h.1) =
      unknown g (visited.insert hop.1 v) := by
    refine List.countP_congr fun h _ => ?_
    cases hc : visited.contains h.1
    · simp
    · simp [SortedMap.contains_insert_of_contains visited v hc]
  have hbefore : 0 < (g.hops.filter fun h => !!(visited.insert hop.1 v).contains h.1).countP
      fun h => !visited.contains h.1 := by
    refine List.countP_pos_iff.2 ⟨hop, List.mem_filter.2 ⟨hm, ?_⟩, ?_⟩
    · simp [SortedMap.contains_insert_self]
    · simp [SortedMap.contains, hn]
  rw [List.countP_filter, hstay] at hsplit
  unfold unknown at *
  omega

theorem pending_follow {g : Graph} {node : Uid} {distance : Nat} {s s' : Search} {hop : Uid × Link}
    (hm : hop ∈ g.hops) (h : follow node distance s hop = .ok s') : pending g s' ≤ pending g s := by
  simp only [follow] at h
  split at h
  · next hn =>
    cases h
    have := unknown_insert_lt ⟨distance + 1, [(node, hop.2)]⟩ hm hn
    simp only [pending, length_enqueue]
    omega
  · split at h
    · cases h; exact Nat.add_le_add_left (unknown_insert_le g s.visited _ _) _
    · split at h
      · cases h
      · cases h; exact Nat.le_refl _

theorem pending_foldlM_follow {g : Graph} {node : Uid} {distance : Nat} : ∀ {hops : List (Uid × Link)}
    {s s' : Search}, (∀ h ∈ hops, h ∈ g.hops) → hops.foldlM (follow node distance) s = .ok s' →
    pending g s' ≤ pending g s
  | [], s, s', _, h => by
    simp only [List.foldlM_nil, pure, Except.pure, Except.ok.injEq] at h
    exact h ▸ Nat.le_refl _
  | hop :: hops, s, s', hm, h => by
    simp only [List.foldlM_cons, bind, Except.bind] at h
    split at h
    · cases h
    · next s₁ h₁ =>
      exact Nat.le_trans (pending_foldlM_follow (fun x hx => hm x (List.mem_cons_of_mem _ hx)) h)
        (pending_follow (hm hop List.mem_cons_self) h₁)

theorem mem_hops_of_mem_neighbors {g : Graph} {node : Uid} {h : Uid × Link}
    (hm : h ∈ g.neighbors node) : h ∈ g.hops := by
  unfold Graph.neighbors Graph.outgoing at hm
  cases ha : g.adjacency.get? node.text with
  | none => simp [ha, Graph.hopsOf, SortedMap.empty] at hm
  | some a =>
    rw [ha] at hm
    exact List.mem_flatMap.2 ⟨(node.text, a), SortedMap.get?_eq_some_iff.1 ha, hm⟩

/-! ## The search -/

/-- Searches until the queue is empty. -/
def run (g : Graph) (target : Uid) (s : Search) : Except GraphError Search :=
  match _ : s.queue with
  | [] => .ok s
  | (distance, node) :: queue =>
    if node = target then run g target { s with queue }
    else
      match _ : (g.neighbors node).foldlM (follow node distance) { s with queue } with
      | .error e => .error e
      | .ok s' => run g target s'
termination_by pending g s
decreasing_by
  · rename_i hq _
    simp only [pending, hq, List.length_cons]; omega
  · rename_i hq _ hs
    have := pending_foldlM_follow (fun _ => mem_hops_of_mem_neighbors) hs
    simp only [pending, hq, List.length_cons] at this ⊢
    omega

/-! ## Listing the routes -/

/-- The back-links of a node. -/
def backLinks (visited : SortedMap Uid Visit) (node : Uid) : List (Uid × Link) :=
  match visited.get? node with
  | some v => v.backLinks
  | none => []

/-- The routes to the nodes that are listed already. -/
abbrev RouteTable := SortedMap Uid (List (List Link))

/-- The routes of at most `hops` links from the source to a node, and the table with those that had
to be listed on the way. -/
def listRoutes (visited : SortedMap Uid Visit) (source : Uid) :
    (hops : Nat) → Uid → RouteTable → List (List Link) × RouteTable
  | hops, node, table =>
    if node = source then ([[]], table) else
      match table.get? node with
      | some routes => (routes, table)
      | none =>
        match hops with
        | 0 => ([], table)
        | hops + 1 =>
          let (routes, table) := (backLinks visited node).foldl
            (fun acc back =>
              let (before, table) := listRoutes visited source hops back.1 acc.2
              (acc.1 ++ before.map (· ++ [back.2]), table))
            ([], table)
          (routes, table.insert node routes)

end Search

/-- All shortest routes between two nodes, or none if the target cannot be reached. -/
def Graph.shortestRoutes (g : Graph) (source target : Uid) : Except GraphError (Option Routes) :=
  if source = target then .ok (some ⟨0, []⟩)
  else do
    let s ← (Search.start source).run g target
    match s.visited.get? target with
    | none => return none
    | some v => return some ⟨v.distance, (Search.listRoutes s.visited source v.distance target .empty).1⟩

end ControlPlane
