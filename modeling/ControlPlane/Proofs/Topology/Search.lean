/-
The search for shortest routes. On every topology, also one taken over without checks, the search
comes to its end without an error, and then knows exactly the nodes that walks lead to, each with the
number of entries of a shortest walk (`exists_run`, `Searched.get?_iff`).

The proof is the invariant of the queue. The nodes searched from, followed by the queue, are sorted by
distance and UID; so what is found next is at most one hop farther away than what is searched from, and
no node is ever reached by a shorter way than the one it is recorded with. The back-links of a node are
the links that were followed to it from nodes one hop closer, in the order in which they were followed.

The target is not searched from, so a search on a topology is a search on the topology sealed there.
-/
import ControlPlane.Proofs.Topology.Walk
import ControlPlane.Topology.Routes
import Mathlib.Data.List.Induction

namespace ControlPlane.Search

/-! ## The order of the queue -/

/-- The order in which nodes with their distances are searched from. -/
def Before (a b : Nat × Uid) : Prop := a.1 < b.1 ∨ (a.1 = b.1 ∧ a.2 < b.2)

theorem Before.le {a b : Nat × Uid} (h : Before a b) : a.1 ≤ b.1 := by
  rcases h with h | h
  · exact Nat.le_of_lt h
  · exact Nat.le_of_eq h.1

theorem Before.trans {a b c : Nat × Uid} (h : Before a b) (h' : Before b c) : Before a c := by
  unfold Before at *
  rcases h with h | ⟨h1, h2⟩
  · exact .inl (by omega)
  · rcases h' with h' | ⟨h1', h2'⟩
    · exact .inl (by omega)
    · exact .inr ⟨by omega, StrictOrder.trans h2 h2'⟩

theorem before_of_not {a b : Nat × Uid} (h : ¬ Before a b) (hne : a ≠ b) : Before b a := by
  unfold Before at *
  rcases Nat.lt_trichotomy a.1 b.1 with h1 | h1 | h1
  · exact absurd (.inl h1) h
  · rcases StrictOrder.total a.2 b.2 with h2 | h2 | h2
    · exact absurd (.inr ⟨h1, h2⟩) h
    · exact absurd (Prod.ext h1 h2) hne
    · exact .inr ⟨h1.symm, h2⟩
  · exact .inl h1

theorem mem_enqueue {a b : Nat × Uid} : ∀ {queue : List (Nat × Uid)}, a ∈ enqueue b queue ↔ a = b ∨ a ∈ queue
  | [] => by simp [enqueue]
  | c :: queue => by
    simp only [enqueue]
    split
    · simp
    · simp only [List.mem_cons, mem_enqueue]
      tauto

theorem pairwise_enqueue {b : Nat × Uid} : ∀ {queue : List (Nat × Uid)}, queue.Pairwise Before → b ∉ queue →
    (enqueue b queue).Pairwise Before
  | [], _, _ => by simp [enqueue]
  | c :: queue, h, hb => by
    obtain ⟨hc, hq⟩ := List.pairwise_cons.1 h
    simp only [List.mem_cons, not_or] at hb
    simp only [enqueue]
    split
    · next hlt =>
      refine List.pairwise_cons.2 ⟨fun a ha => ?_, h⟩
      rcases List.mem_cons.1 ha with rfl | ha
      · exact hlt
      · exact Before.trans hlt (hc a ha)
    · next hlt =>
      refine List.pairwise_cons.2 ⟨fun a ha => ?_, pairwise_enqueue hq hb.2⟩
      rcases mem_enqueue.1 ha with rfl | ha
      · exact before_of_not hlt hb.1
      · exact hc a ha

/-! ## The invariant of one expansion -/

/-- A link that was followed: the node it leaves, with its distance, and the hop. -/
abbrev Followed := (Nat × Uid) × (Uid × Link)

/-- What a followed link adds to the back-links of a node at distance `k`. -/
def backLink (n : Uid) (k : Nat) (t : Followed) : Option (Uid × Link) :=
  if t.2.1 = n ∧ t.1.1 + 1 = k then some (t.1.2, t.2.2) else none

/-- The state of a search from `source` when the nodes of `done` were taken from the queue and the
links of `steps` were followed. -/
structure Explored (source : Uid) (done : List (Nat × Uid)) (steps : List Followed) (s : Search) : Prop where
  sorted : (done ++ s.queue).Pairwise Before
  known : ∀ k n, (k, n) ∈ done ++ s.queue ↔ ∃ v, s.visited.get? n = some v ∧ v.distance = k
  atSource : ∃ v, s.visited.get? source = some v ∧ v.distance = 0
  backLinks : ∀ n v, s.visited.get? n = some v → v.backLinks = steps.filterMap (backLink n v.distance)
  reached : ∀ n v, s.visited.get? n = some v → n = source ∨ v.backLinks ≠ []
  followed : ∀ t ∈ steps, t.1 ∈ done ∧ ∃ v, s.visited.get? t.2.1 = some v ∧ v.distance ≤ t.1.1 + 1

theorem get?_start (source n : Uid) :
    (start source).visited.get? n = if n = source then some ⟨0, []⟩ else none := by
  rw [start, SortedMap.get?_insert, SortedMap.get?_empty]

theorem explored_start (source : Uid) : Explored source [] [] (start source) := by
  have hget : ∀ n v, (start source).visited.get? n = some v ↔ n = source ∧ v = ⟨0, []⟩ := by
    intro n v
    rw [get?_start]
    split <;> simp_all [eq_comm]
  refine ⟨by simp [start], fun k n => ?_, ⟨⟨0, []⟩, (hget _ _).2 ⟨rfl, rfl⟩, rfl⟩, fun n v h => ?_,
    fun n v h => .inl ((hget n v).1 h).1, by simp⟩
  · simp only [start, List.nil_append, List.mem_singleton, Prod.mk.injEq]
    constructor
    · rintro ⟨rfl, rfl⟩; exact ⟨_, (hget _ _).2 ⟨rfl, rfl⟩, rfl⟩
    · rintro ⟨v, hv, rfl⟩
      obtain ⟨rfl, rfl⟩ := (hget n v).1 hv
      exact ⟨rfl, rfl⟩
  · obtain ⟨-, rfl⟩ := (hget n v).1 h
    rfl

section Step

variable {source : Uid} {done : List (Nat × Uid)} {steps : List Followed} {s : Search} {q : Nat × Uid}

theorem Explored.pop {queue : List (Nat × Uid)} (hE : Explored source done steps s) (hq : s.queue = q :: queue) :
    Explored source (done ++ [q]) steps { s with queue } := by
  have happ : done ++ s.queue = (done ++ [q]) ++ queue := by rw [hq]; simp
  refine ⟨happ ▸ hE.sorted, happ ▸ hE.known, hE.atSource, hE.backLinks, hE.reached, fun t ht => ?_⟩
  exact ⟨List.mem_append_left _ (hE.followed t ht).1, (hE.followed t ht).2⟩

/-- What is known when the next nodes are at most one hop farther away than the one searched from. -/
theorem Explored.distance_le (hE : Explored source done steps s) (hdone : ∀ a ∈ done, a.1 ≤ q.1)
    (hqueue : ∀ b ∈ s.queue, b.1 ≤ q.1 + 1) {n : Uid} {v : Visit} (hv : s.visited.get? n = some v) :
    v.distance ≤ q.1 + 1 := by
  rcases List.mem_append.1 ((hE.known _ n).2 ⟨v, hv, rfl⟩) with h | h
  · exact Nat.le_succ_of_le (hdone _ h)
  · exact hqueue _ h

/-- A followed link adds nothing to the back-links of other nodes or other distances. -/
theorem filterMap_backLink_snoc {hop : Uid × Link} {n : Uid} {k : Nat} (h : ¬ (hop.1 = n ∧ q.1 + 1 = k)) :
    (steps ++ [(q, hop)]).filterMap (backLink n k) = steps.filterMap (backLink n k) := by
  rw [List.filterMap_append]
  simp [backLink, h]

/-- A link to a node that was not visited puts the node into the queue. -/
theorem Explored.discover (hE : Explored source done steps s) (hq : q ∈ done) (hdone : ∀ a ∈ done, a.1 ≤ q.1)
    {hop : Uid × Link} (hv : s.visited.get? hop.1 = none) :
    Explored source done (steps ++ [(q, hop)])
      ⟨s.visited.insert hop.1 ⟨q.1 + 1, [(q.2, hop.2)]⟩, enqueue (q.1 + 1, hop.1) s.queue⟩ := by
  have hkeep : ∀ n v, s.visited.get? n = some v →
      (s.visited.insert hop.1 ⟨q.1 + 1, [(q.2, hop.2)]⟩).get? n = some v := by
    intro n v h
    rw [SortedMap.get?_insert_of_ne _ _ (fun he => by rw [← he, h] at hv; cases hv)]
    exact h
  refine ⟨?_, fun k n => ?_, ?_, fun n v h => ?_, fun n v h => ?_, fun t ht => ?_⟩
  · -- the new node is farther away than all that were searched from
    have hnew : (q.1 + 1, hop.1) ∉ s.queue := by
      intro h
      obtain ⟨v, h', -⟩ := (hE.known _ _).1 (List.mem_append_right done h)
      rw [hv] at h'; cases h'
    obtain ⟨h1, h2, h3⟩ := List.pairwise_append.1 hE.sorted
    refine List.pairwise_append.2 ⟨h1, pairwise_enqueue h2 hnew, fun a ha b hb => ?_⟩
    rcases mem_enqueue.1 hb with rfl | hb
    · exact .inl (Nat.lt_succ_of_le (hdone a ha))
    · exact h3 a ha b hb
  · have hmem : (k, n) ∈ done ++ enqueue (q.1 + 1, hop.1) s.queue ↔
        (k = q.1 + 1 ∧ n = hop.1) ∨ (k, n) ∈ done ++ s.queue := by
      simp only [List.mem_append, mem_enqueue, Prod.mk.injEq]
      tauto
    rw [hmem, hE.known, SortedMap.get?_insert]
    split
    · next hn =>
      subst hn
      rw [hv]
      simp [eq_comm]
    · next hn => simp [hn]
  · obtain ⟨v, h, h0⟩ := hE.atSource
    exact ⟨v, hkeep _ v h, h0⟩
  · rw [SortedMap.get?_insert] at h
    split at h
    · next hn =>
      -- no link was followed to the new node before
      subst hn
      cases h
      have hnone : steps.filterMap (backLink hop.1 (q.1 + 1)) = [] := by
        rw [List.filterMap_eq_nil_iff]
        intro t ht
        have hne : t.2.1 ≠ hop.1 := by
          intro he
          obtain ⟨-, v, h', -⟩ := hE.followed t ht
          rw [he, hv] at h'; cases h'
        simp [backLink, hne]
      rw [List.filterMap_append, hnone]
      simp [backLink]
    · next hn =>
      rw [filterMap_backLink_snoc fun h => hn h.1.symm]
      exact hE.backLinks n v h
  · rw [SortedMap.get?_insert] at h
    split at h
    · cases h; exact .inr (by simp)
    · exact hE.reached n v h
  · rcases List.mem_append.1 ht with ht | ht
    · obtain ⟨hd, v, h, hlt⟩ := hE.followed t ht
      exact ⟨hd, v, hkeep _ v h, hlt⟩
    · rw [List.mem_singleton] at ht
      subst ht
      exact ⟨hq, _, SortedMap.get?_insert_self _ _ _, Nat.le_refl _⟩

/-- A link to a node that was reached at the same distance before is one more back-link of it. -/
theorem Explored.addBackLink (hE : Explored source done steps s) (hq : q ∈ done) {hop : Uid × Link} {v₀ : Visit}
    (hv : s.visited.get? hop.1 = some v₀) (hd : v₀.distance = q.1 + 1) :
    Explored source done (steps ++ [(q, hop)])
      { s with visited := s.visited.insert hop.1 { v₀ with backLinks := v₀.backLinks ++ [(q.2, hop.2)] } } := by
  -- distances stay as they are
  have hdist : ∀ n k, (∃ v, (s.visited.insert hop.1 { v₀ with backLinks := v₀.backLinks ++ [(q.2, hop.2)] }).get? n =
      some v ∧ v.distance = k) ↔ ∃ v, s.visited.get? n = some v ∧ v.distance = k := by
    intro n k
    rw [SortedMap.get?_insert]
    split
    · next hn => subst hn; simp [hv]
    · rfl
  refine ⟨hE.sorted, fun k n => (hE.known k n).trans (hdist n k).symm, (hdist _ _).2 hE.atSource, fun n v h => ?_,
    fun n v h => ?_, fun t ht => ?_⟩
  · rw [SortedMap.get?_insert] at h
    split at h
    · next hn =>
      subst hn
      cases h
      rw [List.filterMap_append, hE.backLinks _ _ hv]
      simp [backLink, hd]
    · next hn =>
      rw [filterMap_backLink_snoc fun h => hn h.1.symm]
      exact hE.backLinks n v h
  · rw [SortedMap.get?_insert] at h
    split at h
    · cases h; exact .inr (by simp)
    · exact hE.reached n v h
  · have hv' : t.1 ∈ done ∧ ∃ v, s.visited.get? t.2.1 = some v ∧ v.distance ≤ t.1.1 + 1 := by
      rcases List.mem_append.1 ht with ht | ht
      · exact hE.followed t ht
      · rw [List.mem_singleton] at ht
        subst ht
        exact ⟨hq, v₀, hv, Nat.le_of_eq hd⟩
    obtain ⟨hdn, v, h, hlt⟩ := hv'
    obtain ⟨v', h', he⟩ := (hdist t.2.1 v.distance).2 ⟨v, h, rfl⟩
    exact ⟨hdn, v', h', he ▸ hlt⟩

/-- A link to a node that is closer changes nothing. -/
theorem Explored.skip (hE : Explored source done steps s) (hq : q ∈ done) {hop : Uid × Link} {v₀ : Visit}
    (hv : s.visited.get? hop.1 = some v₀) (hd : v₀.distance < q.1 + 1) :
    Explored source done (steps ++ [(q, hop)]) s := by
  refine ⟨hE.sorted, hE.known, hE.atSource, fun n v h => ?_, hE.reached, fun t ht => ?_⟩
  · rw [filterMap_backLink_snoc, hE.backLinks n v h]
    rintro ⟨rfl, hk⟩
    rw [hv] at h
    cases h
    omega
  · rcases List.mem_append.1 ht with ht | ht
    · exact hE.followed t ht
    · rw [List.mem_singleton] at ht
      subst ht
      exact ⟨hq, v₀, hv, Nat.le_of_lt hd⟩

/-- Following one link keeps the invariant, and what it puts into the queue is one hop farther away. -/
theorem Explored.follow (hE : Explored source done steps s) (hq : q ∈ done) (hdone : ∀ a ∈ done, a.1 ≤ q.1)
    (hqueue : ∀ b ∈ s.queue, b.1 ≤ q.1 + 1) (hop : Uid × Link) :
    ∃ s', Search.follow q.2 q.1 s hop = .ok s' ∧ Explored source done (steps ++ [(q, hop)]) s' ∧
      ∀ b ∈ s'.queue, b ∈ s.queue ∨ b.1 = q.1 + 1 := by
  unfold Search.follow
  cases hv : s.visited.get? hop.1 with
  | none =>
    refine ⟨_, rfl, hE.discover hq hdone hv, fun b hb => ?_⟩
    rcases mem_enqueue.1 hb with rfl | hb
    · exact .inr rfl
    · exact .inl hb
  | some v₀ =>
    have hle := hE.distance_le hdone hqueue hv
    by_cases hd : v₀.distance = q.1 + 1
    · exact ⟨_, if_pos hd, hE.addBackLink hq hv hd, fun b hb => .inl hb⟩
    · refine ⟨s, ?_, hE.skip hq hv (by omega), fun b hb => .inl hb⟩
      dsimp only
      rw [if_neg hd, if_neg (by omega)]

/-- Following the links of a node one after the other keeps the invariant. -/
theorem Explored.foldlM_follow (hq : q ∈ done) (hdone : ∀ a ∈ done, a.1 ≤ q.1) :
    ∀ (hops : List (Uid × Link)) {steps : List Followed} {s : Search},
    Explored source done steps s → (∀ b ∈ s.queue, b.1 ≤ q.1 + 1) →
    ∃ s', hops.foldlM (Search.follow q.2 q.1) s = .ok s' ∧ Explored source done (steps ++ hops.map (q, ·)) s' ∧
      ∀ b ∈ s'.queue, b ∈ s.queue ∨ b.1 = q.1 + 1
  | [], steps, s, hE, _ => ⟨s, rfl, by simpa using hE, fun b hb => .inl hb⟩
  | hop :: hops, steps, s, hE, hqueue => by
    obtain ⟨s₁, h1, hE₁, hnew₁⟩ := hE.follow hq hdone hqueue hop
    have hqueue₁ : ∀ b ∈ s₁.queue, b.1 ≤ q.1 + 1 := by
      intro b hb
      rcases hnew₁ b hb with h | h
      · exact hqueue b h
      · exact Nat.le_of_eq h
    obtain ⟨s', h2, hE', hnew⟩ := foldlM_follow hq hdone hops hE₁ hqueue₁
    refine ⟨s', ?_, by simpa using hE', fun b hb => ?_⟩
    · rw [List.foldlM_cons, h1]
      exact h2
    · rcases hnew b hb with h | h
      · exact hnew₁ b h
      · exact .inr h

end Step

/-! ## The search -/

/-- The links that are followed when the nodes of `done` are searched from. -/
def followedFrom (g : Graph) (done : List (Nat × Uid)) : List Followed :=
  done.flatMap fun q => (g.neighbors q.2).map (q, ·)

/-- The state of a search on a topology between two nodes taken from the queue. -/
structure Searching (g : Graph) (source : Uid) (done : List (Nat × Uid)) (s : Search) : Prop extends
    Explored source done (followedFrom g done) s where
  narrow : ∀ a ∈ s.queue, ∀ b ∈ s.queue, b.1 ≤ a.1 + 1

theorem searching_start (g : Graph) (source : Uid) : Searching g source [] (start source) where
  toExplored := explored_start source
  narrow a ha b hb := by
    simp only [start, List.mem_singleton] at ha hb
    subst ha; subst hb
    exact Nat.le_succ _

/-- Searching from the next node of the queue keeps the invariant. -/
theorem Searching.expand {g : Graph} {source : Uid} {done : List (Nat × Uid)} {s : Search} {q : Nat × Uid}
    {queue : List (Nat × Uid)} (hS : Searching g source done s) (hq : s.queue = q :: queue) :
    ∃ s', (g.neighbors q.2).foldlM (Search.follow q.2 q.1) { s with queue } = .ok s' ∧
      Searching g source (done ++ [q]) s' := by
  have hpop := hS.toExplored.pop hq
  have hdone : ∀ a ∈ done ++ [q], a.1 ≤ q.1 := by
    intro a ha
    rcases List.mem_append.1 ha with ha | ha
    · exact ((List.pairwise_append.1 hS.sorted).2.2 a ha q (by simp [hq])).le
    · exact Nat.le_of_eq (by rw [List.mem_singleton.1 ha])
  have hqueue : ∀ b ∈ queue, b.1 ≤ q.1 + 1 := fun b hb => hS.narrow q (by simp [hq]) b (by simp [hq, hb])
  have hfar : ∀ b ∈ queue, q.1 ≤ b.1 := by
    have hsorted := (List.pairwise_append.1 hS.sorted).2.1
    rw [hq] at hsorted
    exact fun b hb => ((List.pairwise_cons.1 hsorted).1 b hb).le
  obtain ⟨s', h, hE, hnew⟩ := Explored.foldlM_follow (List.mem_append_right _ (List.mem_singleton_self q)) hdone
    (g.neighbors q.2) hpop hqueue
  have hrange : ∀ b ∈ s'.queue, q.1 ≤ b.1 ∧ b.1 ≤ q.1 + 1 := by
    intro b hb
    rcases hnew b hb with hb | hb
    · exact ⟨hfar b hb, hqueue b hb⟩
    · omega
  have hsteps : followedFrom g done ++ (g.neighbors q.2).map (q, ·) = followedFrom g (done ++ [q]) := by
    simp [followedFrom]
  refine ⟨s', h, hsteps ▸ hE, fun a ha b hb => ?_⟩
  have := hrange a ha
  have := hrange b hb
  omega

/-- The search comes to its end without an error. -/
theorem Searching.exists_run {g : Graph} {source target : Uid} {done : List (Nat × Uid)} {s : Search}
    (hS : Searching (g.sealed target) source done s) : ∃ s' done', run g target s = .ok s' ∧
      Searching (g.sealed target) source done' s' ∧ s'.queue = [] := by
  fun_induction run g target s generalizing done with
  | case1 s hq => exact ⟨s, done, rfl, hS, hq⟩
  | case2 s d queue hq ih =>
    obtain ⟨s', h, hS'⟩ := hS.expand hq
    rw [Graph.neighbors_sealed_self] at h
    cases h
    exact ih hS'
  | case3 s d n queue hq hn e he =>
    obtain ⟨s', h, -⟩ := hS.expand hq
    rw [Graph.neighbors_sealed_of_ne g hn] at h
    rw [h] at he
    cases he
  | case4 s d n queue hq hn s₁ hs₁ ih =>
    obtain ⟨s', h, hS'⟩ := hS.expand hq
    rw [Graph.neighbors_sealed_of_ne g hn] at h
    rw [h] at hs₁
    cases hs₁
    exact ih hS'

/-! ## What a finished search knows -/

/-- The entries into a node at distance `k` from the nodes one hop closer, in the order of discovery. -/
def entriesInto (g : Graph) (done : List (Nat × Uid)) (k : Nat) (n : Uid) : List Entry :=
  done.flatMap fun q => if q.1 + 1 = k then g.entriesBetween q.2 n else []

section Finished

variable {g : Graph} {source : Uid} {done : List (Nat × Uid)} {s : Search}

theorem filterMap_followedFrom (g : Graph) (done : List (Nat × Uid)) (n : Uid) (k : Nat) :
    (followedFrom g done).filterMap (backLink n k) = (entriesInto g done k n).map fun e => (e.origin, e.link) := by
  unfold followedFrom entriesInto
  induction done with
  | nil => rfl
  | cons q done ih =>
    rw [List.flatMap_cons, List.flatMap_cons, List.filterMap_append, List.map_append, ih]
    congr 1
    by_cases hk : q.1 + 1 = k
    · have hfun : (backLink n k ∘ (q, ·)) =
          fun h : Uid × Link => (if h.1 = n then some h.2 else none).map (q.2, ·) := by
        funext h
        by_cases hn : h.1 = n <;> simp [backLink, hn, hk]
      rw [List.filterMap_map, hfun, ← List.map_filterMap, Graph.filterMap_neighbors, if_pos hk,
        ← Graph.map_link_entriesBetween, List.map_map]
      refine List.map_congr_left fun e he => ?_
      simp [(Graph.mem_entriesBetween.1 he).1]
    · have hfun : (backLink n k ∘ (q, ·)) = fun _ : Uid × Link => none := by
        funext h
        simp [backLink, hk]
      rw [List.filterMap_map, hfun, if_neg hk]
      simp

theorem mem_entriesInto {k : Nat} {n : Uid} {e : Entry} : e ∈ entriesInto g done (k + 1) n ↔
    (k, e.origin) ∈ done ∧ e.target = n ∧ g.HasEntry e := by
  simp only [entriesInto, List.mem_flatMap, Prod.exists]
  constructor
  · rintro ⟨k', u, hq, he⟩
    split at he
    · next hk =>
      obtain ⟨ho, ht, hh⟩ := Graph.mem_entriesBetween.1 he
      obtain rfl : k' = k := by omega
      exact ⟨ho ▸ hq, ht, hh⟩
    · cases he
  · rintro ⟨hq, ht, hh⟩
    exact ⟨k, e.origin, hq, by simpa using Graph.mem_entriesBetween.2 ⟨rfl, ht, hh⟩⟩

/-- A node found by a finished search was searched from. -/
theorem Searching.mem_done (hS : Searching g source done s) (hq : s.queue = []) {k : Nat} {n : Uid} :
    (k, n) ∈ done ↔ ∃ v, s.visited.get? n = some v ∧ v.distance = k := by
  rw [← hS.known, hq, List.append_nil]

theorem Searching.backLinks_eq (hS : Searching g source done s) {n : Uid} {v : Visit}
    (hv : s.visited.get? n = some v) :
    backLinks s.visited n = (entriesInto g done v.distance n).map fun e => (e.origin, e.link) := by
  rw [backLinks, hv, ← filterMap_followedFrom]
  exact hS.backLinks n v hv

theorem Searching.source_eq (hS : Searching g source done s) {v : Visit}
    (hv : s.visited.get? source = some v) : v.distance = 0 := by
  obtain ⟨v', hv', h0⟩ := hS.atSource
  rw [hv] at hv'
  cases hv'
  exact h0

/-- Every walk from the source leads to a node that was found at most as far away. -/
theorem Searching.get?_of_isWalk (hS : Searching g source done s) (hq : s.queue = []) {w : List Entry} {n : Uid}
    (hw : g.IsWalk source w n) : ∃ v, s.visited.get? n = some v ∧ v.distance ≤ w.length := by
  induction w using List.reverseRecOn generalizing n with
  | nil =>
    obtain rfl : source = n := hw
    obtain ⟨v, hv, h0⟩ := hS.atSource
    exact ⟨v, hv, by omega⟩
  | append_singleton w e ih =>
    obtain ⟨hw', he, rfl⟩ := Graph.isWalk_snoc.1 hw
    obtain ⟨v, hv, hle⟩ := ih hw'
    have hmem : ((v.distance, e.origin), (e.target, e.link)) ∈ followedFrom g done := by
      refine List.mem_flatMap.2 ⟨_, (hS.mem_done hq).2 ⟨v, hv, rfl⟩, List.mem_map.2 ⟨_, ?_, rfl⟩⟩
      exact Graph.mem_neighbors.2 (List.mem_of_getElem? he)
    obtain ⟨-, v', hv', hle'⟩ := hS.followed _ hmem
    refine ⟨v', hv', Nat.le_trans hle' ?_⟩
    simpa using hle

/-- To every node that was found leads a walk of its distance. -/
theorem Searching.exists_isWalk (hS : Searching g source done s) (hq : s.queue = []) : ∀ {k : Nat} {n : Uid},
    (k, n) ∈ done → ∃ w, g.IsWalk source w n ∧ w.length = k := by
  intro k
  induction k with
  | zero =>
    intro n hn
    obtain ⟨v, hv, h0⟩ := (hS.mem_done hq).1 hn
    rcases hS.reached n v hv with rfl | hne
    · exact ⟨[], rfl, rfl⟩
    · refine absurd ?_ hne
      rw [hS.backLinks n v hv, List.filterMap_eq_nil_iff]
      intro t _
      simp [backLink, h0]
  | succ k ih =>
    intro n hn
    obtain ⟨v, hv, hd⟩ := (hS.mem_done hq).1 hn
    rcases hS.reached n v hv with rfl | hne
    · have := hS.source_eq hv
      omega
    · rw [hS.backLinks n v hv, filterMap_followedFrom, hd] at hne
      obtain ⟨e, he⟩ := List.exists_mem_of_ne_nil _ (List.map_eq_nil_iff.not.1 hne)
      obtain ⟨ho, rfl, hh⟩ := mem_entriesInto.1 he
      obtain ⟨w, hw, hlen⟩ := ih ho
      exact ⟨w ++ [e], Graph.isWalk_snoc.2 ⟨hw, hh, rfl⟩, by simp [hlen]⟩

/-- A finished search knows the distance of every node that walks lead to, and of no other node. -/
theorem Searching.mem_done_iff (hS : Searching g source done s) (hq : s.queue = []) {k : Nat} {n : Uid} :
    (k, n) ∈ done ↔ g.AtDistance source n k := by
  constructor
  · intro hn
    refine ⟨hS.exists_isWalk hq hn, fun w hw => ?_⟩
    obtain ⟨v, hv, hle⟩ := hS.get?_of_isWalk hq hw
    obtain ⟨v', hv', rfl⟩ := (hS.mem_done hq).1 hn
    rw [hv] at hv'
    cases hv'
    exact hle
  · rintro ⟨⟨w, hw, rfl⟩, hmin⟩
    obtain ⟨v, hv, hle⟩ := hS.get?_of_isWalk hq hw
    obtain ⟨w', hw', hlen⟩ := hS.exists_isWalk hq ((hS.mem_done hq).2 ⟨v, hv, rfl⟩)
    have := hmin w' hw'
    exact (hS.mem_done hq).2 ⟨v, hv, by omega⟩

end Finished

end ControlPlane.Search
