/-
How many shortest routes there are. Between two different nodes the routes of the search are the shortest walks, so
their number is the number of walks of the least length (`HasWalks.routes`). Walks are counted by their first entry:
the walks of `n + 1` entries are as many as the walks of `n` entries from each node next to the first one, counted
once for each link that leads there, where nodes from which no such walk goes on may be left out (`HasWalks.succ`).
The least length is bounded from below by any quantity that falls by at most one along a link (`le_length_of_isWalk`).
-/
import ControlPlane.Proofs.Topology.Alike
import Mathlib.Algebra.Ring.Nat

namespace ControlPlane.Graph

variable {g : Graph} {u v : Uid} {n k : Nat}

/-- There are `k` walks of `n` entries from the first node to the second one. -/
def HasWalks (g : Graph) (u v : Uid) (n k : Nat) : Prop :=
  ∃ walks : List (List Entry), walks.Nodup ∧ walks.length = k ∧ ∀ w, w ∈ walks ↔ g.IsWalk u w v ∧ w.length = n

/-! ## Walks by their first entry -/

theorem hasWalks_zero (g : Graph) (u : Uid) : g.HasWalks u u 0 1 := by
  refine ⟨[[]], List.nodup_singleton _, rfl, fun w => ?_⟩
  rw [List.mem_singleton, List.length_eq_zero_iff]
  constructor
  · rintro rfl; exact ⟨rfl, rfl⟩
  · exact fun h => h.2

section FirstEntry

variable {ι : Type} {place : ι → Uid} {near : List ι} {walks : ι → List (List Entry)}

/-- The walks that begin with an entry from a node to a near place and go on from there. -/
def walksFrom (g : Graph) (u : Uid) (place : ι → Uid) (near : List ι) (walks : ι → List (List Entry)) :
    List (List Entry) :=
  near.flatMap fun i => (g.entriesBetween u (place i)).flatMap fun e => (walks i).map (e :: ·)

theorem mem_walksFrom {w : List Entry} : w ∈ g.walksFrom u place near walks ↔ ∃ i ∈ near, ∃ e w', w = e :: w' ∧
    e.origin = u ∧ e.target = place i ∧ g.HasEntry e ∧ w' ∈ walks i := by
  simp only [walksFrom, List.mem_flatMap, List.mem_map, mem_entriesBetween]
  constructor
  · rintro ⟨i, hi, e, ⟨ho, ht, he⟩, w', hw', rfl⟩
    exact ⟨i, hi, e, w', rfl, ho, ht, he, hw'⟩
  · rintro ⟨i, hi, e, w', rfl, ho, ht, he, hw'⟩
    exact ⟨i, hi, e, ⟨ho, ht, he⟩, w', hw', rfl⟩

theorem nodup_walksFrom (hnear : (near.map place).Nodup) (hwalks : ∀ i ∈ near, (walks i).Nodup) :
    (g.walksFrom u place near walks).Nodup := by
  refine List.nodup_flatMap.2 ⟨fun i hi => List.nodup_flatMap.2 ⟨fun e _ => ?_, ?_⟩, ?_⟩
  · exact (hwalks i hi).map fun w w' h => (List.cons.inj h).2
  · refine (g.nodup_entriesBetween u (place i)).imp fun hne => ?_
    simp only [Function.onFun, List.disjoint_left, List.mem_map]
    rintro _ ⟨w, -, rfl⟩ ⟨w', -, h⟩
    exact hne (List.cons.inj h).1.symm
  · refine (List.pairwise_map.1 hnear).imp fun hne => ?_
    simp only [Function.onFun, List.disjoint_left, List.mem_flatMap, List.mem_map, mem_entriesBetween]
    rintro _ ⟨e, ⟨-, ht, -⟩, w, -, rfl⟩ ⟨e', ⟨-, ht', -⟩, w', -, h⟩
    obtain rfl := (List.cons.inj h).1
    exact hne (ht.symm.trans ht')

theorem length_walksFrom : (g.walksFrom u place near walks).length =
    (near.map fun i => (g.linksBetween u (place i)).length * (walks i).length).sum := by
  simp [walksFrom, entriesBetween, List.length_flatMap, List.map_const', Function.comp_def]

/-- The walks from a node are those from the near places with an entry before them, if no walk of the length goes
on from any other node that a link leads to. -/
theorem HasWalks.succ (place : ι → Uid) (count : ι → Nat) (hnear : (near.map place).Nodup)
    (hcount : ∀ i ∈ near, g.HasWalks (place i) v n (count i))
    (hfar : ∀ m ∉ near.map place, g.linksBetween u m ≠ [] → ∀ w, g.IsWalk m w v → w.length ≠ n) :
    g.HasWalks u v (n + 1) (near.map fun i => (g.linksBetween u (place i)).length * count i).sum := by
  choose! walks hnodup hlength hmem using hcount
  refine ⟨g.walksFrom u place near walks, nodup_walksFrom hnear hnodup, ?_, fun w => ?_⟩
  · rw [length_walksFrom, List.map_congr_left fun i hi => by rw [hlength i hi]]
  · rw [mem_walksFrom]
    constructor
    · rintro ⟨i, hi, e, w', rfl, ho, ht, he, hw'⟩
      obtain ⟨hwalk, hlen⟩ := (hmem i hi w').1 hw'
      exact ⟨⟨ho, he, ht ▸ hwalk⟩, congrArg (· + 1) hlen⟩
    · rintro ⟨hw, hlen⟩
      obtain ⟨e, w', rfl⟩ := List.exists_cons_of_length_eq_add_one hlen
      obtain ⟨rfl, he, hwalk⟩ := hw
      have hlen : w'.length = n := Nat.succ.inj hlen
      by_cases ht : e.target ∈ near.map place
      · obtain ⟨i, hi, hplace⟩ := List.mem_map.1 ht
        exact ⟨i, hi, e, w', rfl, rfl, hplace.symm, he, (hmem i hi w').2 ⟨hplace ▸ hwalk, hlen⟩⟩
      · exact absurd hlen (hfar _ ht (List.ne_nil_of_mem (List.mem_of_getElem? he)) w' hwalk)

end FirstEntry

/-! ## The least length -/

/-- Places of the topology and a quantity that is zero at the end and falls by at most one along every link. -/
theorem le_length_of_isWalk {α : Type} (place : α → Uid) (d : α → Nat)
    (hstep : ∀ a m, g.linksBetween (place a) m ≠ [] → ∃ b, place b = m ∧ d a ≤ d b + 1)
    (hend : ∀ a, place a = v → d a = 0) {a : α} {w : List Entry} (hw : g.IsWalk (place a) w v) : d a ≤ w.length := by
  induction w generalizing a with
  | nil => exact (hend a hw).le
  | cons e w ih =>
    obtain ⟨ho, he, hw⟩ := hw
    obtain ⟨b, hb, hle⟩ := hstep a e.target (ho ▸ List.ne_nil_of_mem (List.mem_of_getElem? he))
    have := ih (hb ▸ hw)
    rw [List.length_cons]
    omega

/-! ## Routes -/

/-- The search finds as many routes as there are walks of the least length. -/
theorem HasWalks.routes (h : g.HasWalks u v n k) (hk : 0 < k) (hmin : ∀ w, g.IsWalk u w v → n ≤ w.length)
    (hne : u ≠ v) : ∃ r, g.shortestRoutes u v = .ok (some r) ∧ r.length = n ∧ r.paths.length = k := by
  obtain ⟨walks, hnodup, rfl, hmem⟩ := h
  obtain ⟨w, hw⟩ := List.exists_mem_of_length_pos hk
  have hdist : g.AtDistance u v n := ⟨⟨w, (hmem w).1 hw⟩, hmin⟩
  obtain ⟨r, hr, hlength⟩ := shortestRoutes_of_atDistance hdist
  obtain ⟨shortest, hnodup', hmem', hpaths⟩ := paths_of_shortestRoutes hne hr
  have hperm : shortest.Perm walks := (List.perm_ext_iff_of_nodup hnodup' hnodup).2 fun w => by
    rw [hmem', hmem, isShortestWalk_iff hdist]
  exact ⟨r, hr, hlength, by rw [hpaths, List.length_map, hperm.length_eq]⟩

end ControlPlane.Graph
