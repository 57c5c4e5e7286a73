/-
Shortest routes on lines and rings. On a line each number is followed by the next one; on a ring, the last one is also
followed by the first (`connects_line`, `connects_ring`).

On a line one number beside is closer to the end, so there is a single route. On a ring the number of steps is that of
the shorter way around. One number beside is closer there as well (`eq_toward_iff`), unless the end is on the opposite
side: then both are, and there are two routes (`line_ring_routes`).
-/
import ControlPlane.Proofs.Topology.Places
import Mathlib.Data.Nat.Dist

namespace ControlPlane.Topology

open ControlPlane.Graph (Beside Linked Connects Descends)

variable {g : Graph} {a b i j n t : Nat}

/-- The node with a number. -/
def node (i : Nat) : Uid := ⟨nodeName i⟩

theorem node_injective : Function.Injective node :=
  fun _ _ h => nodeName_inj.1 (Uid.mk.inj h)

/-! ## Lines -/

/-- The second number is the next one on a line. -/
def LineFollows (n a b : Nat) : Prop := 1 ≤ a ∧ a < n ∧ b = a + 1

theorem mem_linePairs {pair : String × String} :
    pair ∈ linePairs n ↔ ∃ a b, LineFollows n a b ∧ pair = (nodeName a, nodeName b) := by
  simp only [linePairs, List.mem_map, List.mem_range]
  constructor
  · rintro ⟨i, hi, rfl⟩
    exact ⟨i + 1, i + 2, ⟨by omega, by omega, rfl⟩, rfl⟩
  · rintro ⟨a, b, ⟨ha, hn, rfl⟩, rfl⟩
    obtain ⟨i, rfl⟩ : ∃ i, a = i + 1 := ⟨a - 1, by omega⟩
    exact ⟨i, by omega, rfl⟩

theorem nodup_linePairs (n : Nat) : (linePairs n).Nodup :=
  List.nodup_range.map fun _ _ h => Nat.succ.inj (nodeName_inj.1 (Prod.mk.inj h).1)

theorem connects_line (n : Nat) : Connects node (LineFollows n) (linePairs n) := by
  refine ⟨node_injective, fun a => isName_nodeName a, nodup_linePairs n, fun pair => mem_linePairs, fun a b h h' => ?_⟩
  unfold LineFollows at h h'
  omega

theorem beside_line : Beside (LineFollows n) a b ↔
    1 ≤ a ∧ a ≤ n ∧ 1 ≤ b ∧ b ≤ n ∧ (b = a + 1 ∨ a = b + 1) := by
  unfold Beside LineFollows
  omega

theorem descends_line (n t : Nat) : Descends (LineFollows n) t fun a => Nat.dist a t := by
  refine ⟨Nat.dist_self t, fun a b hbeside => ?_⟩
  rw [beside_line] at hbeside
  unfold Nat.dist
  omega

/-- The only way on a line leads towards the end. -/
theorem line_routes (hg : Linked node (LineFollows n) g) (hi : 1 ≤ i) (hin : i ≤ n) (hj : 1 ≤ j) (hjn : j ≤ n)
    (hne : i ≠ j) : ∃ r, g.shortestRoutes (node i) (node j) = .ok (some r) ∧ r.length = Nat.dist i j ∧
      r.paths.length = 1 ∧ r.paths.Nodup := by
  have hd := descends_line n j
  refine hg.routes hd (hg.hasWalks_one hd (fun a => 1 ≤ a ∧ a ≤ n) (fun a _ h => Nat.eq_of_dist_eq_zero h)
    (fun a ha hdist => ?_) ⟨hi, hin⟩) Nat.one_pos hne
  refine ⟨if a < j then a + 1 else a - 1, ?_, fun b => ?_⟩
  · unfold Nat.dist at hdist
    split <;> omega
  · rw [beside_line]
    unfold Nat.dist at hdist ⊢
    split <;> omega

/-! ## Rings -/

/-- The second number is the next one on a ring. -/
def RingFollows (n a b : Nat) : Prop := LineFollows n a b ∨ (a = n ∧ b = 1)

/-- The number of steps along a ring, on the shorter of both ways. -/
def ringSteps (n a t : Nat) : Nat := min (Nat.dist a t) (n - Nat.dist a t)

/-- The number after another one on a ring. -/
def after (n a : Nat) : Nat := if a = n then 1 else a + 1

/-- The number before another one on a ring. -/
def before (n a : Nat) : Nat := if a = 1 then n else a - 1

/-- The number beside another one on the shorter way around to the end. -/
def toward (n a t : Nat) : Nat :=
  if (a < t ∧ 2 * Nat.dist a t < n) ∨ (t < a ∧ n < 2 * Nat.dist a t) then after n a else before n a

section Ring

variable (hn : 3 ≤ n) (ht : 1 ≤ t) (htn : t ≤ n) (ha : 1 ≤ a) (han : a ≤ n)
include hn

theorem connects_ring : Connects node (RingFollows n) (linePairs n ++ [(nodeName n, nodeName 1)]) := by
  refine ⟨node_injective, fun a => isName_nodeName a, ?_, fun pair => ?_, fun a b h h' => ?_⟩
  · refine List.nodup_append.2 ⟨nodup_linePairs n, List.nodup_singleton _, fun pair hpair last hlast heq => ?_⟩
    obtain ⟨a, b, ⟨-, hlt, -⟩, rfl⟩ := mem_linePairs.1 hpair
    obtain rfl := List.mem_singleton.1 hlast
    -- the last number begins no other connection
    have := nodeName_inj.1 (Prod.mk.inj heq).1
    omega
  · rw [List.mem_append, mem_linePairs, List.mem_singleton]
    constructor
    · rintro (⟨a, b, h, rfl⟩ | rfl)
      · exact ⟨a, b, .inl h, rfl⟩
      · exact ⟨n, 1, .inr ⟨rfl, rfl⟩, rfl⟩
    · rintro ⟨a, b, h | ⟨rfl, rfl⟩, rfl⟩
      · exact .inl ⟨a, b, h, rfl⟩
      · exact .inr rfl
  · unfold RingFollows LineFollows at h h'
    omega

theorem beside_ring : Beside (RingFollows n) a b ↔
    1 ≤ a ∧ a ≤ n ∧ 1 ≤ b ∧ b ≤ n ∧ (b = a + 1 ∨ a = b + 1 ∨ (a = n ∧ b = 1) ∨ (a = 1 ∧ b = n)) := by
  unfold Beside RingFollows LineFollows
  omega

include ht htn

theorem descends_ring : Descends (RingFollows n) t fun a => ringSteps n a t := by
  constructor
  · simp [ringSteps, Nat.dist_self]
  · intro a b hbeside
    rw [beside_ring hn] at hbeside
    unfold ringSteps Nat.dist
    omega

include ha han

/-- If the end is not on the opposite side, the other number beside is further away from it. -/
theorem eq_toward_iff (hne : a ≠ t) (hside : 2 * Nat.dist a t ≠ n) :
    Beside (RingFollows n) a b ∧ ringSteps n a t = ringSteps n b t + 1 ↔ b = toward n a t := by
  rw [beside_ring hn]
  unfold toward
  split
  · unfold after ringSteps Nat.dist at *
    split <;> omega
  · unfold before ringSteps Nat.dist at *
    split <;> omega

/-- If the end is on the opposite side, both numbers beside are closer to it. -/
theorem mem_after_before_iff (hside : 2 * Nat.dist a t = n) :
    b ∈ [after n a, before n a] ↔ Beside (RingFollows n) a b ∧ ringSteps n a t = ringSteps n b t + 1 := by
  rw [beside_ring hn, List.mem_cons, List.mem_singleton]
  unfold after before ringSteps Nat.dist at *
  split <;> split <;> omega

/-- One walk has the least length if the end is not on the opposite side. -/
theorem hasWalks_ring (hg : Linked node (RingFollows n) g) (hside : 2 * Nat.dist a t ≠ n) :
    g.HasWalks (node a) (node t) (ringSteps n a t) 1 := by
  refine hg.hasWalks_one (descends_ring hn ht htn) (fun a => 1 ≤ a ∧ a ≤ n ∧ 2 * Nat.dist a t ≠ n) (fun a ha h => ?_)
    (fun a ha hsteps => ?_) ⟨ha, han, hside⟩
  · unfold ringSteps Nat.dist at *
    omega
  · obtain ⟨ha, han, hside⟩ := ha
    have hne : a ≠ t := by
      rintro rfl
      exact hsteps (descends_ring hn ht htn).zero
    have honly : ∀ b, Beside (RingFollows n) a b ∧ ringSteps n a t = ringSteps n b t + 1 ↔ b = toward n a t :=
      fun b => eq_toward_iff hn ht htn ha han hne hside
    obtain ⟨hbeside, hstep⟩ := (honly _).2 rfl
    rw [beside_ring hn] at hbeside
    refine ⟨toward n a t, ⟨hbeside.2.2.1, hbeside.2.2.2.1, ?_⟩, honly⟩
    -- no number is further away than the opposite one
    unfold ringSteps Nat.dist at *
    omega

/-- Two walks have the least length if the end is on the opposite side: one for each way around. -/
theorem hasWalks_opposite (hg : Linked node (RingFollows n) g) (hside : 2 * Nat.dist a t = n) :
    g.HasWalks (node a) (node t) (ringSteps n a t) 2 := by
  have hd := descends_ring hn ht htn
  have hmem : ∀ b, b ∈ [after n a, before n a] ↔ Beside (RingFollows n) a b ∧ ringSteps n a t = ringSteps n b t + 1 :=
    fun b => mem_after_before_iff hn ht htn ha han hside
  have hnodup : [after n a, before n a].Nodup := by
    rw [List.nodup_cons, List.mem_singleton]
    refine ⟨?_, List.nodup_singleton _⟩
    unfold after before
    split <;> split <;> omega
  obtain ⟨k, hk⟩ : ∃ k, ringSteps n a t = k + 1 :=
    ⟨_, ((hmem (after n a)).1 List.mem_cons_self).2⟩
  rw [hk]
  refine hg.hasWalks_succ hd (fun _ => 1) hnodup hmem hk fun b hb => ?_
  obtain ⟨hbeside, hstep⟩ := (hmem b).1 hb
  rw [beside_ring hn] at hbeside
  obtain rfl : k = ringSteps n b t := by omega
  refine hasWalks_ring hn ht htn hbeside.2.2.1 hbeside.2.2.2.1 hg ?_
  unfold ringSteps Nat.dist at *
  omega

theorem ring_routes (hg : Linked node (RingFollows n) g) (hne : a ≠ t) :
    ∃ r, g.shortestRoutes (node a) (node t) = .ok (some r) ∧ r.length = ringSteps n a t ∧
      r.paths.length = (if 2 * Nat.dist a t = n then 2 else 1) ∧ r.paths.Nodup := by
  have hd := descends_ring hn ht htn
  split
  · next hside => exact hg.routes hd (hasWalks_opposite hn ht htn ha han hg hside) Nat.two_pos hne
  · next hside => exact hg.routes hd (hasWalks_ring hn ht htn ha han hg hside) Nat.one_pos hne

end Ring

/-! ## Routes -/

/-- On a line one route leads from a node to another one, and it is as long as the numbers are apart. On a ring the
routes are as long as the shorter way around; there are two of them to the opposite node and one to any other. -/
theorem line_ring_routes (n : Nat) :
    (∃ g, line n = .ok g ∧ ∀ i j, 1 ≤ i → i ≤ n → 1 ≤ j → j ≤ n → i ≠ j →
      ∃ r, g.shortestRoutes ⟨nodeName i⟩ ⟨nodeName j⟩ = .ok (some r) ∧ r.length = Nat.dist i j ∧
        r.paths.length = 1) ∧
    (3 ≤ n → ∃ g, ring n = .ok g ∧ ∀ i j, 1 ≤ i → i ≤ n → 1 ≤ j → j ≤ n → i ≠ j →
      ∃ r, g.shortestRoutes ⟨nodeName i⟩ ⟨nodeName j⟩ = .ok (some r) ∧
        r.length = min (Nat.dist i j) (n - Nat.dist i j) ∧
        r.paths.length = (if 2 * Nat.dist i j = n then 2 else 1) ∧ r.paths.Nodup) := by
  constructor
  · obtain ⟨g, hg, hlinked⟩ := (connects_line n).exists_linked
    refine ⟨g, hg, fun i j hi hin hj hjn hne => ?_⟩
    obtain ⟨r, hr, hlength, hcount, -⟩ := line_routes hlinked hi hin hj hjn hne
    exact ⟨r, hr, hlength, hcount⟩
  · intro hn
    obtain ⟨g, hg, hlinked⟩ := (connects_ring hn).exists_linked
    refine ⟨g, ?_, fun i j hi hin hj hjn hne => ?_⟩
    · rw [ring, if_pos (show n > 2 from hn)]
      exact hg
    · exact ring_routes hn hj hjn hi hin hlinked hne

/-- Of four nodes in a line, one route joins the ends; in a ring, two routes lead to the opposite node. -/
theorem line_ring_routes_four :
    (∃ g, line 4 = .ok g ∧ ∃ r, g.shortestRoutes ⟨"n1"⟩ ⟨"n4"⟩ = .ok (some r) ∧ r.length = 3 ∧ r.paths.length = 1) ∧
    ∃ g, ring 4 = .ok g ∧ ∃ r, g.shortestRoutes ⟨"n1"⟩ ⟨"n3"⟩ = .ok (some r) ∧ r.length = 2 ∧ r.paths.length = 2 := by
  obtain ⟨⟨g, hg, hline⟩, hrings⟩ := line_ring_routes 4
  obtain ⟨g', hg', hring⟩ := hrings (by decide)
  obtain ⟨r, hr, hlength, hcount⟩ := hline 1 4 (by decide) (by decide) (by decide) (by decide) (by decide)
  obtain ⟨r', hr', hlength', hcount', -⟩ := hring 1 3 (by decide) (by decide) (by decide) (by decide) (by decide)
  exact ⟨⟨g, hg, r, hr, hlength, hcount⟩, g', hg', r', hr', hlength', hcount'⟩

end ControlPlane.Topology
