/-
The expansion of back-links into routes, said as a recursion without a bound on its depth: once with a table that all
calls share (`Expands`), and once without (`IsPlainListing`). The recursion with the table ends because every
back-link leads one hop closer to the source (`expands_listRoutes`), so the listing of the search is what it gives.

Whatever the order of the calls, every entry of the table is the plain answer for its node; so the expansion gives the
plain answer for any node, and leaves such a table (`plain_of_expands`). The invariant is on the table only, and the
induction is on the calls.

The back-links of a node are the entries into it from nodes one hop closer. They are in the order of these nodes, and
of their positions between the two (`exists_ordered_backLinks`).
-/
import ControlPlane.Proofs.Topology.Routes

namespace ControlPlane.Search

/-! ## The recursion, with a table and without -/

mutual

/-- Listing the routes to a node, with the tables before and after: the source has the empty route, a node of the table
is not listed again, and the answer for any other node is entered into the table. -/
inductive Expands (visited : SortedMap Uid Visit) (source : Uid) :
    Uid → RouteTable → List (List Link) → RouteTable → Prop
  | source (table : RouteTable) : Expands visited source source table [[]] table
  | known {n : Uid} {table : RouteTable} {routes : List (List Link)} :
      n ≠ source → table.get? n = some routes → Expands visited source n table routes table
  | expanded {n : Uid} {table after : RouteTable} {routes : List (List Link)} :
      n ≠ source → table.get? n = none → ExpandsAll visited source (backLinks visited n) table routes after →
      Expands visited source n table routes (after.insert n routes)

/-- Listing the routes that end in the given back-links, one back-link after the other. -/
inductive ExpandsAll (visited : SortedMap Uid Visit) (source : Uid) :
    List (Uid × Link) → RouteTable → List (List Link) → RouteTable → Prop
  | nil (table : RouteTable) : ExpandsAll visited source [] table [] table
  | cons {back : Uid × Link} {backs : List (Uid × Link)} {table between after : RouteTable}
      {before routes : List (List Link)} :
      Expands visited source back.1 table before between → ExpandsAll visited source backs between routes after →
      ExpandsAll visited source (back :: backs) table (before.map (· ++ [back.2]) ++ routes) after

end

/-- The function lists the routes to every node without a table: the empty route to the source, and elsewhere, for each
back-link in order, the routes to the node before, extended by the link. -/
def IsPlainListing (visited : SortedMap Uid Visit) (source : Uid) (R : Uid → List (List Link)) : Prop :=
  ∀ n, R n = if n = source then [[]] else
    (backLinks visited n).flatMap fun back => (R back.1).map (· ++ [back.2])

/-- Every entry of the table is the answer of the function. -/
def Answers (R : Uid → List (List Link)) (table : RouteTable) : Prop :=
  ∀ n routes, table.get? n = some routes → routes = R n

section Plain

variable {visited : SortedMap Uid Visit} {source n : Uid} {R R' : Uid → List (List Link)} {table after : RouteTable}
  {routes : List (List Link)} {backs : List (Uid × Link)}

theorem answers_empty (R : Uid → List (List Link)) : Answers R .empty := by
  intro n routes h
  rw [SortedMap.get?_empty] at h
  cases h

theorem Answers.insert (ht : Answers R table) (n : Uid) : Answers R (table.insert n (R n)) := by
  intro m routes h
  rw [SortedMap.get?_insert] at h
  split at h
  · next hm => cases h; rw [hm]
  · exact ht m routes h

theorem IsPlainListing.at_source (hR : IsPlainListing visited source R) : R source = [[]] := by
  rw [hR source, if_pos rfl]

theorem IsPlainListing.of_ne (hR : IsPlainListing visited source R) (h : n ≠ source) :
    R n = (backLinks visited n).flatMap fun back => (R back.1).map (· ++ [back.2]) := by
  rw [hR n, if_neg h]

/-! ## The answers with a table are the plain ones -/

mutual

theorem plain_of_expands {visited : SortedMap Uid Visit} {source : Uid} {R : Uid → List (List Link)}
    (hR : IsPlainListing visited source R) : ∀ {n : Uid} {table after : RouteTable} {routes : List (List Link)},
    Expands visited source n table routes after → Answers R table → routes = R n ∧ Answers R after
  | _, _, _, _, .source _, ht => ⟨hR.at_source.symm, ht⟩
  | n, _, _, routes, .known _ hget, ht => ⟨ht n routes hget, ht⟩
  | n, _, _, routes, .expanded hn _ hall, ht => by
    obtain ⟨hroutes, hafter⟩ := plain_of_expandsAll hR hall ht
    obtain rfl : routes = R n := hroutes.trans (hR.of_ne hn).symm
    exact ⟨rfl, hafter.insert n⟩

theorem plain_of_expandsAll {visited : SortedMap Uid Visit} {source : Uid} {R : Uid → List (List Link)}
    (hR : IsPlainListing visited source R) :
    ∀ {backs : List (Uid × Link)} {table after : RouteTable} {routes : List (List Link)},
    ExpandsAll visited source backs table routes after → Answers R table →
    routes = (backs.flatMap fun back => (R back.1).map (· ++ [back.2])) ∧ Answers R after
  | _, _, _, _, .nil _, ht => ⟨rfl, ht⟩
  | _, _, _, _, .cons hfirst hrest, ht => by
    obtain ⟨rfl, hbetween⟩ := plain_of_expands hR hfirst ht
    obtain ⟨rfl, hafter⟩ := plain_of_expandsAll hR hrest hbetween
    exact ⟨rfl, hafter⟩

end

/-- Where no descent along back-links is endless, the plain answers are determined. -/
theorem IsPlainListing.unique (hwf : WellFounded fun before n => ∃ l, (before, l) ∈ backLinks visited n)
    (hR : IsPlainListing visited source R) (hR' : IsPlainListing visited source R') : R = R' := by
  funext n
  induction n using hwf.induction with
  | _ n ih =>
    by_cases hn : n = source
    · rw [hn, hR.at_source, hR'.at_source]
    · rw [hR.of_ne hn, hR'.of_ne hn]
      exact List.flatMap_congr fun back hback => by rw [ih back.1 ⟨back.2, hback⟩]

end Plain

/-! ## What the search expands -/

section Search

variable {g : Graph} {source : Uid} {done : List (Nat × Uid)} {s : Search}

/-- The listing of back-links one after the other, as a fold over them. -/
theorem expandsAll_foldl {visited : SortedMap Uid Visit} (list : Uid → RouteTable → List (List Link) × RouteTable) :
    ∀ (backs : List (Uid × Link)) (before : List (List Link)) (table : RouteTable),
      (∀ b ∈ backs, ∀ table, Expands visited source b.1 table (list b.1 table).1 (list b.1 table).2) →
      ∃ routes after, ExpandsAll visited source backs table routes after ∧
        backs.foldl (fun acc back =>
          ((acc.1 ++ (list back.1 acc.2).1.map (· ++ [back.2])), (list back.1 acc.2).2)) (before, table) =
        (before ++ routes, after)
  | [], before, table, _ => ⟨[], table, .nil table, by simp⟩
  | b :: backs, before, table, h => by
    rw [List.forall_mem_cons] at h
    obtain ⟨routes, after, hall, hfold⟩ := expandsAll_foldl list backs
      (before ++ (list b.1 table).1.map (· ++ [b.2])) (list b.1 table).2 h.2
    refine ⟨_, after, .cons (h.1 table) hall, ?_⟩
    rw [List.foldl_cons, hfold, List.append_assoc]

/-- The listing of the search is the recursion with a table, if its depth allows for the distance. -/
theorem expands_listRoutes (hS : Searching g source done s) (hq : s.queue = []) : ∀ {hops k : Nat} {n : Uid},
    g.AtDistance source n k → k ≤ hops → ∀ table, Expands s.visited source n table
      (listRoutes s.visited source hops n table).1 (listRoutes s.visited source hops n table).2 := by
  intro hops
  induction hops with
  | zero =>
    intro k n hn hk table
    obtain rfl : k = 0 := Nat.le_zero.1 hk
    obtain rfl := Graph.atDistance_zero.1 hn
    unfold listRoutes
    rw [if_pos rfl]
    exact .source table
  | succ hops ih =>
    intro k n hn hk table
    unfold listRoutes
    split
    · next h => subst h; exact .source table
    · next hne =>
      cases hget : table.get? n with
      | some routes => exact .known hne hget
      | none =>
        have hbacks : ∀ b ∈ backLinks s.visited n, ∀ table, Expands s.visited source b.1 table
            (listRoutes s.visited source hops b.1 table).1 (listRoutes s.visited source hops b.1 table).2 := by
          intro b hb
          obtain ⟨k', hb', hn'⟩ := distance_of_mem_backLinks hS hq hb
          have := hn.unique hn'
          apply ih hb'
          omega
        obtain ⟨routes, after, hall, hfold⟩ :=
          expandsAll_foldl (listRoutes s.visited source hops) (backLinks s.visited n) [] table hbacks
        rw [List.nil_append] at hfold
        dsimp only
        rw [hfold]
        exact .expanded hne hget hall

/-- What the search knows has plain answers. -/
theorem exists_plainListing (hS : Searching g source done s) (hq : s.queue = []) :
    ∃ R, IsPlainListing s.visited source R := by
  refine ⟨fun n => (s.visited.get? n).elim [] fun v => routesInto g done source v.distance n, fun n => ?_⟩
  have hdistance : ∀ {m k}, g.AtDistance source m k → ((s.visited.get? m).elim [] fun v =>
      routesInto g done source v.distance m) = routesInto g done source k m := by
    intro m k hm
    obtain ⟨v, hv, rfl⟩ := (hS.mem_done hq).1 ((hS.mem_done_iff hq).2 hm)
    rw [hv, Option.elim_some]
  split
  · next hn =>
    subst hn
    refine (hdistance (Graph.atDistance_zero.2 rfl)).trans ?_
    rw [routesInto, walksInto, if_pos rfl]
    rfl
  · next hne =>
    cases hv : s.visited.get? n with
    | none => simp [backLinks, hv]
    | some v =>
      have hn := (hS.mem_done_iff hq).1 ((hS.mem_done hq).2 ⟨v, hv, rfl⟩)
      cases hd : v.distance with
      | zero =>
        rw [hd] at hn
        exact absurd (Graph.atDistance_zero.1 hn).symm hne
      | succ k =>
        rw [hd] at hn
        exact (hdistance hn).trans (flatMap_backLinks hS hq hn fun m hm => hdistance hm).symm

/-! ## The order of back-links -/

/-- The back-links of a node are the entries into it from the nodes one hop closer, in the order of these nodes and
of the positions between the two. -/
theorem exists_ordered_backLinks (hS : Searching g source done s) (hq : s.queue = []) (n : Uid) :
    ∃ entries : List Entry, entries.Pairwise Entry.Precedes ∧
      (∀ e, e ∈ entries ↔ e.target = n ∧ g.HasEntry e ∧
        ∃ k, g.AtDistance source e.origin k ∧ g.AtDistance source n (k + 1)) ∧
      backLinks s.visited n = entries.map fun e => (e.origin, e.link) := by
  cases hv : s.visited.get? n with
  | none =>
    refine ⟨[], .nil, fun e => ?_, by simp [backLinks, hv]⟩
    simp only [List.not_mem_nil, false_iff, not_and, not_exists]
    intro _ _ k _ hn
    obtain ⟨v, hv', -⟩ := (hS.mem_done hq).1 ((hS.mem_done_iff hq).2 hn)
    rw [hv] at hv'
    cases hv'
  | some v =>
    have hn := (hS.mem_done_iff hq).1 ((hS.mem_done hq).2 ⟨v, hv, rfl⟩)
    refine ⟨entriesInto g done v.distance n, pairwise_entriesInto hS _ _, fun e => ?_, hS.backLinks_eq hv⟩
    constructor
    · intro he
      cases hd : v.distance with
      | zero => simp [entriesInto, hd] at he
      | succ k =>
        rw [hd] at he hn
        obtain ⟨ho, ht, hentry⟩ := mem_entriesInto.1 he
        exact ⟨ht, hentry, k, (hS.mem_done_iff hq).1 ho, hn⟩
    · rintro ⟨ht, hentry, k, ho, hk⟩
      rw [hn.unique hk]
      exact mem_entriesInto.2 ⟨(hS.mem_done_iff hq).2 ho, ht, hentry⟩

end Search

end ControlPlane.Search

namespace ControlPlane.Graph

open Search

/-- Between two different nodes of any topology where the search finds routes: for what the search knows, the plain
recursion has one answer for every node. The recursion with a shared table ends, and from an empty table it gives the
plain answer, which are the routes of the search in their order. And the back-links of a node are the entries into it
from the nodes one hop closer, as far as they are reached without leaving the target, in the order of these nodes and
of the positions between the two. -/
theorem routes_expanded (g : Graph) {source target : Uid} (hne : source ≠ target) {r : Routes}
    (hr : g.shortestRoutes source target = .ok (some r)) : ∃ s R, (Search.start source).run g target = .ok s ∧
      IsPlainListing s.visited source R ∧ (∀ R', IsPlainListing s.visited source R' → R' = R) ∧
      r.paths = R target ∧ (∃ table, Expands s.visited source target .empty r.paths table) ∧
      (∀ n routes table, Expands s.visited source n .empty routes table → routes = R n) ∧
      ∀ n, ∃ entries : List Entry, entries.Pairwise Entry.Precedes ∧
        (∀ e, e ∈ entries ↔ e.target = n ∧ (g.sealed target).HasEntry e ∧
          ∃ k, (g.sealed target).AtDistance source e.origin k ∧ (g.sealed target).AtDistance source n (k + 1)) ∧
        backLinks s.visited n = entries.map fun e => (e.origin, e.link) := by
  obtain ⟨s, done, hrun, hS, hq⟩ := exists_search g source target
  obtain ⟨R, hR⟩ := exists_plainListing hS hq
  rw [shortestRoutes_eq hne hrun hS hq, Except.ok.injEq, Option.map_eq_some_iff] at hr
  obtain ⟨v, hv, rfl⟩ := hr
  have hd := (hS.mem_done_iff hq).1 ((hS.mem_done hq).2 ⟨v, hv, rfl⟩)
  have hexpands := expands_listRoutes hS hq hd (Nat.le_refl _) .empty
  rw [(listRoutes_eq hS hq hd (Nat.le_refl _) final_empty).1] at hexpands
  refine ⟨s, R, hrun, hR, fun R' hR' => hR'.unique (wellFounded_backLinks hS hq) hR, ?_, ⟨_, hexpands⟩, ?_,
    exists_ordered_backLinks hS hq⟩
  · exact (plain_of_expands hR hexpands (answers_empty R)).1
  · exact fun n routes table h => (plain_of_expands hR h (answers_empty R)).1

/-- A link from `a` to `b`, and two links from there to `c`, so `b` is found in the table when it is asked for again. -/
def doubled : Graph :=
  (((Graph.empty.addLink (.between ⟨"a$$1"⟩ ⟨"b$$1"⟩)).2.addLink (.between ⟨"b$$2"⟩ ⟨"c$$1"⟩)).2.addLink
    (.between ⟨"b$$3"⟩ ⟨"c$$2"⟩)).2

def doubledRoutes : List (List Link) :=
  [[.between ⟨"a$$1"⟩ ⟨"b$$1"⟩, .between ⟨"b$$2"⟩ ⟨"c$$1"⟩],
    [.between ⟨"a$$1"⟩ ⟨"b$$1"⟩, .between ⟨"b$$3"⟩ ⟨"c$$2"⟩]]

theorem routes_expanded_doubled : ∃ s R, (Search.start ⟨"a"⟩).run doubled ⟨"c"⟩ = .ok s ∧
    IsPlainListing s.visited ⟨"a"⟩ R ∧ R ⟨"c"⟩ = doubledRoutes ∧
    ∃ table, Expands s.visited ⟨"a"⟩ ⟨"c"⟩ .empty doubledRoutes table := by
  have hroutes : doubled.shortestRoutes ⟨"a"⟩ ⟨"c"⟩ = .ok (some ⟨2, doubledRoutes⟩) := by decide +kernel
  obtain ⟨s, R, hrun, hR, -, hpaths, hexpands, -⟩ := routes_expanded doubled (by decide) hroutes
  exact ⟨s, R, hrun, hR, hpaths.symm, hexpands⟩

end ControlPlane.Graph
