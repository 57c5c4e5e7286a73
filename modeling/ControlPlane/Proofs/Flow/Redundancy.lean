/-
Dropping redundant flow entries loses no coverage. Every entry of a list stays, or an entry stays that
is on the same node, with the same priority and equal actions, and whose match covers that of the entry
(`exists_essential_covering`), for all lists of entries, also those with repeated kinds of fields. Which
entries stay is a matter of positions: those that no position makes redundant (`essential_map`).

An entry may be dropped because of one that is dropped itself. Descending from an entry to one that makes
it redundant ends, because each step goes down in a strict order on the positions of the list: the match
dominates, and if it is dominated back, the position is an earlier one.
-/
import ControlPlane.Flow.Redundancy
import ControlPlane.Proofs.Match
import Mathlib.Data.Fintype.EquivFin
import Mathlib.Data.List.FinRange
import Mathlib.Data.List.Forall2

namespace ControlPlane

/-! ## Equal actions -/

namespace Action

theorem forward_equals_iff {a b : List Uid} :
    (forward a).equals (forward b) = true ↔ (∀ p ∈ a, p ∈ b) ∧ ∀ p ∈ b, p ∈ a := by
  show (a.all b.contains && b.all a.contains) = true ↔ _
  simp [List.all_eq_true]

theorem equals_trans {a b c : Action} (h : a.equals b = true) (h' : b.equals c = true) : a.equals c = true := by
  -- actions of different kinds are not equal, so one case for each kind remains
  cases a <;> cases b <;> first | cases h | skip
  all_goals cases c <;> first | cases h' | skip
  case forward =>
    obtain ⟨h1, h2⟩ := forward_equals_iff.1 h
    obtain ⟨h1', h2'⟩ := forward_equals_iff.1 h'
    exact forward_equals_iff.2 ⟨fun p hp => h1' p (h1 p hp), fun p hp => h2 p (h2' p hp)⟩
  case flood => exact beq_iff_eq.2 ((beq_iff_eq.1 h).trans (beq_iff_eq.1 h'))
  case pushVlan => exact beq_iff_eq.2 ((beq_iff_eq.1 h).trans (beq_iff_eq.1 h'))
  case writeFields => exact Match.equals_trans h h'
  all_goals rfl

theorem listEquals_iff {a b : List Action} :
    listEquals a b = true ↔ List.Forall₂ (fun x y => x.equals y = true) a b := by
  rw [List.forall₂_iff_zip, listEquals, Bool.and_eq_true, beq_iff_eq, List.all_eq_true]
  exact and_congr_right fun _ => ⟨fun h x y hxy => h (x, y) hxy, fun h p hp => h hp⟩

theorem listEquals_trans {a b c : List Action} (h : listEquals a b = true) (h' : listEquals b c = true) :
    listEquals a c = true := by
  rw [listEquals_iff] at *
  induction h generalizing c with
  | nil => exact h'
  | cons hxy _ ih =>
    cases h' with
    | cons hyz hrest => exact .cons (equals_trans hxy hyz) (ih hrest)

end Action

namespace FlowEntry

theorem sameTarget_iff {a b : FlowEntry} : a.sameTarget b = true ↔
    a.node = b.node ∧ a.priority = b.priority ∧ Action.listEquals a.actions b.actions = true := by
  simp [sameTarget, and_assoc]

theorem sameTarget_trans {a b c : FlowEntry} (h : a.sameTarget b = true) (h' : b.sameTarget c = true) :
    a.sameTarget c = true := by
  obtain ⟨h1, h2, h3⟩ := sameTarget_iff.1 h
  obtain ⟨h1', h2', h3'⟩ := sameTarget_iff.1 h'
  exact sameTarget_iff.2 ⟨h1.trans h1', h2.trans h2', Action.listEquals_trans h3 h3'⟩

theorem strictlySubsumes_iff {a b : FlowEntry} : a.strictlySubsumes b = true ↔
    a.sameTarget b = true ∧ a.pattern.subsumes b.pattern = true ∧ a.pattern.equals b.pattern = false := by
  simp only [strictlySubsumes, subsumes, equals, Bool.and_eq_true, Bool.not_eq_true', Bool.and_eq_false_iff]
  constructor
  · rintro ⟨⟨h1, h2⟩, h | h⟩
    · rw [h1] at h; cases h
    · exact ⟨h1, h2, h⟩
  · rintro ⟨h1, h2, h⟩; exact ⟨⟨h1, h2⟩, .inr h⟩

theorem equals_iff {a b : FlowEntry} :
    a.equals b = true ↔ a.sameTarget b = true ∧ a.pattern.equals b.pattern = true := by
  simp [equals]

theorem subsumes_iff {a b : FlowEntry} :
    a.subsumes b = true ↔ a.sameTarget b = true ∧ a.pattern.subsumes b.pattern = true := by
  simp [subsumes]

/-! ## What stays -/

section Positions

variable {flows : List FlowEntry}

/-- The entry at the first position makes the one at the second position redundant. -/
def MakesRedundant (flows : List FlowEntry) (i j : Fin flows.length) : Prop :=
  i ≠ j ∧ (flows[i].strictlySubsumes flows[j] = true ∨ (i < j ∧ flows[i].equals flows[j] = true))

instance (i j : Fin flows.length) : Decidable (MakesRedundant flows i j) := inferInstanceAs (Decidable (_ ∧ _))

/-- The positions that none of the positions makes redundant. -/
def kept (positions : List (Fin flows.length)) : List (Fin flows.length) :=
  positions.filter fun j => ∀ i ∈ positions, ¬ MakesRedundant flows i j

theorem mem_kept {positions : List (Fin flows.length)} {j : Fin flows.length} :
    j ∈ kept positions ↔ j ∈ positions ∧ ∀ i ∈ positions, ¬ MakesRedundant flows i j := by
  simp [kept]

theorem kept_sublist (positions : List (Fin flows.length)) : (kept positions).Sublist positions := List.filter_sublist

theorem isRedundant_map_iff {before after : List (Fin flows.length)} {j : Fin flows.length}
    (hbefore : ∀ i ∈ before, i < j) (hafter : ∀ i ∈ after, j < i) :
    isRedundant (before.map flows.get) (flows.get j) (after.map flows.get) = true ↔
      ∃ i ∈ before.reverse ++ j :: after, MakesRedundant flows i j := by
  simp only [isRedundant, Bool.or_eq_true, List.any_eq_true, List.mem_map, List.mem_append, List.mem_reverse,
    List.mem_cons]
  constructor
  · rintro (⟨_, ⟨i, hi, rfl⟩, h⟩ | ⟨_, ⟨i, hi, rfl⟩, h⟩)
    · exact ⟨i, .inl hi, (hbefore i hi).ne, h.imp_right fun he => ⟨hbefore i hi, he⟩⟩
    · exact ⟨i, .inr (.inr hi), (hafter i hi).ne', .inl h⟩
  · rintro ⟨i, hi | rfl | hi, hne, h⟩
    · exact .inl ⟨_, ⟨i, hi, rfl⟩, h.imp_right And.right⟩
    · exact absurd rfl hne
    · exact .inr ⟨_, ⟨i, hi, rfl⟩, h.resolve_right fun ⟨hlt, _⟩ => (hafter i hi).asymm hlt⟩

theorem essentialAfter_map : ∀ (before positions : List (Fin flows.length)),
    (before.reverse ++ positions).Pairwise (· < ·) →
    essentialAfter (before.map flows.get) (positions.map flows.get) =
      (positions.filter fun j => ∀ i ∈ before.reverse ++ positions, ¬ MakesRedundant flows i j).map flows.get
  | _, [], _ => rfl
  | before, j :: after, h => by
    -- the positions before are collected backwards, so `j` is the last of them for the rest
    have hrest := essentialAfter_map (j :: before) after (by simpa using h)
    rw [List.reverse_cons, List.append_assoc, List.singleton_append] at hrest
    obtain ⟨-, hafter, hbefore⟩ := List.pairwise_append.1 h
    have hred := isRedundant_map_iff (fun i hi => hbefore i (List.mem_reverse.2 hi) j List.mem_cons_self)
      (List.pairwise_cons.1 hafter).1
    rw [List.map_cons, essentialAfter, ← List.map_cons, hrest, List.filter_cons]
    by_cases hr : ∃ i ∈ before.reverse ++ j :: after, MakesRedundant flows i j
    · rw [if_pos (hred.2 hr), if_neg (by simpa using hr)]
    · rw [if_neg (mt hred.1 hr), if_pos (by simpa using hr), List.map_cons]

/-- Of the entries at ascending positions those at the kept positions stay. -/
theorem essential_map {positions : List (Fin flows.length)} (h : positions.Pairwise (· < ·)) :
    essential (positions.map flows.get) = (kept positions).map flows.get :=
  essentialAfter_map [] positions h

theorem essential_eq (flows : List FlowEntry) :
    essential flows = (kept (List.finRange flows.length)).map flows.get := by
  have h := essential_map (List.pairwise_lt_finRange flows.length)
  rwa [List.map_get_finRange] at h

theorem mem_kept_finRange {j : Fin flows.length} :
    j ∈ kept (List.finRange flows.length) ↔ ∀ i, ¬ MakesRedundant flows i j := by
  simp [mem_kept]

theorem ascending_kept (flows : List FlowEntry) : (kept (List.finRange flows.length)).Pairwise (· < ·) :=
  (List.pairwise_lt_finRange flows.length).sublist (kept_sublist _)

theorem essential_sublist (flows : List FlowEntry) : (essential flows).Sublist flows := by
  have h := (kept_sublist (List.finRange flows.length)).map flows.get
  rwa [← essential_eq, List.map_get_finRange] at h

/-- No entry that stays is equal to a later one that stays. -/
theorem essential_pairwise (flows : List FlowEntry) : (essential flows).Pairwise fun f g => f.equals g = false := by
  rw [essential_eq, List.pairwise_map]
  refine (ascending_kept flows).imp_of_mem fun {i j} _ hj hlt => ?_
  rw [← Bool.not_eq_true]
  exact fun he => mem_kept_finRange.1 hj i ⟨hlt.ne, .inr ⟨hlt, he⟩⟩

/-! ## The descent to an entry that stays -/

/-- The match at the first position dominates that at the second one, and comes before it if it is
dominated back. -/
def Above (flows : List FlowEntry) (i j : Fin flows.length) : Prop :=
  flows[i].pattern.Dominates flows[j].pattern ∧ (flows[j].pattern.Dominates flows[i].pattern → i < j)

theorem above_irrefl (i : Fin flows.length) : ¬ Above flows i i :=
  fun h => Nat.lt_irrefl _ (h.2 (Match.dominates_refl _))

theorem Above.trans {i j k : Fin flows.length} (h : Above flows i j) (h' : Above flows j k) : Above flows i k := by
  refine ⟨h.1.trans h'.1, fun hk => ?_⟩
  have hij := h.2 (h'.1.trans hk)
  have hjk := h'.2 (hk.trans h.1)
  exact Nat.lt_trans hij hjk

theorem wellFounded_above (flows : List FlowEntry) : WellFounded (Above flows) :=
  have : IsTrans _ (Above flows) := ⟨fun _ _ _ => Above.trans⟩
  have : Std.Irrefl (Above flows) := ⟨above_irrefl⟩
  Finite.wellFounded_of_trans_of_irrefl _

theorem MakesRedundant.above {i j : Fin flows.length} (h : MakesRedundant flows i j) : Above flows i j := by
  obtain ⟨-, h | ⟨hlt, h⟩⟩ := h
  · obtain ⟨-, hs, hne⟩ := strictlySubsumes_iff.1 h
    exact ⟨Match.dominates_of_subsumes hs, fun h' => absurd h' (Match.not_dominates_of_strict hs hne)⟩
  · exact ⟨Match.dominates_of_equals (equals_iff.1 h).2, fun _ => hlt⟩

theorem MakesRedundant.sameTarget {i j : Fin flows.length} (h : MakesRedundant flows i j) :
    flows[i].sameTarget flows[j] = true := by
  obtain ⟨-, h | ⟨-, h⟩⟩ := h
  · exact (strictlySubsumes_iff.1 h).1
  · exact (equals_iff.1 h).1

/-- Of any positions, each one is kept or one of its target that is kept is above it. -/
theorem exists_kept {positions : List (Fin flows.length)} {j : Fin flows.length} (hj : j ∈ positions) :
    ∃ s ∈ kept positions, s = j ∨ flows[s].sameTarget flows[j] = true ∧ Above flows s j := by
  -- the entry that makes this one redundant may be dropped too, but it is above
  induction j using (wellFounded_above flows).induction with
  | _ j ih =>
    by_cases hr : ∃ i ∈ positions, MakesRedundant flows i j
    · obtain ⟨i, hi, hij⟩ := hr
      obtain ⟨s, hs, hsi⟩ := ih i hij.above hi
      refine ⟨s, hs, .inr ?_⟩
      rcases hsi with rfl | ⟨htarget, habove⟩
      · exact ⟨hij.sameTarget, hij.above⟩
      · exact ⟨sameTarget_trans htarget hij.sameTarget, habove.trans hij.above⟩
    · exact ⟨j, mem_kept.2 ⟨hj, fun i hi hij => hr ⟨i, hi, hij⟩⟩, .inl rfl⟩

/-- Every entry stays, or one of the same target that is above it. -/
theorem exists_essential (j : Fin flows.length) : ∃ s : Fin flows.length, flows[s] ∈ essential flows ∧
    (s = j ∨ flows[s].sameTarget flows[j] = true ∧ Above flows s j) := by
  obtain ⟨s, hs, h⟩ := exists_kept (List.mem_finRange j)
  refine ⟨s, ?_, h⟩
  rw [essential_eq]
  exact List.mem_map_of_mem hs

end Positions

/-- Every entry stays, or one of the same target stays whose match covers that of the entry. -/
theorem exists_essential_covering {flows : List FlowEntry} {f : FlowEntry} (hf : f ∈ flows) :
    f ∈ essential flows ∨
      ∃ s ∈ essential flows, s.sameTarget f = true ∧ s.pattern.Covers f.pattern := by
  obtain ⟨j, rfl⟩ := List.get_of_mem hf
  obtain ⟨s, hs, rfl | ⟨htarget, habove⟩⟩ := exists_essential j
  · exact .inl hs
  · exact .inr ⟨flows[s], hs, htarget, habove.1.1⟩

/-! ## Main result -/

/-- The essential entries of a list are some of its entries, in their order. Every other entry has a
representative among them: on its node, with its priority and equal actions, and accepting every packet that
it accepts. -/
theorem essential_keeps_coverage (flows : List FlowEntry) : (essential flows).Sublist flows ∧
    ∀ f ∈ flows, f ∈ essential flows ∨ ∃ s ∈ essential flows, s.node = f.node ∧ s.priority = f.priority ∧
      Action.listEquals s.actions f.actions = true ∧ ∀ p : Packet, f.pattern.accepts p → s.pattern.accepts p := by
  refine ⟨essential_sublist flows, fun f hf => ?_⟩
  rcases exists_essential_covering hf with h | ⟨s, hs, htarget, hcovers⟩
  · exact .inl h
  · obtain ⟨hnode, hpriority, hactions⟩ := sameTarget_iff.1 htarget
    exact .inr ⟨s, hs, hnode, hpriority, hactions, fun p => hcovers.accepts⟩

/-- An entry of `n1` that drops what has the fields. -/
def dropping (fields : List Field) : FlowEntry :=
  { node := ⟨"n1"⟩, pattern := ⟨fields⟩, actions := [.drop], priority := 1 }

/-- Both other entries are made redundant by the last one, also the first, which has a repeated kind. -/
def widening : List FlowEntry :=
  [dropping [.vlanId 3, .ethType 5, .vlanId 3], dropping [.ethType 5, .vlanPcp 1], dropping [.ethType 5]]

theorem essential_keeps_coverage_widening : essential widening = [dropping [.ethType 5]] ∧
    ∀ p : Packet, Match.accepts p ⟨[.vlanId 3, .ethType 5, .vlanId 3]⟩ → Match.accepts p ⟨[.ethType 5]⟩ := by
  have hlast : essential widening = [dropping [.ethType 5]] := by decide
  refine ⟨hlast, ?_⟩
  rcases (essential_keeps_coverage widening).2 _ List.mem_cons_self with h | ⟨s, hs, -, -, -, haccepts⟩
  · rw [hlast, List.mem_singleton] at h
    exact absurd h (by decide)
  · rw [hlast, List.mem_singleton] at hs
    subst hs
    exact haccepts

end FlowEntry

end ControlPlane
