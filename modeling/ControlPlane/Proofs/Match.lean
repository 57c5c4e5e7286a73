/-
The relations between matches. A match covers another one if each of its fields subsumes some field of
the other; then it accepts whatever the other one accepts. Equality and subsumption both imply it, and
covering is a preorder for all matches, also for those with a repeated kind.

For matches with a repeated kind, equality is not symmetric and subsumption not reflexive, so neither
gives an order. What they do give is `Dominates`: covering that does not lead from a match without
repeated kinds around to one with them. It is a preorder, and it holds in both directions only between
matches that do not subsume each other strictly (`not_dominates_of_strict`).
-/
import ControlPlane.Proofs.Field
import ControlPlane.Proofs.List
import Mathlib.Data.List.Perm.Subperm

namespace ControlPlane

namespace Match

variable {a b c : Match}

/-! ## The relations, opened -/

theorem subsumes_iff : a.subsumes b = true ↔
    ∀ f ∈ a.fields, ∃ g, b.fields.filter (fun g => g.sameKind f) = [g] ∧ f.subsumes g = true := by
  simp only [subsumes, List.all_eq_true]
  refine forall₂_congr fun f _ => ?_
  split
  · next g h => simp [h]
  · next h =>
    simp only [Bool.false_eq_true, false_iff, not_exists, not_and]
    exact fun g hg => absurd hg (h g)

theorem equals_iff : a.equals b = true ↔ a.fields.length = b.fields.length ∧
    ∀ f ∈ a.fields, (b.fields.filter fun g => g.sameKind f && f.equals g).length = 1 := by
  simp [equals]

/-- A field of an equal match has an equal field. -/
theorem exists_of_equals (h : a.equals b = true) {f : Field} (hf : f ∈ a.fields) :
    ∃ g ∈ b.fields, f.equals g = true := by
  have hlen := (equals_iff.1 h).2 f hf
  obtain ⟨g, hg⟩ := List.length_eq_one_iff.1 hlen
  have hmem : g ∈ b.fields.filter fun g => g.sameKind f && f.equals g := by rw [hg]; exact List.mem_singleton_self g
  obtain ⟨hgb, hp⟩ := List.mem_filter.1 hmem
  exact ⟨g, hgb, (Bool.and_eq_true_iff.1 hp).2⟩

theorem equals_trans (h : a.equals b = true) (h' : b.equals c = true) : a.equals c = true := by
  refine equals_iff.2 ⟨(equals_iff.1 h).1.trans (equals_iff.1 h').1, fun f hf => ?_⟩
  obtain ⟨g, hg, he⟩ := exists_of_equals h hf
  -- the fields equal to `f` are those equal to `g`
  have hsame : (fun x : Field => x.sameKind f && f.equals x) = fun x => x.sameKind g && g.equals x := by
    funext x
    rw [Bool.eq_iff_iff, Bool.and_eq_true, Bool.and_eq_true, Field.sameKind_iff, Field.sameKind_iff,
      Field.kind_of_equals he]
    refine and_congr_right fun _ => ⟨Field.equals_trans (Field.equals_symm he), Field.equals_trans he⟩
  rw [hsame]
  exact (equals_iff.1 h').2 g hg

theorem subsumes_trans (h : a.subsumes b = true) (h' : b.subsumes c = true) : a.subsumes c = true := by
  rw [subsumes_iff] at *
  intro f hf
  obtain ⟨g, hg, hfg⟩ := h f hf
  have hmem : g ∈ b.fields.filter fun x => x.sameKind f := by rw [hg]; exact List.mem_singleton_self g
  obtain ⟨hgb, hkind⟩ := List.mem_filter.1 hmem
  obtain ⟨x, hx, hgx⟩ := h' g hgb
  -- the fields of the kind of `f` are those of the kind of `g`
  have hsame : (fun y : Field => y.sameKind f) = fun y => y.sameKind g := by
    funext y
    rw [Field.sameKind, Field.sameKind, Field.sameKind_iff.1 hkind]
  exact ⟨x, hsame ▸ hx, Field.subsumes_trans hfg hgx⟩

/-! ## Repeated kinds -/

instance (m : Match) : Decidable m.Distinct := inferInstanceAs (Decidable (List.Pairwise _ _))

theorem distinct_iff : a.Distinct ↔ (a.fields.map Field.kind).Nodup := by
  rw [Distinct, List.Nodup, List.pairwise_map]

theorem eq_of_kind (ha : a.Distinct) {f g : Field} (hf : f ∈ a.fields) (hg : g ∈ a.fields) (h : f.kind = g.kind) :
    f = g :=
  List.inj_on_of_nodup_map (distinct_iff.1 ha) hf hg h

/-- Of a kind there is one field, if some field of it is among fields of different kinds. -/
theorem filter_sameKind (ha : a.Distinct) {f g : Field} (hg : g ∈ a.fields) (h : g.kind = f.kind) :
    a.fields.filter (fun x => x.sameKind f) = [g] := by
  refine eq_singleton_of_nodup (((distinct_iff.1 ha).of_map _).filter _) fun x => ?_
  rw [List.mem_filter, Field.sameKind_iff]
  constructor
  · rintro ⟨hx, hk⟩; exact eq_of_kind ha hx hg (hk.trans h.symm)
  · rintro rfl; exact ⟨hg, h⟩

/-! ## Covering -/

/-- Every field of the match subsumes a field of the other one. -/
def Covers (a b : Match) : Prop := ∀ f ∈ a.fields, ∃ g ∈ b.fields, f.subsumes g = true

theorem covers_refl (a : Match) : a.Covers a := fun f hf => ⟨f, hf, Field.subsumes_refl f⟩

theorem Covers.trans (h : a.Covers b) (h' : b.Covers c) : a.Covers c := by
  intro f hf
  obtain ⟨g, hg, hfg⟩ := h f hf
  obtain ⟨x, hx, hgx⟩ := h' g hg
  exact ⟨x, hx, Field.subsumes_trans hfg hgx⟩

theorem covers_of_subsumes (h : a.subsumes b = true) : a.Covers b := by
  intro f hf
  obtain ⟨g, hg, hs⟩ := subsumes_iff.1 h f hf
  have hmem : g ∈ b.fields.filter fun g => g.sameKind f := by rw [hg]; exact List.mem_singleton_self g
  exact ⟨g, (List.mem_filter.1 hmem).1, hs⟩

theorem covers_of_equals (h : a.equals b = true) : a.Covers b := by
  intro f hf
  obtain ⟨g, hg, he⟩ := exists_of_equals h hf
  exact ⟨g, hg, Field.subsumes_of_equals he⟩

/-- A match accepts what the matches it covers accept. -/
theorem Covers.accepts (h : a.Covers b) {p : Packet} (hp : b.accepts p) : a.accepts p := by
  intro f hf
  obtain ⟨g, hg, hs⟩ := h f hf
  exact Field.accepts_of_subsumes hs (hp g hg)

theorem Covers.kinds (h : a.Covers b) : a.fields.map Field.kind ⊆ b.fields.map Field.kind := by
  intro k hk
  obtain ⟨f, hf, rfl⟩ := List.mem_map.1 hk
  obtain ⟨g, hg, hs⟩ := h f hf
  exact List.mem_map.2 ⟨g, hg, (Field.kind_of_subsumes hs).symm⟩

/-- What subsumes a match of no further kinds leaves it no repeated kind. -/
theorem distinct_of_subsumes (h : a.subsumes b = true) (h' : b.fields.map Field.kind ⊆ a.fields.map Field.kind) :
    b.Distinct := by
  rw [distinct_iff, List.nodup_iff_count_le_one]
  intro k
  by_cases hk : k ∈ b.fields.map Field.kind
  · obtain ⟨f, hf, rfl⟩ := List.mem_map.1 (h' hk)
    obtain ⟨g, hg, -⟩ := subsumes_iff.1 h f hf
    have hcount : (b.fields.map Field.kind).count f.kind = (b.fields.filter fun x => x.sameKind f).length := by
      rw [List.count, List.countP_map, List.countP_eq_length_filter]
      rfl
    rw [hcount, hg]
    exact Nat.le_refl 1
  · rw [List.count_eq_zero_of_not_mem hk]
    exact Nat.zero_le 1

/-- A match equal to one without repeated kinds has the same kinds. -/
theorem kinds_perm_of_equals (h : a.equals b = true) (ha : a.Distinct) :
    (a.fields.map Field.kind).Perm (b.fields.map Field.kind) := by
  have hsub := List.subperm_of_subset (distinct_iff.1 ha) (covers_of_equals h).kinds
  exact hsub.perm_of_length_le (by simp [(equals_iff.1 h).1])

/-- A match equal to one without repeated kinds has none either. -/
theorem distinct_of_equals (h : a.equals b = true) (ha : a.Distinct) : b.Distinct :=
  distinct_iff.2 ((kinds_perm_of_equals h ha).nodup_iff.1 (distinct_iff.1 ha))

/-- A match subsumes what it covers, if that has no repeated kind. -/
theorem subsumes_of_covers (hb : b.Distinct) (h : a.Covers b) : a.subsumes b = true := by
  refine subsumes_iff.2 fun f hf => ?_
  obtain ⟨g, hg, hs⟩ := h f hf
  exact ⟨g, filter_sameKind hb hg (Field.kind_of_subsumes hs).symm, hs⟩

/-- Matches without repeated kinds that cover each other are equal. -/
theorem equals_of_covers (ha : a.Distinct) (hb : b.Distinct) (h : a.Covers b) (h' : b.Covers a) :
    a.equals b = true := by
  have hle := (List.subperm_of_subset (distinct_iff.1 ha) h.kinds).length_le
  have hle' := (List.subperm_of_subset (distinct_iff.1 hb) h'.kinds).length_le
  simp only [List.length_map] at hle hle'
  refine equals_iff.2 ⟨Nat.le_antisymm hle hle', fun f hf => ?_⟩
  obtain ⟨g, hg, hs⟩ := h f hf
  obtain ⟨f', hf', hs'⟩ := h' g hg
  obtain rfl : f' = f := eq_of_kind ha hf' hf
    ((Field.kind_of_subsumes hs').symm.trans (Field.kind_of_subsumes hs).symm)
  have hone := filter_sameKind hb hg (Field.kind_of_subsumes hs).symm
  rw [show (fun x : Field => x.sameKind f' && f'.equals x) = fun x => f'.equals x && x.sameKind f' from
    funext fun x => Bool.and_comm _ _, ← List.filter_filter, hone]
  simp [Field.equals_of_subsumes hs hs']

theorem equals_symm (ha : a.Distinct) (h : a.equals b = true) : b.equals a = true := by
  have hb := distinct_of_equals h ha
  refine equals_of_covers hb ha (fun g hg => ?_) (covers_of_equals h)
  obtain ⟨f, hf, hfg⟩ := List.mem_map.1 ((kinds_perm_of_equals h ha).mem_iff.2 (List.mem_map_of_mem hg))
  obtain ⟨g', hg', he⟩ := exists_of_equals h hf
  obtain rfl := eq_of_kind hb hg' hg ((Field.kind_of_equals he).symm.trans hfg)
  exact ⟨f, hf, Field.subsumes_of_equals (Field.equals_symm he)⟩

/-! ## Domination -/

/-- The match covers the other one; and if it has no repeated kind and is covered back, the other one
has none either. -/
def Dominates (a b : Match) : Prop := a.Covers b ∧ (a.Distinct → b.Covers a → b.Distinct)

theorem dominates_refl (a : Match) : a.Dominates a := ⟨covers_refl a, fun ha _ => ha⟩

theorem Dominates.trans (h : a.Dominates b) (h' : b.Dominates c) : a.Dominates c := by
  refine ⟨h.1.trans h'.1, fun ha hc => ?_⟩
  exact h'.2 (h.2 ha (h'.1.trans hc)) (hc.trans h.1)

theorem dominates_of_subsumes (h : a.subsumes b = true) : a.Dominates b :=
  ⟨covers_of_subsumes h, fun _ h' => distinct_of_subsumes h h'.kinds⟩

theorem dominates_of_equals (h : a.equals b = true) : a.Dominates b :=
  ⟨covers_of_equals h, fun ha _ => distinct_of_equals h ha⟩

/-- A match that is subsumed strictly does not dominate back. -/
theorem not_dominates_of_strict (h : a.subsumes b = true) (hne : a.equals b = false) : ¬ b.Dominates a := by
  intro h'
  have hb := distinct_of_subsumes h h'.1.kinds
  have ha := h'.2 hb (covers_of_subsumes h)
  rw [equals_of_covers ha hb (covers_of_subsumes h) h'.1] at hne
  cases hne

end Match

end ControlPlane
