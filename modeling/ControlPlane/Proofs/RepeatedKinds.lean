/-
What a match with a repeated kind of field is related to. The relations count the fields of the other match only, so
such a match can subsume and equal others. It subsumes every match that repeats none of its kinds and of which it
accepts all packets (`subsumes_iff_onKindsOf`), and it is equal to every match that has as many fields and, for each
of its own, exactly one that accepts the same packets (`equals_iff_representedIn`). To which matches it is not related
at all is said by `repeated_unrelated_iff`.
-/
import ControlPlane.Proofs.Packet

namespace ControlPlane

namespace Match

variable {a b : Match}

/-! ## Subsumption -/

/-- The fields of the kinds that the other match has. -/
def onKindsOf (b a : Match) : Match := ⟨b.fields.filter fun g => a.fields.any fun f => g.sameKind f⟩

theorem mem_onKindsOf {g : Field} : g ∈ (b.onKindsOf a).fields ↔ g ∈ b.fields ∧ ∃ f ∈ a.fields, g.kind = f.kind := by
  simp [onKindsOf, Field.sameKind_iff]

theorem subsumes_onKindsOf (a b : Match) : a.subsumes (b.onKindsOf a) = a.subsumes b := by
  have hsame : ∀ f ∈ a.fields, (b.onKindsOf a).fields.filter (fun g => g.sameKind f) =
      b.fields.filter fun g => g.sameKind f := by
    intro f hf
    refine List.filter_filter.trans (List.filter_congr fun g _ => ?_)
    refine Bool.and_eq_left_iff_imp.2 fun hg => ?_
    exact List.any_eq_true.2 ⟨f, hf, hg⟩
  rw [Bool.eq_iff_iff, subsumes_iff, subsumes_iff]
  exact forall₂_congr fun f hf => by rw [hsame f hf]

theorem distinct_onKindsOf (hb : b.Distinct) : (b.onKindsOf a).Distinct := List.Pairwise.filter _ hb

/-- A match subsumes another one exactly if this repeats none of its kinds, and it accepts whatever the fields of these
kinds accept. -/
theorem subsumes_iff_onKindsOf : a.subsumes b = true ↔
    (b.onKindsOf a).Distinct ∧ ∀ p, (b.onKindsOf a).accepts p → a.accepts p := by
  rw [← subsumes_onKindsOf]
  constructor
  · intro h
    have hkinds : (b.onKindsOf a).fields.map Field.kind ⊆ a.fields.map Field.kind := by
      intro k hk
      obtain ⟨g, hg, rfl⟩ := List.mem_map.1 hk
      obtain ⟨-, f, hf, hkind⟩ := mem_onKindsOf.1 hg
      exact List.mem_map.2 ⟨f, hf, hkind.symm⟩
    have hd := distinct_of_subsumes h hkinds
    exact ⟨hd, (subsumes_iff_accepts hd).1 h⟩
  · rintro ⟨hd, h⟩; exact (subsumes_iff_accepts hd).2 h

/-! ## Equality -/

/-- The matches have as many fields, and for each field of the first one there is one position in the second one whose
field accepts the same packets. -/
def RepresentedIn (a b : Match) : Prop :=
  a.fields.length = b.fields.length ∧
    ∀ f ∈ a.fields, ∃! i : Fin b.fields.length, ∀ p : Packet, f.accepts p ↔ b.fields[i].accepts p

theorem equals_iff_representedIn : a.equals b = true ↔ a.RepresentedIn b := by
  refine equals_iff.trans (and_congr_right fun _ => forall₂_congr fun f _ => ?_)
  rw [length_filter_eq_one_iff]
  refine existsUnique_congr fun i => ?_
  rw [Bool.and_eq_true, Field.sameKind_iff, ← Field.equals_iff_accepts]
  exact and_iff_right_of_imp fun he => (Field.kind_of_equals he).symm

/-- Equality is subsumption, if the second match repeats none of the kinds of the first one. -/
theorem subsumes_of_equals (hd : (b.onKindsOf a).Distinct) (h : a.equals b = true) : a.subsumes b = true := by
  rw [← subsumes_onKindsOf]
  refine subsumes_of_covers hd fun f hf => ?_
  obtain ⟨g, hg, he⟩ := exists_of_equals h hf
  have hkind := (Field.kind_of_equals he).symm
  exact ⟨g, mem_onKindsOf.2 ⟨hg, f, hf, hkind⟩, Field.subsumes_of_equals he⟩

/-- A match that repeats none of the kinds of another one is equal to it only if that one repeats no kind. -/
theorem distinct_of_equals_onKindsOf (hd : (b.onKindsOf a).Distinct) (h : b.equals a = true) : a.Distinct := by
  have hall : b.onKindsOf a = b := by
    refine congrArg Match.mk (List.filter_eq_self.2 fun g hg => ?_)
    obtain ⟨f, hf, he⟩ := exists_of_equals h hg
    exact List.any_eq_true.2 ⟨f, hf, Field.sameKind_iff.2 (Field.kind_of_equals he)⟩
  exact distinct_of_equals h (hall ▸ hd)

/-! ## Main result -/

/-- Neither match equals the other, and the first one does not subsume the second. -/
def Unrelated (a b : Match) : Prop := a.equals b = false ∧ b.equals a = false ∧ a.subsumes b = false

/-- A match with a repeated kind is unrelated to one without repeated kinds exactly if that accepts a packet that it
does not accept. It is unrelated to a match that repeats none of its kinds exactly if the fields of its kinds there
accept such a packet, and to a match that repeats one of its kinds exactly if neither is represented in the other. -/
theorem repeated_unrelated_iff (ha : ¬ a.Distinct) (b : Match) :
    (b.Distinct → (a.Unrelated b ↔ ∃ p, b.accepts p ∧ ¬ a.accepts p)) ∧
    ((b.onKindsOf a).Distinct → (a.Unrelated b ↔ ∃ p, (b.onKindsOf a).accepts p ∧ ¬ a.accepts p)) ∧
    (¬ (b.onKindsOf a).Distinct → (a.Unrelated b ↔ ¬ a.RepresentedIn b ∧ ¬ b.RepresentedIn a)) := by
  have hunrelated : (b.onKindsOf a).Distinct → (a.Unrelated b ↔ ¬ a.subsumes b = true) := by
    intro hd
    refine ⟨fun h => by rw [h.2.2]; exact Bool.false_ne_true, fun h => ?_⟩
    have hab := mt (subsumes_of_equals hd) h
    have hba := mt (distinct_of_equals_onKindsOf hd) ha
    exact ⟨Bool.eq_false_iff.2 hab, Bool.eq_false_iff.2 hba, Bool.eq_false_iff.2 h⟩
  refine ⟨fun hb => ?_, fun hd => ?_, fun hd => ?_⟩
  · rw [hunrelated (distinct_onKindsOf hb), subsumes_iff_accepts hb]
    simp only [not_forall, exists_prop]
  · rw [hunrelated hd, subsumes_iff_onKindsOf, and_iff_right hd]
    simp only [not_forall, exists_prop]
  · have hsub : a.subsumes b = false := Bool.eq_false_iff.2 fun h => hd (subsumes_iff_onKindsOf.1 h).1
    rw [Unrelated, and_iff_left hsub, ← equals_iff_representedIn, ← equals_iff_representedIn, Bool.not_eq_true,
      Bool.not_eq_true]

/-- A VLAN tag, and the same one again. -/
def doubleTag : Match := ⟨[.vlanId 10, .vlanId 10]⟩

/-- Two different VLAN tags, which no packet has. -/
def twoTags : Match := ⟨[.vlanId 10, .vlanId 11]⟩

/-- IPv4 packets with a VLAN tag. -/
def taggedIpv4 : Match := ⟨[.vlanId 10, .ethType 0x0800]⟩

/-- Packets with a VLAN tag and two different types. -/
def taggedTypes : Match := ⟨[.vlanId 10, .ethType 0x0800, .ethType 0x86DD]⟩

/-- A repeated kind does not keep a match from being related to others, nor from being equal to itself. -/
theorem repeated_tag_related :
    (¬ doubleTag.Distinct ∧ doubleTag.equals taggedIpv4 = true ∧ doubleTag.subsumes taggedIpv4 = true) ∧
    ¬ twoTags.Distinct ∧ twoTags.equals twoTags = true := by
  decide

/-- Two different tags have nothing to do with a match for one of them, though they do with themselves. The same tag
twice has to do with that tag, also beside two types. -/
theorem repeated_unrelated_iff_tags : (¬ twoTags.Distinct ∧ taggedIpv4.Distinct ∧ twoTags.Unrelated taggedIpv4) ∧
    (¬ doubleTag.Distinct ∧ (taggedTypes.onKindsOf doubleTag).Distinct ∧ ¬ doubleTag.Unrelated taggedTypes) ∧
    ¬ (twoTags.onKindsOf twoTags).Distinct ∧ ¬ twoTags.Unrelated twoTags := by
  have htwo : ¬ twoTags.Distinct := by decide
  have hdouble : ¬ doubleTag.Distinct := by decide
  have hipv4 : taggedIpv4.Distinct := by decide
  have htypes : (taggedTypes.onKindsOf doubleTag).Distinct := by decide
  have hself : ¬ (twoTags.onKindsOf twoTags).Distinct := by decide
  refine ⟨⟨htwo, hipv4, ?_⟩, ⟨hdouble, htypes, ?_⟩, hself, ?_⟩
  · obtain ⟨p, hp⟩ : ∃ p, taggedIpv4.accepts p := by
      choose q hq using Field.exists_accepts
      exact ⟨_, accepts_joined hipv4 fun g _ => hq g⟩
    refine ((repeated_unrelated_iff htwo taggedIpv4).1 hipv4).2 ⟨p, hp, fun h => ?_⟩
    have hone : p.value? .vlanId = some (10 : UInt16) := hp (.vlanId 10) (by decide)
    have hother : p.value? .vlanId = some (11 : UInt16) := h (.vlanId 11) (by decide)
    have hsame : (10 : UInt16) = 11 := Option.some.inj (hone.symm.trans hother)
    exact absurd hsame (by decide)
  · intro h
    obtain ⟨p, hp, hno⟩ := ((repeated_unrelated_iff hdouble taggedTypes).2.1 htypes).1 h
    refine hno fun f hf => ?_
    have htag : f = .vlanId 10 := by simpa [doubleTag] using hf
    exact hp f (htag ▸ by decide)
  · intro h
    have hrepresented : twoTags.RepresentedIn twoTags := equals_iff_representedIn.1 (by decide)
    exact (((repeated_unrelated_iff htwo twoTags).2.2 hself).1 h).1 hrepresented

end Match

end ControlPlane
