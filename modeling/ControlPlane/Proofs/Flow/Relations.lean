/-
Laws of the relations between flow entries. Subsumption and equality are transitive whatever the entries repeat, for
each field of the first entry leads to one of the last. The other laws need entries that repeat no kind of field: there
a match subsumes what it covers, so equality of entries is subsumption both ways, and both relations are kept when an
entry is replaced by an equal one (`relations_lawful`).
-/
import ControlPlane.Proofs.Flow.Repetition

namespace ControlPlane

/-! ## Entries that repeat no kind of field -/

namespace Action

/-- The action writes no two fields of the same kind. -/
def Distinct : Action → Prop
  | .writeFields fields => Match.Distinct ⟨fields⟩
  | _ => True

instance : (a : Action) → Decidable a.Distinct
  | .writeFields fields => inferInstanceAs (Decidable (Match.Distinct ⟨fields⟩))
  | .forward _ | .flood _ | .drop | .sendToController | .pushVlan _ | .popVlan => .isTrue trivial

variable {a b : Action}

theorem equals_symm (ha : a.Distinct) (h : a.equals b = true) : b.equals a = true := by
  -- actions of different kinds are not equal, so one case for each kind remains
  cases a <;> cases b <;> first | cases h | skip
  case forward => exact forward_equals_iff.2 (forward_equals_iff.1 h).symm
  case flood => exact beq_iff_eq.2 (beq_iff_eq.1 h).symm
  case pushVlan => exact beq_iff_eq.2 (beq_iff_eq.1 h).symm
  case writeFields => exact Match.equals_symm ha h
  all_goals rfl

theorem listEquals_symm {as bs : List Action} (has : ∀ a ∈ as, a.Distinct) (h : listEquals as bs = true) :
    listEquals bs as = true := by
  rw [listEquals_iff] at *
  induction h with
  | nil => exact .nil
  | cons hab _ ih =>
    obtain ⟨ha, has⟩ := List.forall_mem_cons.1 has
    exact .cons (equals_symm ha hab) (ih has)

end Action

theorem Match.Distinct.unrepeated {m : Match} (h : m.Distinct) : m.Unrepeated :=
  List.Pairwise.imp Field.not_equals_of_kind h

theorem Action.Distinct.unrepeated {a : Action} (h : a.Distinct) : a.Unrepeated := by
  cases a with
  | writeFields fields => exact Match.Distinct.unrepeated h
  | _ => trivial

namespace FlowEntry

/-- Neither the match nor what the actions write has two fields of the same kind. -/
structure Distinct (f : FlowEntry) : Prop where
  pattern : f.pattern.Distinct
  actions : ∀ a ∈ f.actions, a.Distinct

instance (f : FlowEntry) : Decidable f.Distinct :=
  decidable_of_iff (f.pattern.Distinct ∧ ∀ a ∈ f.actions, a.Distinct) ⟨fun h => ⟨h.1, h.2⟩, fun h => ⟨h.1, h.2⟩⟩

/-- The entries are equal and repeat no kind of field. -/
structure Same (f g : FlowEntry) : Prop where
  left : f.Distinct
  right : g.Distinct
  equals : f.equals g = true

/-! ## Equality and subsumption -/

variable {f f' g g' x : FlowEntry}

theorem sameTarget_symm (hf : f.Distinct) (h : f.sameTarget g = true) : g.sameTarget f = true := by
  obtain ⟨hnode, hpriority, hactions⟩ := sameTarget_iff.1 h
  exact sameTarget_iff.2 ⟨hnode.symm, hpriority.symm, Action.listEquals_symm hf.actions hactions⟩

theorem equals_trans (h : f.equals g = true) (h' : g.equals x = true) : f.equals x = true := by
  obtain ⟨ht, hm⟩ := equals_iff.1 h
  obtain ⟨ht', hm'⟩ := equals_iff.1 h'
  exact equals_iff.2 ⟨sameTarget_trans ht ht', Match.equals_trans hm hm'⟩

theorem Distinct.same (h : f.Distinct) : f.Same f :=
  ⟨h, h, equals_self_iff.2 ⟨h.pattern.unrepeated, fun a ha => (h.actions a ha).unrepeated⟩⟩

theorem Same.symm (h : f.Same g) : g.Same f := by
  obtain ⟨ht, hm⟩ := equals_iff.1 h.equals
  exact ⟨h.right, h.left, equals_iff.2 ⟨sameTarget_symm h.left ht, Match.equals_symm h.left.pattern hm⟩⟩

theorem Same.trans (h : f.Same g) (h' : g.Same x) : f.Same x :=
  ⟨h.left, h'.right, equals_trans h.equals h'.equals⟩

theorem subsumes_trans (h : f.subsumes g = true) (h' : g.subsumes x = true) : f.subsumes x = true := by
  obtain ⟨ht, hm⟩ := subsumes_iff.1 h
  obtain ⟨ht', hm'⟩ := subsumes_iff.1 h'
  exact subsumes_iff.2 ⟨sameTarget_trans ht ht', Match.subsumes_trans hm hm'⟩

theorem Same.subsumes (h : f.Same g) : f.subsumes g = true := by
  obtain ⟨ht, hm⟩ := equals_iff.1 h.equals
  exact subsumes_iff.2 ⟨ht, Match.subsumes_of_covers h.right.pattern (Match.covers_of_equals hm)⟩

theorem same_of_subsumes (hf : f.Distinct) (hg : g.Distinct) (h : f.subsumes g = true) (h' : g.subsumes f = true) :
    f.Same g := by
  obtain ⟨ht, hm⟩ := subsumes_iff.1 h
  obtain ⟨-, hm'⟩ := subsumes_iff.1 h'
  have hpatterns := Match.equals_of_covers hf.pattern hg.pattern (Match.covers_of_subsumes hm)
    (Match.covers_of_subsumes hm')
  exact ⟨hf, hg, equals_iff.2 ⟨ht, hpatterns⟩⟩

/-- Subsumption does not tell equal entries apart, on either side. -/
theorem Same.subsumes_eq (h : f.Same f') (h' : g.Same g') : f.subsumes g = f'.subsumes g' := by
  rw [Bool.eq_iff_iff]
  constructor
  · intro hs
    have hleft : f'.subsumes g = true := subsumes_trans h.symm.subsumes hs
    exact subsumes_trans hleft h'.subsumes
  · intro hs
    have hleft : f.subsumes g' = true := subsumes_trans h.subsumes hs
    exact subsumes_trans hleft h'.symm.subsumes

theorem Distinct.not_strictlySubsumes_self (h : f.Distinct) : f.strictlySubsumes f = false := by
  rw [strictlySubsumes, h.same.equals, Bool.not_true, Bool.and_false]

/-- Equal entries are strictly subsumed by the same entries. -/
theorem Same.strictlySubsumes (h : f.Same g) (hx : x.strictlySubsumes f = true) : x.strictlySubsumes g = true := by
  rw [FlowEntry.strictlySubsumes, Bool.and_eq_true, Bool.not_eq_true'] at *
  refine ⟨subsumes_trans hx.1 h.subsumes, Bool.eq_false_iff.2 fun he => ?_⟩
  exact absurd (equals_trans he h.symm.equals) (Bool.eq_false_iff.1 hx.2)

theorem equals_equivalence : Equivalence fun f g : { f : FlowEntry // f.Distinct } => f.1.equals g.1 = true where
  refl f := f.2.same.equals
  symm {f g} h := (Same.symm ⟨f.2, g.2, h⟩).equals
  trans h h' := equals_trans h h'

/-! ## Main result -/

/-- Subsumption and equality of flow entries, and equality of actions, are transitive. Among the entries that repeat no
kind of field, equality is an equivalence relation; subsumption is reflexive, keeps its truth value when either side is
replaced by an equal entry, and holds in both directions exactly between equal entries. -/
theorem relations_lawful :
    (∀ f g h : FlowEntry, f.subsumes g = true → g.subsumes h = true → f.subsumes h = true) ∧
    (∀ f g h : FlowEntry, f.equals g = true → g.equals h = true → f.equals h = true) ∧
    (∀ a b c : Action, a.equals b = true → b.equals c = true → a.equals c = true) ∧
    (Equivalence fun f g : { f : FlowEntry // f.Distinct } => f.1.equals g.1 = true) ∧
    (∀ f : FlowEntry, f.Distinct → f.subsumes f = true) ∧
    (∀ f f' g g' : FlowEntry, f.Distinct → f'.Distinct → g.Distinct → g'.Distinct →
      f.equals f' = true → g.equals g' = true → f.subsumes g = f'.subsumes g') ∧
    ∀ f g : FlowEntry, f.Distinct → g.Distinct →
      (f.subsumes g = true ∧ g.subsumes f = true ↔ f.equals g = true) := by
  refine ⟨fun _ _ _ => subsumes_trans, fun _ _ _ => equals_trans, fun _ _ _ => Action.equals_trans, equals_equivalence,
    fun f hf => hf.same.subsumes, ?_, ?_⟩
  · intro f f' g g' hf hf' hg hg' hff' hgg'
    have hleft : f.Same f' := ⟨hf, hf', hff'⟩
    exact hleft.subsumes_eq ⟨hg, hg', hgg'⟩
  · intro f g hf hg
    constructor
    · rintro ⟨h, h'⟩; exact (same_of_subsumes hf hg h h').equals
    · intro h
      have hsame : f.Same g := ⟨hf, hg, h⟩
      exact ⟨hsame.subsumes, hsame.symm.subsumes⟩

/-- An entry of `n1` that tags IPv4 packets for 10.x.x.x and sends them out of two ports. -/
def tagging : FlowEntry :=
  { node := ⟨"n1"⟩, pattern := ⟨[.ethType 0x0800, .ipv4Dst ⟨0x0A000001#32, 0xFF000000#32⟩]⟩
    actions := [.writeFields [.vlanId 3, .vlanPcp 1], .forward [⟨"n1$$1"⟩, ⟨"n1$$2"⟩]], priority := 1 }

/-- The same in other words: the fields and ports in another order, another address of the network. -/
def taggingAgain : FlowEntry :=
  { tagging with
    pattern := ⟨[.ipv4Dst ⟨0x0A090909#32, 0xFF000000#32⟩, .ethType 0x0800]⟩
    actions := [.writeFields [.vlanPcp 1, .vlanId 3], .forward [⟨"n1$$2"⟩, ⟨"n1$$1"⟩, ⟨"n1$$2"⟩]] }

/-- The same for 10.1.x.x only. -/
def taggingFewer : FlowEntry :=
  { tagging with pattern := ⟨[.ipv4Dst ⟨0x0A010000#32, 0xFFFF0000#32⟩, .ethType 0x0800]⟩ }

/-- An entry and its rewording are equal both ways, so both subsume the narrower one, which subsumes neither. -/
theorem relations_lawful_reworded : (tagging.Distinct ∧ taggingAgain.Distinct ∧ taggingFewer.Distinct) ∧
    (tagging.equals taggingAgain = true ∧ taggingAgain.equals tagging = true) ∧
    (taggingAgain.subsumes taggingFewer = true ∧ tagging.subsumes taggingFewer = taggingAgain.subsumes taggingFewer) ∧
    ¬ (taggingFewer.subsumes taggingAgain = true ∧ taggingAgain.subsumes taggingFewer = true) := by
  obtain ⟨hsubsumes, -, -, hequivalence, -, hreplace, hboth⟩ := relations_lawful
  obtain ⟨h, h', hfewer⟩ : tagging.Distinct ∧ taggingAgain.Distinct ∧ taggingFewer.Distinct := by decide
  have hequals : tagging.equals taggingAgain = true := by decide
  have hback := hequivalence.symm (x := ⟨tagging, h⟩) (y := ⟨taggingAgain, h'⟩) hequals
  have hself := hequivalence.refl ⟨taggingFewer, hfewer⟩
  obtain ⟨hto, hfro⟩ := (hboth _ _ h h').2 hequals
  have hnarrow : taggingAgain.subsumes taggingFewer = true := hsubsumes _ tagging _ hfro (by decide)
  refine ⟨⟨h, h', hfewer⟩, ⟨hequals, hback⟩, ⟨hnarrow, hreplace _ _ _ _ h h' hfewer hfewer hequals hself⟩, ?_⟩
  exact fun hne => absurd ((hboth _ _ hfewer h').1 hne) (by decide)

end FlowEntry

end ControlPlane
