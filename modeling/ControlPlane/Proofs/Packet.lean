/-
Subsumption is inclusion of packet sets. What a match subsumes accepts no packet that the match does not
accept; and for a match without repeated kinds of fields this is all that subsumption asks, so equality of
two such matches is to accept the same packets (`subsumption_is_inclusion`).

Completeness needs a packet for every way in which subsumption can fail: one without a value of a kind, one
that has the bits of the other address outside its mask turned over, or one with the other value itself.
Such a packet is made for a single field. It is completed to one that the whole match accepts by taking the
values of the other kinds from packets of the other fields (`Match.joined`).
-/
import ControlPlane.Proofs.Match

namespace ControlPlane

/-! ## Masked addresses -/

namespace Masked

variable {w : Nat} {a b : Masked w}

theorem accepts_iff {x : BitVec w} : a.accepts x = true ↔ a.addr &&& a.mask = x &&& a.mask := by
  simp [accepts]

theorem accepts_addr (a : Masked w) : a.accepts a.addr = true := accepts_iff.2 rfl

/-- The bits outside the mask do not count. -/
theorem accepts_turned (a : Masked w) : a.accepts (a.addr ^^^ ~~~a.mask) = true := by
  rw [accepts_iff]
  refine BitVec.eq_of_getLsbD_eq fun i hi => ?_
  simp only [BitVec.getLsbD_and, BitVec.getLsbD_xor, BitVec.getLsbD_not, hi, decide_true, Bool.true_and]
  cases a.mask.getLsbD i <;> simp

/-- A mask under which turning the bits outside another mask over changes nothing is a part of it. -/
theorem mask_of_turned {x m m' : BitVec w} (h : x &&& m = (x ^^^ ~~~m') &&& m) : m' &&& m = m := by
  refine BitVec.eq_of_getLsbD_eq fun i hi => ?_
  have hbit := congrArg (·.getLsbD i) h
  simp only [BitVec.getLsbD_and, BitVec.getLsbD_xor, BitVec.getLsbD_not, hi, decide_true, Bool.true_and] at hbit ⊢
  cases hm : m.getLsbD i
  · rw [Bool.and_false]
  · -- a bit that counts is not one of those turned over, or the two addresses would differ in it
    rw [hm, Bool.and_true, Bool.and_true] at hbit
    cases hm' : m'.getLsbD i
    · rw [hm'] at hbit
      cases hx : x.getLsbD i <;> simp [hx] at hbit
    · rfl

theorem subsumes_of_accepts (h : ∀ x, b.accepts x = true → a.accepts x = true) : a.subsumes b = true := by
  have hown := accepts_iff.1 (h _ (accepts_addr b))
  have hturned := accepts_iff.1 (h _ (accepts_turned b))
  exact subsumes_iff.2 ⟨mask_of_turned (hown.symm.trans hturned), hown⟩

end Masked

/-! ## Fields -/

/-- The packet with a single value. -/
def Packet.only (kind : FieldKind) (v : kind.Value) : Packet := ⟨fun k => if h : k = kind then some (h ▸ v) else none⟩

theorem Packet.value?_only {k kind : FieldKind} (h : k = kind) (v : kind.Value) :
    (only kind v).value? k = some (h ▸ v) := by
  simp [only, h]

theorem Packet.value?_only_of_ne {k kind : FieldKind} (h : k ≠ kind) (v : kind.Value) :
    (only kind v).value? k = none := by
  simp [only, h]

namespace Field

variable {f g : Field}

/-- The value is one that the field asks for. -/
def Admits : (f : Field) → f.kind.Value → Prop
  | .inPort port, v => v = port
  | .ethSrc m, addr | .ethDst m, addr => m.accepts addr
  | .ethType type, v => v = type
  | .vlanId id, v => v = id
  | .vlanPcp priority, v => v = priority
  | .ipv4Src m, addr | .ipv4Dst m, addr => m.accepts addr
  | .ipv6Src m, addr | .ipv6Dst m, addr => m.accepts addr
  | .transportPortSrc port, v | .transportPortDst port, v => v = port

/-- A field looks at the value of its own kind only. -/
theorem accepts_iff {p : Packet} : f.accepts p ↔ ∃ v, p.value? f.kind = some v ∧ f.Admits v := by
  cases f
  all_goals first
    | exact Iff.rfl
    | exact ⟨fun h => ⟨_, h, rfl⟩, fun ⟨_, hv, h⟩ => hv.trans (congrArg some h)⟩

theorem exists_admits (f : Field) : ∃ v, f.Admits v := by
  cases f
  all_goals first
    | exact ⟨_, Masked.accepts_addr _⟩
    | exact ⟨_, rfl⟩

theorem subsumes_of_admits (hk : f.kind = g.kind) (h : ∀ v, g.Admits v → f.Admits (hk ▸ v)) :
    f.subsumes g = true := by
  cases f <;> cases g <;> cases hk
  all_goals first
    | exact Masked.subsumes_of_accepts h
    | exact beq_iff_eq.2 (h _ rfl).symm

theorem exists_accepts (f : Field) : ∃ p : Packet, f.accepts p := by
  obtain ⟨v, hv⟩ := exists_admits f
  exact ⟨.only f.kind v, accepts_iff.2 ⟨v, Packet.value?_only rfl v, hv⟩⟩

theorem accepts_congr {p q : Packet} (h : p.value? f.kind = q.value? f.kind) : f.accepts p ↔ f.accepts q := by
  rw [accepts_iff, accepts_iff, h]

/-- A field that accepts what another field of its kind accepts subsumes it. -/
theorem subsumes_of_accepts (hk : f.kind = g.kind) (h : ∀ p : Packet, g.accepts p → f.accepts p) :
    f.subsumes g = true := by
  refine subsumes_of_admits hk fun v hv => ?_
  obtain ⟨v', hv', hf⟩ := accepts_iff.1 (h (.only g.kind v) (accepts_iff.2 ⟨v, Packet.value?_only rfl v, hv⟩))
  rw [Packet.value?_only hk] at hv'
  exact Option.some.inj hv' ▸ hf

/-- Fields are equal exactly if they accept the same packets. -/
theorem equals_iff_accepts : f.equals g = true ↔ ∀ p : Packet, f.accepts p ↔ g.accepts p := by
  constructor
  · intro h p
    exact ⟨accepts_of_subsumes (subsumes_of_equals (equals_symm h)), accepts_of_subsumes (subsumes_of_equals h)⟩
  · intro h
    have hk : f.kind = g.kind := by
      by_contra hne
      obtain ⟨v, hv⟩ := exists_admits g
      have hg : g.accepts (.only g.kind v) := accepts_iff.2 ⟨v, Packet.value?_only rfl v, hv⟩
      obtain ⟨w, hw, -⟩ := accepts_iff.1 ((h _).2 hg)
      rw [Packet.value?_only_of_ne hne] at hw
      cases hw
    exact equals_of_subsumes (subsumes_of_accepts hk fun p => (h p).2) (subsumes_of_accepts hk.symm fun p => (h p).1)

end Field

namespace Match

variable {a b : Match}

/-! ## Packets for a whole match -/

/-- The packet that has a value for the kinds of the match only, and of each kind the value that the packet
of the field has. -/
def joined (m : Match) (q : Field → Packet) : Packet :=
  ⟨fun k => (m.fields.find? fun f => f.kind == k).bind fun f => (q f).value? k⟩

theorem value?_joined (ha : a.Distinct) (q : Field → Packet) {f : Field} (hf : f ∈ a.fields) :
    (a.joined q).value? f.kind = (q f).value? f.kind := by
  have hfind : (a.fields.find? fun g => g.kind == f.kind) = some f := by
    have hsome : (a.fields.find? fun g => g.kind == f.kind).isSome := List.find?_isSome.2 ⟨f, hf, beq_self_eq_true _⟩
    obtain ⟨g, hg⟩ := Option.isSome_iff_exists.1 hsome
    have hk : g.kind = f.kind := by simpa using List.find?_some hg
    rw [hg, eq_of_kind ha (List.mem_of_find?_eq_some hg) hf hk]
  show (a.fields.find? fun g => g.kind == f.kind).bind _ = _
  rw [hfind]
  rfl

theorem value?_joined_eq_none (q : Field → Packet) {k : FieldKind} (hk : ∀ f ∈ a.fields, f.kind ≠ k) :
    (a.joined q).value? k = none := by
  have hfind : (a.fields.find? fun g => g.kind == k) = none := List.find?_eq_none.2 fun f hf => by simpa using hk f hf
  show (a.fields.find? fun g => g.kind == k).bind _ = _
  rw [hfind]
  rfl

theorem accepts_joined (ha : a.Distinct) {q : Field → Packet} (hq : ∀ f ∈ a.fields, f.accepts (q f)) :
    a.accepts (a.joined q) :=
  fun f hf => (Field.accepts_congr (value?_joined ha q hf)).2 (hq f hf)

/-- A packet that a field of the match accepts has the same value of this kind as one that the match accepts. -/
theorem exists_accepts_like (ha : a.Distinct) {f : Field} (hf : f ∈ a.fields) {p : Packet} (hp : f.accepts p) :
    ∃ p', a.accepts p' ∧ p'.value? f.kind = p.value? f.kind := by
  -- the other fields keep any packets that they accept
  choose q hq using Field.exists_accepts
  refine ⟨a.joined (Function.update q f p), accepts_joined ha fun g _ => ?_, ?_⟩
  · by_cases hg : g = f
    · rw [hg, Function.update_self]; exact hp
    · rw [Function.update_of_ne hg]; exact hq g
  · rw [value?_joined ha _ hf, Function.update_self]

/-! ## Inclusion -/

theorem covers_of_accepts (hb : b.Distinct) (h : ∀ p, b.accepts p → a.accepts p) : a.Covers b := by
  intro f hf
  by_cases hk : ∃ g ∈ b.fields, g.kind = f.kind
  · obtain ⟨g, hg, hgf⟩ := hk
    refine ⟨g, hg, Field.subsumes_of_accepts hgf.symm fun p hp => ?_⟩
    obtain ⟨p', hp', hv⟩ := exists_accepts_like hb hg hp
    rw [hgf] at hv
    exact (Field.accepts_congr hv).1 (h p' hp' f hf)
  · -- a packet without a value of the kind is accepted by the second match, and not by the field
    choose q hq using Field.exists_accepts
    have hnone : (b.joined q).value? f.kind = none := value?_joined_eq_none q fun g hg hgf => hk ⟨g, hg, hgf⟩
    obtain ⟨v, hv, -⟩ := Field.accepts_iff.1 (h _ (accepts_joined hb fun g _ => hq g) f hf)
    rw [hnone] at hv
    cases hv

/-- A match subsumes one without repeated kinds exactly if it accepts all that the other one accepts. -/
theorem subsumes_iff_accepts (hb : b.Distinct) : a.subsumes b = true ↔ ∀ p, b.accepts p → a.accepts p := by
  constructor
  · intro h p hp; exact (covers_of_subsumes h).accepts hp
  · intro h; exact subsumes_of_covers hb (covers_of_accepts hb h)

theorem equals_iff_accepts (ha : a.Distinct) (hb : b.Distinct) :
    a.equals b = true ↔ ∀ p, a.accepts p ↔ b.accepts p := by
  constructor
  · intro h p
    have hback := covers_of_equals (equals_symm ha h)
    exact ⟨hback.accepts, (covers_of_equals h).accepts⟩
  · intro h
    have hab := covers_of_accepts hb fun p => (h p).2
    have hba := covers_of_accepts ha fun p => (h p).1
    exact equals_of_covers ha hb hab hba

/-! ## Main result -/

/-- A match accepts what the matches it subsumes accept. If the other match has no repeated kind, it
subsumes it exactly if it accepts all that the other one accepts; and if neither has a repeated kind, they
are equal exactly if they accept the same packets. -/
theorem subsumption_is_inclusion (a b : Match) :
    (a.subsumes b = true → ∀ p, b.accepts p → a.accepts p) ∧
    (b.Distinct → (a.subsumes b = true ↔ ∀ p, b.accepts p → a.accepts p)) ∧
    (a.Distinct → b.Distinct → (a.equals b = true ↔ ∀ p, a.accepts p ↔ b.accepts p)) :=
  ⟨fun h _ hp => (covers_of_subsumes h).accepts hp, subsumes_iff_accepts, equals_iff_accepts⟩

/-- The IPv4 destinations 10.x.x.3. The mask has a gap. -/
def gapped : Match := ⟨[.ipv4Dst ⟨0x0A000003#32, 0xFF0000FF#32⟩]⟩

/-- The IPv4 destination 10.1.2.3 by a port of `n1`. -/
def host : Match := ⟨[.inPort ⟨"n1$$1"⟩, .ipv4Dst ⟨0x0A010203#32, 0xFFFFFFFF#32⟩]⟩

/-- The addresses under the gapped mask include the host, and some packet shows that there are others. -/
theorem subsumption_is_inclusion_gapped : (gapped.Distinct ∧ host.Distinct) ∧
    (∀ p, host.accepts p → gapped.accepts p) ∧ ¬ ∀ p, gapped.accepts p ↔ host.accepts p := by
  have hd : gapped.Distinct ∧ host.Distinct := by unfold Distinct; decide
  obtain ⟨hsound, -, hequal⟩ := subsumption_is_inclusion gapped host
  refine ⟨hd, hsound (by decide), fun h => ?_⟩
  exact absurd ((hequal hd.1 hd.2).2 h) (by decide)

end Match

end ControlPlane
