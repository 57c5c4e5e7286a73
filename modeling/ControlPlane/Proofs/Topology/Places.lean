/-
Topologies of connected places, and their shortest routes. The places have different names, some follow others, and
each place is connected with those that follow it: then there is one link in each direction between places that stand
beside each other, and no other (`exists_linked`).

How far a place is from the end of a route is a quantity that falls by at most one along a link (`Descends`), so no
walk is shorter (`Linked.le_length`). The walks of this length go on to the places beside that are one step closer
(`Linked.hasWalks_succ`); what remains for a shape of topology is to say which these are.
-/
import ControlPlane.Topology.Shapes
import ControlPlane.Proofs.Topology.Builder
import ControlPlane.Proofs.Topology.Counting

namespace ControlPlane

namespace Topology

/-! ## Names -/

theorem toList_nodeName (i : Nat) : (nodeName i).toList = 'n' :: (Numeral.decimal i).toList := by
  simp [nodeName]

theorem nodeName_inj {i j : Nat} : nodeName i = nodeName j ↔ i = j := by
  constructor
  · intro h
    have hlist := congrArg String.toList h
    rw [toList_nodeName, toList_nodeName] at hlist
    exact Numeral.decimal_injective (String.toList_inj.1 (List.cons.inj hlist).2)
  · rintro rfl; rfl

theorem isName_nodeName (i : Nat) : Builder.IsName (nodeName i) := by
  have hdollar : '$' ∉ (nodeName i).toList := by
    rw [toList_nodeName, List.mem_cons, not_or]
    exact ⟨by decide, Numeral.dollar_notMem_decimal i⟩
  refine ⟨⟨fun h => ?_, Uid.not_delimited_of_not_mem hdollar⟩, Uid.not_endsInDollar_of_not_mem hdollar⟩
  have hlist := congrArg String.toList h
  rw [toList_nodeName] at hlist
  cases hlist

end Topology

namespace Graph

variable {α : Type} {place : α → Uid} {Follows : α → α → Prop} {g : Graph} {a b t : α} {d : α → Nat} {k : Nat}
  {pairs : List (String × String)}

/-! ## Links between places -/

/-- One of the places follows the other. -/
def Beside (Follows : α → α → Prop) (a b : α) : Prop := Follows a b ∨ Follows b a

/-- The links among the places: one in each direction between those that stand beside each other, and no other. -/
structure Linked (place : α → Uid) (Follows : α → α → Prop) (g : Graph) : Prop where
  injective : Function.Injective place
  reachable : g.Reachable
  links : ∀ a b, Beside Follows a b → (g.linksBetween (place a) (place b)).length = 1
  near : ∀ a m, g.linksBetween (place a) m ≠ [] → ∃ b, place b = m ∧ Beside Follows a b

/-- The connections of places with those that follow them. -/
structure Connects (place : α → Uid) (Follows : α → α → Prop) (pairs : List (String × String)) : Prop where
  injective : Function.Injective place
  isName : ∀ a, Builder.IsName (place a).text
  nodup : pairs.Nodup
  pairs : ∀ pair, pair ∈ pairs ↔ ∃ a b, Follows a b ∧ pair = ((place a).text, (place b).text)
  /-- No connection is made back again; in particular, no place follows itself. -/
  oneWay : ∀ a b, Follows a b → ¬ Follows b a

namespace Connects

variable (h : Connects place Follows pairs)
include h

theorem text_inj : (place a).text = (place b).text ↔ a = b := by
  rw [Uid.text_inj, h.injective.eq_iff]

theorem mem_iff : ((place a).text, (place b).text) ∈ pairs ↔ Follows a b := by
  rw [h.pairs]
  constructor
  · rintro ⟨a', b', hfollows, heq⟩
    obtain ⟨ha, hb⟩ := Prod.mk.inj heq
    rw [h.text_inj] at ha hb
    exact ha ▸ hb ▸ hfollows
  · exact fun hfollows => ⟨a, b, hfollows, rfl⟩

theorem connectable : Builder.Connectable pairs := by
  intro pair hpair
  obtain ⟨a, b, hfollows, rfl⟩ := (h.pairs pair).1 hpair
  refine ⟨h.isName a, h.isName b, fun heq => ?_⟩
  rw [h.text_inj] at heq
  subst heq
  exact h.oneWay a a hfollows hfollows

theorem exists_linked : ∃ g, Graph.ofConnections pairs = .ok g ∧ Linked place Follows g := by
  obtain ⟨g, hg, hreach, hlinks⟩ := Graph.ofConnections_eq_ok h.connectable
  refine ⟨g, hg, h.injective, hreach, fun a b hbeside => ?_, fun a m hm => ?_⟩
  · rw [hlinks, h.nodup.count, h.nodup.count]
    rcases hbeside with hab | hba
    · rw [if_pos (h.mem_iff.2 hab), if_neg fun hba => h.oneWay a b hab (h.mem_iff.1 hba)]
    · rw [if_neg fun hab => h.oneWay b a hba (h.mem_iff.1 hab), if_pos (h.mem_iff.2 hba)]
  · have hpos : 0 < pairs.count ((place a).text, m.text) + pairs.count (m.text, (place a).text) := by
      rw [← hlinks]
      exact List.length_pos_iff.2 hm
    rcases Nat.add_pos_iff_pos_or_pos.1 hpos with hpos | hpos
    · obtain ⟨a', b, hfollows, heq⟩ := (h.pairs _).1 (List.count_pos_iff.1 hpos)
      obtain ⟨ha, hb⟩ := Prod.mk.inj heq
      rw [h.text_inj] at ha
      exact ⟨b, Uid.text_inj.1 hb.symm, .inl (ha ▸ hfollows)⟩
    · obtain ⟨b, a', hfollows, heq⟩ := (h.pairs _).1 (List.count_pos_iff.1 hpos)
      obtain ⟨hb, ha⟩ := Prod.mk.inj heq
      rw [h.text_inj] at ha
      exact ⟨b, Uid.text_inj.1 hb.symm, .inr (ha ▸ hfollows)⟩

end Connects

/-! ## Steps to the end of a route -/

/-- A quantity that is zero at a place and falls by at most one to any place beside. -/
structure Descends (Follows : α → α → Prop) (t : α) (d : α → Nat) : Prop where
  zero : d t = 0
  step : ∀ a b, Beside Follows a b → d a ≤ d b + 1

namespace Linked

variable (hg : Linked place Follows g) (hd : Descends Follows t d)
include hg hd

theorem le_length {w : List Entry} (hw : g.IsWalk (place a) w (place t)) : d a ≤ w.length := by
  refine le_length_of_isWalk place d (fun a m hm => ?_) (fun a ha => ?_) hw
  · obtain ⟨b, hb, hbeside⟩ := hg.near a m hm
    exact ⟨b, hb, hd.step a b hbeside⟩
  · rw [hg.injective ha, hd.zero]

/-- The walks of the least length go on to the places beside that are one step closer. -/
theorem hasWalks_succ {closer : List α} (count : α → Nat) (hnodup : closer.Nodup)
    (hmem : ∀ b, b ∈ closer ↔ Beside Follows a b ∧ d a = d b + 1) (hk : d a = k + 1)
    (hwalks : ∀ b ∈ closer, g.HasWalks (place b) (place t) k (count b)) :
    g.HasWalks (place a) (place t) (k + 1) (closer.map count).sum := by
  have hcount : closer.map (fun b => (g.linksBetween (place a) (place b)).length * count b) = closer.map count := by
    refine List.map_congr_left fun b hb => ?_
    rw [hg.links a b ((hmem b).1 hb).1, Nat.one_mul]
  rw [← hcount]
  apply HasWalks.succ
  · exact hnodup.map hg.injective
  · exact hwalks
  · intro m hm hlinks w hw hlen
    obtain ⟨b, rfl, hbeside⟩ := hg.near a m hlinks
    refine hm (List.mem_map_of_mem ((hmem b).2 ⟨hbeside, ?_⟩))
    -- a place with such a walk is not further away, and it is not as far away as its neighbour
    have hle := hg.le_length hd hw
    have hstep := hd.step a b hbeside
    omega

/-- As long as a single place beside is one step closer, there is one walk of the least length. -/
theorem hasWalks_one (P : α → Prop) (hend : ∀ a, P a → d a = 0 → a = t)
    (hcloser : ∀ a, P a → d a ≠ 0 → ∃ c, P c ∧ ∀ b, Beside Follows a b ∧ d a = d b + 1 ↔ b = c) (ha : P a) :
    g.HasWalks (place a) (place t) (d a) 1 := by
  induction hk : d a generalizing a with
  | zero =>
    rw [hend a ha hk]
    exact hasWalks_zero g (place t)
  | succ k ih =>
    obtain ⟨c, hc, honly⟩ := hcloser a ha (by omega)
    have hmem : ∀ b, b ∈ [c] ↔ Beside Follows a b ∧ d a = d b + 1 := by
      intro b
      rw [List.mem_singleton, honly]
    refine hg.hasWalks_succ hd (fun _ => 1) (List.nodup_singleton c) hmem hk fun b hb => ?_
    obtain ⟨-, hstep⟩ := (hmem b).1 hb
    exact ih (List.mem_singleton.1 hb ▸ hc) (by omega)

theorem routes (hw : g.HasWalks (place a) (place t) (d a) k) (hk : 0 < k) (hne : a ≠ t) :
    ∃ r, g.shortestRoutes (place a) (place t) = .ok (some r) ∧ r.length = d a ∧ r.paths.length = k ∧ r.paths.Nodup := by
  obtain ⟨r, hr, hlength, hcount⟩ := hw.routes hk (fun w hw => hg.le_length hd hw) fun h => hne (hg.injective h)
  exact ⟨r, hr, hlength, hcount, hg.reachable.wellFormed.nodup_paths hr⟩

end Linked

end Graph

end ControlPlane
