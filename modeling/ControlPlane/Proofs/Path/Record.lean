/-
What confirmations do to the record of a path. A flow entry has one place in a record, that of the first
entry that is equal to it (`PathRecord.place?`). Its confirmation is awaited as long as nothing is installed
there, and then installs the entry at this place and counts it; any other confirmation changes nothing
(`confirm_of_awaits`, `confirm_of_not_awaits`).

After a list of confirmations, what is installed is what was installed before and the places of the confirmed
entries, in whatever order they came and however often (`installedAt_confirmAll`). The entries themselves
never change, so neither does the place of a flow entry.
-/
import ControlPlane.Path.Tracker
import Mathlib.Data.List.Basic

namespace ControlPlane

/-! ## The first equal entry -/

theorem Tracker.flag?_eq_some {flow : FlowEntry} {b : Bool} : ∀ {ss ss' : List FlowStatus},
    flag? flow ss = some (b, ss') → ∃ i s, (ss.map FlowStatus.flow).findIdx? (·.equals flow) = some i ∧
      ss[i]? = some s ∧ s.installed = b ∧ ss' = ss.set i { s with installed := true }
  | [], ss', h => by cases h
  | s :: ss, ss', h => by
    rw [flag?] at h
    rw [List.map_cons, List.findIdx?_cons]
    split at h
    · next he =>
      cases h
      exact ⟨0, s, if_pos he, rfl, rfl, rfl⟩
    · next he =>
      obtain ⟨⟨b', rest⟩, hrest, heq⟩ := Option.map_eq_some_iff.1 h
      cases heq
      obtain ⟨i, s', hi, hs', hb, rfl⟩ := flag?_eq_some hrest
      rw [if_neg he, hi]
      exact ⟨i + 1, s', rfl, hs', hb, rfl⟩

theorem Tracker.flag?_eq_none {flow : FlowEntry} : ∀ {ss : List FlowStatus}, flag? flow ss = none →
    (ss.map FlowStatus.flow).findIdx? (·.equals flow) = none
  | [], _ => rfl
  | s :: ss, h => by
    rw [flag?] at h
    rw [List.map_cons, List.findIdx?_cons]
    split at h
    · cases h
    · next he => rw [if_neg he, flag?_eq_none (Option.map_eq_none_iff.1 h)]; rfl

namespace PathRecord

variable {r : PathRecord} {flow : FlowEntry} {flows : List FlowEntry} {i : Nat}

/-! ## Places -/

/-- The flow entries of the path. -/
def entries (r : PathRecord) : List FlowEntry := r.flows.map FlowStatus.flow

theorem length_entries (r : PathRecord) : r.entries.length = r.flows.length := List.length_map _

/-- The place of the first entry that is equal to the given one. -/
def place? (r : PathRecord) (flow : FlowEntry) : Option Nat := r.entries.findIdx? (·.equals flow)

/-- The entry at the place is installed. -/
def InstalledAt (r : PathRecord) (i : Nat) : Prop := ∃ s, r.flows[i]? = some s ∧ s.installed = true

/-- The entry has a place, and nothing is installed there. -/
def Awaits (r : PathRecord) (flow : FlowEntry) : Prop := ∃ i, r.place? flow = some i ∧ ¬ r.InstalledAt i

theorem place?_eq_some_iff : r.place? flow = some i ↔
    ∃ h : i < r.entries.length, r.entries[i].equals flow = true ∧
      ∀ (j : Nat) (hj : j < i), r.entries[j].equals flow = false := by
  rw [place?, List.findIdx?_eq_some_iff_getElem]
  simp only [Bool.not_eq_true]

/-! ## One confirmation -/

/-- The record after the confirmation of an entry. -/
def confirm (r : PathRecord) (flow : FlowEntry) : PathRecord :=
  match Tracker.flag? flow r.flows with
  | some (false, flows) => { r with flows, installed := r.installed + 1 }
  | _ => r

/-- What an awaited confirmation does, place by place. -/
theorem confirm_of_awaits (h : r.Awaits flow) : ∃ i s, r.place? flow = some i ∧ r.flows[i]? = some s ∧
    s.installed = false ∧ Tracker.flag? flow r.flows = some (false, r.flows.set i { s with installed := true }) ∧
    r.confirm flow = { r with
      flows := r.flows.set i { s with installed := true }
      installed := r.installed + 1 } := by
  obtain ⟨i, hi, hno⟩ := h
  cases hf : Tracker.flag? flow r.flows with
  | none =>
    have hnone : r.place? flow = none := Tracker.flag?_eq_none hf
    rw [hi] at hnone
    cases hnone
  | some p =>
    obtain ⟨b, ss⟩ := p
    obtain ⟨j, s, hj, hs, rfl, rfl⟩ := Tracker.flag?_eq_some hf
    obtain rfl : i = j := Option.some.inj (hi.symm.trans hj)
    have hb : s.installed = false := Bool.not_eq_true _ ▸ fun hb => hno ⟨s, hs, hb⟩
    rw [hb] at hf
    exact ⟨i, s, hi, hs, hb, by rw [hb], by rw [confirm, hf]⟩

theorem flag?_of_not_awaits (h : ¬ r.Awaits flow) :
    Tracker.flag? flow r.flows = none ∨ ∃ ss, Tracker.flag? flow r.flows = some (true, ss) := by
  cases hf : Tracker.flag? flow r.flows with
  | none => exact .inl rfl
  | some p =>
    obtain ⟨b, ss⟩ := p
    obtain ⟨i, s, hi, hs, rfl, -⟩ := Tracker.flag?_eq_some hf
    cases hb : s.installed with
    | true => exact .inr ⟨ss, rfl⟩
    | false =>
      refine absurd ⟨i, hi, ?_⟩ h
      rintro ⟨s', hs', hb'⟩
      cases hs.symm.trans hs'
      rw [hb] at hb'
      cases hb'

theorem confirm_of_not_awaits (h : ¬ r.Awaits flow) : r.confirm flow = r := by
  rcases flag?_of_not_awaits h with hf | ⟨ss, hf⟩ <;> rw [confirm, hf]

/-- A confirmation changes no more than what is installed. -/
theorem confirm_frame (r : PathRecord) (flow : FlowEntry) : (r.confirm flow).requester = r.requester ∧
    (r.confirm flow).path = r.path ∧ (r.confirm flow).entries = r.entries := by
  by_cases h : r.Awaits flow
  · obtain ⟨i, s, -, hs, -, -, heq⟩ := confirm_of_awaits h
    rw [heq]
    refine ⟨rfl, rfl, ?_⟩
    obtain ⟨hi, rfl⟩ := List.getElem?_eq_some_iff.1 hs
    have hmap : i < (r.flows.map FlowStatus.flow).length := by rw [List.length_map]; exact hi
    have hflow : r.flows[i].flow = (r.flows.map FlowStatus.flow)[i] := by rw [List.getElem_map]
    show (r.flows.set i _).map FlowStatus.flow = r.flows.map FlowStatus.flow
    rw [List.map_set, hflow, List.set_getElem_self]
  · rw [confirm_of_not_awaits h]
    exact ⟨rfl, rfl, rfl⟩

theorem place?_confirm (r : PathRecord) (flow flow' : FlowEntry) : (r.confirm flow).place? flow' = r.place? flow' := by
  rw [place?, (r.confirm_frame flow).2.2, place?]

theorem installedAt_confirm : (r.confirm flow).InstalledAt i ↔ r.InstalledAt i ∨ r.place? flow = some i := by
  by_cases h : r.Awaits flow
  · obtain ⟨j, s, hj, hs, -, -, heq⟩ := confirm_of_awaits h
    obtain ⟨hlt, -⟩ := List.getElem?_eq_some_iff.1 hs
    rw [heq, hj]
    simp only [InstalledAt, List.getElem?_set, Option.some.injEq]
    by_cases hji : j = i
    · simp [hji, hji ▸ hlt]
    · simp [hji]
  · -- nothing changes, and a place of the entry was installed before
    rw [confirm_of_not_awaits h]
    refine ⟨.inl, ?_⟩
    rintro (hi | hi)
    · exact hi
    · by_contra hno
      exact h ⟨i, hi, hno⟩

/-- A confirmation that was awaited installs one more entry. -/
theorem countP_confirm (h : r.Awaits flow) :
    (r.confirm flow).flows.countP FlowStatus.installed = r.flows.countP FlowStatus.installed + 1 := by
  obtain ⟨i, s, -, hs, hb, -, heq⟩ := confirm_of_awaits h
  obtain ⟨hlt, rfl⟩ := List.getElem?_eq_some_iff.1 hs
  rw [heq, List.countP_set hlt, hb, if_neg Bool.false_ne_true, if_pos rfl, Nat.sub_zero]

/-- The number that the record holds is that of the installed entries. -/
def Counted (r : PathRecord) : Prop := r.installed = UInt64.ofNat (r.flows.countP FlowStatus.installed)

theorem Counted.confirm (hr : r.Counted) (flow : FlowEntry) : (r.confirm flow).Counted := by
  by_cases h : r.Awaits flow
  · obtain ⟨_, _, -, -, -, -, heq⟩ := confirm_of_awaits h
    rw [Counted, countP_confirm h, UInt64.ofNat_add, ← hr, heq]
    rfl
  · rw [confirm_of_not_awaits h]
    exact hr

/-- A record that awaits a confirmation is not complete. -/
theorem Counted.not_isComplete (hr : r.Counted) (h : r.Awaits flow) : r.isComplete = false := by
  obtain ⟨i, s, -, hs, hb, -⟩ := confirm_of_awaits h
  have hlt : r.flows.countP FlowStatus.installed < r.flows.length := by
    refine Nat.lt_of_le_of_ne List.countP_le_length fun heq => ?_
    have hall := List.countP_eq_length.1 heq s (List.mem_of_getElem? hs)
    rw [hb] at hall
    cases hall
  -- a count that wraps around is even lower, so this needs no bound on the number of entries
  rw [isComplete, beq_eq_false_iff_ne, hr, UInt64.toNat_ofNat']
  exact Nat.ne_of_lt (Nat.lt_of_le_of_lt (Nat.mod_le _ _) hlt)

/-- A record whose entries can be counted is complete exactly if all of them are installed. -/
theorem Counted.isComplete_iff (hr : r.Counted) (hfits : r.flows.length < UInt64.size) :
    r.isComplete = r.flows.all FlowStatus.installed := by
  have hle : r.flows.countP FlowStatus.installed ≤ r.flows.length := List.countP_le_length
  rw [Bool.eq_iff_iff, isComplete, beq_iff_eq, hr, UInt64.toNat_ofNat', Nat.mod_eq_of_lt (Nat.lt_of_le_of_lt hle hfits),
    List.countP_eq_length, List.all_eq_true]

/-! ## Any number of confirmations -/

/-- The record after the confirmation of one entry after the other. -/
def confirmAll (r : PathRecord) (flows : List FlowEntry) : PathRecord := flows.foldl confirm r

theorem confirmAll_frame (r : PathRecord) (flows : List FlowEntry) : (r.confirmAll flows).requester = r.requester ∧
    (r.confirmAll flows).path = r.path ∧ (r.confirmAll flows).entries = r.entries := by
  induction flows generalizing r with
  | nil => exact ⟨rfl, rfl, rfl⟩
  | cons flow flows ih =>
    obtain ⟨h1, h2, h3⟩ := r.confirm_frame flow
    obtain ⟨h1', h2', h3'⟩ := ih (r.confirm flow)
    exact ⟨h1'.trans h1, h2'.trans h2, h3'.trans h3⟩

theorem length_confirmAll (r : PathRecord) (flows : List FlowEntry) :
    (r.confirmAll flows).flows.length = r.entries.length := by
  rw [← length_entries, (r.confirmAll_frame flows).2.2]

theorem Counted.confirmAll (hr : r.Counted) (flows : List FlowEntry) : (r.confirmAll flows).Counted := by
  induction flows generalizing r with
  | nil => exact hr
  | cons flow flows ih => exact ih (hr.confirm flow)

theorem installedAt_confirmAll : (r.confirmAll flows).InstalledAt i ↔
    r.InstalledAt i ∨ ∃ flow ∈ flows, r.place? flow = some i := by
  induction flows generalizing r with
  | nil => simp [confirmAll]
  | cons flow flows ih =>
    show ((r.confirm flow).confirmAll flows).InstalledAt i ↔ _
    simp only [ih, place?_confirm, installedAt_confirm, List.exists_mem_cons_iff, or_assoc]

theorem all_installed_iff : r.flows.all FlowStatus.installed = true ↔ ∀ i < r.flows.length, r.InstalledAt i := by
  rw [List.all_eq_true]
  constructor
  · intro h i hi; exact ⟨r.flows[i], List.getElem?_eq_getElem hi, h _ (List.getElem_mem hi)⟩
  · intro h s hs
    obtain ⟨i, hi, rfl⟩ := List.getElem_of_mem hs
    obtain ⟨s, hs, hb⟩ := h i hi
    rw [List.getElem?_eq_getElem hi] at hs
    cases hs
    exact hb

/-- Nothing is uninstalled by further confirmations. -/
theorem all_installed_confirmAll (h : r.flows.all FlowStatus.installed = true) (flows : List FlowEntry) :
    (r.confirmAll flows).flows.all FlowStatus.installed = true := by
  refine all_installed_iff.2 fun i hi => installedAt_confirmAll.2 (.inl ?_)
  rw [length_confirmAll, length_entries] at hi
  exact all_installed_iff.1 h i hi

/-- A record of which nothing is installed has installed no entries. -/
theorem countP_eq_zero (hnew : ∀ i, ¬ r.InstalledAt i) : r.flows.countP FlowStatus.installed = 0 := by
  refine List.countP_eq_zero.2 fun s hs hb => ?_
  obtain ⟨i, hi, rfl⟩ := List.getElem_of_mem hs
  exact hnew i ⟨_, List.getElem?_eq_getElem hi, hb⟩

/-! ## Entries that are their own first equal -/

/-- Where every entry equals itself and no later one, each of them has its own place. -/
theorem place?_getElem (hself : ∀ f ∈ r.entries, f.equals f = true)
    (hfirst : r.entries.Pairwise fun f g => f.equals g = false) (hi : i < r.entries.length) :
    r.place? r.entries[i] = some i := by
  refine place?_eq_some_iff.2 ⟨hi, hself _ (List.getElem_mem hi), fun j hj => ?_⟩
  exact List.pairwise_iff_getElem.1 hfirst j i (Nat.lt_trans hj hi) hi hj

/-- Such entries are all installed as soon as each of them was confirmed. -/
theorem all_installed_of_confirmed (hself : ∀ f ∈ r.entries, f.equals f = true)
    (hfirst : r.entries.Pairwise fun f g => f.equals g = false) (hall : ∀ f ∈ r.entries, f ∈ flows) :
    (r.confirmAll flows).flows.all FlowStatus.installed = true := by
  refine all_installed_iff.2 fun i hi => installedAt_confirmAll.2 (.inr ?_)
  rw [length_confirmAll] at hi
  exact ⟨_, hall _ (List.getElem_mem hi), place?_getElem hself hfirst hi⟩

end PathRecord

end ControlPlane
