/-
Counters of IDs, and the texts of the IDs. A reservation takes the IDs from the next free one on and moves
its counter past them, or it finds too few of them and changes nothing; so no counter ever goes down
(`next_le_reserve`), and a path ID is below the counter as soon as it is taken. Hexadecimal numerals read
back, so different path IDs have different texts (`Path.idText_inj`).
-/
import ControlPlane.Path.Ids
import ControlPlane.Proofs.Numeral

namespace ControlPlane

/-! ## Texts of IDs -/

theorem Path.idText_inj {m n : UInt64} : idText m = idText n ↔ m = n := by
  constructor
  · intro h; exact UInt64.toNat_inj.1 (Numeral.hex_injective h)
  · rintro rfl; rfl

/-! ## Reservations -/

namespace IdCounters

variable {ids ids' : IdCounters} {counter : String} {count : UInt64}

theorem next_insert_self (counters : Dict UInt64) (counter : String) (n : UInt64) :
    next ⟨counters.insert counter n⟩ counter = n := by
  simp [next]

theorem next_insert_of_ne (counters : Dict UInt64) {counter counter' : String} (n : UInt64) (h : counter' ≠ counter) :
    next ⟨counters.insert counter n⟩ counter' = next ⟨counters⟩ counter' := by
  simp only [next]
  rw [Dict.get?_insert_of_ne _ _ h]

theorem reserve_eq_ok {range : IdRange} (h : ids.reserve counter count = (.ok range, ids')) :
    range = ⟨ids.next counter, ids.next counter + count⟩ ∧
    (ids.next counter).toNat + count.toNat < UInt64.size ∧
    ids' = ⟨ids.counters.insert counter (ids.next counter + count)⟩ := by
  unfold reserve at h
  simp only [Dict.entry_fst, Dict.insert_entry] at h
  split at h
  · next hfits => cases h; exact ⟨rfl, hfits, rfl⟩
  · cases h

-- The counter is there when it cannot hold the IDs: one that was not would start at 0, where any count fits.
theorem reserve_eq_error {e : IdError} (h : ids.reserve counter count = (.error e, ids')) :
    e = .exhausted counter (ids.next counter) count ∧ UInt64.size ≤ (ids.next counter).toNat + count.toNat ∧
    ids' = ids := by
  unfold reserve at h
  simp only [Dict.entry_fst] at h
  split at h
  · cases h
  · next hfull =>
    cases h
    refine ⟨rfl, Nat.not_lt.1 hfull, ?_⟩
    cases hc : ids.counters.get? counter with
    | none =>
      rw [hc] at hfull
      exact absurd (by simpa using count.toNat_lt) hfull
    | some n => simp only [Dict.entry, hc]

/-- No counter goes down. -/
theorem next_le_reserve (ids : IdCounters) (counter : String) (count : UInt64) (counter' : String) :
    ids.next counter' ≤ (ids.reserve counter count).2.next counter' := by
  rcases hr : ids.reserve counter count with ⟨e | range, ids'⟩
  · rw [(reserve_eq_error hr).2.2]
    exact UInt64.le_refl _
  · obtain ⟨-, hfits, rfl⟩ := reserve_eq_ok hr
    show _ ≤ next _ counter'
    by_cases hc : counter' = counter
    · rw [hc, next_insert_self, UInt64.le_iff_toNat_le, UInt64.toNat_add, Nat.mod_eq_of_lt hfits]
      omega
    · rw [next_insert_of_ne _ _ hc]
      exact UInt64.le_refl _

/-- The path ID that is taken is the next free one, and is not free any more. -/
theorem reservePath_eq_ok {n : UInt64} (h : ids.reservePath = (.ok n, ids')) :
    n = ids.next pathCounter ∧ n < ids'.next pathCounter := by
  rcases hr : ids.reserve pathCounter 1 with ⟨e | range, ids''⟩
  · rw [reservePath, hr] at h; cases h
  · rw [reservePath, hr] at h
    cases h
    obtain ⟨rfl, hfits, rfl⟩ := reserve_eq_ok hr
    refine ⟨rfl, ?_⟩
    rw [next_insert_self, UInt64.lt_iff_toNat_lt, UInt64.toNat_add, Nat.mod_eq_of_lt hfits]
    exact Nat.lt_add_of_pos_right Nat.zero_lt_one

/-- Only when the counter is at its end, no path ID is left, and nothing changes. -/
theorem reservePath_eq_error {e : IdError} (h : ids.reservePath = (.error e, ids')) :
    e = .exhausted pathCounter (ids.next pathCounter) 1 ∧ (ids.next pathCounter).toNat + 1 = UInt64.size ∧
    ids' = ids := by
  rcases hr : ids.reserve pathCounter 1 with ⟨e' | range, ids''⟩
  · rw [reservePath, hr] at h
    cases h
    obtain ⟨rfl, hfull, hids⟩ := reserve_eq_error hr
    exact ⟨rfl, Nat.le_antisymm (ids.next pathCounter).toNat_lt hfull, hids⟩
  · rw [reservePath, hr] at h; cases h

theorem next_le_reservePath (ids : IdCounters) (counter : String) :
    ids.next counter ≤ ids.reservePath.2.next counter :=
  next_le_reserve ids pathCounter 1 counter

end IdCounters

end ControlPlane
