/-
Finite maps kept in the order of their keys. A map is the list of its entries, with strictly
increasing keys, so iteration is in key order and two maps with the same look-ups are the same map
(`SortedMap.ext_get?`). Each operation has one law that says what it does to the look-ups.
-/

namespace ControlPlane

/-- Keys whose `<` is a strict total order. -/
class StrictOrder (κ : Type) [LT κ] : Prop where
  irrefl (a : κ) : ¬ a < a
  trans {a b c : κ} : a < b → b < c → a < c
  total (a b : κ) : a < b ∨ a = b ∨ b < a

instance : StrictOrder String where
  irrefl := String.lt_irrefl
  trans := String.lt_trans
  total := Std.lt_trichotomy

/-- A finite map, listed in the order of its keys. -/
structure SortedMap (κ : Type) (α : Type) [LT κ] where
  entries : List (κ × α)
  sorted : entries.Pairwise fun a b => a.1 < b.1

namespace SortedMap

variable {κ α β : Type} [LT κ]

theorem eq_of_entries {m m' : SortedMap κ α} (h : m.entries = m'.entries) : m = m' := by
  cases m; cases m'; simp_all

variable [DecidableLT κ]

/-! ## Look-up -/

/-- The value of the first entry with the key, in entries sorted by key. -/
def lookup (k : κ) : List (κ × α) → Option α
  | [] => none
  | (k', v) :: rest => if k < k' then none else if k' < k then lookup k rest else some v

/-- The value stored under a key. -/
def get? (m : SortedMap κ α) (k : κ) : Option α := lookup k m.entries

def contains (m : SortedMap κ α) (k : κ) : Bool := (m.get? k).isSome

def keys (m : SortedMap κ α) : List κ := m.entries.map (·.1)

def values (m : SortedMap κ α) : List α := m.entries.map (·.2)

def size (m : SortedMap κ α) : Nat := m.entries.length

def isEmpty (m : SortedMap κ α) : Bool := m.entries.isEmpty

section Order

variable [StrictOrder κ]

theorem lookup_eq_some_iff {k : κ} {v : α} : ∀ {l : List (κ × α)},
    l.Pairwise (fun a b => a.1 < b.1) → (lookup k l = some v ↔ (k, v) ∈ l)
  | [], _ => by simp [lookup]
  | (k', v') :: rest, h => by
    rw [List.pairwise_cons] at h
    simp only [lookup, List.mem_cons, Prod.mk.injEq]
    split
    · next hk =>
      simp only [reduceCtorEq, false_iff, not_or, not_and]
      refine ⟨fun e => absurd (e ▸ hk) (StrictOrder.irrefl _), fun hm => ?_⟩
      exact StrictOrder.irrefl _ (StrictOrder.trans hk (h.1 _ hm))
    · next hk =>
      split
      · next hk' =>
        rw [lookup_eq_some_iff h.2]
        refine ⟨Or.inr, fun hm => hm.resolve_left fun e => ?_⟩
        exact absurd (e.1 ▸ hk') (StrictOrder.irrefl _)
      · next hk' =>
        have he : k = k' := by
          rcases StrictOrder.total k k' with h1 | h1 | h1
          · exact absurd h1 hk
          · exact h1
          · exact absurd h1 hk'
        subst he
        simp only [Option.some.injEq, true_and]
        refine ⟨fun e => Or.inl e.symm, fun hm => hm.elim Eq.symm fun hm => ?_⟩
        exact absurd (h.1 _ hm) (StrictOrder.irrefl _)

theorem get?_eq_some_iff {m : SortedMap κ α} {k : κ} {v : α} :
    m.get? k = some v ↔ (k, v) ∈ m.entries :=
  lookup_eq_some_iff m.sorted

theorem mem_keys_iff {m : SortedMap κ α} {k : κ} : k ∈ m.keys ↔ ∃ v, m.get? k = some v := by
  simp [keys, get?_eq_some_iff]

omit [DecidableLT κ] in
/-- Sorted lists with the same members are the same list. -/
theorem eq_of_mem_iff : ∀ {l l' : List (κ × α)}, l.Pairwise (fun a b => a.1 < b.1) →
    l'.Pairwise (fun a b => a.1 < b.1) → (∀ e, e ∈ l ↔ e ∈ l') → l = l'
  | [], [], _, _, _ => rfl
  | [], e :: _, _, _, h => by simpa using (h e).2 (by simp)
  | e :: _, [], _, _, h => by simpa using (h e).1 (by simp)
  | a :: l, b :: l', ha, hb, h => by
    rw [List.pairwise_cons] at ha hb
    have hab : a = b := by
      rcases List.mem_cons.1 ((h a).1 (by simp)) with h1 | h1
      · exact h1
      · rcases List.mem_cons.1 ((h b).2 (by simp)) with h2 | h2
        · exact h2.symm
        · exact absurd (StrictOrder.trans (ha.1 _ h2) (hb.1 _ h1)) (StrictOrder.irrefl _)
    subst hab
    rw [eq_of_mem_iff ha.2 hb.2 fun e => ?_]
    constructor
    · intro he
      rcases List.mem_cons.1 ((h e).1 (List.mem_cons_of_mem _ he)) with h1 | h1
      · subst h1; exact absurd (ha.1 _ he) (StrictOrder.irrefl _)
      · exact h1
    · intro he
      rcases List.mem_cons.1 ((h e).2 (List.mem_cons_of_mem _ he)) with h1 | h1
      · subst h1; exact absurd (hb.1 _ he) (StrictOrder.irrefl _)
      · exact h1

/-- Two maps with the same look-ups are the same map. -/
theorem ext_get? {m m' : SortedMap κ α} (h : ∀ k, m.get? k = m'.get? k) : m = m' := by
  refine eq_of_entries (eq_of_mem_iff m.sorted m'.sorted fun e => ?_)
  obtain ⟨k, v⟩ := e
  rw [← get?_eq_some_iff, ← get?_eq_some_iff, h]

end Order

/-! ## Construction -/

/-- The map without entries. -/
def empty : SortedMap κ α := ⟨[], .nil⟩

instance : EmptyCollection (SortedMap κ α) := ⟨empty⟩
instance : Inhabited (SortedMap κ α) := ⟨empty⟩

@[simp] theorem get?_empty (k : κ) : (empty : SortedMap κ α).get? k = none := rfl

/-- Sets the value of a key in entries sorted by key. -/
def insertEntry (k : κ) (v : α) : List (κ × α) → List (κ × α)
  | [] => [(k, v)]
  | (k', v') :: rest =>
    if k < k' then (k, v) :: (k', v') :: rest
    else if k' < k then (k', v') :: insertEntry k v rest
    else (k, v) :: rest

theorem mem_insertEntry {k : κ} {v : α} {e : κ × α} : ∀ {l : List (κ × α)},
    e ∈ insertEntry k v l → e = (k, v) ∨ e ∈ l
  | [], h => by simpa [insertEntry] using h
  | (k', v') :: rest, h => by
    simp only [insertEntry] at h
    split at h
    · simpa using h
    · split at h
      · rcases List.mem_cons.1 h with h | h
        · exact Or.inr (h ▸ List.mem_cons_self)
        · exact (mem_insertEntry h).imp_right (List.mem_cons_of_mem _)
      · exact (List.mem_cons.1 h).imp_right (List.mem_cons_of_mem _)

theorem sorted_insertEntry [StrictOrder κ] {k : κ} {v : α} : ∀ {l : List (κ × α)},
    l.Pairwise (fun a b => a.1 < b.1) → (insertEntry k v l).Pairwise fun a b => a.1 < b.1
  | [], _ => by simp [insertEntry]
  | (k', v') :: rest, h => by
    have hc := List.pairwise_cons.1 h
    simp only [insertEntry]
    split
    · next hk =>
      refine List.pairwise_cons.2 ⟨fun e he => ?_, h⟩
      rcases List.mem_cons.1 he with rfl | he
      · exact hk
      · exact StrictOrder.trans hk (hc.1 _ he)
    · next hk =>
      split
      · next hk' =>
        refine List.pairwise_cons.2 ⟨fun e he => ?_, sorted_insertEntry hc.2⟩
        rcases mem_insertEntry he with rfl | he
        · exact hk'
        · exact hc.1 _ he
      · next hk' =>
        have hkk : k = k' := by
          rcases StrictOrder.total k k' with h1 | h1 | h1
          · exact absurd h1 hk
          · exact h1
          · exact absurd h1 hk'
        exact List.pairwise_cons.2 ⟨fun e he => hkk ▸ hc.1 _ he, hc.2⟩

theorem lookup_insertEntry_self [StrictOrder κ] (k : κ) (v : α) : ∀ l : List (κ × α),
    lookup k (insertEntry k v l) = some v
  | [] => by simp [insertEntry, lookup, StrictOrder.irrefl]
  | (k', v') :: rest => by
    simp only [insertEntry]
    split
    · simp [lookup, StrictOrder.irrefl]
    · next hk =>
      split
      · next hk' => simp [lookup, hk, hk', lookup_insertEntry_self k v rest]
      · simp [lookup, StrictOrder.irrefl]

theorem lookup_insertEntry_of_ne [StrictOrder κ] {k k₁ : κ} (v : α) (hne : k₁ ≠ k) : ∀ l : List (κ × α),
    lookup k₁ (insertEntry k v l) = lookup k₁ l
  | [] => by
    simp only [insertEntry, lookup]
    rcases StrictOrder.total k₁ k with h | h | h
    · simp [h]
    · exact absurd h hne
    · simp [h]
  | (k', v') :: rest => by
    simp only [insertEntry]
    split
    · next hk =>
      rcases StrictOrder.total k₁ k with h | h | h
      · have := StrictOrder.trans h hk
        simp [lookup, h, this]
      · exact absurd h hne
      · have hn : ¬ k₁ < k := fun h' => StrictOrder.irrefl _ (StrictOrder.trans h h')
        simp [lookup, h, hn]
    · next hk =>
      split
      · simp only [lookup, lookup_insertEntry_of_ne v hne rest]
      · next hk' =>
        have hkk : k = k' := by
          rcases StrictOrder.total k k' with h1 | h1 | h1
          · exact absurd h1 hk
          · exact h1
          · exact absurd h1 hk'
        subst hkk
        rcases StrictOrder.total k₁ k with h | h | h
        · simp [lookup, h]
        · exact absurd h hne
        · simp [lookup, h]

variable [StrictOrder κ]

/-- The map with the value of one key set. -/
def insert (m : SortedMap κ α) (k : κ) (v : α) : SortedMap κ α :=
  ⟨insertEntry k v m.entries, sorted_insertEntry m.sorted⟩

@[simp] theorem get?_insert_self (m : SortedMap κ α) (k : κ) (v : α) :
    (m.insert k v).get? k = some v :=
  lookup_insertEntry_self k v m.entries

theorem get?_insert_of_ne (m : SortedMap κ α) {k k' : κ} (v : α) (h : k' ≠ k) :
    (m.insert k v).get? k' = m.get? k' :=
  lookup_insertEntry_of_ne v h m.entries

theorem get?_insert [DecidableEq κ] (m : SortedMap κ α) (k k' : κ) (v : α) :
    (m.insert k v).get? k' = if k' = k then some v else m.get? k' := by
  split
  · next h => rw [h, get?_insert_self]
  · next h => exact get?_insert_of_ne m v h

theorem insert_insert (m : SortedMap κ α) (k : κ) (v w : α) : (m.insert k v).insert k w = m.insert k w := by
  refine ext_get? fun k' => ?_
  rcases StrictOrder.total k' k with h | rfl | h
  · have hne : k' ≠ k := fun e => StrictOrder.irrefl _ (e ▸ h)
    simp only [get?_insert_of_ne _ _ hne]
  · simp only [get?_insert_self]
  · have hne : k' ≠ k := fun e => StrictOrder.irrefl _ (e ▸ h)
    simp only [get?_insert_of_ne _ _ hne]

/-- Setting a key to the value that it has changes nothing. -/
theorem insert_of_get? [DecidableEq κ] {m : SortedMap κ α} {k : κ} {v : α} (h : m.get? k = some v) :
    m.insert k v = m := by
  refine ext_get? fun x => ?_
  rw [get?_insert]
  split
  · next hx => rw [hx, h]
  · rfl

theorem contains_insert_self (m : SortedMap κ α) (k : κ) (v : α) :
    (m.insert k v).contains k = true := by
  simp [contains]

theorem contains_insert_of_contains (m : SortedMap κ α) {k k' : κ} (v : α)
    (h : m.contains k' = true) : (m.insert k v).contains k' = true := by
  by_cases hk : k' = k
  · subst hk; exact contains_insert_self m k' v
  · unfold contains at *; rwa [get?_insert_of_ne m v hk]

/-- The map of a list of entries, of which the last one with a key counts. -/
def ofList (entries : List (κ × α)) : SortedMap κ α :=
  entries.foldl (fun m e => m.insert e.1 e.2) empty

omit [StrictOrder κ] in
theorem insertEntry_of_forall_lt {k : κ} {v : α} : ∀ {l : List (κ × α)}, (∀ e ∈ l, ¬ k < e.1 ∧ e.1 < k) →
    insertEntry k v l = l ++ [(k, v)]
  | [], _ => rfl
  | (k', v') :: rest, h => by
    rw [List.forall_mem_cons] at h
    rw [insertEntry, if_neg h.1.1, if_pos h.1.2, insertEntry_of_forall_lt h.2, List.cons_append]

theorem entries_foldl_insert : ∀ {l : List (κ × α)} {m : SortedMap κ α},
    (m.entries ++ l).Pairwise (fun a b => a.1 < b.1) →
    (l.foldl (fun m e => m.insert e.1 e.2) m).entries = m.entries ++ l
  | [], m, _ => by simp
  | e :: l, m, h => by
    have hlast : (m.insert e.1 e.2).entries = m.entries ++ [e] :=
      insertEntry_of_forall_lt fun e' he' => by
        have hlt : e'.1 < e.1 := (List.pairwise_append.1 h).2.2 e' he' e (by simp)
        exact ⟨fun hgt => StrictOrder.irrefl _ (StrictOrder.trans hlt hgt), hlt⟩
    have heq : m.entries ++ e :: l = (m.insert e.1 e.2).entries ++ l := by simp [hlast]
    rw [List.foldl_cons, entries_foldl_insert (heq ▸ h), heq]

/-- The map of the entries of a map is the same map. -/
theorem ofList_entries (m : SortedMap κ α) : ofList m.entries = m :=
  eq_of_entries (entries_foldl_insert (m := empty) m.sorted)

/-! ## Restriction -/

/-- The entries with their values changed, without those that the change refuses. -/
def filterMap (f : κ → α → Option β) (m : SortedMap κ α) : SortedMap κ β :=
  ⟨m.entries.filterMap fun e => (f e.1 e.2).map (e.1, ·), by
    refine List.Pairwise.filterMap _ (fun a b hab x hx y hy => ?_) m.sorted
    obtain ⟨_, _, rfl⟩ := Option.map_eq_some_iff.1 hx
    obtain ⟨_, _, rfl⟩ := Option.map_eq_some_iff.1 hy
    exact hab⟩

/-- The map without a key. -/
def erase (m : SortedMap κ α) (k : κ) : SortedMap κ α :=
  m.filterMap fun k' v => if k' < k ∨ k < k' then some v else none

/-- The map with every value changed. -/
def map (f : α → β) (m : SortedMap κ α) : SortedMap κ β :=
  m.filterMap fun _ v => some (f v)

theorem get?_filterMap (f : κ → α → Option β) (m : SortedMap κ α) (k : κ) :
    (m.filterMap f).get? k = (m.get? k).bind (f k) := by
  refine Option.ext fun w => ?_
  rw [get?_eq_some_iff, Option.bind_eq_some_iff]
  simp only [filterMap, List.mem_filterMap, Option.map_eq_some_iff, Prod.exists, Prod.mk.injEq,
    get?_eq_some_iff]
  constructor
  · rintro ⟨k', v, hm, w', hf, rfl, rfl⟩; exact ⟨v, hm, hf⟩
  · rintro ⟨v, hm, hf⟩; exact ⟨k, v, hm, w, hf, rfl, rfl⟩

theorem get?_map (f : α → β) (m : SortedMap κ α) (k : κ) : (m.map f).get? k = (m.get? k).map f := by
  rw [map, get?_filterMap, Option.map_eq_bind]
  rfl

theorem map_insert [DecidableEq κ] (f : α → β) (m : SortedMap κ α) (k : κ) (v : α) :
    (m.insert k v).map f = (m.map f).insert k (f v) := by
  refine ext_get? fun k' => ?_
  simp only [get?_map, get?_insert]
  split <;> rfl

omit [DecidableLT κ] [StrictOrder κ] in
theorem keys_map (f : α → β) (m : SortedMap κ α) : (m.map f).keys = m.keys := by
  simp [keys, map, filterMap]

/-- Maps with the same keys have them in the same order. -/
theorem keys_eq_of_mem_iff {m m' : SortedMap κ α} (h : ∀ k, k ∈ m.keys ↔ k ∈ m'.keys) : m.keys = m'.keys := by
  have hunit : (m.map fun _ => ()) = m'.map fun _ => () := by
    refine ext_get? fun k => Option.ext fun _ => ?_
    simp [get?_map, ← mem_keys_iff, h k]
  rw [← keys_map fun _ => (), hunit, keys_map]

@[simp] theorem get?_erase_self (m : SortedMap κ α) (k : κ) : (m.erase k).get? k = none := by
  rw [erase, get?_filterMap]
  simp [StrictOrder.irrefl]

theorem get?_erase_of_ne (m : SortedMap κ α) {k k' : κ} (h : k' ≠ k) :
    (m.erase k).get? k' = m.get? k' := by
  rw [erase, get?_filterMap]
  have : k' < k ∨ k < k' := (StrictOrder.total k' k).imp_right fun h' => h'.resolve_left h
  simp [this]

end SortedMap

end ControlPlane
