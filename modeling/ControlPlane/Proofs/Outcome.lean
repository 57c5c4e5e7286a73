/-
Computations that may fail, taken apart: what must have succeeded when the whole succeeded, and where
the parts of its result come from. Two computations agree if both fail or both succeed with related results
(`Agree`); what is made of computations that agree, one after the other or over lists with the same members,
agrees again. They go alongside if, besides, they fail with the same error (`Alongside`), which needs the same order
on both sides. A computation that makes checks fails with the error of the first one that does not hold (`Enforces`);
the checks of computations one after the other are those of each, one after the other.
-/
import ControlPlane.Proofs.List

namespace ControlPlane

variable {ε ε' α β : Type}

theorem bind_eq_ok {x : Except ε α} {f : α → Except ε β} {b : β} (h : x >>= f = .ok b) :
    ∃ a, x = .ok a ∧ f a = .ok b := by
  cases x with
  | error e => cases h
  | ok a => exact ⟨a, rfl, h⟩

theorem mapError_eq_ok {f : ε → ε'} {x : Except ε α} {a : α} (h : x.mapError f = .ok a) : x = .ok a := by
  cases x with
  | error e => cases h
  | ok b => cases h; rfl

/-! ## Lists -/

theorem mapM_eq_ok {f : α → Except ε β} {xs : List α} {ys : List β} :
    xs.mapM f = .ok ys ↔ List.Forall₂ (fun x y => f x = .ok y) xs ys := by
  induction xs generalizing ys with
  | nil => simp [pure, Except.pure, eq_comm]
  | cons x xs ih =>
    rw [List.mapM_cons]
    constructor
    · intro h
      obtain ⟨y, hy, h⟩ := bind_eq_ok h
      obtain ⟨ys', hys, h⟩ := bind_eq_ok h
      cases h
      exact .cons hy (ih.1 hys)
    · rintro (_ | ⟨hy, hys⟩)
      rw [hy, ih.2 hys]
      rfl

/-- Values that are read back one by one are read back as a list. -/
theorem mapM_map_eq_some {f : β → Option α} {g : α → β} {xs : List α} (h : ∀ x ∈ xs, f (g x) = some x) :
    (xs.map g).mapM f = some xs := by
  induction xs with
  | nil => rfl
  | cons x xs ih =>
    rw [List.forall_mem_cons] at h
    rw [List.map_cons, List.mapM_cons, h.1, ih h.2]
    rfl

theorem exists_result {f : α → Except ε β} {xs : List α} {ys : List β} (h : xs.mapM f = .ok ys) {x : α}
    (hx : x ∈ xs) : ∃ y ∈ ys, f x = .ok y :=
  exists_of_forall₂ (mapM_eq_ok.1 h) hx

theorem exists_element {f : α → Except ε β} {xs : List α} {ys : List β} (h : xs.mapM f = .ok ys) {y : β}
    (hy : y ∈ ys) : ∃ x ∈ xs, f x = .ok y := by
  have hflip : List.Forall₂ (fun y x => f x = .ok y) ys xs := (mapM_eq_ok.1 h).flip
  exact exists_of_forall₂ hflip hy

/-- What successful computations collect is what each of them gives. -/
theorem mem_flatten_results {f : α → Except ε (List β)} {xs : List α} {yss : List (List β)}
    (h : xs.mapM f = .ok yss) {y : β} : y ∈ yss.flatten ↔ ∃ x ∈ xs, ∃ ys, f x = .ok ys ∧ y ∈ ys := by
  rw [List.mem_flatten]
  constructor
  · rintro ⟨ys, hys, hy⟩
    obtain ⟨x, hx, hf⟩ := exists_element h hys
    exact ⟨x, hx, ys, hf, hy⟩
  · rintro ⟨x, hx, ys, hf, hy⟩
    obtain ⟨ys', hys', hf'⟩ := exists_result h hx
    rw [hf] at hf'
    cases hf'
    exact ⟨ys, hys', hy⟩

/-- A computation for every member of a list succeeds if it does so for each of them. -/
theorem exists_mapM_eq_ok {f : α → Except ε β} {xs : List α} :
    (∃ ys, xs.mapM f = .ok ys) ↔ ∀ x ∈ xs, ∃ y, f x = .ok y := by
  constructor
  · rintro ⟨ys, h⟩ x hx
    obtain ⟨y, -, hy⟩ := exists_result h hx
    exact ⟨y, hy⟩
  · intro h
    induction xs with
    | nil => exact ⟨[], rfl⟩
    | cons x xs ih =>
      obtain ⟨⟨y, hy⟩, hrest⟩ := List.forall_mem_cons.1 h
      obtain ⟨ys, hys⟩ := ih hrest
      exact ⟨y :: ys, by rw [List.mapM_cons, hy, hys]; rfl⟩

/-! ## Computations that agree -/

/-- Both computations fail, or both succeed with related results. -/
inductive Agree (R : α → β → Prop) : Except ε α → Except ε' β → Prop
  | ok {a : α} {b : β} : R a b → Agree R (.ok a) (.ok b)
  | error (e : ε) (e' : ε') : Agree R (.error e) (.error e')

section Agreement

variable {γ δ : Type} {R : α → β → Prop} {S : γ → δ → Prop}

theorem Agree.refl {R : α → α → Prop} (hR : ∀ a, R a a) (x : Except ε α) : Agree R x x := by
  cases x with
  | ok a => exact .ok (hR a)
  | error e => exact .error e e

theorem Agree.bind {x : Except ε α} {y : Except ε' β} {f : α → Except ε γ} {g : β → Except ε' δ} (h : Agree R x y)
    (hfg : ∀ a b, R a b → Agree S (f a) (g b)) : Agree S (x >>= f) (y >>= g) := by
  cases h with
  | ok hab => exact hfg _ _ hab
  | error e e' => exact .error e e'

theorem Agree.exists_left {x : Except ε α} {y : Except ε' β} (h : Agree R x y) {a : α} (hx : x = .ok a) :
    ∃ b, y = .ok b ∧ R a b := by
  cases h with
  | ok hab => cases hx; exact ⟨_, rfl, hab⟩
  | error e e' => cases hx

theorem Agree.exists_right {x : Except ε α} {y : Except ε' β} (h : Agree R x y) {b : β} (hy : y = .ok b) :
    ∃ a, x = .ok a ∧ R a b := by
  cases h with
  | ok hab => cases hy; exact ⟨_, rfl, hab⟩
  | error e e' => cases hy

theorem Agree.mapM {f : γ → Except ε α} {g : γ → Except ε' β} {xs ys : List γ} (hxs : SameMembers xs ys)
    (h : ∀ x, Agree R (f x) (g x)) : Agree (Matching R) (xs.mapM f) (ys.mapM g) := by
  cases hx : xs.mapM f with
  | ok as =>
    have hok : ∀ y ∈ ys, ∃ b, g y = .ok b := by
      intro y hy
      obtain ⟨a, -, ha⟩ := exists_result hx ((hxs y).2 hy)
      obtain ⟨b, hb, -⟩ := (h y).exists_left ha
      exact ⟨b, hb⟩
    obtain ⟨bs, hbs⟩ := exists_mapM_eq_ok.2 hok
    rw [hbs]
    refine .ok ⟨fun a ha => ?_, fun b hb => ?_⟩
    · obtain ⟨x, hxmem, hfx⟩ := exists_element hx ha
      obtain ⟨b, hb, hab⟩ := (h x).exists_left hfx
      obtain ⟨b', hb', hgx⟩ := exists_result hbs ((hxs x).1 hxmem)
      rw [hb] at hgx
      cases hgx
      exact ⟨b, hb', hab⟩
    · obtain ⟨y, hymem, hgy⟩ := exists_element hbs hb
      obtain ⟨a, ha, hab⟩ := (h y).exists_right hgy
      obtain ⟨a', ha', hfy⟩ := exists_result hx ((hxs y).2 hymem)
      rw [ha] at hfy
      cases hfy
      exact ⟨a, ha', hab⟩
  | error e =>
    cases hy : ys.mapM g with
    | error e' => exact .error e e'
    | ok bs =>
      have hok : ∀ x ∈ xs, ∃ a, f x = .ok a := by
        intro x hxmem
        obtain ⟨b, -, hb⟩ := exists_result hy ((hxs x).1 hxmem)
        obtain ⟨a, ha, -⟩ := (h x).exists_right hb
        exact ⟨a, ha⟩
      obtain ⟨as, has⟩ := exists_mapM_eq_ok.2 hok
      rw [hx] at has
      cases has

theorem Agree.foldlM {f : α → γ → Except ε α} {g : β → γ → Except ε' β} (h : ∀ a b x, R a b → Agree R (f a x) (g b x)) :
    ∀ (xs : List γ) {a : α} {b : β}, R a b → Agree R (xs.foldlM f a) (xs.foldlM g b)
  | [], _, _, hab => .ok hab
  | x :: xs, a, b, hab => by
    rw [List.foldlM_cons, List.foldlM_cons]
    exact (h a b x hab).bind fun _ _ => Agree.foldlM h xs

end Agreement

/-! ## Computations that fail alike -/

/-- Both computations fail with the same error, or both succeed with related results. -/
inductive Alongside (R : α → β → Prop) : Except ε α → Except ε β → Prop
  | ok {a : α} {b : β} : R a b → Alongside R (.ok a) (.ok b)
  | error (e : ε) : Alongside R (.error e) (.error e)

namespace Alongside

variable {γ δ : Type} {R : α → β → Prop} {S : γ → δ → Prop}

theorem bind {x : Except ε α} {y : Except ε β} {f : α → Except ε γ} {g : β → Except ε δ} (h : Alongside R x y)
    (hfg : ∀ a b, R a b → Alongside S (f a) (g b)) : Alongside S (x >>= f) (y >>= g) := by
  cases h with
  | ok hab => exact hfg _ _ hab
  | error e => exact .error e

/-- The same computation goes alongside itself, whatever it gives. -/
theorem self_bind {x : Except ε α} {f : α → Except ε γ} {g : α → Except ε δ}
    (h : ∀ a, x = .ok a → Alongside S (f a) (g a)) : Alongside S (x >>= f) (x >>= g) := by
  cases x with
  | ok a => exact h a rfl
  | error e => exact .error e

/-- Of computations one after the other, the first one that fails is the same on both sides. -/
theorem mapM {f : γ → Except ε α} {g : γ → Except ε β} (h : ∀ x, Alongside R (f x) (g x)) :
    ∀ xs : List γ, Alongside (List.Forall₂ R) (xs.mapM f) (xs.mapM g)
  | [] => .ok .nil
  | x :: xs => by
    rw [List.mapM_cons, List.mapM_cons]
    exact (h x).bind fun _ _ hab => (mapM h xs).bind fun _ _ hrest => .ok (.cons hab hrest)

theorem foldlM {f : α → γ → Except ε α} {g : β → γ → Except ε β} (h : ∀ a b x, R a b → Alongside R (f a x) (g b x)) :
    ∀ (xs : List γ) {a : α} {b : β}, R a b → Alongside R (xs.foldlM f a) (xs.foldlM g b)
  | [], _, _, hab => .ok hab
  | x :: xs, a, b, hab => by
    rw [List.foldlM_cons, List.foldlM_cons]
    exact (h a b x hab).bind fun _ _ => foldlM h xs

theorem error_iff {x : Except ε α} {y : Except ε β} (h : Alongside R x y) (e : ε) : x = .error e ↔ y = .error e := by
  cases h with
  | ok hab => simp
  | error e' => simp

theorem of_ok {x : Except ε α} {y : Except ε β} (h : Alongside R x y) {a : α} {b : β} (hx : x = .ok a)
    (hy : y = .ok b) : R a b := by
  cases h with
  | ok hab => cases hx; cases hy; exact hab
  | error e => cases hx

end Alongside

theorem flatMap_subset_of_forall₂ {γ : Type} {R : α → β → Prop} {f : α → List γ} {g : β → List γ} {xs : List α}
    {ys : List β} (h : List.Forall₂ R xs ys) (hfg : ∀ x y, R x y → f x ⊆ g y) : xs.flatMap f ⊆ ys.flatMap g := by
  intro a ha
  obtain ⟨x, hx, ha⟩ := List.mem_flatMap.1 ha
  obtain ⟨y, hy, hxy⟩ := exists_of_forall₂ h hx
  exact List.mem_flatMap.2 ⟨y, hy, hfg x y hxy ha⟩

theorem flatten_subset_of_forall₂ {xss yss : List (List α)} (h : List.Forall₂ (· ⊆ ·) xss yss) :
    xss.flatten ⊆ yss.flatten := by
  rw [← List.flatMap_id, ← List.flatMap_id]
  exact flatMap_subset_of_forall₂ h fun _ _ hsub => hsub

theorem flatMap_eq_of_forall₂ {γ : Type} {R : α → β → Prop} {f : α → List γ} {g : β → List γ} {xs : List α}
    {ys : List β} (h : List.Forall₂ R xs ys) (hfg : ∀ x y, R x y → f x = g y) : xs.flatMap f = ys.flatMap g := by
  induction h with
  | nil => rfl
  | cons hxy _ ih => rw [List.flatMap_cons, List.flatMap_cons, hfg _ _ hxy, ih]

/-! ## Computations that make checks -/

/-- The check is the first one of the list that does not hold. -/
def FirstViolated {χ : Type} (holds : χ → Prop) (checks : List χ) (check : χ) : Prop :=
  ∃ before after, checks = before ++ check :: after ∧ (∀ c ∈ before, holds c) ∧ ¬ holds check

/-- The computation succeeds if all checks hold, and fails with the error of the first one that does not. -/
inductive Enforces {χ : Type} (holds : χ → Prop) (error : χ → ε) (checks : List χ) : Except ε α → Prop
  | ok (a : α) : (∀ c ∈ checks, holds c) → Enforces holds error checks (.ok a)
  | error {check : χ} : FirstViolated holds checks check → Enforces holds error checks (.error (error check))

section Checks

variable {χ : Type} {holds : χ → Prop} {error : χ → ε} {checks checks' : List χ} {check check' : χ}

theorem FirstViolated.append_right (h : FirstViolated holds checks check) (checks' : List χ) :
    FirstViolated holds (checks ++ checks') check := by
  obtain ⟨before, after, rfl, hbefore, hcheck⟩ := h
  exact ⟨before, after ++ checks', List.append_assoc .., hbefore, hcheck⟩

theorem FirstViolated.append_left (hall : ∀ c ∈ checks, holds c) (h : FirstViolated holds checks' check) :
    FirstViolated holds (checks ++ checks') check := by
  obtain ⟨before, after, rfl, hbefore, hcheck⟩ := h
  exact ⟨checks ++ before, after, (List.append_assoc ..).symm, List.forall_mem_append.2 ⟨hall, hbefore⟩, hcheck⟩

theorem FirstViolated.mem (h : FirstViolated holds checks check) : check ∈ checks := by
  obtain ⟨before, after, rfl, -, -⟩ := h
  exact List.mem_append_right _ List.mem_cons_self

theorem FirstViolated.not_holds (h : FirstViolated holds checks check) : ¬ holds check := by
  obtain ⟨-, -, -, -, hcheck⟩ := h
  exact hcheck

theorem FirstViolated.unique (h : FirstViolated holds checks check) (h' : FirstViolated holds checks check') :
    check = check' := by
  obtain ⟨before, after, rfl, hbefore, hcheck⟩ := h
  obtain ⟨before', after', heq, hbefore', hcheck'⟩ := h'
  -- if one of the two came later, the other one would hold
  rcases List.append_eq_append_iff.1 heq with ⟨l, rfl, hl⟩ | ⟨l, rfl, hl⟩
  · cases l with
    | nil => exact (List.cons.inj hl).1
    | cons c l =>
      rw [List.cons_append, List.cons.injEq] at hl
      exact absurd (hbefore' check (by simp [hl.1])) hcheck
  · cases l with
    | nil => exact (List.cons.inj hl).1.symm
    | cons c l =>
      rw [List.cons_append, List.cons.injEq] at hl
      exact absurd (hbefore check' (by simp [hl.1])) hcheck'

namespace Enforces

theorem pure (a : α) : Enforces holds error [] (.ok a : Except ε α) := .ok a fun _ hc => absurd hc List.not_mem_nil

theorem fail (check : χ) (h : ¬ holds check) : Enforces holds error [check] (.error (error check) : Except ε α) :=
  .error ⟨[], [], rfl, fun _ hc => absurd hc List.not_mem_nil, h⟩

theorem bind {x : Except ε α} {f : α → Except ε β} (h : Enforces holds error checks x)
    (hf : ∀ a, x = .ok a → Enforces holds error checks' (f a)) :
    Enforces holds error (checks ++ checks') (x >>= f) := by
  cases h with
  | error h => exact .error (h.append_right checks')
  | ok a hall =>
    have hfa := hf a rfl
    show Enforces holds error (checks ++ checks') (f a)
    generalize f a = y at hfa ⊢
    cases hfa with
    | ok b hall' => exact .ok b (List.forall_mem_append.2 ⟨hall, hall'⟩)
    | error h => exact .error (h.append_left hall)

theorem map {x : Except ε α} {f : α → β} (h : Enforces holds error checks x) :
    Enforces holds error checks (x.map f) := by
  cases h with
  | ok a hall => exact .ok (f a) hall
  | error h => exact .error h

/-- What follows without a check cannot fail. -/
theorem bind_ok {x : Except ε α} {f : α → Except ε β} (h : Enforces holds error checks x)
    (hf : ∀ a, x = .ok a → ∃ b, f a = .ok b) : Enforces holds error checks (x >>= f) := by
  rw [← List.append_nil checks]
  refine h.bind fun a ha => ?_
  obtain ⟨b, hb⟩ := hf a ha
  rw [hb]
  exact pure b

theorem mapM {f : α → Except ε β} {checks : α → List χ} (h : ∀ x, Enforces holds error (checks x) (f x)) :
    ∀ xs : List α, Enforces holds error (xs.flatMap checks) (xs.mapM f)
  | [] => pure []
  | x :: xs => by
    rw [List.flatMap_cons, List.mapM_cons]
    exact (h x).bind fun y _ => (mapM h xs).bind_ok fun ys _ => ⟨y :: ys, rfl⟩

theorem ok_iff {x : Except ε α} (h : Enforces holds error checks x) :
    (∃ a, x = .ok a) ↔ ∀ c ∈ checks, holds c := by
  cases h with
  | ok a hall => exact iff_of_true ⟨a, rfl⟩ hall
  | error h => exact iff_of_false (fun ⟨_, ha⟩ => nomatch ha) fun hall => h.not_holds (hall _ h.mem)

theorem error_iff {x : Except ε α} (h : Enforces holds error checks x) {e : ε} :
    x = .error e ↔ ∃ check, FirstViolated holds checks check ∧ e = error check := by
  cases h with
  | ok a hall =>
    refine iff_of_false (fun he => nomatch he) ?_
    rintro ⟨check, hcheck, -⟩
    exact hcheck.not_holds (hall check hcheck.mem)
  | error h =>
    rw [Except.error.injEq]
    constructor
    · rintro rfl
      exact ⟨_, h, rfl⟩
    · rintro ⟨check', h', rfl⟩
      rw [h.unique h']

end Enforces

end Checks
end ControlPlane
