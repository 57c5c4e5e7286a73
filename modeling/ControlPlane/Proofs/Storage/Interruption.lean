/-
Saving that stops early. On a tree with a limited number of writes (`LimitedTree`), a dict is saved by one write, so
saving one dict after the other writes the first of the snapshots and leaves the others as they were
(`LimitedTree.saveTexts_spec`). What lies at a place is a snapshot that was written or no file at all, and it stays
so while directories are created and other files are written (`Holds`).
-/
import ControlPlane.Proofs.Storage.Snapshot

namespace ControlPlane

namespace FileTree

variable {t t' : FileTree} {way way' names : List String} {place text : String}

/-! ## Where a place leads to -/

/-- The way that a place leads to, if there are directories all along. -/
def wayTo (place : String) : List String := (namesOf place).2.foldl goTo (startOf (namesOf place).1)

theorem eq_foldl_of_follow? (h : t.follow? way names = some way') : way' = names.foldl goTo way := by
  induction names generalizing way with
  | nil => exact (Option.some.inj h).symm
  | cons name names ih =>
    unfold follow? at h
    rw [Option.ite_none_right_eq_some] at h
    exact ih h.2

theorem eq_wayTo (h : t.find? place = some way) : way = wayTo place := by
  unfold find? at h
  rw [Option.ite_none_right_eq_some] at h
  exact eq_foldl_of_follow? h.2

theorem exists_wayTo_joinPlace (dir : String) : ∃ into : List String, ∀ name, IsFileName name →
    wayTo (joinPlace dir name) = into ++ [name] := by
  obtain ⟨start, names, hnames⟩ := exists_namesOf_joinPlace dir
  refine ⟨names.foldl goTo (startOf start), fun name hname => ?_⟩
  rw [wayTo, hnames name hname.noSlash, List.foldl_append]
  exact goTo_of_isFileName hname _

theorem write_eq_error (h : t.write place text = (false, t')) : t' = t := by
  unfold write at h
  split at h
  · cases h; rfl
  · split at h <;> cases h; rfl

/-! ## What stays -/

/-- At the place there is a file with the text, or where it leads to there is no file. -/
def Holds (t : FileTree) (place : String) : Option String → Prop
  | some text => t.read place = .text text
  | none => ∀ text, t.get? (wayTo place) ≠ some (.file text)

/-- Everything stays, and there are no new files. -/
structure AddsDirectories (t t' : FileTree) : Prop where
  kept : t.Extends t'
  files : ∀ way text, t'.get? way = some (.file text) → t.get? way = some (.file text)

theorem AddsDirectories.refl (t : FileTree) : t.AddsDirectories t := ⟨.refl t, fun _ _ h => h⟩

theorem AddsDirectories.trans {t'' : FileTree} (h : t.AddsDirectories t') (h' : t'.AddsDirectories t'') :
    t.AddsDirectories t'' :=
  ⟨h.kept.trans h'.kept, fun way text hget => h.files way text (h'.files way text hget)⟩

theorem addsDirectories_put (h : t.get? way = none) : t.AddsDirectories (t.put way .directory) := by
  refine ⟨extends_put .directory h, fun way' text hget => ?_⟩
  have hs : ¬ IsStart way := fun hs => by rw [get?_of_isStart hs] at h; cases h
  by_cases hs' : IsStart way'
  · rw [get?_of_isStart hs'] at hget; cases hget
  · by_cases hkey : "/".intercalate way' = "/".intercalate way
    · rw [get?_congr hs hs' hkey, get?_put_self hs] at hget; cases hget
    · rwa [get?_put_of_ne hkey] at hget

theorem addsDirectories_createFrom (t : FileTree) (way names : List String) :
    t.AddsDirectories (createFrom way names t) := by
  fun_induction createFrom way names t with
  | case1 => exact .refl _
  | case2 => exact .refl _
  | case3 _ _ _ _ _ _ _ ih => exact ih
  | case4 => exact .refl _
  | case5 _ _ _ _ _ _ hnone ih => exact (addsDirectories_put hnone).trans ih

theorem addsDirectories_createDirectories (t : FileTree) (place : String) :
    t.AddsDirectories (t.createDirectories place).2 := by
  unfold createDirectories
  split
  · exact .refl _
  · split
    · exact addsDirectories_createFrom _ _ _
    · exact .refl _

theorem Holds.addsDirectories {content : Option String} (h : t.Holds place content) (ht : t.AddsDirectories t') :
    t'.Holds place content := by
  cases content with
  | some text => exact ht.kept.read h
  | none => exact fun text hget => h text (ht.files _ _ hget)

/-- What a file of a directory holds stays when another one is written. -/
theorem Holds.write {dir name name' : String} {content : Option String} (h : t.Holds (joinPlace dir name') content)
    (hname : IsFileName name) (hname' : IsFileName name') (hne : name' ≠ name)
    (hwrite : t.write (joinPlace dir name) text = (true, t')) : t'.Holds (joinPlace dir name') content := by
  cases content with
  | some text' => exact read_write_joinPlace hname hname' hne hwrite h
  | none =>
    intro text'
    obtain ⟨into, hinto⟩ := exists_wayTo_joinPlace dir
    obtain ⟨way, hway, -, rfl⟩ := write_eq_ok hwrite
    have hkey : "/".intercalate (wayTo (joinPlace dir name')) ≠ "/".intercalate way := by
      rw [eq_wayTo hway, hinto name hname, hinto name' hname']
      exact fun hkey => hne (intercalate_append_singleton_inj hkey)
    rw [get?_put_of_ne hkey]
    exact h text'

/-- Where there is no file, none is read. -/
theorem Holds.read_eq (h : t.Holds place none) : t.read place = .absent ∨ t.read place = .unreadable := by
  unfold read entry?
  cases hfind : t.find? place with
  | none => exact .inl rfl
  | some way =>
    rw [Option.bind_some, eq_wayTo hfind]
    cases hget : t.get? (wayTo place) with
    | none => exact .inl rfl
    | some e =>
      cases e with
      | directory => exact .inr rfl
      | file text => exact absurd hget (h text)

end FileTree

/-- A snapshot is loaded as it was written, and an empty dict from a place without a file. -/
theorem Dict.load_of_holds {α : Type} [JsonForm α] [LawfulJsonForm α] {t : FileTree} {d : Dict α} {dir : String}
    (h : t.Holds (snapshotPlace dir d.name) (some d.snapshot) ∨
      d.entries = .empty ∧ t.Holds (snapshotPlace dir d.name) none)
    (hfile : t.read (snapshotPlace dir d.name) ≠ .unreadable) : t.run (load d.name dir) = (.ok d, t) := by
  rcases h with h | ⟨hempty, h⟩
  · exact StoredIn.load h
  · have habsent := h.read_eq.resolve_right hfile
    unfold load
    rw [FileTree.run_bind_of_ok (FileTree.run_readFile t _), habsent, if_pos rfl]
    show (Except.ok (Dict.mk d.name .empty), t) = _
    rw [← hempty]

/-- What saving a dict gives, when its snapshot is written and when it is not. -/
def saved : Bool → Except FileError Unit
  | true => .ok ()
  | false => .error .io

/-- A save ends with whether its snapshot was written. -/
theorem run_saved {σ : Type} (r : Bool × σ) :
    StateT.run (ExceptT.run (if r.1 then pure () else throw FileError.io : ExceptT FileError (StateM σ) Unit)) r.2 =
      (saved r.1, r.2) := by
  rcases r with ⟨_ | _, s⟩ <;> rfl

/-- A dict is saved in two steps: its directory is created, and its snapshot is written. -/
theorem Dict.run_save_eq {α : Type} [JsonForm α] (t : FileTree) (d : Dict α) (dir : String) : t.run (d.save dir) =
    match t.createDirectories dir with
    | (true, t₁) =>
      (saved (t₁.write (snapshotPlace dir d.name) d.snapshot).1, (t₁.write (snapshotPlace dir d.name) d.snapshot).2)
    | (false, t₁) => (.error .io, t₁) := by
  unfold save
  rw [FileTree.run_bind, FileTree.run_createDirectories]
  rcases t.createDirectories dir with ⟨_ | _, t₁⟩
  · rfl
  · show t₁.run (_ >>= _) = _
    rw [FileTree.run_bind, FileTree.run_writeFile]
    exact run_saved _

/-! ## A limited number of writes -/

/-- A file tree on which only so many files can still be written. -/
structure LimitedTree where
  tree : FileTree
  writes : Nat

namespace LimitedTree

variable {ε α β : Type} {s s' : LimitedTree} {place text dir name : String}

/-- Writes a file, if there is a write left for it. -/
def write (s : LimitedTree) (place text : String) : Bool × LimitedTree :=
  match s.writes with
  | 0 => (false, s)
  | writes + 1 =>
    match s.tree.write place text with
    | (true, tree) => (true, ⟨tree, writes⟩)
    | (false, tree) => (false, ⟨tree, writes + 1⟩)

instance : MonadFiles (StateM LimitedTree) where
  readFile place := return (← get).tree.read place
  createDirectories place := modifyGet fun s =>
    ((s.tree.createDirectories place).1, { s with tree := (s.tree.createDirectories place).2 })
  writeFile place text := modifyGet fun s => s.write place text

/-- What a computation on files gives, and the tree afterwards. -/
def run (s : LimitedTree) (x : ExceptT ε (StateM LimitedTree) α) : Except ε α × LimitedTree :=
  StateT.run (ExceptT.run x) s

theorem run_bind (s : LimitedTree) (x : ExceptT ε (StateM LimitedTree) α)
    (f : α → ExceptT ε (StateM LimitedTree) β) : s.run (x >>= f) = match s.run x with
      | (.ok a, s₁) => s₁.run (f a)
      | (.error e, s₁) => (.error e, s₁) := by
  show (match s.run x with | (r, s₁) => StateT.run (ExceptT.bindCont f r) s₁) = _
  rcases s.run x with ⟨_ | _, s₁⟩ <;> rfl

theorem run_createDirectories (s : LimitedTree) (place : String) :
    s.run (liftM (MonadFiles.createDirectories place : StateM LimitedTree Bool) : ExceptT ε (StateM LimitedTree) Bool) =
      (.ok (s.tree.createDirectories place).1, { s with tree := (s.tree.createDirectories place).2 }) := rfl

theorem run_writeFile (s : LimitedTree) (place text : String) :
    s.run (liftM (writeFile place text : StateM LimitedTree Bool) : ExceptT ε (StateM LimitedTree) Bool) =
      (.ok (s.write place text).1, (s.write place text).2) := rfl

theorem run_adapt {ε' : Type} (f : ε → ε') (x : ExceptT ε (StateM LimitedTree) α) (s : LimitedTree) :
    s.run (ExceptT.adapt f x) = ((s.run x).1.mapError f, (s.run x).2) := rfl

/-! ## Saving texts -/

/-- Puts a text under a name into a directory, which is created if it is missing. -/
def saveText (s : LimitedTree) (dir name text : String) : Bool × LimitedTree :=
  match s.tree.createDirectories dir with
  | (true, tree) => { s with tree }.write (snapshotPlace dir name) text
  | (false, tree) => (false, { s with tree })

/-- Puts texts under their names into a directory, up to the first that cannot be written. -/
def saveTexts (dir : String) : List (String × String) → LimitedTree → LimitedTree
  | [], s => s
  | (name, text) :: files, s =>
    match s.saveText dir name text with
    | (true, s) => saveTexts dir files s
    | (false, s) => s

theorem run_save [JsonForm α] (s : LimitedTree) (d : Dict α) (dir : String) : s.run (d.save dir) =
    (saved (s.saveText dir d.name d.snapshot).1, (s.saveText dir d.name d.snapshot).2) := by
  unfold Dict.save saveText
  rw [run_bind, run_createDirectories]
  rcases s.tree.createDirectories dir with ⟨_ | _, tree⟩
  · rfl
  · show run ⟨tree, s.writes⟩ (_ >>= _) = _
    rw [run_bind, run_writeFile]
    exact run_saved _

theorem run_save_bind [JsonForm α] (s : LimitedTree) (d : Dict α) (dir : String)
    (x : Unit → ExceptT FileError (StateM LimitedTree) β) : (s.run (d.save dir >>= x)).2 =
      match s.saveText dir d.name d.snapshot with
      | (true, s₁) => (s₁.run (x ())).2
      | (false, s₁) => s₁ := by
  rw [run_bind, run_save]
  rcases s.saveText dir d.name d.snapshot with ⟨_ | _, s₁⟩ <;> rfl

/-! ## Enough writes -/

/-- With so many writes or more, the first computation does what the second one does without a limit. -/
def Agree (needed : ℕ) (x : ExceptT ε (StateM LimitedTree) α) (y : ExceptT ε (StateM FileTree) α) : Prop :=
  ∀ (t : FileTree) (writes : ℕ), needed ≤ writes → ∃ left, writes ≤ left + needed ∧
    run ⟨t, writes⟩ x = ((t.run y).1, ⟨(t.run y).2, left⟩)

theorem Agree.bind {needed later : ℕ} {x : ExceptT ε (StateM LimitedTree) α} {y : ExceptT ε (StateM FileTree) α}
    {f : α → ExceptT ε (StateM LimitedTree) β} {g : α → ExceptT ε (StateM FileTree) β} (h : Agree needed x y)
    (hf : ∀ a, Agree later (f a) (g a)) : Agree (needed + later) (x >>= f) (y >>= g) := by
  intro t writes hle
  obtain ⟨left, hleft, hx⟩ := h t writes (by omega)
  rw [run_bind, FileTree.run_bind, hx]
  rcases t.run y with ⟨_ | a, t₁⟩
  · exact ⟨left, by omega, rfl⟩
  · obtain ⟨left', hleft', hfa⟩ := hf a t₁ left (by omega)
    exact ⟨left', by omega, hfa⟩

theorem Agree.adapt {ε' : Type} {needed : ℕ} {x : ExceptT ε (StateM LimitedTree) α}
    {y : ExceptT ε (StateM FileTree) α} (h : Agree needed x y) (f : ε → ε') :
    Agree needed (ExceptT.adapt f x) (ExceptT.adapt f y) := by
  intro t writes hle
  obtain ⟨left, hleft, hx⟩ := h t writes hle
  refine ⟨left, hleft, ?_⟩
  rw [run_adapt, hx]
  rfl

/-- A dict is saved by one write. -/
theorem agree_save [JsonForm α] (d : Dict α) (dir : String) : Agree 1 (d.save dir) (d.save dir) := by
  intro t writes hle
  obtain ⟨writes, rfl⟩ := Nat.exists_eq_add_of_le' hle
  rw [run_save, Dict.run_save_eq, saveText]
  rcases t.createDirectories dir with ⟨_ | _, t₁⟩
  · exact ⟨writes + 1, by omega, rfl⟩
  · dsimp only [write]
    rcases t₁.write (snapshotPlace dir d.name) d.snapshot with ⟨_ | _, t₂⟩
    · exact ⟨writes + 1, by omega, rfl⟩
    · exact ⟨writes, by omega, rfl⟩

/-! ## The first of the texts -/

/-- A text that is not saved costs no write, and at most directories are new. -/
theorem saveText_spec (s : LimitedTree) (dir name text : String) :
    (∃ tree, s.saveText dir name text = (false, ⟨tree, s.writes⟩) ∧ s.tree.AddsDirectories tree) ∨
    ∃ tree₁ tree writes, s.saveText dir name text = (true, ⟨tree, writes⟩) ∧ s.writes = writes + 1 ∧
      s.tree.AddsDirectories tree₁ ∧ tree₁.write (snapshotPlace dir name) text = (true, tree) := by
  obtain ⟨tree, writes⟩ := s
  have hadds := tree.addsDirectories_createDirectories dir
  simp only [saveText]
  rcases hcreate : tree.createDirectories dir with ⟨_ | _, tree₁⟩ <;> rw [hcreate] at hadds
  · exact .inl ⟨tree₁, rfl, hadds⟩
  · cases writes with
    | zero => exact .inl ⟨tree₁, rfl, hadds⟩
    | succ writes =>
      simp only [write]
      rcases hwrite : tree₁.write (snapshotPlace dir name) text with ⟨_ | _, tree₂⟩
      · rw [FileTree.write_eq_error hwrite]
        exact .inl ⟨tree₁, rfl, hadds⟩
      · exact .inr ⟨tree₁, tree₂, writes, rfl, rfl, hadds, hwrite⟩

/-- The first of the texts are saved, each by one write, and what lies under the other names stays. -/
theorem saveTexts_spec {files : List (String × String)} (hnames : (files.map Prod.fst).Nodup)
    (hslash : ∀ f ∈ files, '/' ∉ f.1.toList) (dir : String) (s : LimitedTree) : ∃ k,
      k + (s.saveTexts dir files).writes = s.writes ∧ k ≤ files.length ∧
      (∀ f ∈ files.take k, (s.saveTexts dir files).tree.Holds (snapshotPlace dir f.1) (some f.2)) ∧
      ∀ name content, '/' ∉ name.toList → name ∉ (files.take k).map Prod.fst →
        s.tree.Holds (snapshotPlace dir name) content →
        (s.saveTexts dir files).tree.Holds (snapshotPlace dir name) content := by
  induction files generalizing s with
  | nil => exact ⟨0, Nat.zero_add _, Nat.le_refl _, by simp, fun _ _ _ _ h => h⟩
  | cons f files ih =>
    obtain ⟨name, text⟩ := f
    rw [List.map_cons, List.nodup_cons] at hnames
    rw [List.forall_mem_cons] at hslash
    rcases s.saveText_spec dir name text with ⟨tree, hsave, hadds⟩ |
        ⟨tree₁, tree₂, writes, hsave, hwrites, hadds, hwrite⟩
    · simp only [saveTexts, hsave]
      exact ⟨0, Nat.zero_add _, Nat.zero_le _, by simp, fun _ _ _ _ h => h.addsDirectories hadds⟩
    · obtain ⟨k, hk, hle, hwritten, hkept⟩ := ih hnames.2 hslash.2 ⟨tree₂, writes⟩
      dsimp only at hk
      simp only [saveTexts, hsave]
      refine ⟨k + 1, by omega, Nat.succ_le_succ hle, ?_, ?_⟩
      · rw [List.take_succ_cons, List.forall_mem_cons]
        refine ⟨hkept name (some text) hslash.1 (fun hmem => hnames.1 ?_) (FileTree.read_write hwrite), hwritten⟩
        exact (List.take_sublist k files).map Prod.fst |>.subset hmem
      · intro name' content hname' hnot hheld
        rw [List.take_succ_cons, List.map_cons, List.mem_cons, not_or] at hnot
        refine hkept name' content hname' hnot.2 ?_
        refine (hheld.addsDirectories hadds).write (Dict.isFileName_snapshot hslash.1) (Dict.isFileName_snapshot hname')
          ?_ hwrite
        rw [Ne, String.append_left_inj]
        exact hnot.1

end LimitedTree

end ControlPlane
