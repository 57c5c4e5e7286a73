/-
What a file tree keeps. Writing a file leaves every directory a directory, so all places lead the same way as
before (`find?_write`): what was written is read, and what lies at the end of another way is read as before.
Creating directories loses nothing (`Extends`).

The files of one directory lie on ways that differ in their last name only, whatever text names the directory
(`find?_joinPlace`).
-/
import Mathlib.Data.List.Basic
import ControlPlane.Proofs.Text.Split
import ControlPlane.Storage.Files

namespace ControlPlane

namespace FileTree

variable {t t' : FileTree} {way way' : List String} {place text : String}

/-! ## What is put at the end of a way -/

/-- The way leads to the directory that is always there. -/
def IsStart (way : List String) : Prop := way = [] ∨ way = [""]

theorem get?_of_isStart (h : IsStart way) : t.get? way = some .directory := if_pos h

theorem get?_of_not_isStart (h : ¬ IsStart way) : t.get? way = t.entries.get? ("/".intercalate way) := if_neg h

theorem get?_put_self {e : FileEntry} (h : ¬ IsStart way) : (t.put way e).get? way = some e := by
  rw [get?_of_not_isStart h]
  exact SortedMap.get?_insert_self _ _ _

theorem get?_put_of_ne {e : FileEntry} (h : "/".intercalate way' ≠ "/".intercalate way) :
    (t.put way e).get? way' = t.get? way' := by
  by_cases hs : IsStart way'
  · rw [get?_of_isStart hs, get?_of_isStart hs]
  · rw [get?_of_not_isStart hs, get?_of_not_isStart hs]
    exact SortedMap.get?_insert_of_ne _ _ h

/-- Two ways with the same text lead to the same entry. -/
theorem get?_congr (hs : ¬ IsStart way) (hs' : ¬ IsStart way') (h : "/".intercalate way' = "/".intercalate way) :
    t.get? way' = t.get? way := by
  rw [get?_of_not_isStart hs, get?_of_not_isStart hs', h]

theorem not_isStart_of_not_isDirectory (h : t.isDirectory way = false) : ¬ IsStart way := by
  intro hs
  rw [isDirectory, get?_of_isStart hs] at h
  cases h

theorem isDirectory_put (h : t.isDirectory way = false) (way' : List String) :
    (t.put way (.file text)).isDirectory way' = t.isDirectory way' := by
  have hs := not_isStart_of_not_isDirectory h
  unfold isDirectory at h ⊢
  by_cases hs' : IsStart way'
  · rw [get?_of_isStart hs', get?_of_isStart hs']
  · by_cases hkey : "/".intercalate way' = "/".intercalate way
    · rw [get?_congr hs hs' hkey, get?_congr hs hs' hkey, get?_put_self hs, h]
      rfl
    · rw [get?_put_of_ne hkey]

/-! ## Writing files -/

theorem follow?_congr (h : ∀ way, t'.isDirectory way = t.isDirectory way) (way names : List String) :
    t'.follow? way names = t.follow? way names := by
  induction names generalizing way with
  | nil => rfl
  | cons name names ih => rw [follow?, follow?, h, ih]

theorem write_eq_ok (h : t.write place text = (true, t')) :
    ∃ way, t.find? place = some way ∧ t.isDirectory way = false ∧ t' = t.put way (.file text) := by
  unfold write at h
  split at h
  · cases h
  · next way hway =>
    split at h
    · cases h
    · next hdir =>
      cases h
      exact ⟨way, hway, by simpa using hdir, rfl⟩

theorem find?_write (h : t.write place text = (true, t')) (place' : String) : t'.find? place' = t.find? place' := by
  obtain ⟨way, -, hdir, rfl⟩ := write_eq_ok h
  rw [find?, find?, follow?_congr (isDirectory_put hdir)]

theorem read_write (h : t.write place text = (true, t')) : t'.read place = .text text := by
  have hfind := find?_write h place
  obtain ⟨way, hway, hdir, rfl⟩ := write_eq_ok h
  rw [read, entry?, hfind, hway, Option.bind_some, get?_put_self (not_isStart_of_not_isDirectory hdir)]

theorem read_eq_text (h : t.read place = .text text) :
    ∃ way, t.find? place = some way ∧ t.get? way = some (.file text) := by
  unfold read at h
  split at h
  · cases h
  · cases h
  · next hentry =>
    cases h
    exact Option.bind_eq_some_iff.1 hentry

theorem read_of_find? (hfind : t.find? place = some way) (hget : t.get? way = some (.file text)) :
    t.read place = .text text := by
  rw [read, entry?, hfind, Option.bind_some, hget]

/-- What lies on another way is read as before. -/
theorem read_write_of_ne {place' text' : String} (h : t.write place text = (true, t'))
    (hread : t.read place' = .text text')
    (hne : ∀ way way', t.find? place = some way → t.find? place' = some way' →
      "/".intercalate way' ≠ "/".intercalate way) : t'.read place' = .text text' := by
  have hfind := find?_write h place'
  obtain ⟨way', hway', hget⟩ := read_eq_text hread
  obtain ⟨way, hway, -, rfl⟩ := write_eq_ok h
  refine read_of_find? (hfind.trans hway') ?_
  rw [get?_put_of_ne (hne way way' hway hway'), hget]

/-! ## Creating directories -/

/-- Everything in the first tree is in the second. -/
def Extends (t t' : FileTree) : Prop := ∀ way e, t.get? way = some e → t'.get? way = some e

theorem Extends.refl (t : FileTree) : t.Extends t := fun _ _ h => h

theorem Extends.trans {t'' : FileTree} (h : t.Extends t') (h' : t'.Extends t'') : t.Extends t'' :=
  fun way e hget => h' way e (h way e hget)

theorem extends_put (e : FileEntry) (h : t.get? way = none) : t.Extends (t.put way e) := by
  intro way' e' hget
  by_cases hkey : "/".intercalate way' = "/".intercalate way
  · by_cases hs' : IsStart way'
    · rwa [get?_of_isStart hs'] at hget ⊢
    · have hs : ¬ IsStart way := fun hs => by rw [get?_of_isStart hs] at h; cases h
      rw [get?_congr hs hs' hkey, h] at hget
      cases hget
  · rwa [get?_put_of_ne hkey]

theorem extends_createFrom (t : FileTree) (way names : List String) : t.Extends (createFrom way names t) := by
  fun_induction createFrom way names t with
  | case1 => exact .refl _
  | case2 => exact .refl _
  | case3 _ _ _ _ _ _ _ ih => exact ih
  | case4 => exact .refl _
  | case5 _ _ _ _ _ _ hnone ih => exact (extends_put .directory hnone).trans ih

theorem extends_createDirectories (t : FileTree) (place : String) : t.Extends (t.createDirectories place).2 := by
  unfold createDirectories
  split
  · exact .refl _
  · split
    · exact extends_createFrom _ _ _
    · exact .refl _

theorem Extends.isDirectory (h : t.Extends t') (hdir : t.isDirectory way = true) : t'.isDirectory way = true := by
  unfold FileTree.isDirectory at hdir ⊢
  rw [beq_iff_eq] at hdir ⊢
  exact h _ _ hdir

theorem Extends.follow? (h : t.Extends t') : ∀ {names way}, t.follow? way names = some way' →
    t'.follow? way names = some way'
  | [], _, hway => hway
  | name :: names, way, hway => by
    unfold FileTree.follow? at hway ⊢
    rw [Option.ite_none_right_eq_some, Bool.and_eq_true] at hway
    rw [h.isDirectory hway.1.1, hway.1.2]
    exact h.follow? hway.2

theorem Extends.read (h : t.Extends t') (hread : t.read place = .text text) : t'.read place = .text text := by
  obtain ⟨way, hfind, hget⟩ := read_eq_text hread
  unfold find? at hfind
  rw [Option.ite_none_right_eq_some] at hfind
  have hfind' : t'.find? place = some way := by
    rw [find?, if_pos hfind.1]
    exact h.follow? hfind.2
  exact read_of_find? hfind' (h _ _ hget)

end FileTree

/-! ## The files of a directory -/

/-- The name of a file, and neither a place with several names nor one that stays or goes back. -/
structure IsFileName (name : String) : Prop where
  noSlash : '/' ∉ name.toList
  nonempty : name ≠ ""
  notHere : name ≠ "."
  notParent : name ≠ ".."

theorem exists_split_joinPlace (dir : String) : ∃ pieces, ∀ name : String, '/' ∉ name.toList →
    Text.split '/' [] (joinPlace dir name).toList = pieces ++ [name.toList] := by
  have hstart : ∀ name : String, '/' ∉ name.toList → name.startsWith "/" = false := by
    intro name hname
    rw [String.startsWith_string_eq_false_iff]
    intro hp
    exact hname (hp.subset (by simp))
  by_cases hempty : dir.isEmpty = true
  · refine ⟨[], fun name hname => ?_⟩
    rw [joinPlace, hempty, Bool.or_true, if_pos rfl, Text.split_singleton_of_not_mem hname]
    rfl
  · by_cases hend : dir.endsWith "/" = true
    · have hslash : ['/'] <:+ dir.toList := by
        rw [String.endsWith_eq_endsWith_toSlice, String.Slice.endsWith_string_iff] at hend
        simpa using hend
      obtain ⟨before, hbefore⟩ := hslash
      refine ⟨Text.split '/' [] before, fun name hname => ?_⟩
      rw [joinPlace, hstart name hname, if_neg (by simpa using hempty), if_pos hend, String.toList_append, ← hbefore,
        List.append_assoc, List.singleton_append, Text.split_append, Text.split_singleton_of_not_mem hname]
    · refine ⟨Text.split '/' [] dir.toList, fun name hname => ?_⟩
      rw [joinPlace, hstart name hname, if_neg (by simpa using hempty), if_neg hend, String.toList_append,
        String.toList_append, List.append_assoc]
      show Text.split '/' [] (dir.toList ++ '/' :: name.toList) = _
      rw [Text.split_append, Text.split_singleton_of_not_mem hname]

theorem exists_namesOf_joinPlace (dir : String) : ∃ start names, ∀ name : String, '/' ∉ name.toList →
    namesOf (joinPlace dir name) = (start, names ++ [name]) := by
  obtain ⟨pieces, hpieces⟩ := exists_split_joinPlace dir
  have hnames : ∀ name : String, '/' ∉ name.toList →
      (Text.split '/' [] (joinPlace dir name).toList).map String.ofList = pieces.map String.ofList ++ [name] := by
    intro name hname
    rw [hpieces name hname]
    simp
  rcases hp : pieces.map String.ofList with _ | ⟨first, rest⟩
  · refine ⟨"", [], fun name hname => ?_⟩
    rw [namesOf, hnames name hname, hp]
    split
    · next h => cases (List.cons.inj h).2
    · rfl
  · by_cases hfirst : first = ""
    · refine ⟨"/", rest, fun name hname => ?_⟩
      rw [namesOf, hnames name hname, hp, hfirst]
      cases rest <;> rfl
    · refine ⟨"", first :: rest, fun name hname => ?_⟩
      rw [namesOf, hnames name hname, hp, List.cons_append]
      split
      · next h => exact absurd (List.cons.inj h).1 hfirst
      · rfl

namespace FileTree

theorem follow?_append_singleton (t : FileTree) (way names : List String) (name : String) :
    t.follow? way (names ++ [name]) =
      (t.follow? way names).bind fun into =>
        if t.isDirectory into && isName name then some (goTo into name) else none := by
  induction names generalizing way with
  | nil => rfl
  | cons name' names ih =>
    rw [List.cons_append, follow?, follow?]
    split
    · exact ih _
    · rfl

theorem goTo_of_isFileName {name : String} (h : IsFileName name) (way : List String) :
    goTo way name = way ++ [name] := by
  rw [goTo, if_neg (by simp [h.nonempty, h.notHere]), if_neg h.notParent]

/-- The way to a file of a directory is the way into the directory and the name of the file. -/
theorem exists_find?_joinPlace (t : FileTree) (dir : String) : ∃ into : List String, ∀ name, IsFileName name →
    ∀ way, t.find? (joinPlace dir name) = some way → way = into ++ [name] := by
  obtain ⟨start, names, hnames⟩ := exists_namesOf_joinPlace dir
  refine ⟨(t.follow? (startOf start) names).getD [], fun name hname way hway => ?_⟩
  unfold find? at hway
  rw [Option.ite_none_right_eq_some, hnames name hname.noSlash, follow?_append_singleton,
    Option.bind_eq_some_iff] at hway
  obtain ⟨-, into, hinto, hway⟩ := hway
  rw [Option.ite_none_right_eq_some, goTo_of_isFileName hname] at hway
  rw [hinto]
  exact (Option.some.inj hway.2).symm

theorem intercalate_append_singleton_inj {way : List String} {name name' : String}
    (h : "/".intercalate (way ++ [name]) = "/".intercalate (way ++ [name'])) : name = name' := by
  cases way with
  | nil => simpa using h
  | cons first rest =>
    rw [String.intercalate_append_of_ne_nil (by simp) (by simp),
      String.intercalate_append_of_ne_nil (by simp) (by simp), String.append_right_inj] at h
    simpa using h

/-- A file is read as before when another one in its directory is written. -/
theorem read_write_joinPlace {t t' : FileTree} {dir name name' text text' : String} (hname : IsFileName name)
    (hname' : IsFileName name') (hne : name' ≠ name) (h : t.write (joinPlace dir name) text = (true, t'))
    (hread : t.read (joinPlace dir name') = .text text') : t'.read (joinPlace dir name') = .text text' := by
  obtain ⟨into, hinto⟩ := t.exists_find?_joinPlace dir
  refine read_write_of_ne h hread fun way way' hway hway' hkey => hne ?_
  rw [hinto name hname way hway, hinto name' hname' way' hway'] at hkey
  exact intercalate_append_singleton_inj hkey

end FileTree

end ControlPlane
