/-
JSON texts read back. A value is plain if its numbers are naturals and its strings denote characters. A written
plain value is scanned to its tokens, and the reader takes these to the value again, whatever arrays and objects
are open around it; so every plain value is read back from what is written (`Plain.parse?_of_scans`).

The two ways of writing differ by the gaps between the tokens only: on one line there are none, and otherwise every
part starts a line of its own. So arrays and objects are dealt with once, for any gaps.
-/
import ControlPlane.Json.Reader
import ControlPlane.Proofs.Json.Token
import ControlPlane.Proofs.Outcome

namespace ControlPlane.Json

/-- The value has no number but naturals, and no string with an unpaired surrogate. -/
inductive Plain : Json → Prop where
  | null : Plain .null
  | bool (b : Bool) : Plain (.bool b)
  | natural (n : Nat) : Plain (.natural n)
  | string (s : String) : Plain (.string s)
  | array {items : List Json} (h : ∀ item ∈ items, Plain item) : Plain (.array items)
  | object {members : List (String × Json)} (h : ∀ m ∈ members, Plain m.2) : Plain (.object members)

mutual

/-- The tokens of a value. -/
def tokens : Json → List Token
  | .null => [.null]
  | .bool b => [.bool b]
  | .natural n => [.natural n]
  | .number literal => [.number literal]
  | .string s => [.string s]
  | .unpaired => [.unpaired]
  | .array [] => [.openArray, .closeArray]
  | .array (item :: items) => .openArray :: (tokens item ++ (itemTokens items ++ [.closeArray]))
  | .object [] => [.openObject, .closeObject]
  | .object ((name, v) :: members) =>
    .openObject :: .string name :: .colon :: (tokens v ++ (memberTokens members ++ [.closeObject]))

/-- The tokens of the items after the first one. -/
def itemTokens : List Json → List Token
  | [] => []
  | item :: items => .comma :: (tokens item ++ itemTokens items)

/-- The tokens of the members after the first one. -/
def memberTokens : List (String × Json) → List Token
  | [] => []
  | (name, v) :: members => .comma :: .string name :: .colon :: (tokens v ++ memberTokens members)

end

/-! ## Written parts -/

open Token

section Parts

variable {α : Type} {gap gap' rest : List Char} {ts : List Token} {write : α → List Char} {read : α → List Token}
  {part : α} {parts : List α}

/-- The parts after the first one, each behind a comma and a gap. -/
def furtherText (gap : List Char) (write : α → List Char) (parts : List α) : List Char :=
  parts.flatMap fun part => ',' :: (gap ++ write part)

/-- The tokens of the parts after the first one. -/
def furtherTokens (read : α → List Token) (parts : List α) : List Token := parts.flatMap fun part => .comma :: read part

theorem ends_furtherText (hrest : Ends rest) : Ends (furtherText gap write parts ++ rest) := by
  cases parts with
  | nil => exact hrest
  | cons part parts =>
    rw [furtherText, List.flatMap_cons, List.cons_append, List.cons_append, ends_cons]
    decide

theorem scans_furtherText (hgap : Gap gap) (h : ∀ part ∈ parts, Scans (write part) (read part)) (hends : Ends rest)
    (hrest : Scans rest ts) : Scans (furtherText gap write parts ++ rest) (furtherTokens read parts ++ ts) := by
  induction parts with
  | nil => exact hrest
  | cons part parts ih =>
    rw [List.forall_mem_cons] at h
    have hpart := h.1.append (ends_furtherText hends) (ih h.2)
    simp only [furtherText, furtherTokens, List.flatMap_cons, List.cons_append, List.append_assoc]
    exact (hpart.gap hgap).cons fun _ => rfl

/-- Parts with commas between them are scanned one after the other. -/
theorem scans_parts (hgap : Gap gap) (hgap' : Gap gap') (h : ∀ p ∈ part :: parts, Scans (write p) (read p))
    (hends : Ends rest) (hrest : Scans rest ts) :
    Scans (gap ++ (write part ++ (furtherText gap write parts ++ (gap' ++ rest))))
      (read part ++ (furtherTokens read parts ++ ts)) := by
  obtain ⟨hpart, hparts⟩ := List.forall_mem_cons.1 h
  have hfurther := scans_furtherText hgap hparts (hgap'.ends hends) (hrest.gap hgap')
  exact (hpart.append (ends_furtherText (hgap'.ends hends)) hfurther).gap hgap

end Parts

/-! ## Written arrays and objects -/

variable {gap gap' : List Char} {write : Json → String} {items : List Json} {members : List (String × Json)}

/-- An array with its items in a given form, behind gaps of their own, and a gap at the end. -/
def arrayText (gap gap' : List Char) (write : Json → String) : List Json → List Char
  | [] => ['[', ']']
  | item :: items =>
    '[' :: (gap ++ ((write item).toList ++
      (furtherText gap (fun item => (write item).toList) items ++ (gap' ++ [']']))))

/-- A member with its value in a given form. -/
def memberText (blank : List Char) (write : Json → String) (m : String × Json) : List Char :=
  (quote m.1).toList ++ ':' :: (blank ++ (write m.2).toList)

/-- An object with its members in a given form, behind gaps of their own, and a gap at the end. -/
def objectText (gap gap' blank : List Char) (write : Json → String) : List (String × Json) → List Char
  | [] => ['\x7b', '\x7d']
  | m :: members =>
    '\x7b' :: (gap ++ (memberText blank write m ++ (furtherText gap (memberText blank write) members ++
      (gap' ++ ['\x7d']))))

theorem itemTokens_eq (items : List Json) : itemTokens items = furtherTokens tokens items := by
  induction items with
  | nil => rfl
  | cons item items ih => rw [itemTokens, ih]; rfl

/-- The tokens of a member. -/
def tokensOfMember (m : String × Json) : List Token := .string m.1 :: .colon :: tokens m.2

theorem memberTokens_eq (members : List (String × Json)) :
    memberTokens members = furtherTokens tokensOfMember members := by
  induction members with
  | nil => rfl
  | cons m members ih => rw [memberTokens, ih]; rfl

theorem scans_arrayText (hgap : Gap gap) (hgap' : Gap gap')
    (h : ∀ item ∈ items, Scans (write item).toList (tokens item)) :
    Scans (arrayText gap gap' write items) (tokens (.array items)) := by
  have hend : Scans [']'] [.closeArray] := scans_nil.cons fun _ => rfl
  cases items with
  | nil => exact hend.cons fun _ => rfl
  | cons item items =>
    rw [tokens, itemTokens_eq]
    exact (scans_parts hgap hgap' h (ends_cons.2 (by decide)) hend).cons fun _ => rfl

theorem scans_memberText {blank : List Char} (hblank : Gap blank) {m : String × Json}
    (h : Scans (write m.2).toList (tokens m.2)) : Scans (memberText blank write m) (tokensOfMember m) :=
  (scans_quote m.1).append (ends_cons.2 (by decide)) ((h.gap hblank).cons fun _ => rfl)

theorem scans_objectText {blank : List Char} (hgap : Gap gap) (hgap' : Gap gap') (hblank : Gap blank)
    (h : ∀ m ∈ members, Scans (write m.2).toList (tokens m.2)) :
    Scans (objectText gap gap' blank write members) (tokens (.object members)) := by
  have hend : Scans ['\x7d'] [.closeObject] := scans_nil.cons fun _ => rfl
  cases members with
  | nil => exact hend.cons fun _ => rfl
  | cons m members =>
    rw [tokens, memberTokens_eq]
    have hmember := fun m hm => scans_memberText hblank (h m hm)
    exact (scans_parts hgap hgap' hmember (ends_cons.2 (by decide)) hend).cons fun _ => rfl

/-! ## Values on one line -/

theorem toList_compactItems (items : List Json) :
    (compactItems items).toList = furtherText [] (fun item => (compact item).toList) items := by
  induction items with
  | nil => rfl
  | cons item items ih => simp [compactItems, ih, furtherText]

theorem toList_compactMembers (members : List (String × Json)) :
    (compactMembers members).toList = furtherText [] (memberText [] compact) members := by
  induction members with
  | nil => rfl
  | cons m members ih => simp [compactMembers, ih, furtherText, memberText]

theorem toList_compact_array (items : List Json) : (compact (.array items)).toList = arrayText [] [] compact items := by
  cases items with
  | nil => rfl
  | cons item items => simp [compact, arrayText, toList_compactItems]

theorem toList_compact_object (members : List (String × Json)) :
    (compact (.object members)).toList = objectText [] [] [] compact members := by
  cases members with
  | nil => rfl
  | cons m members => simp [compact, objectText, memberText, toList_compactMembers]

theorem scans_bool (b : Bool) : Scans (scalarText (.bool b)).toList [.bool b] := by
  cases b
  · exact scans_false
  · exact scans_true

theorem Plain.scans_compact {v : Json} (hv : v.Plain) : Scans (compact v).toList (tokens v) := by
  induction hv with
  | null => exact scans_null
  | bool b => exact scans_bool b
  | natural n => exact scans_decimal n
  | string s => exact scans_quote s
  | array _ ih =>
    rw [toList_compact_array]
    exact scans_arrayText gap_nil gap_nil ih
  | object _ ih =>
    rw [toList_compact_object]
    exact scans_objectText gap_nil gap_nil gap_nil ih

/-! ## Values on several lines -/

theorem toList_prettyItems (level : Nat) (items : List Json) : (prettyItems level items).toList =
    furtherText (lineStart level).toList (fun item => (prettyAt level item).toList) items := by
  induction items with
  | nil => rfl
  | cons item items ih => simp [prettyItems, ih, furtherText]

theorem toList_prettyMembers (level : Nat) (members : List (String × Json)) : (prettyMembers level members).toList =
    furtherText (lineStart level).toList (memberText [' '] (prettyAt level)) members := by
  induction members with
  | nil => rfl
  | cons m members ih => simp [prettyMembers, ih, furtherText, memberText]

theorem toList_prettyAt_array (level : Nat) (items : List Json) : (prettyAt level (.array items)).toList =
    arrayText (lineStart (level + 1)).toList (lineStart level).toList (prettyAt (level + 1)) items := by
  cases items with
  | nil => simp [prettyAt, scalarText, arrayText]
  | cons item items => simp [prettyAt, arrayText, toList_prettyItems]

theorem toList_prettyAt_object (level : Nat) (members : List (String × Json)) :
    (prettyAt level (.object members)).toList =
      objectText (lineStart (level + 1)).toList (lineStart level).toList [' '] (prettyAt (level + 1)) members := by
  cases members with
  | nil => simp [prettyAt, scalarText, objectText]
  | cons m members => simp [prettyAt, objectText, memberText, toList_prettyMembers]

theorem Plain.scans_prettyAt {v : Json} (hv : v.Plain) : ∀ level, Scans (prettyAt level v).toList (tokens v) := by
  induction hv with
  | null => exact fun _ => scans_null
  | bool b => exact fun _ => scans_bool b
  | natural n => exact fun _ => scans_decimal n
  | string s => exact fun _ => scans_quote s
  | array _ ih =>
    intro level
    rw [toList_prettyAt_array]
    exact scans_arrayText (gap_lineStart _) (gap_lineStart _) fun item hitem => ih item hitem (level + 1)
  | object _ ih =>
    intro level
    rw [toList_prettyAt_object]
    exact scans_objectText (gap_lineStart _) (gap_lineStart _) gap_space fun m hm => ih m hm (level + 1)

/-! ## The reader -/

theorem exists_tokens (v : Json) : ∃ t ts, tokens v = t :: ts ∧ t ≠ .closeArray := by
  cases v with
  | array items => cases items <;> exact ⟨_, _, rfl, by simp⟩
  | object members => cases members <;> exact ⟨_, _, rfl, by simp⟩
  | null | bool _ | natural _ | number _ | string _ | unpaired => exact ⟨_, _, rfl, by simp⟩

/-- A member whose name denotes characters. -/
def named (m : String × Json) : Option String × Json := (some m.1, m.2)

theorem ofNamed_map_named (members : List (String × Json)) : ofNamed (members.map named) = .object members := by
  have hnamed : (members.map named).mapM (fun m => m.1.map (·, m.2)) = some members :=
    mapM_map_eq_some fun _ _ => rfl
  rw [ofNamed, hnamed]

/-- The tokens are read as the value, whatever is open. -/
def ReadsAs (ts : List Token) (v : Json) : Prop :=
  ∀ frames rest, (ts ++ rest).foldlM Reading.step? (.valueDue frames) =
    rest.foldlM Reading.step? (.valueRead v frames)

variable {v : Json} {frames : List Frame} {ts : List Token}

theorem foldlM_itemTokens {earlier : List Json} (h : ∀ item ∈ items, ReadsAs (tokens item) item) :
    (itemTokens items ++ .closeArray :: ts).foldlM Reading.step? (.valueRead v (.items earlier :: frames)) =
      ts.foldlM Reading.step? (.valueRead (.array (earlier.reverse ++ v :: items)) frames) := by
  induction items generalizing v earlier with
  | nil =>
    rw [itemTokens, List.nil_append, List.foldlM_cons]
    simp [Reading.step?]
  | cons item items ih =>
    rw [List.forall_mem_cons] at h
    rw [itemTokens, List.cons_append, List.append_assoc, List.foldlM_cons]
    show (tokens item ++ _).foldlM Reading.step? (.valueDue (.items (v :: earlier) :: frames)) = _
    rw [h.1, ih h.2, List.reverse_cons, List.append_assoc]
    rfl

theorem foldlM_memberTokens {name : String} {earlier : List (Option String × Json)}
    (h : ∀ m ∈ members, ReadsAs (tokens m.2) m.2) :
    (memberTokens members ++ .closeObject :: ts).foldlM Reading.step?
      (.valueRead v (.members earlier (some name) :: frames)) =
      ts.foldlM Reading.step? (.valueRead (ofNamed (earlier.reverse ++ ((name, v) :: members).map named)) frames) := by
  induction members generalizing v name earlier with
  | nil =>
    rw [memberTokens, List.nil_append, List.foldlM_cons]
    simp [Reading.step?, named]
  | cons m members ih =>
    rw [List.forall_mem_cons] at h
    rw [memberTokens, List.cons_append, List.cons_append, List.cons_append, List.append_assoc, List.foldlM_cons]
    show (tokens m.2 ++ _).foldlM Reading.step?
      (.valueDue (.members ((some name, v) :: earlier) (some m.1) :: frames)) = _
    rw [h.1, ih h.2, List.reverse_cons, List.append_assoc]
    rfl

theorem Plain.readsAs (hv : v.Plain) : ReadsAs (tokens v) v := by
  induction hv with
  | null | bool _ | natural _ | string _ => exact fun _ _ => rfl
  | @array items _ ih =>
    intro frames rest
    cases items with
    | nil => rfl
    | cons item items =>
      rw [List.forall_mem_cons] at ih
      -- the first token of an item does not close the array
      have hstart : ∀ rest, (tokens item ++ rest).foldlM Reading.step? (.arrayOpened frames) =
          (tokens item ++ rest).foldlM Reading.step? (.valueDue (.items [] :: frames)) := by
        intro rest
        obtain ⟨t, ts, hts, hne⟩ := exists_tokens item
        rw [hts, List.cons_append, List.foldlM_cons, List.foldlM_cons]
        cases t <;> first | rfl | exact absurd rfl hne
      rw [tokens, List.cons_append, List.append_assoc, List.append_assoc, List.foldlM_cons]
      show (tokens item ++ _).foldlM Reading.step? (.arrayOpened frames) = _
      rw [hstart, ih.1, List.singleton_append, foldlM_itemTokens ih.2]
      rfl
  | @object members _ ih =>
    intro frames rest
    cases members with
    | nil => rfl
    | cons m members =>
      rw [List.forall_mem_cons] at ih
      rw [tokens, List.cons_append, List.cons_append, List.cons_append, List.append_assoc, List.append_assoc,
        List.foldlM_cons]
      show (tokens m.2 ++ _).foldlM Reading.step? (.valueDue (.members [] (some m.1) :: frames)) = _
      rw [ih.1, List.singleton_append, foldlM_memberTokens ih.2, List.reverse_nil, List.nil_append, ofNamed_map_named]

/-! ## Main result -/

/-- A text with the tokens of a plain value is read as the value. -/
theorem Plain.parse?_of_scans (hv : v.Plain) {text : String} (h : Scans text.toList (tokens v)) :
    parse? text = some v := by
  have hscan : scan? text = some (tokens v) := by
    have h := h [] [] ends_nil
    rw [List.append_nil, List.append_nil] at h
    show Scan.run .start text.toList = _
    rw [Scan.start, h]
    exact congrArg some (List.reverse_reverse _)
  have hread := hv.readsAs [] []
  rw [List.append_nil] at hread
  rw [parse?, hscan, Option.bind_some, ofTokens?, Reading.start, hread]
  rfl

/-- What is written of a plain value is read as the value. -/
theorem parse?_pretty (hv : v.Plain) : parse? (pretty v) = some v := hv.parse?_of_scans (hv.scans_prettyAt 0)

theorem parse?_compact (hv : v.Plain) : parse? (compact v) = some v := hv.parse?_of_scans hv.scans_compact

end ControlPlane.Json
