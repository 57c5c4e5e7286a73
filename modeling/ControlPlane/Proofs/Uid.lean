/-
What UIDs identify. A UID is put together from IDs without the delimiter, and taken apart at the delimiters from
the left. The delimiter is one character twice, so an ID that ends in this character moves the cut: the parts of
a UID are found again exactly if no part but the last one ends in it (`split_join_iff`).

So the UID of a port gives back the node and the port exactly if the ID of the node does not end in a dollar
(`portParts_join_iff`), and a text is the UID of a port exactly if it is composed in this way, which it then is in one
way only (`composed_iff`). Ports of different nodes can have the same UID only if the ID of one of the nodes ends in a
dollar and that of the other one does not (`join_inj`), and so it is for links.
-/
import ControlPlane.Network
import ControlPlane.Proofs.Text.Split

namespace ControlPlane

namespace Uid

variable {u : Uid} {parts : List String} {part node port : String}

/-! ## IDs -/

/-- The text holds the delimiter of UIDs. -/
def Delimited (s : String) : Prop := ['$', '$'] <:+: s.toList

/-- The text ends in the character of which the delimiter consists. -/
def EndsInDollar (s : String) : Prop := s.toList.getLast? = some '$'

/-- The text can be the ID of a node, a port or a link. -/
structure IsId (id : String) : Prop where
  ne_empty : id ≠ ""
  not_delimited : ¬ Delimited id

instance (s : String) : Decidable (Delimited s) := inferInstanceAs (Decidable (_ <:+: _))

instance (s : String) : Decidable (EndsInDollar s) := inferInstanceAs (Decidable (_ = _))

instance (id : String) : Decidable (IsId id) :=
  decidable_of_iff (id ≠ "" ∧ ¬ Delimited id) ⟨fun h => ⟨h.1, h.2⟩, fun h => ⟨h.1, h.2⟩⟩

/-- What has no dollar at all can be the beginning of a UID. -/
theorem not_delimited_of_not_mem (h : '$' ∉ part.toList) : ¬ Delimited part :=
  fun hin => h (hin.subset List.mem_cons_self)

theorem not_endsInDollar_of_not_mem (h : '$' ∉ part.toList) : ¬ EndsInDollar part :=
  fun hlast => h (List.mem_of_getLast? hlast)

/-! ## Parts -/

theorem toList_join (parts : List String) :
    (join parts).text.toList = ['$', '$'].intercalate (parts.map String.toList) :=
  String.toList_ofList

theorem split_eq_iff : u.split = parts ↔ Text.split '$' ['$'] u.text.toList = parts.map String.toList := by
  rw [split]
  constructor
  · rintro rfl; simp [Function.comp_def]
  · intro h; simp [h, Function.comp_def]

theorem not_delimited_of_mem_split (h : part ∈ u.split) : ¬ Delimited part := by
  rw [split] at h
  obtain ⟨piece, hpiece, rfl⟩ := List.mem_map.1 h
  rw [Delimited, String.toList_ofList]
  exact Text.not_isInfix_of_mem_split hpiece

/-- No part of a UID but the last one ends in a dollar. -/
theorem not_endsInDollar_of_mem_split (h : part ∈ u.split.dropLast) : ¬ EndsInDollar part := by
  rw [split, List.map_dropLast.symm] at h
  obtain ⟨piece, hpiece, rfl⟩ := List.mem_map.1 h
  rw [EndsInDollar, String.toList_ofList]
  exact Text.getLast?_ne_of_mem_split hpiece

/-- The parts of which a UID is made are found again exactly if none of them but the last one ends in a dollar. -/
theorem split_join_iff (hne : parts ≠ []) (h : ∀ part ∈ parts, ¬ Delimited part) :
    (join parts).split = parts ↔ ∀ part ∈ parts.dropLast, ¬ EndsInDollar part := by
  have hpieces : ∀ piece ∈ parts.map String.toList, ¬ ['$', '$'] <:+: piece := List.forall_mem_map.2 h
  rw [split_eq_iff, toList_join, Text.split_doubled_intercalate_iff (by simpa using hne) hpieces, ← List.map_dropLast,
    List.forall_mem_map]
  rfl

/-! ## Ports -/

theorem portParts_eq_ok_iff : u.portParts = .ok (node, port) ↔ u.split = [node, port] ∧ node ≠ "" ∧ port ≠ "" := by
  unfold portParts
  split
  · next node' port' hsplit =>
    rw [hsplit]
    split
    · next hempty =>
      simp only [reduceCtorEq, false_iff, List.cons.injEq, and_true]
      rintro ⟨⟨rfl, rfl⟩, hnode, hport⟩
      simp [hnode, hport] at hempty
    · next hempty =>
      simp only [Except.ok.injEq, Prod.mk.injEq, List.cons.injEq, and_true]
      refine ⟨?_, fun h => h.1⟩
      rintro ⟨rfl, rfl⟩
      simpa using hempty
  · next hno =>
    simp only [reduceCtorEq, false_iff]
    exact fun h => hno node port h.1

theorem nodeOfPort_eq_ok_iff : u.nodeOfPort = .ok ⟨node⟩ ↔ ∃ port, u.portParts = .ok (node, port) := by
  unfold nodeOfPort
  cases u.portParts with
  | error e => simp [Except.map]
  | ok parts => simp [Except.map, Prod.ext_iff]

/-- A UID that is not that of a port is named by the error. -/
theorem nodeOfPort_eq_error {e : Error} (h : u.nodeOfPort = .error e) : e = .malformedPort u := by
  unfold nodeOfPort portParts at h
  split at h
  · split at h <;> cases h
    rfl
  · cases h
    rfl

/-- The UID of a port gives the IDs of which it is made exactly if the first one does not end in a dollar. -/
theorem portParts_join_iff (hnode : IsId node) (hport : IsId port) :
    (join [node, port]).portParts = .ok (node, port) ↔ ¬ EndsInDollar node := by
  have hparts : ∀ part ∈ [node, port], ¬ Delimited part := by
    simp only [List.forall_mem_cons, List.not_mem_nil, false_implies, implies_true, and_true]
    exact ⟨hnode.not_delimited, hport.not_delimited⟩
  rw [portParts_eq_ok_iff, split_join_iff (List.cons_ne_nil _ _) hparts, and_iff_left ⟨hnode.ne_empty, hport.ne_empty⟩]
  exact List.forall_mem_singleton

theorem nodeOfPort_join_iff (hnode : IsId node) (hport : IsId port) :
    (join [node, port]).nodeOfPort = .ok ⟨node⟩ ↔ ¬ EndsInDollar node := by
  rw [nodeOfPort_eq_ok_iff]
  constructor
  · rintro ⟨port', hparts⟩
    refine not_endsInDollar_of_mem_split (u := join [node, port]) ?_
    rw [(portParts_eq_ok_iff.1 hparts).1]
    exact List.mem_cons_self
  · intro h
    exact ⟨port, (portParts_join_iff hnode hport).2 h⟩

/-- The text is the ID of a node, the delimiter and the ID of a port, and the delimiter is nowhere farther to the
left. -/
structure Composed (u : Uid) (node port : String) : Prop where
  text : u.text = node ++ "$$" ++ port
  isId_node : IsId node
  isId_port : IsId port
  not_endsInDollar : ¬ EndsInDollar node

theorem text_join (node port : String) : (join [node, port]).text = node ++ "$$" ++ port := by
  rw [← String.toList_inj, toList_join]
  simp

theorem eq_join_iff : u = join [node, port] ↔ u.text = node ++ "$$" ++ port := by
  rw [← text_join]
  exact ⟨congrArg text, fun h => by cases u; exact congrArg mk h⟩

theorem composed_iff : u.Composed node port ↔ u.portParts = .ok (node, port) := by
  constructor
  · rintro ⟨htext, hnode, hport, hends⟩
    rw [eq_join_iff.2 htext]
    exact (portParts_join_iff hnode hport).2 hends
  · intro h
    obtain ⟨hsplit, hnode, hport⟩ := portParts_eq_ok_iff.1 h
    have hparts : ∀ part ∈ [node, port], ¬ Delimited part := fun part hpart =>
      not_delimited_of_mem_split (u := u) (by rwa [hsplit])
    have hlast : node ∈ u.split.dropLast := by rw [hsplit]; exact List.mem_cons_self
    refine ⟨eq_join_iff.1 ?_, ⟨hnode, hparts node (by simp)⟩, ⟨hport, hparts port (by simp)⟩,
      not_endsInDollar_of_mem_split hlast⟩
    rw [← hsplit, join_split]

theorem Composed.unique {node' port' : String} (h : u.Composed node port) (h' : u.Composed node' port') :
    node' = node ∧ port' = port := by
  rw [composed_iff] at h h'
  rw [h] at h'
  simpa using h'.symm

/-! ## UIDs that are the same -/

/-- A first ID without the delimiter and what follows it are determined, if it is known whether the ID ends in a
dollar. -/
theorem join_inj {first first' : String} {rest rest' : List String} (hfirst : ¬ Delimited first)
    (hfirst' : ¬ Delimited first') (hends : EndsInDollar first ↔ EndsInDollar first') (hne : rest ≠ [])
    (hne' : rest' ≠ []) (h : join (first :: rest) = join (first' :: rest')) :
    first = first' ∧ join rest = join rest' := by
  obtain ⟨second, rest, rfl⟩ := List.exists_cons_of_ne_nil hne
  obtain ⟨second', rest', rfl⟩ := List.exists_cons_of_ne_nil hne'
  have htext := congrArg (fun u : Uid => u.text.toList) h
  simp only [toList_join, List.map_cons, List.intercalate_cons_cons, List.append_assoc, List.cons_append,
    List.nil_append] at htext
  obtain ⟨hf, hr⟩ := Text.append_doubled_inj hfirst hfirst' hends htext
  refine ⟨String.toList_inj.1 hf, ?_⟩
  rw [join, join, List.map_cons, List.map_cons, hr]

theorem join_singleton (part : String) : join [part] = ⟨part⟩ := by
  simp [join]

/-- The UID of a link consists of the IDs of the node, of the port and of the link. -/
theorem uid_of_origin {l : Link} {p : Port} (h : l.origin = p.uid) : l.uid = join [p.node.text, p.id, l.id] := by
  rw [Link.uid, h, Port.uid]
  simp [join]

end Uid

/-! ## Main results -/

/-- The port and its node have IDs of which UIDs can be made. -/
structure Port.HasIds (p : Port) : Prop where
  node : Uid.IsId p.node.text
  id : Uid.IsId p.id

instance (p : Port) : Decidable p.HasIds :=
  decidable_of_iff (Uid.IsId p.node.text ∧ Uid.IsId p.id) ⟨fun h => ⟨h.1, h.2⟩, fun h => ⟨h.1, h.2⟩⟩

namespace Uid

/-- A UID identifies what it was made for as long as it is known which IDs end in a dollar. Its parts are found
again exactly if none of them but the last one does; the UID of a port gives back the port and its node exactly
if the ID of the node does not. Two ports, or two links that leave them, have different UIDs unless they are the
same, if the IDs of the nodes, and for links those of the ports, both end in a dollar or both do not. -/
theorem identifies_unless_dollar {parts : List String} (hne : parts ≠ []) (hparts : ∀ part ∈ parts, ¬ Delimited part)
    {p p' : Port} (hp : p.HasIds) (hp' : p'.HasIds) {l l' : Link} (hl : l.origin = p.uid) (hl' : l'.origin = p'.uid) :
    ((join parts).split = parts ↔ ∀ part ∈ parts.dropLast, ¬ EndsInDollar part) ∧
    (p.uid.portParts = .ok (p.node.text, p.id) ↔ ¬ EndsInDollar p.node.text) ∧
    (p.uid.nodeOfPort = .ok p.node ↔ ¬ EndsInDollar p.node.text) ∧
    ((EndsInDollar p.node.text ↔ EndsInDollar p'.node.text) →
      (p.uid = p'.uid → p.node = p'.node ∧ p.id = p'.id) ∧
      ((EndsInDollar p.id ↔ EndsInDollar p'.id) → l.uid = l'.uid →
        p.node = p'.node ∧ p.id = p'.id ∧ l.id = l'.id)) := by
  refine ⟨split_join_iff hne hparts, portParts_join_iff hp.node hp.id, nodeOfPort_join_iff hp.node hp.id, ?_⟩
  intro hnodes
  have hfirst : ∀ {rest rest' : List String}, rest ≠ [] → rest' ≠ [] →
      join (p.node.text :: rest) = join (p'.node.text :: rest') → p.node = p'.node ∧ join rest = join rest' := by
    intro rest rest' hrest hrest' h
    obtain ⟨hnode, h⟩ := join_inj hp.node.not_delimited hp'.node.not_delimited hnodes hrest hrest' h
    exact ⟨congrArg Uid.mk hnode, h⟩
  refine ⟨fun h => ?_, fun hports h => ?_⟩
  · obtain ⟨hnode, h⟩ := hfirst (List.cons_ne_nil _ _) (List.cons_ne_nil _ _) h
    rw [join_singleton, join_singleton] at h
    exact ⟨hnode, congrArg Uid.text h⟩
  · rw [uid_of_origin hl, uid_of_origin hl'] at h
    obtain ⟨hnode, h⟩ := hfirst (List.cons_ne_nil _ _) (List.cons_ne_nil _ _) h
    obtain ⟨hid, h⟩ := join_inj hp.id.not_delimited hp'.id.not_delimited hports (List.cons_ne_nil _ _)
      (List.cons_ne_nil _ _) h
    rw [join_singleton, join_singleton] at h
    exact ⟨hnode, hid, congrArg Uid.text h⟩

/-- Dollars at every place where an ID may have one: at the beginning, inside, and at the end of the last one. -/
theorem identifies_unless_dollar_single :
    (join ["$a", "b$c", "d$"]).split = ["$a", "b$c", "d$"] ∧
    (Port.uid { node := ⟨"$n"⟩, id := "$1$" }).portParts = .ok ("$n", "$1$") ∧
    (Port.uid { node := ⟨"$n"⟩, id := "$1$" }).nodeOfPort = .ok ⟨"$n"⟩ ∧
    Port.uid { node := ⟨"$n"⟩, id := "$1$" } ≠ Port.uid { node := ⟨"$n$1"⟩, id := "$" } ∧
    Link.uid ⟨"0", .join ["$n", "$1$"], [], .up⟩ ≠ Link.uid ⟨"0", .join ["$n$1", "$"], [], .up⟩ := by
  have hdelimited : ∀ part ∈ ["$a", "b$c", "d$"], ¬ Delimited part := by decide
  have hp : Port.HasIds { node := ⟨"$n"⟩, id := "$1$" } := by decide
  have hp' : Port.HasIds { node := ⟨"$n$1"⟩, id := "$" } := by decide
  have hl : (Link.mk "0" (.join ["$n", "$1$"]) [] .up).origin = Port.uid { node := ⟨"$n"⟩, id := "$1$" } := rfl
  have hl' : (Link.mk "0" (.join ["$n$1", "$"]) [] .up).origin = Port.uid { node := ⟨"$n$1"⟩, id := "$" } := rfl
  obtain ⟨hsplit, hparts, hnode, hsame⟩ := identifies_unless_dollar (by decide) hdelimited hp hp' hl hl'
  obtain ⟨hports, hlinks⟩ := hsame (by decide)
  exact ⟨hsplit.2 (by decide), hparts.2 (by decide), hnode.2 (by decide), fun h => absurd (hports h).1 (by decide),
    fun h => absurd (hlinks (by decide) h).1 (by decide)⟩

/-- Port `1` of the node `a$` has the UID of port `$1` of the node `a`, and is taken for it. -/
theorem dollar_misread :
    Port.HasIds { node := ⟨"a$"⟩, id := "1" } ∧ Port.HasIds { node := ⟨"a"⟩, id := "$1" } ∧
    Port.uid { node := ⟨"a$"⟩, id := "1" } = Port.uid { node := ⟨"a"⟩, id := "$1" } ∧
    (Port.uid { node := ⟨"a$"⟩, id := "1" }).portParts = .ok ("a", "$1") ∧
    (Port.uid { node := ⟨"a$"⟩, id := "1" }).nodeOfPort = .ok ⟨"a"⟩ ∧
    Link.uid ⟨"0", Port.uid { node := ⟨"a$"⟩, id := "1" }, [], .up⟩ =
      Link.uid ⟨"0", Port.uid { node := ⟨"a"⟩, id := "$1" }, [], .up⟩ ∧
    (join ["a$", "1"]).split = ["a", "$1"] := by
  have hother : Port.HasIds { node := ⟨"a"⟩, id := "$1" } := by decide
  have huid : Port.uid { node := ⟨"a$"⟩, id := "1" } = Port.uid { node := ⟨"a"⟩, id := "$1" } := by decide
  refine ⟨by decide, hother, huid, ?_, ?_, by rw [huid], ?_⟩
  · rw [huid]; exact (portParts_join_iff hother.node hother.id).2 (by decide)
  · rw [huid]; exact (nodeOfPort_join_iff hother.node hother.id).2 (by decide)
  · exact (split_join_iff (List.cons_ne_nil "a" ["$1"]) (by decide)).2 (by decide)

/-- Splitting loses nothing, whatever the text of the UID. Its parts joined again are the UID, none of them holds the
delimiter, and none but the last one ends in a dollar. It has two parts of a port exactly if its text is composed of
two IDs with the delimiter between them, the first one not ending in a dollar, and there is no other way to compose it
like this. -/
theorem split_lossless (u : Uid) :
    join u.split = u ∧ (∀ part ∈ u.split, ¬ Delimited part) ∧ (∀ part ∈ u.split.dropLast, ¬ EndsInDollar part) ∧
    ∀ node port, (u.portParts = .ok (node, port) ↔ u.Composed node port) ∧
      (u.Composed node port → ∀ node' port', u.Composed node' port' → node' = node ∧ port' = port) :=
  ⟨join_split u, fun _ => not_delimited_of_mem_split, fun _ => not_endsInDollar_of_mem_split,
    fun _ _ => ⟨composed_iff.symm, fun h _ _ h' => h.unique h'⟩⟩

/-- Of three dollars the first two are the delimiter, and a dollar at the end belongs to the port. -/
theorem split_lossless_dollars : join (Uid.mk "a$$$1$").split = ⟨"a$$$1$"⟩ ∧
    (∀ part ∈ (Uid.mk "a$$$1$").split, ¬ Delimited part) ∧ (Uid.mk "a$$$1$").portParts = .ok ("a", "$1$") ∧
    ∀ node port, (Uid.mk "a$$$1$").Composed node port → node = "a" ∧ port = "$1$" := by
  obtain ⟨hjoin, hparts, -, hports⟩ := split_lossless ⟨"a$$$1$"⟩
  have hcomposed : (Uid.mk "a$$$1$").Composed "a" "$1$" := ⟨by decide, by decide, by decide, by decide⟩
  obtain ⟨hok, hunique⟩ := hports "a" "$1$"
  exact ⟨hjoin, hparts, hok.2 hcomposed, fun node port => hunique hcomposed node port⟩

end Uid

end ControlPlane
