import LiveDiagram.Proofs.Flowchart.Arrows
import LiveDiagram.Proofs.Flowchart.Stated
import LiveDiagram.Proofs.Text.Lines

namespace LiveDiagram

open Text

variable {s rest : List Char} {c : Char}

section Sublists

theorem strip_sublist (p : Char → Bool) (s : List Char) : (strip p s).Sublist s :=
  (isPrefix_dropTrailing p _).sublist.trans (List.dropWhile_suffix p).sublist

/-- A part stands in the text that parts are joined to. -/
theorem infix_intercalate_of_mem {between part : List Char} {parts : List (List Char)} (hpart : part ∈ parts) :
    part <:+: List.intercalate between parts := by
  induction parts with
  | nil => cases hpart
  | cons first parts ih =>
    cases parts with
    | nil =>
      have hjoined : List.intercalate between [first] = part := by
        rw [List.intercalate_singleton, List.mem_singleton.mp hpart]
      exact ⟨[], [], by rw [hjoined, List.nil_append, List.append_nil]⟩
    | cons next parts =>
      rw [List.intercalate_cons_cons]
      obtain rfl | hlater := List.mem_cons.mp hpart
      · exact ((List.prefix_append _ _).trans (List.prefix_append _ _)).isInfix
      · exact (ih hlater).trans (List.suffix_append _ _).isInfix

/-- A part between separators stands in the text that was split. -/
theorem infix_of_mem_splitOn {sep : Char} {part : List Char} (hpart : part ∈ splitOn sep s) : part <:+: s := by
  have hjoined : [sep].intercalate (s.splitOn sep) = s := List.intercalate_splitOn sep
  rw [splitOn_eq] at hpart
  rw [← hjoined]
  exact infix_intercalate_of_mem hpart

end Sublists

namespace NodeRef

variable {r : NodeRef}

/-- What is written of a reference: its id, and its label if it has one. -/
def spelled (r : NodeRef) : List Char :=
  r.id ++ r.label.getD []

/-- What is left of a label in brackets is made of its characters, in their
    order. -/
theorem unquote_sublist (s : List Char) : (unquote s).Sublist s :=
  (strip_sublist _ _).trans (strip_sublist _ s)

/-- What stands between the marks around a label, and what is left behind them,
    stand in the text. -/
theorem sublist_of_label {opening closing label : List Char} {mark : Char}
    (h : ((after? opening s).bind fun s => (after? (mark :: closing) (s.dropWhile (· != mark))).bind fun rest =>
      some (s.takeWhile (· != mark), rest)) = some (label, rest)) : (label ++ rest).Sublist s := by
  obtain ⟨rfl, -⟩ := append_of_label h
  have hrest : rest.Sublist (mark :: (closing ++ rest)) :=
    (List.sublist_append_right closing rest).trans (List.sublist_cons_self mark _)
  exact (hrest.append_left label).trans (List.sublist_append_right opening _)

/-- Whichever way a reference is read, what is written of it and what is left
    stand in the text. -/
theorem sublist_of_mem_readings (h : (r, rest) ∈ readings s) : (r.spelled ++ rest).Sublist s := by
  unfold readings at h
  split at h
  · cases h
  · rename_i id after hword
    obtain ⟨rfl, -, -⟩ := word?_eq_some_iff.mp hword
    simp only [List.mem_append, Option.mem_toList, Option.map_eq_some_iff, List.mem_singleton,
      Prod.mk.injEq] at h
    have hspelled : ∀ label : List Char, (label ++ rest).Sublist after →
        (spelled ⟨id, some label⟩ ++ rest).Sublist (id ++ after) := by
      intro label hlabel
      rw [spelled, Option.getD_some, List.append_assoc]
      exact hlabel.append_left id
    obtain (⟨⟨label, left⟩, hlabel, rfl, rfl⟩ | ⟨⟨label, left⟩, hlabel, rfl, rfl⟩) | ⟨rfl, rfl⟩ :=
      h
    · exact hspelled label (sublist_of_label hlabel)
    · exact hspelled _ (((unquote_sublist label).append_right left).trans (sublist_of_label hlabel))
    · rw [spelled, Option.getD_none, List.append_nil]

/-- What is read of a reference and what is left stand in the text, in that
    order. -/
theorem sublist_of_read? (h : read? s = some (r, rest)) : (r.spelled ++ rest).Sublist s :=
  sublist_of_mem_readings (List.mem_of_mem_head? h)

/-- What is written of a reference that makes up a text stands in that text. -/
theorem sublist_of_whole? (h : whole? s = some r) : r.spelled.Sublist s := by
  obtain ⟨⟨_, rest⟩, hfound, rfl⟩ := Option.map_eq_some_iff.mp h
  exact (List.sublist_append_left _ rest).trans (sublist_of_mem_readings (List.mem_of_find?_eq_some hfound))

end NodeRef

namespace Flowchart

/-- A statement is made of the characters that are left when class marks are
    erased. -/
theorem statementText_sublist (s : List Char) : (statementText s).Sublist (eraseAll classMark? s) :=
  (strip_sublist isBlank _).trans ((isPrefix_dropTrailing _ _).sublist.trans (strip_sublist isBlank _))

namespace Statement

variable {statement : Statement} {r : NodeRef} {kind : EdgeKind}
  {arrow : List Char → Option (List Char × List Char)} {IsArrow : List Char → Prop}

/-- The targets of arrows to several nodes are written between ampersands, so
    none of them holds one; the source is read at the head of the text. -/
theorem exists_of_mem_refs_fan? (h : fan? s = some statement) (hr : r ∈ statement.refs) :
    (∃ rest, (r, rest) ∈ NodeRef.readings s) ∨
      ∃ part, '&' ∉ part ∧ part.Sublist s ∧ r.spelled.Sublist part := by
  obtain ⟨⟨source, rest⟩, hsource, h⟩ := List.exists_of_findSome?_eq_some h
  simp only [Option.bind_eq_bind, Option.bind_eq_some_iff, Option.pure_def, Option.some.injEq] at h
  obtain ⟨headed, hheaded, targets, htargets, rfl⟩ := h
  rcases List.mem_cons.mp hr with rfl | htarget
  · exact .inl ⟨rest, hsource⟩
  · obtain ⟨part, hpart, hread⟩ := List.mem_filterMap.mp htarget
    obtain ⟨whole, hwhole, rfl⟩ := List.mem_map.mp hpart
    have hsuffix : targets <:+ s := (of_afterSpaces htargets).2.trans ((suffix_of_after? hheaded).trans
      ((skipSpaces_suffix rest).trans (NodeRef.suffix_of_mem_readings hsource)))
    exact .inr ⟨whole, not_mem_of_mem_splitOn hwhole, (infix_of_mem_splitOn hwhole).sublist.trans hsuffix.sublist,
      (NodeRef.sublist_of_whole? hread).trans (strip_sublist isBlank whole)⟩

/-- The arrow of an edge, which the references on both sides of it do not
    overlap: all three stand in the text one after the other. -/
theorem exists_of_linkAt? (harrow : Reads arrow IsArrow) (h : linkAt? kind arrow s = some statement) :
    ∃ source label target text, statement = .link source label kind target ∧ IsArrow text ∧
      (source.spelled ++ (text ++ target.spelled)).Sublist s := by
  obtain ⟨⟨source, rest⟩, hsource, h⟩ := List.exists_of_findSome?_eq_some h
  simp only [Option.bind_eq_bind, Option.bind_eq_some_iff, Option.pure_def, Option.some.injEq] at h
  obtain ⟨⟨label, left⟩, hread, ⟨target, behind⟩, htarget, rfl⟩ := h
  obtain ⟨text, htext, rfl⟩ := harrow.sound hread
  refine ⟨source, label, target, text, rfl, htext, ?_⟩
  have hleft : target.spelled.Sublist left :=
    (List.sublist_append_left _ behind).trans (NodeRef.sublist_of_read? htarget)
  exact ((hleft.append_left text).append_left source.spelled).trans (NodeRef.sublist_of_mem_readings hsource)

/-- An edge that is found anywhere in a text has its references and its arrow
    there one after the other. -/
theorem exists_of_search_linkAt? (harrow : Reads arrow IsArrow)
    (h : search (linkAt? kind arrow) s = some statement) :
    ∃ source label target text, statement = .link source label kind target ∧ IsArrow text ∧
      (source.spelled ++ (text ++ target.spelled)).Sublist s := by
  obtain ⟨t, ht, hread⟩ := exists_of_search h
  obtain ⟨source, label, target, text, rfl, htext, hsublist⟩ := exists_of_linkAt? harrow hread
  exact ⟨source, label, target, text, rfl, htext, hsublist.trans ht.sublist⟩

/-- Each label of an edge leaves room for the arrow: a character stands in the
    label at most as often as in the text, less what the arrow has of it. -/
theorem count_label_add_le (harrow : Reads arrow IsArrow) {k : Nat}
    (hk : ∀ text, IsArrow text → k ≤ text.count c)
    (h : search (linkAt? kind arrow) s = some statement) (hr : r ∈ statement.refs) {label : List Char}
    (hlabel : r.label = some label) : label.count c + k ≤ s.count c := by
  obtain ⟨source, _, target, text, rfl, htext, hsublist⟩ := exists_of_search_linkAt? harrow h
  have hcount := hsublist.count_le c
  have htextCount := hk text htext
  rw [List.count_append, List.count_append] at hcount
  have hspelled : label.count c ≤ r.spelled.count c := by
    rw [NodeRef.spelled, hlabel, Option.getD_some, List.count_append]
    exact Nat.le_add_left _ _
  rcases List.mem_pair.mp hr with rfl | rfl
  · omega
  · omega

/-- Where an edge stands in a text, the text has the characters of the arrow. -/
theorem le_count_of_links {k : Nat} (hk : ∀ text, IsArrow text → k ≤ text.count c) (h : Links IsArrow s) :
    k ≤ s.count c := by
  obtain ⟨source, text, target, -, htext, -, hinfix⟩ := h
  have hcount := hinfix.sublist.count_le c
  rw [List.count_append, List.count_append] at hcount
  have htextCount := hk text htext
  omega

/-- An arrow with two heads has an angle bracket that opens it. -/
theorem le_count_of_isTwoHeaded (text : List Char) (h : IsTwoHeaded text) : 1 ≤ text.count '<' := by
  obtain ⟨gap, gap', -, -, rfl⟩ := h
  simp only [List.count_append, List.cons_append, List.count_cons_self]
  omega

/-- An arrow with a label between its strokes has four hyphens. -/
theorem le_count_of_isStroked (text : List Char) (h : IsStroked text) : 4 ≤ text.count '-' := by
  obtain ⟨label, -, -, gap, gap', -, -, rfl⟩ := h
  simp only [List.count_append]
  have hopening : (['-', '-'] : List Char).count '-' = 2 := rfl
  have hclosing : (['-', '-', '>'] : List Char).count '-' = 2 := rfl
  omega

theorem le_count_of_isBarred (text : List Char) (h : IsBarred text) : 2 ≤ text.count '|' := by
  obtain ⟨gap, label, -, -, outer, outer', -, -, rfl⟩ := h
  simp only [List.count_append, List.count_cons_self]
  omega

/-- What is written of the references of an edge that is found stands in the
    text. -/
theorem sublist_of_search_linkAt? (harrow : Reads arrow IsArrow)
    (h : search (linkAt? kind arrow) s = some statement) (hr : r ∈ statement.refs) : r.spelled.Sublist s := by
  obtain ⟨source, _, target, text, rfl, -, hsublist⟩ := exists_of_search_linkAt? harrow h
  rcases List.mem_pair.mp hr with rfl | rfl
  · exact (List.sublist_append_left _ _).trans hsublist
  · exact ((List.sublist_append_right text _).trans (List.sublist_append_right _ _)).trans hsublist

/-- A node on its own is written with its id and its label. -/
theorem sublist_of_search_nodeAt? {readLabel : List Char → Option (List Char × List Char)}
    {node : List Char → List Char} {read : List Char → Option Statement}
    (hnode : ∀ label, (node label).Sublist label)
    (hlabel : ∀ {t label rest}, readLabel t = some (label, rest) → (label ++ rest).Sublist t)
    (hread : ∀ {t}, read t = some statement → ∃ id label left rest, word? t = some (id, left) ∧
      readLabel left = some (label, rest) ∧ statement = .node id (node label))
    (h : search read s = some statement) (hr : r ∈ statement.refs) : r.spelled.Sublist s := by
  obtain ⟨t, ht, hread'⟩ := exists_of_search h
  obtain ⟨id, label, left, rest, hword, hleft, rfl⟩ := hread hread'
  obtain rfl := List.mem_singleton.mp hr
  obtain ⟨rfl, -, -⟩ := word?_eq_some_iff.mp hword
  have hwritten : (node label).Sublist left :=
    (hnode label).trans ((List.sublist_append_left label rest).trans (hlabel hleft))
  exact (hwritten.append_left id).trans ht.sublist

/-- A node with a quoted label is its id with that label behind it. -/
theorem exists_of_quotedNodeAt? (h : quotedNodeAt? s = some statement) : ∃ id label left rest,
    word? s = some (id, left) ∧ NodeRef.quotedLabel? left = some (label, rest) ∧ statement = .node id label := by
  unfold quotedNodeAt? at h
  simp only [Option.bind_eq_bind, Option.bind_eq_some_iff] at h
  obtain ⟨⟨id, left⟩, hword, ⟨label, rest⟩, hlabel, h⟩ := h
  split at h
  · cases h
  · exact ⟨id, label, left, rest, hword, hlabel, (Option.some.inj h).symm⟩

/-- A node with a label in brackets is its id with what is left of the label
    behind it. -/
theorem exists_of_bracketNodeAt? (h : bracketNodeAt? s = some statement) : ∃ id label left rest,
    word? s = some (id, left) ∧ NodeRef.bracketLabel? left = some (label, rest) ∧
      statement = .node id (NodeRef.unquote label) := by
  unfold bracketNodeAt? at h
  simp only [Option.bind_eq_bind, Option.bind_eq_some_iff] at h
  obtain ⟨⟨id, left⟩, hword, ⟨label, rest⟩, hlabel, h⟩ := h
  split at h
  · cases h
  · exact ⟨id, label, left, rest, hword, hlabel, (Option.some.inj h).symm⟩

/-- Whatever form a statement has, what is written of a reference in it stands
    in its text. So a character stands in a label at most as often as in the
    text. -/
theorem sublist_of_mem_refs (h : read? s = some statement) (hr : r ∈ statement.refs) : r.spelled.Sublist s := by
  unfold read? at h
  simp only [Option.orElse_eq_orElse, Option.orElse_eq_or, Option.or_eq_some_iff] at h
  rcases h with h | ⟨-, h | ⟨-, h | ⟨-, h | ⟨-, h | ⟨-, h | ⟨-, h⟩⟩⟩⟩⟩⟩
  · rcases exists_of_mem_refs_fan? h hr with ⟨rest, hread⟩ | ⟨part, -, hpart, hspelled⟩
    · exact (List.sublist_append_left _ rest).trans (NodeRef.sublist_of_mem_readings hread)
    · exact hspelled.trans hpart
  · exact sublist_of_search_linkAt? reads_twoHeaded h hr
  · exact sublist_of_search_linkAt? reads_stroke h hr
  · exact sublist_of_search_linkAt? reads_bar h hr
  · exact sublist_of_search_linkAt? reads_arrow h hr
  · exact sublist_of_search_nodeAt? List.Sublist.refl NodeRef.sublist_of_label exists_of_quotedNodeAt? h hr
  · exact sublist_of_search_nodeAt? NodeRef.unquote_sublist NodeRef.sublist_of_label exists_of_bracketNodeAt? h hr

/-- A label that a reference declares is written beside its id, unless it is the
    id. -/
theorem label_of_declared? {id label : String} (h : r.declared? = some (id, label)) (hne : label ≠ id) :
    r.label = some label.toList := by
  obtain ⟨written, hwritten, heq⟩ := Option.map_eq_some_iff.mp h
  obtain ⟨hid, hlabel⟩ := Prod.mk.inj heq
  split at hlabel
  · exact absurd (hlabel.symm.trans hid) hne
  · rw [hwritten, ← hlabel, String.toList_ofList]

/-- A label that a statement declares is written beside a reference, unless it
    is the id. -/
theorem exists_mem_refs_of_mem_declarations {id label : String} (h : (id, label) ∈ statement.declarations)
    (hne : label ≠ id) : ∃ r ∈ statement.refs, r.label = some label.toList := by
  cases statement with
  | fan source targets =>
    obtain ⟨r, hr, hdeclared⟩ := List.mem_filterMap.mp h
    exact ⟨r, hr, label_of_declared? hdeclared hne⟩
  | link source text kind target =>
    obtain ⟨r, hr, hdeclared⟩ := List.mem_filterMap.mp h
    exact ⟨r, hr, label_of_declared? hdeclared hne⟩
  | node nodeId nodeLabel =>
    obtain ⟨-, rfl⟩ := Prod.mk.inj (List.mem_singleton.mp h)
    exact ⟨_, List.mem_cons_self, by rw [String.toList_ofList]⟩

end Statement

end Flowchart

end LiveDiagram
