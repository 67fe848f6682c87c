import LiveDiagram.Proofs.Flowchart.Reading
import LiveDiagram.Proofs.Flowchart.Written

namespace LiveDiagram

open Text

variable {c : Char} {s : List Char}

namespace Flowchart

/-- A line that defines nothing, so that it is a statement as it stands. The
    lines of nodes and edges are of this kind: they are told from the class
    lines by a bracket or a hyphen, and they carry no class marks. -/
structure DefinesNothing (line : List Char) : Prop where
  isStatement : IsStatement line
  headerFree : HeaderFree line
  style : style? line = none
  /-- A character by which the line is not one that lists the members of a
      class. -/
  unlisted : ∃ c ∈ line, isWordListChar c = false ∧ c ≠ ';'
  unmarked : ':' ∉ line
  unended : ∀ c ∈ line.getLast?, (c == ';') = false

namespace DefinesNothing

variable {line : List Char}

/-- A line with a character that no list of words has lists no members of a
    class. -/
theorem membership?_eq_none (h : DefinesNothing line) : membership? line = none := by
  rw [← Option.not_isSome_iff_eq_none]
  intro hmembers
  obtain ⟨c, hc, hlist, hne⟩ := h.unlisted
  rcases isWordListChar_of_membership? hmembers c hc with hmem | heq
  · exact Bool.false_ne_true (hlist.symm.trans hmem)
  · exact hne heq

/-- A line that defines nothing sets no direction and no style, and no node
    joins a class in it. -/
theorem definition_ofLine (h : DefinesNothing line) : Definition.ofLine line = .members [] := by
  rw [Definition.ofLine, h.headerFree.directionIn?_eq_none, h.style, h.membership?_eq_none,
    findAll_markedRef? h.unmarked]

/-- A line that defines nothing states what is read of it as it stands. -/
theorem statement_ofLine? (h : DefinesNothing line) : Statement.ofLine? line = Statement.read? line := by
  rw [Statement.ofLine?, h.headerFree.isHeader_eq_false, h.style, h.membership?_eq_none,
    statementText_eq_self h.unmarked h.isStatement.trim_eq_self h.unended]
  rfl

end DefinesNothing

section Header

/-- The line that opens a flowchart is a statement as it stands. -/
theorem isStatement_headerLine (d : Direction) : IsStatement (headerLine d) where
  noBreak := by cases d <;> decide
  head := rfl
  last c hc := by
    cases d
    all_goals
      obtain rfl := Option.some.inj hc
      rfl

theorem definition_headerLine (d : Direction) : Definition.ofLine (headerLine d) = .direction d := by
  cases d <;> rfl

theorem statement_headerLine (d : Direction) : Statement.ofLine? (headerLine d) = none := by
  cases d <;> rfl

end Header

section Nodes

variable {n : Node}

/-- A mark that is neither a bracket nor a quote is not in the line of a
    node. -/
theorem not_mem_nodeLine (hid : IsName n.id) (hlabel : IsPlain n.label.toList) (hc : isPlainChar c = false)
    (hmarks : c ∉ ['[', '"', ']']) : c ∉ nodeLine n := by
  simp only [List.mem_cons, List.not_mem_nil, or_false, not_or] at hmarks
  simp [nodeLine, hid.isPlain.not_mem hc, hlabel.not_mem hc, hmarks]

theorem getLast?_nodeLine (n : Node) : (nodeLine n).getLast? = some ']' := by
  simp [nodeLine, List.getLast?_cons]

/-- The line of a node defines nothing. Its bracket is in no list of words, and
    its label is plain. -/
theorem definesNothing_nodeLine (hid : IsName n.id) (hlabel : IsPlain n.label.toList) :
    DefinesNothing (nodeLine n) where
  isStatement :=
    { noBreak := not_mem_nodeLine hid hlabel (by decide) (by decide)
      head := hid.head?_any _
      last := by
        intro c hc
        obtain rfl := Option.some.inj ((getLast?_nodeLine n).symm.trans hc)
        rfl }
  headerFree := by
    rw [nodeLine, headerFree_append_cons (by decide), headerFree_cons (by decide),
      headerFree_append_cons (by decide)]
    exact ⟨hid.isPlain.headerFree, hlabel.headerFree, by decide⟩
  style := style?_append_cons hid.chars (by decide) fun hspace => absurd hspace (by decide)
  unlisted := ⟨'[', List.mem_append_right _ List.mem_cons_self, by decide, by decide⟩
  unmarked := not_mem_nodeLine hid hlabel (by decide) (by decide)
  unended := by
    intro c hc
    obtain rfl := Option.some.inj ((getLast?_nodeLine n).symm.trans hc)
    rfl

/-- The line of a node is read as a node with its label, by the rule for
    quotes. -/
theorem quotedNodeAt?_nodeLine (hid : IsName n.id) (hlabel : IsPlain n.label.toList) (hne : n.label ≠ "") :
    Statement.quotedNodeAt? (nodeLine n) = some (.node n.id.toList n.label.toList) := by
  have hquoted := NodeRef.quotedLabel?_append (hlabel.not_mem (c := '"') (by decide)) []
  rw [Statement.quotedNodeAt?, nodeLine,
    word?_append hid.toList_ne_nil hid.chars (forall_mem_head?_cons (by decide) _)]
  simp [hquoted, hne]

/-- The line of a node states the node with its label. The label is not empty,
    since a node with an empty one in quotes is not declared by this rule. -/
theorem statement_nodeLine (hid : IsName n.id) (hlabel : IsPlain n.label.toList) (hne : n.label ≠ "") :
    Statement.ofLine? (nodeLine n) = some (.node n.id.toList n.label.toList) := by
  rw [(definesNothing_nodeLine hid hlabel).statement_ofLine?,
    Statement.read?_of_not_mem (not_mem_nodeLine hid hlabel (by decide) (by decide))
      (not_mem_nodeLine hid hlabel (by decide) (by decide)),
    search_eq_some (quotedNodeAt?_nodeLine hid hlabel hne)]
  rfl

end Nodes

section Edges

variable {e : Edge}

/-- The text of an arrow has the characters of its label and those that arrows
    are made of. -/
theorem not_mem_arrowText (hlabel : c ∉ e.label.toList) (hmarks : c ∉ ['<', '-', '>', '|']) :
    c ∉ arrowText e := by
  simp only [List.mem_cons, List.not_mem_nil, or_false, not_or] at hmarks
  unfold arrowText
  split
  · simp [hmarks]
  · split
    · simp [hmarks]
    · simp [hmarks, hlabel]

/-- No word of an arrow opens a flowchart if none of its label does. -/
theorem headerFree_arrowText (hlabel : HeaderFree e.label.toList) : HeaderFree (arrowText e) := by
  unfold arrowText
  split
  · decide
  · split
    · decide
    · rw [headerFree_append_cons (by decide), headerFree_append_cons (by decide)]
      exact ⟨by decide, hlabel, by decide⟩

/-- Every arrow has two hyphens, if its label has none. -/
theorem count_hyphen_arrowText (hlabel : '-' ∉ e.label.toList) : (arrowText e).count '-' = 2 := by
  unfold arrowText
  split
  · rfl
  · split
    · rfl
    · simp [List.count_eq_zero_of_not_mem hlabel]

/-- An arrow starts with neither a word nor white space. -/
theorem arrowText_eq_cons (e : Edge) :
    ∃ c rest, arrowText e = c :: rest ∧ isWordChar c = false ∧ isSpace c = false := by
  unfold arrowText
  split
  · exact ⟨_, _, rfl, by decide, by decide⟩
  · split
    · exact ⟨_, _, rfl, by decide, by decide⟩
    · exact ⟨_, _, rfl, by decide, by decide⟩

namespace IsPlainEdge

variable (h : IsPlainEdge e)

include h

/-- A character that neither ids nor the arrow hold is not in the line of an
    edge. -/
theorem not_mem_edgeLine (hc : isWordChar c = false) (hspace : c ≠ ' ') (harrow : c ∉ arrowText e) :
    c ∉ edgeLine e := by
  simp [edgeLine, h.source.not_mem hc, h.target.not_mem hc, hspace, harrow]

/-- The line of an edge has plain characters and those that arrows are made
    of. -/
theorem not_mem_edgeLine_of_isPlainChar (hc : isPlainChar c = false) (hmarks : c ∉ ['<', '-', '>', '|']) :
    c ∉ edgeLine e := by
  have harrow : c ∉ arrowText e := not_mem_arrowText (h.label.not_mem hc) hmarks
  simp only [isPlainChar, Bool.or_eq_false_iff, beq_eq_false_iff_ne] at hc
  exact h.not_mem_edgeLine hc.1.1.1.1.1 hc.1.1.1.1.2 harrow

/-- The line of an edge has two hyphens, which are too few for a label between
    strokes. -/
theorem count_hyphen_edgeLine : (edgeLine e).count '-' = 2 := by
  simp [edgeLine, count_hyphen_arrowText (h.label.not_mem (c := '-') (by decide)),
    List.count_eq_zero_of_not_mem (h.source.not_mem (c := '-') (by decide)),
    List.count_eq_zero_of_not_mem (h.target.not_mem (c := '-') (by decide))]

/-- The line of an edge ends in the id of its target. -/
theorem getLast?_edgeLine : ∀ d ∈ (edgeLine e).getLast?, isWordChar d := by
  have hline : edgeLine e = (e.source.toList ++ ' ' :: (arrowText e ++ [' '])) ++ e.target.toList := by
    simp [edgeLine]
  rw [hline]
  exact h.target.getLast?_append _

/-- The line of an edge states no style, since its arrow follows the first
    word. -/
theorem style?_edgeLine : style? (edgeLine e) = none := by
  obtain ⟨c, rest, harrow, hword, hspace⟩ := arrowText_eq_cons e
  refine style?_append_cons h.source.chars (by decide) fun _ => ?_
  rw [harrow, List.cons_append, skipSpaces_of_head? (forall_mem_head?_cons hspace _),
    word?_cons_eq_none hword]

/-- The line of an edge defines nothing. A hyphen is in no list of words, and
    its label is plain. -/
theorem definesNothing_edgeLine : DefinesNothing (edgeLine e) where
  isStatement :=
    { noBreak := h.not_mem_edgeLine_of_isPlainChar (by decide) (by decide)
      head := h.source.head?_any _
      last := fun d hd => isBlank_eq_false_of_isWordChar (h.getLast?_edgeLine d hd) }
  headerFree := by
    rw [edgeLine, headerFree_append_cons (by decide), headerFree_append_cons (by decide)]
    exact ⟨h.source.isPlain.headerFree, headerFree_arrowText h.label.headerFree, h.target.isPlain.headerFree⟩
  style := h.style?_edgeLine
  unlisted := by
    refine ⟨'-', List.count_pos_iff.mp ?_, by decide, by decide⟩
    rw [h.count_hyphen_edgeLine]
    decide
  unmarked := h.not_mem_edgeLine_of_isPlainChar (by decide) (by decide)
  unended := by
    intro d hd
    have hword := h.getLast?_edgeLine d hd
    rw [beq_eq_false_iff_ne]
    rintro rfl
    exact absurd hword (by decide)

/-- The line of an edge has no ampersand, and so a single target. -/
theorem fan?_edgeLine : Statement.fan? (edgeLine e) = none :=
  Statement.fan?_eq_none (h.not_mem_edgeLine_of_isPlainChar (by decide) (by decide))

/-- A written edge is read where its line starts, as soon as its arrow is
    read. -/
theorem search_linkAt?_edgeLine {kind : EdgeKind} {label : List Char}
    {arrow : List Char → Option (List Char × List Char)}
    (harrow : arrow (' ' :: (arrowText e ++ ' ' :: e.target.toList)) = some (label, e.target.toList)) :
    search (Statement.linkAt? kind arrow) (edgeLine e) =
      some (.link ⟨e.source.toList, none⟩ label kind ⟨e.target.toList, none⟩) :=
  search_eq_some (Statement.linkAt?_append h.source.toList_ne_nil h.source.chars
    (forall_mem_head?_cons ⟨by decide, by decide⟩ _) harrow h.target.toList_ne_nil h.target.chars)

/-- A written edge with two heads is read as such, by the form that is tried
    first. -/
theorem read?_edgeLine_of_bidirectional (hkind : e.kind = .bidirectional) :
    Statement.read? (edgeLine e) =
      some (.link ⟨e.source.toList, none⟩ [] .bidirectional ⟨e.target.toList, none⟩) := by
  have htext : arrowText e = ['<', '-', '-', '>'] := by rw [arrowText, hkind]
  have hread : search (Statement.linkAt? .bidirectional fun s => (Statement.afterTwoHeaded? s).map ([], ·))
      (edgeLine e) = some (.link ⟨e.source.toList, none⟩ [] .bidirectional ⟨e.target.toList, none⟩) := by
    refine h.search_linkAt?_edgeLine ?_
    rw [htext, Statement.afterTwoHeaded?_spaced h.target.head?_isSpace, Option.map_some]
  rw [Statement.read?, h.fan?_edgeLine, hread]
  rfl

/-- A written edge with one head can be read as an arrow without a label, or
    with one between bars: for the other forms it lacks an ampersand, an angle
    bracket that opens, and two hyphens. -/
theorem read?_edgeLine_of_arrow (hkind : e.kind = .arrow) :
    Statement.read? (edgeLine e) =
      (search (Statement.linkAt? .arrow Statement.barArrow?) (edgeLine e)
        <|> search (Statement.linkAt? .arrow fun s => (Statement.afterArrow? s).map ([], ·)) (edgeLine e)
        <|> search Statement.quotedNodeAt? (edgeLine e)
        <|> search Statement.bracketNodeAt? (edgeLine e)) := by
  have hhead : '<' ∉ arrowText e := by
    have hlabel : '<' ∉ e.label.toList := h.label.not_mem (by decide)
    simp only [arrowText, hkind]
    split
    · decide
    · simp [hlabel]
  have htwo : '<' ∉ edgeLine e := h.not_mem_edgeLine (by decide) (by decide) hhead
  have hstroke : (edgeLine e).count '-' < 4 := by
    rw [h.count_hyphen_edgeLine]
    decide
  rw [Statement.read?, h.fan?_edgeLine, Statement.search_twoHeaded_eq_none (by decide) htwo,
    Statement.search_strokeArrow_eq_none hstroke]
  rfl

/-- A written edge without a label is read without one, as it has no bar. -/
theorem read?_edgeLine_of_unlabelled (hkind : e.kind = .arrow) (hlabel : e.label = "") :
    Statement.read? (edgeLine e) =
      some (.link ⟨e.source.toList, none⟩ [] .arrow ⟨e.target.toList, none⟩) := by
  have htext : arrowText e = ['-', '-', '>'] := by rw [arrowText, hkind, if_pos hlabel]
  have hbar : '|' ∉ edgeLine e := h.not_mem_edgeLine (by decide) (by decide) (by rw [htext]; decide)
  have hread : search (Statement.linkAt? .arrow fun s => (Statement.afterArrow? s).map ([], ·))
      (edgeLine e) = some (.link ⟨e.source.toList, none⟩ [] .arrow ⟨e.target.toList, none⟩) := by
    refine h.search_linkAt?_edgeLine ?_
    rw [htext, Statement.afterArrow?_spaced, skipSpaces_cons (by decide) h.target.head?_isSpace, Option.map_some]
  rw [h.read?_edgeLine_of_arrow hkind, Statement.search_barArrow_eq_none (by decide) hbar, hread]
  rfl

/-- A written edge with a label is read with it. -/
theorem read?_edgeLine_of_labelled (hkind : e.kind = .arrow) (hlabel : e.label ≠ "") :
    Statement.read? (edgeLine e) =
      some (.link ⟨e.source.toList, none⟩ e.label.toList .arrow ⟨e.target.toList, none⟩) := by
  have htext : arrowText e = ['-', '-', '>'] ++ '|' :: (e.label.toList ++ ['|']) := by
    rw [arrowText, hkind]
    exact if_neg hlabel
  have hread : search (Statement.linkAt? .arrow Statement.barArrow?) (edgeLine e) =
      some (.link ⟨e.source.toList, none⟩ e.label.toList .arrow ⟨e.target.toList, none⟩) := by
    refine h.search_linkAt?_edgeLine ?_
    have hbar : '|' ∉ e.label.toList := h.label.not_mem (by decide)
    have harrow := Statement.barArrow?_spaced h.target.head?_isSpace hbar
    rw [h.label_trimmed] at harrow
    simpa [htext] using harrow
  rw [h.read?_edgeLine_of_arrow hkind, hread]
  rfl

/-- A written edge is read back, whatever its kind and its label. -/
theorem statement_edgeLine : Statement.ofLine? (edgeLine e) =
    some (.link ⟨e.source.toList, none⟩ e.label.toList e.kind ⟨e.target.toList, none⟩) := by
  rw [h.definesNothing_edgeLine.statement_ofLine?]
  cases hkind : e.kind with
  | bidirectional =>
    rw [h.read?_edgeLine_of_bidirectional hkind, h.unlabelled hkind]
    rfl
  | arrow =>
    by_cases hlabel : e.label = ""
    · rw [h.read?_edgeLine_of_unlabelled hkind hlabel, hlabel]
      rfl
    · exact h.read?_edgeLine_of_labelled hkind hlabel

end IsPlainEdge

end Edges

section Members

variable {member : String × String}

/-- The line that makes a node join a class is a statement as it stands. -/
theorem isStatement_memberLine (hid : IsName member.1) (hname : IsName member.2) :
    IsStatement (memberLine member) where
  noBreak := by
    simp [memberLine, hid.not_mem (c := '\n') (by decide), hname.not_mem (c := '\n') (by decide)]
  head := rfl
  last := by
    have hline : memberLine member = ("class".toList ++ ' ' :: (member.1.toList ++ [' '])) ++ member.2.toList := by
      simp [memberLine]
    rw [hline]
    exact fun d hd => isBlank_eq_false_of_isWordChar (hname.getLast?_append _ d hd)

/-- The line that makes a node join a class sets no direction. -/
theorem directionIn?_memberLine (hid : IsName member.1) (hname : IsName member.2) :
    directionIn? false (memberLine member) = none := by
  refine HeaderFree.directionIn?_eq_none ?_
  rw [memberLine, headerFree_append_cons (by decide), headerFree_append_cons (by decide)]
  exact ⟨by decide, hid.isPlain.headerFree, hname.isPlain.headerFree⟩

/-- The line that makes a node join a class states no style, though it starts as
    such a line does. -/
theorem style?_memberLine (member : String × String) : style? (memberLine member) = none :=
  rfl

/-- The line that makes a node join a class is read as a list of one member. -/
theorem membership?_memberLine (hid : IsName member.1) (hname : IsName member.2) :
    membership? (memberLine member) = some ([member.1], member.2) := by
  have hline : memberLine member =
      "class".toList ++ ((' ' :: (member.1.toList ++ [' '])) ++ member.2.toList) := by
    simp [memberLine]
  have hlisted : ∀ d ∈ ' ' :: (member.1.toList ++ [' ']), isWordListChar d := by
    intro d hd
    simp only [List.mem_cons, List.mem_append, List.not_mem_nil, or_false] at hd
    rcases hd with rfl | hd | rfl
    · rfl
    · exact isWordListChar_of_isWordChar (hid.chars d hd)
    · rfl
  have hend : ∀ d ∈ (' ' :: (member.1.toList ++ [' '])).getLast?, isWordChar d = false := by
    rw [← List.cons_append, List.getLast?_concat]
    rintro d ⟨⟩
    rfl
  have hsplit : splitOn ',' member.1.toList = [member.1.toList] := by
    rw [splitOn_eq, List.splitOn_eq_singleton (hid.not_mem (by decide))]
  rw [hline, membership?_append hlisted hend hname.toList_ne_nil hname.chars,
    memberList?_spaced hid.toList_ne_nil hid.head?_isSpace hid.getLast?_isSpace, Option.map_some, hsplit]
  simp [hid.trim_toList, hid.ne_empty]

/-- The line that makes a node join a class defines that and nothing else. -/
theorem definition_memberLine (hid : IsName member.1) (hname : IsName member.2) :
    Definition.ofLine (memberLine member) = .members [member] := by
  rw [Definition.ofLine, directionIn?_memberLine hid hname, style?_memberLine, membership?_memberLine hid hname]
  rfl

theorem statement_memberLine (hid : IsName member.1) (hname : IsName member.2) :
    Statement.ofLine? (memberLine member) = none := by
  rw [Statement.ofLine?, membership?_memberLine hid hname, if_pos (by simp)]

end Members

end Flowchart

end LiveDiagram
