import LiveDiagram.Proofs.Flowchart.OneLine

namespace LiveDiagram

open Text

namespace Flowchart

/-- The spellings of an edge with a label: between the strokes of its arrow, or
    between bars behind it. Both name the same nodes and mark the same nodes
    with classes, but not every label is read in the same way. -/
inductive Spelling where
  | strokes
  | bars
  deriving DecidableEq, Repr

namespace Spelling

/-- What stands between the source and the label. -/
def opening : Spelling → String
  | strokes => " -- "
  | bars => " -->|"

/-- What stands between the label and the target. -/
def closing : Spelling → String
  | strokes => " --> "
  | bars => "| "

/-- The text of an edge with a label. -/
def text (sp : Spelling) (a b l : String) : String :=
  "flowchart TD\n" ++ a ++ sp.opening ++ l ++ sp.closing ++ b

/-- The line of an edge with a label. -/
def line (sp : Spelling) (a b : String) (label : List Char) : List Char :=
  a.toList ++ sp.opening.toList ++ (label ++ (sp.closing.toList ++ b.toList))

variable {sp : Spelling} {a b l : String} {label : List Char}

/-- The text of an edge is made of a header and its line. -/
theorem text_eq (sp : Spelling) (a b l : String) :
    sp.text a b l = String.ofList (joinLines [headerLine .topDown, sp.line a b l.toList]) := by
  have hheader : "flowchart TD\n".toList = headerLine .topDown ++ ['\n'] := rfl
  have hline : (sp.text a b l).toList = "flowchart TD\n".toList ++ sp.line a b l.toList := by
    unfold text
    simp only [line, String.toList_append, List.append_assoc]
  rw [hheader] at hline
  rw [joinLines, List.intercalate_cons_cons, List.intercalate_singleton, ← hline, String.ofList_toList]

theorem toList_opening_strokes : strokes.opening.toList = [' ', '-', '-', ' '] :=
  rfl

theorem toList_opening_bars : bars.opening.toList = [' ', '-', '-', '>', '|'] :=
  rfl

theorem toList_closing_strokes : strokes.closing.toList = [' ', '-', '-', '>', ' '] :=
  rfl

theorem toList_closing_bars : bars.closing.toList = ['|', ' '] :=
  rfl

/-- The line of the first spelling, as an id with a stroke behind it. -/
theorem line_strokes (a b : String) (label : List Char) : strokes.line a b label =
    arrowLine a ('-' :: ' ' :: (label ++ ' ' :: '-' :: '-' :: '>' :: ' ' :: b.toList)) := by
  simp [line, arrowLine, toList_opening_strokes, toList_closing_strokes]

/-- The line of the second spelling, as an id with a stroke behind it. -/
theorem line_bars (a b : String) (label : List Char) : bars.line a b label =
    arrowLine a ('-' :: '>' :: '|' :: (label ++ '|' :: ' ' :: b.toList)) := by
  simp [line, arrowLine, toList_opening_bars, toList_closing_bars]

/-- In both spellings the line is an id with a stroke behind it. -/
theorem exists_eq_arrowLine (sp : Spelling) (a b : String) (label : List Char) :
    ∃ rest, sp.line a b label = arrowLine a rest := by
  cases sp with
  | strokes => exact ⟨_, line_strokes a b label⟩
  | bars => exact ⟨_, line_bars a b label⟩

/-- The marks of a spelling are none of words, labels in brackets, or
    classes. -/
theorem mem_marks (sp : Spelling) : ∀ c ∈ sp.opening.toList ++ sp.closing.toList, c ∈ [' ', '-', '>', '|'] := by
  have hall : (sp.opening.toList ++ sp.closing.toList).all fun c => decide (c ∈ [' ', '-', '>', '|']) := by
    cases sp <;> decide
  exact fun c hc => of_decide_eq_true (List.all_eq_true.mp hall c hc)

section Line

variable (ha : IsName a) (hb : IsName b)

theorem not_mem_opening {c : Char} (hc : c ∉ [' ', '-', '>', '|']) (sp : Spelling) :
    c ∉ sp.opening.toList := fun h =>
  hc (sp.mem_marks c (List.mem_append_left _ h))

theorem not_mem_closing {c : Char} (hc : c ∉ [' ', '-', '>', '|']) (sp : Spelling) :
    c ∉ sp.closing.toList := fun h =>
  hc (sp.mem_marks c (List.mem_append_right _ h))

include ha in
/-- What stands before the label holds the characters of the source and the
    marks of the spelling only. -/
theorem not_mem_before {c : Char} (hc : isWordChar c = false) (hmarks : c ∉ [' ', '-', '>', '|']) (sp : Spelling) :
    c ∉ a.toList ++ sp.opening.toList :=
  List.not_mem_append (ha.not_mem hc) (not_mem_opening hmarks sp)

include hb in
/-- What stands behind the label holds the marks of the spelling and the
    characters of the target only. -/
theorem not_mem_after {c : Char} (hc : isWordChar c = false) (hmarks : c ∉ [' ', '-', '>', '|']) (sp : Spelling) :
    c ∉ sp.closing.toList ++ b.toList :=
  List.not_mem_append (not_mem_closing hmarks sp) (hb.not_mem hc)

/-- What stands before the label does not end in a word, so a word of the label
    starts with the label. -/
theorem getLast?_before (a : String) (sp : Spelling) :
    ∀ c ∈ (a.toList ++ sp.opening.toList).getLast?, isWordChar c = false := by
  cases sp <;> simp [toList_opening_strokes, toList_opening_bars, List.getLast?_append, isWordChar]

include ha in
theorem headerFree_before (sp : Spelling) : HeaderFree (a.toList ++ sp.opening.toList) := by
  cases sp <;> exact (headerFree_append_cons (by decide)).mpr ⟨ha.isPlain.headerFree, by decide⟩

include hb in
/-- The marks behind the label start with one that no word goes on with, and no
    header word is behind it. -/
theorem closing_append (sp : Spelling) : ∃ c t, sp.closing.toList ++ b.toList = c :: t ∧ isWordChar c = false ∧
    (∀ d ∈ (skipSpaces (c :: t)).head?, isWordChar d = false) ∧ HeaderFree t := by
  have hfree : HeaderFree (' ' :: b.toList) := (headerFree_cons (by decide)).mpr hb.isPlain.headerFree
  cases sp with
  | strokes =>
    refine ⟨' ', '-' :: '-' :: '>' :: ' ' :: b.toList, rfl, by decide, forall_mem_head?_cons (by decide) _, ?_⟩
    rwa [headerFree_cons (by decide), headerFree_cons (by decide), headerFree_cons (by decide)]
  | bars => exact ⟨'|', ' ' :: b.toList, rfl, by decide, forall_mem_head?_cons (by decide) _, hfree⟩

include ha hb

/-- The line of an edge is a statement as it stands, whatever its label is, if
    that has no line feed. -/
theorem isStatement_line (hlabel : '\n' ∉ label) : IsStatement (sp.line a b label) where
  noBreak := by
    rw [line]
    exact List.not_mem_append (not_mem_before ha (by decide) (by decide) sp)
      (List.not_mem_append hlabel (not_mem_after hb (by decide) (by decide) sp))
  head := by
    rw [line, List.append_assoc]
    exact ha.head?_any _
  last := by
    rw [line, ← List.append_assoc, ← List.append_assoc]
    exact fun c hc => isBlank_eq_false_of_isWordChar (hb.getLast?_append _ c hc)

/-- The direction that the line states is that of the label, as it is found in
    the label alone. -/
theorem directionIn?_line (sp : Spelling) (label : List Char) :
    directionIn? false (sp.line a b label) = directionIn? false label := by
  obtain ⟨c, t, hclosing, hc, hafter, hfree⟩ := closing_append hb sp
  rw [line, hclosing, directionIn?_inside (headerFree_before ha sp) (getLast?_before a sp) hc hafter hfree]

/-- The classes that nodes join in the line are those that they join in the
    label. -/
theorem markedIn_line (sp : Spelling) (label : List Char) : markedIn (sp.line a b label) = markedIn label := by
  obtain ⟨c, t, hclosing, hc, -, -⟩ := closing_append hb sp
  have hmarks : ∀ d ∈ ['[', '"', ']', ':'], d ∉ c :: t := by
    rw [← hclosing]
    simp only [List.mem_cons, List.not_mem_nil, or_false, forall_eq_or_imp, forall_eq]
    refine ⟨?_, ?_, ?_, ?_⟩ <;> exact not_mem_after hb (by decide) (by decide) sp
  rw [markedIn, markedIn, directionIn?_line ha hb, line, hclosing,
    findAll_markedRef?_inside (not_mem_before ha (by decide) (by decide) sp)
      (not_mem_before ha (by decide) (by decide) sp) (getLast?_before a sp) hc hmarks]

/-- What is stated of the line is what it is without the class marks in its
    label, since there are none around it. -/
theorem statementText_line (sp : Spelling) (hlabel : '\n' ∉ label) :
    statementText (sp.line a b label) = sp.line a b (eraseAll classMark? label) := by
  obtain ⟨c, t, hclosing, hc, -, -⟩ := closing_append hb sp
  have hcolon : ':' ∉ c :: t := hclosing ▸ not_mem_after hb (by decide) (by decide) sp
  have herase : eraseAll classMark? (sp.line a b label) = sp.line a b (eraseAll classMark? label) := by
    rw [line, line, hclosing, eraseAll_classMark?_inside (not_mem_before ha (by decide) (by decide) sp) hc hcolon]
  have hstatement : IsStatement (sp.line a b (eraseAll classMark? label)) :=
    isStatement_line ha hb fun h => hlabel ((eraseAll_sublist classMark? label).subset h)
  have hlast : ∀ d ∈ (sp.line a b (eraseAll classMark? label)).getLast?, (d == ';') = false := by
    rw [line, ← List.append_assoc, ← List.append_assoc]
    intro d hd
    rw [beq_eq_false_iff_ne]
    rintro rfl
    exact absurd (hb.getLast?_append _ _ hd) (by decide)
  rw [statementText_eq_eraseAll (by rw [herase, hstatement.trim_eq_self]) (by rwa [herase]), herase]

/-- No arrow with two heads stands in the line, because no hyphen follows an
    angle bracket: outside the label there is no such bracket, and in it there
    is no hyphen. -/
theorem not_links_twoHeaded (sp : Spelling) (hlabel : '-' ∉ label) :
    ¬Statement.Links Statement.IsTwoHeaded (sp.line a b label) := by
  rintro ⟨source, text, target, -, ⟨gap, gap', -, -, rfl⟩, -, hinfix⟩
  have hhead : ['<', '-'] <:+: sp.line a b label := by
    refine List.IsInfix.trans ⟨source ++ gap, '-' :: '>' :: (gap' ++ target), ?_⟩ hinfix
    simp
  obtain ⟨mark, mark', c, d, hline, hc, hd, hmark, hmark'⟩ : ∃ mark mark' c d, sp.line a b label =
      a.toList ++ ' ' :: (mark ++ c :: (label ++ d :: (mark' ++ ' ' :: b.toList))) ∧ c ∉ ['<', '-'] ∧
        d ∉ ['<', '-'] ∧
        ¬['<', '-'] <:+: mark ∧ ¬['<', '-'] <:+: mark' := by
    cases sp with
    | strokes =>
      rw [line_strokes]
      exact ⟨['-', '-'], ['-', '-', '>'], ' ', ' ', rfl, by decide, by decide, by decide, by decide⟩
    | bars =>
      rw [line_bars]
      exact ⟨['-', '-', '>'], [], '|', '|', rfl, by decide, by decide, by decide, by decide⟩
  rw [hline, infix_append_cons_iff (by decide) (by decide), infix_append_cons_iff (by decide) hc,
    infix_append_cons_iff (by decide) hd, infix_append_cons_iff (by decide) (by decide)] at hhead
  rcases hhead with h | h | h | h | h
  · exact ha.not_mem (by decide) (h.subset List.mem_cons_self)
  · exact hmark h
  · exact hlabel (h.subset (List.mem_cons_of_mem _ List.mem_cons_self))
  · exact hmark' h
  · exact hb.not_mem (by decide) (h.subset List.mem_cons_self)

end Line

section Reading

variable (ha : IsName a) (hb : IsName b)

include ha hb

/-- A label between strokes is read without the white space at its ends. It
    holds no hyphen, so the first one behind it is that of the second stroke. -/
theorem read?_strokes (hlabel : '-' ∉ label) : Statement.read? (strokes.line a b label) =
    some (.link ⟨a.toList, none⟩ (strip isSpace label) .arrow ⟨b.toList, none⟩) := by
  have hfan : Statement.fan? (strokes.line a b label) = none := by
    rw [line_strokes, arrowLine, Statement.fan?,
      NodeRef.readings_append ha.toList_ne_nil ha.chars (forall_mem_head?_cons ⟨by decide, by decide⟩ _)]
    rfl
  have hstroke : search (Statement.linkAt? .arrow Statement.strokeArrow?) (strokes.line a b label) =
      some (.link ⟨a.toList, none⟩ (strip isSpace label) .arrow ⟨b.toList, none⟩) := by
    rw [line_strokes]
    exact search_eq_some (Statement.linkAt?_append ha.toList_ne_nil ha.chars
      (forall_mem_head?_cons ⟨by decide, by decide⟩ _) (Statement.strokeArrow?_spaced hb.head?_isSpace hlabel)
      hb.toList_ne_nil hb.chars)
  rw [Statement.read?, hfan, (Statement.search_linkAt?_eq_none_iff Statement.reads_twoHeaded).mpr
    (not_links_twoHeaded ha hb strokes hlabel), hstroke]
  rfl

/-- A label between bars is read without the blanks at its ends, unless it has
    an ampersand. Blanks are less than white space, so more may be left of it
    than between strokes. -/
theorem read?_bars (hlabel : '-' ∉ label) (hbar : '|' ∉ label) (hamp : '&' ∉ label) :
    Statement.read? (bars.line a b label) =
      some (.link ⟨a.toList, none⟩ (trim label) .arrow ⟨b.toList, none⟩) := by
  have hfan : '&' ∉ bars.line a b label := by
    rw [line]
    exact List.not_mem_append (not_mem_before ha (by decide) (by decide) bars)
      (List.not_mem_append hamp (not_mem_after hb (by decide) (by decide) bars))
  have hcount : (bars.line a b label).count '-' < 4 := by
    rw [line_bars, arrowLine]
    simp [List.count_eq_zero_of_not_mem hlabel, List.count_eq_zero_of_not_mem (ha.not_mem (c := '-') (by decide)),
      List.count_eq_zero_of_not_mem (hb.not_mem (c := '-') (by decide))]
  have hread : search (Statement.linkAt? .arrow Statement.barArrow?) (bars.line a b label) =
      some (.link ⟨a.toList, none⟩ (trim label) .arrow ⟨b.toList, none⟩) := by
    rw [line_bars]
    exact search_eq_some (Statement.linkAt?_append ha.toList_ne_nil ha.chars
      (forall_mem_head?_cons ⟨by decide, by decide⟩ _) (Statement.barArrow?_spaced hb.head?_isSpace hbar)
      hb.toList_ne_nil hb.chars)
  rw [Statement.read?, Statement.fan?_eq_none hfan,
    (Statement.search_linkAt?_eq_none_iff Statement.reads_twoHeaded).mpr
    (not_links_twoHeaded ha hb bars hlabel), Statement.search_strokeArrow_eq_none hcount, hread]
  rfl

/-- A label between bars with an ampersand is taken for targets: the form for
    several arrows is tried first, and it asks for no more than an ampersand
    somewhere behind the arrow. -/
theorem read?_bars_of_mem (hamp : '&' ∈ label) (hreturn : '\r' ∉ label) (hfeed : '\n' ∉ label) :
    ∃ targets, Statement.read? (bars.line a b label) = some (.fan ⟨a.toList, none⟩ targets) := by
  have hline : bars.line a b label =
      arrowLine a ('-' :: '>' :: ([] ++ (['|'] ++ (label ++ ('|' :: ' ' :: b.toList))))) := by
    rw [line_bars]
    rfl
  have hfree : ∀ c ∉ label, isWordChar c = false → c ∉ ['|', ' '] →
      c ∉ ['|'] ++ (label ++ ('|' :: ' ' :: b.toList)) := by
    intro c hc hword hmarks
    simp only [List.mem_cons, List.not_mem_nil, or_false, not_or] at hmarks
    simp [hc, hb.not_mem hword, hmarks]
  have hhead : ∀ c ∈ (['|'] ++ (label ++ ('|' :: ' ' :: b.toList))).head?, isSpace c = false :=
    forall_mem_head?_cons (by decide) _
  have hfan := isFanTargets_append (List.cons_ne_nil '|' []) (List.cons_ne_nil '|' (' ' :: b.toList)) hamp
    (hfree '\r' hreturn (by decide) (by decide)) (hfree '\n' hfeed (by decide) (by decide))
  rw [hline, Statement.read?, fan?_arrowLine ha (by simp) hhead hfan]
  exact ⟨_, rfl⟩

end Reading

section Agreement

/-- A label that both spellings read alike. -/
structure IsAlike (l : String) : Prop where
  /-- Between bars the label is not taken for several targets. -/
  single : '&' ∉ l.toList
  /-- What white space there is at the ends, once class marks are erased, is
      trimmed in both spellings. -/
  trimmed : trim (eraseAll classMark? l.toList) = strip isSpace (eraseAll classMark? l.toList)

/-- A label that has neither class marks nor white space at its ends is read
    alike, unless it has an ampersand. -/
theorem isAlike_of_markFree (hmarks : MarkFree l.toList) (hhead : ∀ c ∈ l.toList.head?, isSpace c = false)
    (hlast : ∀ c ∈ l.toList.getLast?, isSpace c = false) (hamp : '&' ∉ l.toList) : IsAlike l where
  single := hamp
  trimmed := by
    rw [markFree_iff_eraseAll_eq_self.mp hmarks, strip_eq_self hhead hlast]
    exact trim_eq_self (fun c hc => isBlank_eq_false_of_isSpace (hhead c hc)) fun c hc =>
      isBlank_eq_false_of_isSpace (hlast c hc)

/-- An arrow with a label. -/
def arrowWith (a b : String) (label : List Char) : Edge where
  source := a
  target := b
  label := String.ofList label

/-- The flowchart of the text of an edge. -/
def chart (sp : Spelling) (a b l : String) : Flowchart :=
  ofLines [headerLine .topDown, sp.line a b l.toList] ∅

variable (ha : IsName a) (hb : IsName b)

include ha hb

/-- The flowchart of an edge, put together from what its two lines define and
    state. A direction in the label takes the place of that in the header. -/
theorem chart_eq (sp : Spelling) (hfeed : '\n' ∉ l.toList) : sp.chart a b l =
    { direction := (directionIn? false l.toList).getD .topDown
      nodes := nodesOf
        ((Statement.read? (sp.line a b (eraseAll classMark? l.toList))).elim [] Statement.declarations)
        ((Statement.read? (sp.line a b (eraseAll classMark? l.toList))).elim [] Statement.edges) (markedIn l.toList)
      edges := (Statement.read? (sp.line a b (eraseAll classMark? l.toList))).elim [] Statement.edges } := by
  obtain ⟨rest, hline⟩ := exists_eq_arrowLine sp a b l.toList
  rw [chart, hline, (readAsStatement_arrowLine ha _).ofLines_underHeader, ← hline,
    statementText_line ha hb sp hfeed,
    markedIn_line ha hb, directionIn?_line ha hb]

/-- Whatever the label of the edge is, the nodes are those that an edge without
    a label would have, in the classes that the label marks. -/
theorem nodes_and_edges_of_link (hfeed : '\n' ∉ l.toList)
    (hread : Statement.read? (sp.line a b (eraseAll classMark? l.toList)) =
      some (.link ⟨a.toList, none⟩ label .arrow ⟨b.toList, none⟩)) :
    (sp.chart a b l).nodes = nodesOf [] [{ source := a, target := b }] (markedIn l.toList) ∧
      (sp.chart a b l).edges = [arrowWith a b label] := by
  have hedges : Statement.edges (.link ⟨a.toList, none⟩ label .arrow ⟨b.toList, none⟩) =
    [arrowWith a b label] := by
    simp [Statement.edges, arrowWith]
  rw [chart_eq ha hb sp hfeed, hread, Option.elim_some, Option.elim_some, hedges]
  exact ⟨rfl, rfl⟩

/-- The nodes and the edge that the first spelling states, for every label
    without a hyphen. -/
theorem nodes_and_edges_strokes (hhyphen : '-' ∉ l.toList) (hfeed : '\n' ∉ l.toList) :
    (strokes.chart a b l).nodes = nodesOf [] [{ source := a, target := b }] (markedIn l.toList) ∧
      (strokes.chart a b l).edges = [arrowWith a b (strip isSpace (eraseAll classMark? l.toList))] :=
  nodes_and_edges_of_link ha hb hfeed
    (read?_strokes ha hb fun h => hhyphen ((eraseAll_sublist classMark? l.toList).subset h))

/-- The nodes and the edge that the second spelling states, for labels without
    an ampersand as well. -/
theorem nodes_and_edges_bars (hhyphen : '-' ∉ l.toList) (hbar : '|' ∉ l.toList) (hamp : '&' ∉ l.toList)
    (hfeed : '\n' ∉ l.toList) :
    (bars.chart a b l).nodes = nodesOf [] [{ source := a, target := b }] (markedIn l.toList) ∧
      (bars.chart a b l).edges = [arrowWith a b (trim (eraseAll classMark? l.toList))] := by
  have hsubset := (eraseAll_sublist classMark? l.toList).subset
  exact nodes_and_edges_of_link ha hb hfeed
    (read?_bars ha hb (fun h => hhyphen (hsubset h)) (fun h => hbar (hsubset h)) fun h => hamp (hsubset h))

/-- With an ampersand in the label, no edge has a label in the second spelling.
    The first spelling then has one, since a label with an ampersand is not
    empty. -/
theorem label_of_mem_edges_bars (hamp : '&' ∈ l.toList) (hreturn : '\r' ∉ l.toList) (hfeed : '\n' ∉ l.toList) :
    ∀ e ∈ (bars.chart a b l).edges, e.label = "" := by
  have hsubset := (eraseAll_sublist classMark? l.toList).subset
  obtain ⟨targets, hread⟩ := read?_bars_of_mem ha hb (mem_eraseAll_classMark? (by decide) (by decide) hamp)
    (fun h => hreturn (hsubset h)) fun h => hfeed (hsubset h)
  rw [chart_eq ha hb bars hfeed, hread, Option.elim_some, Option.elim_some]
  intro e he
  obtain ⟨target, -, rfl⟩ := List.mem_map.mp he
  rfl

/-- The spellings state the same nodes and edges just for the labels that they
    read alike. A label with a hyphen or a bar is left out, since a hyphen ends
    it in the one spelling and a bar in the other. -/
theorem nodes_and_edges_eq_iff (hhyphen : '-' ∉ l.toList) (hbar : '|' ∉ l.toList)
    (hreturn : '\r' ∉ l.toList) (hfeed : '\n' ∉ l.toList) :
    ((strokes.chart a b l).nodes = (bars.chart a b l).nodes ∧
      (strokes.chart a b l).edges = (bars.chart a b l).edges) ↔
      IsAlike l := by
  obtain ⟨hnodes, hedges⟩ := nodes_and_edges_strokes ha hb hhyphen hfeed
  constructor
  · rintro ⟨-, hsame⟩
    have hamp : '&' ∉ l.toList := by
      intro hamp
      have hmem : arrowWith a b (strip isSpace (eraseAll classMark? l.toList)) ∈ (bars.chart a b l).edges := by
        rw [← hsame, hedges]
        exact List.mem_singleton_self _
      have hnil := String.toList_eq_nil_iff.mpr (label_of_mem_edges_bars ha hb hamp hreturn hfeed _ hmem)
      rw [arrowWith, String.toList_ofList] at hnil
      rcases mem_strip_or (mem_eraseAll_classMark? (by decide) (by decide) hamp) with hkept | hspace
      · rw [hnil] at hkept
        cases hkept
      · exact absurd hspace (by decide)
    refine ⟨hamp, ?_⟩
    rw [hedges, (nodes_and_edges_bars ha hb hhyphen hbar hamp hfeed).2] at hsame
    have hlabel := congrArg Edge.label (List.cons.inj hsame).1
    exact (String.ofList_injective hlabel).symm
  · intro h
    obtain ⟨hnodes', hedges'⟩ := nodes_and_edges_bars ha hb hhyphen hbar h.single hfeed
    rw [hnodes, hedges, hnodes', hedges', h.trimmed]
    exact ⟨rfl, rfl⟩

/-- What else there is to a flowchart does not depend on the spelling, so for
    such labels the flowcharts are equal. -/
theorem chart_eq_of_isAlike (hhyphen : '-' ∉ l.toList) (hbar : '|' ∉ l.toList) (hreturn : '\r' ∉ l.toList)
    (hfeed : '\n' ∉ l.toList) (h : IsAlike l) : strokes.chart a b l = bars.chart a b l := by
  obtain ⟨hnodes, hedges⟩ := (nodes_and_edges_eq_iff ha hb hhyphen hbar hreturn hfeed).mpr h
  simp only [chart_eq ha hb _ hfeed] at hnodes hedges ⊢
  rw [hnodes, hedges]

end Agreement

end Spelling

end Flowchart

section Text

open Flowchart

variable {a b l : String} (ha : IsName a) (hb : IsName b)

include ha hb

/-- The text of an edge states the flowchart of that edge, whoever reads
    settings, since there are none. -/
theorem Diagram.ofText_spelling [YamlReader] (sp : Spelling) (hfeed : '\n' ∉ l.toList) :
    ofText (sp.text a b l) = .flowchart (sp.chart a b l) := by
  rw [Spelling.text_eq, ofText_underHeader (Spelling.isStatement_line ha hb hfeed), Spelling.chart]

/-- The texts of the two spellings state the same nodes and edges just for the
    labels that they read alike. -/
theorem Diagram.ofText_spellings [YamlReader] (hhyphen : '-' ∉ l.toList) (hbar : '|' ∉ l.toList)
    (hreturn : '\r' ∉ l.toList) (hfeed : '\n' ∉ l.toList) :
    ∃ d e, ofText (Spelling.strokes.text a b l) = .flowchart d ∧
      ofText (Spelling.bars.text a b l) = .flowchart e ∧
      (d.nodes = e.nodes ∧ d.edges = e.edges ↔ Spelling.IsAlike l) := by
  exact ⟨_, _, ofText_spelling ha hb .strokes hfeed, ofText_spelling ha hb .bars hfeed,
    Spelling.nodes_and_edges_eq_iff ha hb hhyphen hbar hreturn hfeed⟩

/-- A label that has no class marks, no ampersand and no white space at its ends
    makes the same flowchart in both spellings. -/
theorem Diagram.ofText_strokes_eq_ofText_bars [YamlReader] (hhyphen : '-' ∉ l.toList) (hbar : '|' ∉ l.toList)
    (hreturn : '\r' ∉ l.toList) (hfeed : '\n' ∉ l.toList) (hmarks : MarkFree l.toList)
    (hhead : ∀ c ∈ l.toList.head?, isSpace c = false) (hlast : ∀ c ∈ l.toList.getLast?, isSpace c = false)
    (hamp : '&' ∉ l.toList) : ofText (Spelling.strokes.text a b l) = ofText (Spelling.bars.text a b l) := by
  rw [ofText_spelling ha hb .strokes hfeed, ofText_spelling ha hb .bars hfeed,
    Spelling.chart_eq_of_isAlike ha hb hhyphen hbar hreturn hfeed
      (Spelling.isAlike_of_markFree hmarks hhead hlast hamp)]

omit ha hb in
/-- The spellings do not agree on a label with an ampersand: between bars it
    loses the edge. -/
theorem Diagram.ofText_spellings_ampersand :
    (IsName "a" ∧ IsName "b" ∧ '-' ∉ "x & y".toList ∧ '|' ∉ "x & y".toList ∧
      '\r' ∉ "x & y".toList ∧ '\n' ∉ "x & y".toList) ∧
      ∃ d e, ofText "flowchart TD\na -- x & y --> b" = .flowchart d ∧
        ofText "flowchart TD\na -->|x & y| b" = .flowchart e ∧ ¬(d.nodes = e.nodes ∧ d.edges = e.edges) := by
  refine ⟨by decide, ?_⟩
  obtain ⟨d, e, hstrokes, hbars, hsame⟩ := ofText_spellings (a := "a") (b := "b") (l := "x & y") (by decide)
    (by decide) (by decide) (by decide) (by decide) (by decide)
  have htext : Spelling.strokes.text "a" "b" "x & y" = "flowchart TD\na -- x & y --> b" := by decide
  have htext' : Spelling.bars.text "a" "b" "x & y" = "flowchart TD\na -->|x & y| b" := by decide
  rw [htext] at hstrokes
  rw [htext'] at hbars
  refine ⟨d, e, hstrokes, hbars, fun h => ?_⟩
  exact absurd (hsame.mp h).single (by decide)

end Text

end LiveDiagram
