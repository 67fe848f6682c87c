import LiveDiagram.Proofs.Flowchart.OneLine

namespace LiveDiagram

open Text

namespace Flowchart

variable {a b l : String}

section Line

/-- The line of an arrow to a node with a label in quotes. -/
def quotedLine (a b l : String) : List Char :=
  arrowLine a ('-' :: '>' :: ' ' :: (b.toList ++ '[' :: '"' :: (l.toList ++ ['"', ']'])))

/-- The text of an arrow to a node with a label in quotes. -/
def quotedText (a b l : String) : String :=
  "flowchart TD\n" ++ a ++ " --> " ++ b ++ "[\"" ++ l ++ "\"]"

/-- What the text should state: one arrow between two nodes, of which the second
    has the label and none is in a class. -/
structure StatesQuoted (d : Flowchart) (a b l : String) : Prop where
  direction : d.direction = .topDown
  edges : d.edges = [{ source := a, target := b }]
  nodup : d.nodeIds.Nodup
  ids : ∀ id, id ∈ d.nodeIds ↔ id = a ∨ id = b
  label : ∀ n ∈ d.nodes, n.id = b → n.label = l
  unclassed : ∀ n ∈ d.nodes, n.className = none

/-- A label in quotes that is nothing but a label. -/
structure IsInert (a b l : String) : Prop where
  /-- The direction that the label states, if it states one, is that of the
      header. -/
  direction : ∀ d ∈ directionIn? false l.toList, d = .topDown
  unmarked : MarkFree l.toList
  /-- The label is not taken for several targets. -/
  single : '&' ∉ l.toList
  /-- Neither inside the label nor across its start stands an arrow of a form
      that is tried first. -/
  twoHeaded : ¬Statement.Links Statement.IsTwoHeaded (quotedLine a b l)
  stroked : ¬Statement.Links Statement.IsStroked (quotedLine a b l)
  barred : ¬Statement.Links Statement.IsBarred (quotedLine a b l)

/-- The text of an arrow to a node with a label in quotes is made of a header
    and its line. -/
theorem quotedText_eq (a b l : String) :
    quotedText a b l = String.ofList (joinLines [headerLine .topDown, quotedLine a b l]) := by
  have hheader : "flowchart TD\n".toList = headerLine .topDown ++ ['\n'] := rfl
  have harrow : " --> ".toList = [' ', '-', '-', '>', ' '] := rfl
  have hopening : "[\"".toList = ['[', '"'] := rfl
  have hclosing : "\"]".toList = ['"', ']'] := rfl
  have hlist : (quotedText a b l).toList = joinLines [headerLine .topDown, quotedLine a b l] := by
    unfold quotedText
    simp only [String.toList_append, hheader, harrow, hopening, hclosing, List.append_assoc]
    rw [quotedLine, arrowLine, joinLines, List.intercalate_cons_cons, List.intercalate_singleton, List.append_assoc]
    rfl
  rw [← hlist, String.ofList_toList]

theorem getLast?_quotedLine (a b l : String) : (quotedLine a b l).getLast? = some ']' := by
  simp [quotedLine, arrowLine, List.getLast?_append, List.getLast?_cons]

/-- What stands in the line before the label. -/
def beforeLabel (a b : String) : List Char :=
  a.toList ++ ' ' :: '-' :: '-' :: '>' :: ' ' :: (b.toList ++ ['[', '"'])

/-- The line of an arrow to a node with a label in quotes, with the label
    apart. -/
theorem quotedLine_eq (a b l : String) : quotedLine a b l = beforeLabel a b ++ (l.toList ++ '"' :: [']']) := by
  simp [quotedLine, arrowLine, beforeLabel]

variable (ha : IsName a) (hb : IsName b) {c : Char}

include ha hb

/-- How often a mark stands in the line: as often as in the label, and in the
    arrow. -/
theorem count_quotedLine (hc : isWordChar c = false) (hmarks : c ∉ [' ', '[', '"', ']']) :
    (quotedLine a b l).count c = ['-', '-', '>'].count c + l.toList.count c := by
  have hnone : ∀ d ∈ [' ', '[', '"', ']'], (d == c) = false := fun d hd => by
    simpa using ne_of_mem_of_not_mem hd hmarks
  have hsource : a.toList.count c = 0 := List.count_eq_zero_of_not_mem (ha.not_mem hc)
  have htarget : b.toList.count c = 0 := List.count_eq_zero_of_not_mem (hb.not_mem hc)
  simp only [List.mem_cons, List.not_mem_nil, or_false, forall_eq_or_imp, forall_eq] at hnone
  simp only [quotedLine, arrowLine, List.count_append, List.count_cons, List.count_nil, hsource, htarget, hnone]
  simp
  omega

/-- The line is a statement as it stands, if the label has no line feed. -/
theorem isStatement_quotedLine (hfeed : '\n' ∉ l.toList) : IsStatement (quotedLine a b l) where
  noBreak := by
    simp [quotedLine, arrowLine, ha.not_mem (c := '\n') (by decide), hb.not_mem (c := '\n') (by decide), hfeed]
  head := ha.head?_any _
  last := by
    rw [getLast?_quotedLine]
    rintro c ⟨⟩
    rfl

theorem headerFree_beforeLabel : HeaderFree (beforeLabel a b) := by
  rw [beforeLabel, headerFree_append_cons (by decide), headerFree_cons (by decide), headerFree_cons (by decide),
    headerFree_cons (by decide), headerFree_cons (by decide), headerFree_append_cons (by decide)]
  exact ⟨ha.isPlain.headerFree, hb.isPlain.headerFree, by decide⟩

/-- The direction that the line states is that of the label: the forms of a line
    are looked for in the whole line, quotes or not. -/
theorem directionIn?_quotedLine : directionIn? false (quotedLine a b l) = directionIn? false l.toList := by
  have hlast : ∀ c ∈ (beforeLabel a b).getLast?, isWordChar c = false := by
    simp [beforeLabel, List.getLast?_append, List.getLast?_cons, isWordChar]
  have hafter : ∀ c ∈ (skipSpaces ['"', ']']).head?, isWordChar c = false := forall_mem_head?_cons (by decide) _
  rw [quotedLine_eq]
  exact directionIn?_inside (headerFree_beforeLabel ha hb) hlast (by decide) hafter (by decide) l.toList

/-- The line has a class mark just if the label has one. -/
theorem markFree_quotedLine : MarkFree (quotedLine a b l) ↔ MarkFree l.toList := by
  have hbefore : ':' ∉ beforeLabel a b := by
    simp [beforeLabel, ha.not_mem (c := ':') (by decide), hb.not_mem (c := ':') (by decide)]
  rw [quotedLine_eq]
  exact markFree_inside_iff hbefore (by decide) (by decide)

end Line

section Reading

variable (ha : IsName a) (hb : IsName b)

include ha

theorem readings_quotedLine : ∀ read ∈ NodeRef.readings (quotedLine a b l), read.1.label = none := by
  rw [quotedLine, arrowLine,
    NodeRef.readings_append ha.toList_ne_nil ha.chars (forall_mem_head?_cons ⟨by decide, by decide⟩ _)]
  simp

include hb

/-- The arrow that the line is meant to state, which is read at its head. A
    quote in the label would end it, so there is none. -/
theorem linkAt?_quotedLine (hquote : '"' ∉ l.toList) :
    Statement.linkAt? .arrow (fun s => (Statement.afterArrow? s).map ([], ·)) (quotedLine a b l) =
      some (.link ⟨a.toList, none⟩ [] .arrow ⟨b.toList, some l.toList⟩) := by
  have hword := word?_append (t := '[' :: '"' :: (l.toList ++ ['"', ']'])) hb.toList_ne_nil hb.chars
    (forall_mem_head?_cons (by decide) _)
  have hread : NodeRef.read? (b.toList ++ '[' :: '"' :: (l.toList ++ ['"', ']'])) =
      some (⟨b.toList, some l.toList⟩, []) := by
    rw [NodeRef.read?, NodeRef.readings, hword]
    simp [NodeRef.quotedLabel?_append hquote []]
  have harrow := Statement.afterArrow?_spaced (' ' :: (b.toList ++ '[' :: '"' :: (l.toList ++ ['"', ']'])))
  rw [skipSpaces_cons (by decide) (hb.head?_append _)] at harrow
  rw [Statement.linkAt?, quotedLine, arrowLine,
    NodeRef.readings_append ha.toList_ne_nil ha.chars (forall_mem_head?_cons ⟨by decide, by decide⟩ _)]
  simp only [List.cons_append, List.nil_append] at harrow
  simp [harrow, hread]

/-- With an ampersand in the label, the line is read as arrows to several nodes,
    however its targets come out. -/
theorem fan?_quotedLine_isSome (hamp : '&' ∈ l.toList) (hreturn : '\r' ∉ l.toList) (hfeed : '\n' ∉ l.toList) :
    (Statement.fan? (quotedLine a b l)).isSome := by
  have hline : quotedLine a b l =
      arrowLine a ('-' :: '>' :: ([' '] ++ ((b.toList ++ ['[', '"']) ++ (l.toList ++ ['"', ']'])))) := by
    simp [quotedLine]
  have hfree : ∀ c ∉ l.toList, isWordChar c = false → c ∉ ['[', '"', ']'] →
      c ∉ (b.toList ++ ['[', '"']) ++ (l.toList ++ ['"', ']']) := by
    intro c hc hword hmarks
    simp only [List.mem_cons, List.not_mem_nil, or_false, not_or] at hmarks
    simp [hc, hb.not_mem hword, hmarks]
  have hhead : ∀ c ∈ ((b.toList ++ ['[', '"']) ++ (l.toList ++ ['"', ']'])).head?, isSpace c = false := by
    rw [List.append_assoc]
    exact hb.head?_append _
  have hfan := isFanTargets_append (List.append_ne_nil_of_right_ne_nil b.toList (List.cons_ne_nil '[' ['"']))
    (List.cons_ne_nil '"' [']']) hamp (hfree '\r' hreturn (by decide) (by decide))
    (hfree '\n' hfeed (by decide) (by decide))
  rw [hline, fan?_arrowLine ha (List.forall_mem_singleton.mpr rfl) hhead hfan]
  rfl

/-- Without class marks in the label, the line is read as it stands. -/
theorem statementText_quotedLine (hfeed : '\n' ∉ l.toList) (h : MarkFree l.toList) :
    statementText (quotedLine a b l) = quotedLine a b l := by
  have hkept : eraseAll classMark? (quotedLine a b l) = quotedLine a b l :=
    markFree_iff_eraseAll_eq_self.mp ((markFree_quotedLine ha hb).mpr h)
  have htext := statementText_eq_eraseAll (s := quotedLine a b l)
  rw [hkept, getLast?_quotedLine] at htext
  exact htext (isStatement_quotedLine ha hb hfeed).trim_eq_self (by simp)

end Reading

section Inert

variable (ha : IsName a) (hb : IsName b)

include ha hb

/-- An arrow needs more of a character than the line has, if none of it stands
    in the label. The line itself has two hyphens and an angle bracket. -/
theorem not_links_quotedLine {IsArrow : List Char → Prop} {k : Nat} {c : Char}
    (hk : ∀ text, IsArrow text → k ≤ text.count c) (hc : isWordChar c = false)
    (hmarks : c ∉ [' ', '[', '"', ']'])
    (hlabel : c ∉ l.toList) (hlt : ['-', '-', '>'].count c < k) : ¬Statement.Links IsArrow (quotedLine a b l) := by
  intro h
  have hcount := Statement.le_count_of_links hk h
  rw [count_quotedLine ha hb hc hmarks, List.count_eq_zero_of_not_mem hlabel] at hcount
  omega

/-- A plain label is inert: it has none of the marks that could make something
    else of it. -/
theorem isInert_of_isPlain (hl : IsPlain l.toList) : IsInert a b l where
  direction := by simp [hl.headerFree.directionIn?_eq_none]
  unmarked := markFree_of_not_mem (hl.not_mem (by decide))
  single := hl.not_mem (by decide)
  twoHeaded := not_links_quotedLine ha hb Statement.le_count_of_isTwoHeaded (by decide) (by decide)
    (hl.not_mem (by decide)) (by decide)
  stroked := not_links_quotedLine ha hb Statement.le_count_of_isStroked (by decide) (by decide)
    (hl.not_mem (by decide)) (by decide)
  barred := not_links_quotedLine ha hb Statement.le_count_of_isBarred (by decide) (by decide)
    (hl.not_mem (by decide)) (by decide)

variable {statement : Statement} {r : NodeRef}

/-- A label from which class marks were erased is not read whole, as its colons
    are gone. -/
theorem markFree_of_mem_refs (hread : Statement.read? (statementText (quotedLine a b l)) = some statement)
    (hr : r ∈ statement.refs) (hlabel : r.label = some l.toList) : MarkFree l.toList := by
  by_contra hmarked
  rw [← markFree_quotedLine ha hb] at hmarked
  have hfewer := count_eraseAll_classMark?_lt hmarked
  rw [count_quotedLine ha hb (by decide) (by decide)] at hfewer
  have hspelled := ((Statement.sublist_of_mem_refs hread hr).trans (statementText_sublist _)).count_le ':'
  rw [NodeRef.spelled, hlabel, Option.getD_some, List.count_append] at hspelled
  have harrow : ['-', '-', '>'].count ':' = 0 := by decide
  omega

/-- A label with an ampersand is not read whole, since a target is read between
    ampersands. -/
theorem not_mem_of_mem_refs (hreturn : '\r' ∉ l.toList) (hfeed : '\n' ∉ l.toList)
    (hread : Statement.read? (quotedLine a b l) = some statement) (hr : r ∈ statement.refs)
    (hlabel : r.label = some l.toList) : '&' ∉ l.toList := by
  intro hamp
  obtain ⟨fan, hfan⟩ := Option.isSome_iff_exists.mp (fan?_quotedLine_isSome ha hb hamp hreturn hfeed)
  have hfirst : Statement.read? (quotedLine a b l) = some fan := by
    rw [Statement.read?, hfan]
    rfl
  obtain rfl := Option.some.inj (hfirst.symm.trans hread)
  rcases Statement.exists_of_mem_refs_fan? hfan hr with ⟨rest, hsource⟩ | ⟨part, hpart, -, hspelled⟩
  · have hnone := readings_quotedLine ha _ hsource
    rw [hlabel] at hnone
    cases hnone
  · refine hpart (hspelled.subset ?_)
    rw [NodeRef.spelled, hlabel, Option.getD_some]
    exact List.mem_append_right _ hamp

/-- If the label is read whole and beside one arrow with one head, no other
    arrow stands in the line: that other arrow would have been read first, and
    its characters would be missing in the label or in the ends. -/
theorem not_links_of_mem_refs (hread : Statement.read? (quotedLine a b l) = some statement)
    (hedges : statement.edges = [{ source := a, target := b }]) (hr : r ∈ statement.refs)
    (hlabel : r.label = some l.toList) (hamp : '&' ∉ l.toList) :
    ¬Statement.Links Statement.IsTwoHeaded (quotedLine a b l) ∧
      ¬Statement.Links Statement.IsStroked (quotedLine a b l) ∧
        ¬Statement.Links Statement.IsBarred (quotedLine a b l) := by
  have hfan : Statement.fan? (quotedLine a b l) = none := by
    refine Statement.fan?_eq_none (List.count_eq_zero.mp ?_)
    rw [count_quotedLine ha hb (by decide) (by decide), List.count_eq_zero_of_not_mem hamp]
    rfl
  simp only [Statement.read?, Option.orElse_eq_orElse, Option.orElse_eq_or, Option.or_eq_some_iff] at hread
  rcases hread with h | ⟨-, h | ⟨htwo, h | ⟨hstroke, h | ⟨hbar, -⟩⟩⟩⟩
  · rw [hfan] at h
    cases h
  · obtain ⟨source, text, target, -, rfl, -, -⟩ := Statement.exists_of_search_linkAt? Statement.reads_twoHeaded h
    cases congrArg Edge.kind (List.cons.inj hedges).1
  · have hcount := Statement.count_label_add_le Statement.reads_stroke Statement.le_count_of_isStroked h hr hlabel
    rw [count_quotedLine ha hb (by decide) (by decide)] at hcount
    have harrow : ['-', '-', '>'].count '-' = 2 := by decide
    omega
  · have hcount := Statement.count_label_add_le Statement.reads_bar Statement.le_count_of_isBarred h hr hlabel
    rw [count_quotedLine ha hb (by decide) (by decide)] at hcount
    have harrow : ['-', '-', '>'].count '|' = 0 := by decide
    omega
  · exact ⟨(Statement.search_linkAt?_eq_none_iff Statement.reads_twoHeaded).mp htwo,
      (Statement.search_linkAt?_eq_none_iff Statement.reads_stroke).mp hstroke,
      (Statement.search_linkAt?_eq_none_iff Statement.reads_bar).mp hbar⟩

/-- An inert label is read as it is meant to be: no form that is tried first can
    be read. -/
theorem IsInert.read?_quotedLine (h : IsInert a b l) (hquote : '"' ∉ l.toList) (hfeed : '\n' ∉ l.toList) :
    Statement.read? (statementText (quotedLine a b l)) =
      some (.link ⟨a.toList, none⟩ [] .arrow ⟨b.toList, some l.toList⟩) := by
  have hfan : '&' ∉ quotedLine a b l := by
    rw [← List.count_eq_zero, count_quotedLine ha hb (by decide) (by decide),
      List.count_eq_zero_of_not_mem h.single]
    rfl
  rw [statementText_quotedLine ha hb hfeed h.unmarked, Statement.read?, Statement.fan?_eq_none hfan,
    (Statement.search_linkAt?_eq_none_iff Statement.reads_twoHeaded).mpr h.twoHeaded,
    (Statement.search_linkAt?_eq_none_iff Statement.reads_stroke).mpr h.stroked,
    (Statement.search_linkAt?_eq_none_iff Statement.reads_bar).mpr h.barred,
    search_eq_some (linkAt?_quotedLine ha hb hquote)]
  rfl

end Inert

section Stated

variable (ha : IsName a) (hb : IsName b)

include ha hb

/-- The flowchart of a label in quotes, told by what is read of its line. -/
theorem ofLines_quotedLine (l : String) :
    ofLines [headerLine .topDown, quotedLine a b l] ∅ =
      { direction := (directionIn? false l.toList).getD .topDown
        nodes := nodesOf ((Statement.read? (statementText (quotedLine a b l))).elim [] Statement.declarations)
          ((Statement.read? (statementText (quotedLine a b l))).elim [] Statement.edges)
            (markedIn (quotedLine a b l))
        edges := (Statement.read? (statementText (quotedLine a b l))).elim [] Statement.edges } := by
  rw [← directionIn?_quotedLine ha hb, quotedLine, (readAsStatement_arrowLine ha _).ofLines_underHeader]

/-- With an inert label the line states what it should. The label is not empty,
    since an empty one would be replaced by the id. -/
theorem statesQuoted_of_isInert (hne : l ≠ "") (hquote : '"' ∉ l.toList) (hfeed : '\n' ∉ l.toList)
    (h : IsInert a b l) : StatesQuoted (ofLines [headerLine .topDown, quotedLine a b l] ∅) a b l := by
  have hedges : Statement.edges (.link ⟨a.toList, none⟩ [] .arrow ⟨b.toList, some l.toList⟩) =
      [{ source := a, target := b }] := by simp [Statement.edges]
  have hdeclared : Statement.declarations (.link ⟨a.toList, none⟩ [] .arrow ⟨b.toList, some l.toList⟩) =
      [(b, l)] := by simp [Statement.declarations, NodeRef.declared?, hne]
  have hunmarked : markedIn (quotedLine a b l) = [] := by
    rw [markedIn, ((markFree_quotedLine ha hb).mpr h.unmarked).findAll_markedRef?, ite_self]
  rw [ofLines_quotedLine ha hb, h.read?_quotedLine ha hb hquote hfeed]
  simp only [Option.elim_some, hedges, hdeclared, hunmarked]
  have hids : (nodesOf [(b, l)] [{ source := a, target := b }] []).map Node.id = [b, a, b].eraseDups :=
    map_id_nodesOf _ _ _
  constructor
  case direction =>
    cases hstated : directionIn? false l.toList with
    | none => rfl
    | some d => exact h.direction d hstated
  case edges => rfl
  case nodup =>
    rw [nodeIds, hids]
    exact nodup_eraseDups _
  case ids =>
    intro id
    rw [nodeIds, hids, List.mem_eraseDups]
    simp only [List.mem_cons, List.not_mem_nil, or_false]
    exact or_iff_right_of_imp .inr
  case label =>
    intro n hn hid
    rw [(of_mem_nodesOf hn).1, hid]
    simp [Naming.lastLabel?, namings, Naming.labelled, Naming.unlabelled]
  case unclassed =>
    intro n hn
    rw [(of_mem_nodesOf hn).2]
    rfl

/-- If the line states what it should, the label is inert. So no other label is
    kept. -/
theorem isInert_of_statesQuoted (hreturn : '\r' ∉ l.toList) (hfeed : '\n' ∉ l.toList)
    (h : StatesQuoted (ofLines [headerLine .topDown, quotedLine a b l] ∅) a b l) : IsInert a b l := by
  rw [ofLines_quotedLine ha hb] at h
  have hstated := h.edges
  cases hread : Statement.read? (statementText (quotedLine a b l)) with
  | none =>
    rw [hread] at hstated
    cases hstated
  | some statement =>
    rw [hread] at hstated
    have htarget := (h.ids b).mpr (.inr rfl)
    rw [nodeIds] at htarget
    obtain ⟨n, hn, hid⟩ := List.mem_map.mp htarget
    have hlabel := h.label n hn hid
    rw [hread] at hn
    by_cases hname : l = b
    · exact isInert_of_isPlain ha hb (hname ▸ hb.isPlain)
    · have hdeclared := (eq_or_mem_declarations hn).resolve_left (by rwa [hlabel, hid])
      rw [hlabel, hid] at hdeclared
      obtain ⟨r, hr, hwritten⟩ := Statement.exists_mem_refs_of_mem_declarations hdeclared hname
      have hunmarked := markFree_of_mem_refs ha hb hread hr hwritten
      rw [statementText_quotedLine ha hb hfeed hunmarked] at hread
      have hsingle := not_mem_of_mem_refs ha hb hreturn hfeed hread hr hwritten
      obtain ⟨htwo, hstroke, hbar⟩ := not_links_of_mem_refs ha hb hread hstated hr hwritten hsingle
      refine ⟨fun d hd => ?_, hunmarked, hsingle, htwo, hstroke, hbar⟩
      have hdirection : (directionIn? false l.toList).getD .topDown = .topDown := h.direction
      rw [Option.mem_def] at hd
      rwa [hd] at hdirection

end Stated

end Flowchart

section Text

open Flowchart

/-- A text with a label in quotes states what it should just if the label is
    inert. A label can state a direction, lose its class marks, be split at an
    ampersand, or hold an arrow that is tried first; one that does none of these
    is kept, and no other one is. -/
theorem Diagram.ofText_quotedText [YamlReader] {a b l : String} (ha : IsName a) (hb : IsName b) (hne : l ≠ "")
    (hquote : '"' ∉ l.toList) (hreturn : '\r' ∉ l.toList) (hfeed : '\n' ∉ l.toList) :
    ∃ d, ofText (quotedText a b l) = .flowchart d ∧ (StatesQuoted d a b l ↔ IsInert a b l) := by
  refine ⟨ofLines [headerLine .topDown, quotedLine a b l] ∅, ?_, isInert_of_statesQuoted ha hb hreturn hfeed,
    statesQuoted_of_isInert ha hb hne hquote hfeed⟩
  rw [quotedText_eq, ofText_underHeader (isStatement_quotedLine ha hb hfeed)]

/-- A label with an ampersand is lost, and its line is split there instead. -/
theorem Diagram.ofText_quotedText_ampersand :
    (IsName "a" ∧ IsName "b" ∧ "p & q" ≠ "" ∧
      '"' ∉ "p & q".toList ∧ '\r' ∉ "p & q".toList ∧ '\n' ∉ "p & q".toList) ∧
      ∃ d, ofText "flowchart TD\na --> b[\"p & q\"]" = .flowchart d ∧ ¬StatesQuoted d "a" "b" "p & q" := by
  refine ⟨by decide, ?_⟩
  obtain ⟨d, htext, hstates⟩ := ofText_quotedText (a := "a") (b := "b") (l := "p & q") (by decide) (by decide)
    (by decide) (by decide) (by decide) (by decide)
  have hlabel : quotedText "a" "b" "p & q" = "flowchart TD\na --> b[\"p & q\"]" := by decide
  rw [hlabel] at htext
  refine ⟨d, htext, fun h => ?_⟩
  exact absurd (hstates.mp h).single (by decide)

end Text

end LiveDiagram
