import LiveDiagram.Proofs.Flowchart.LabelText
import LiveDiagram.Proofs.Flowchart.Spelled
import LiveDiagram.Proofs.Flowchart.WrittenLines
import LiveDiagram.Source.Diagram

namespace LiveDiagram

open Text

namespace Flowchart

section Statements

/-- A line that is neither a header nor a class line, so that it is read as a
    statement. -/
structure ReadAsStatement (line : List Char) : Prop where
  header : isHeader line = false
  style : style? line = none
  membership : membership? line = none

/-- The nodes that the class marks of a line make join a class. A line that
    states a direction has no class marks. -/
def markedIn (line : List Char) : List (String × String) :=
  if (directionIn? false line).isSome then [] else findAll markedRef? line

/-- What starts with a name is no header, and it is no class line either if no
    other word follows the name and it has a character that no list of words
    has. The semicolon that may end a list of words does not count as such a
    character. -/
theorem readAsStatement_append_cons {id : String} {c d : Char} {rest : List Char} (hid : IsName id)
    (hc : isWordChar c = false) (hnext : isSpace c → word? (skipSpaces rest) = none) (hd : d ∈ c :: rest)
    (hlist : isWordListChar d = false) (hend : d ≠ ';') : ReadAsStatement (id.toList ++ c :: rest) where
  header := by
    refine isHeader_eq_false ?_
    rw [takeWhile_append_eq_left hid.chars (forall_mem_head?_cons hc _)]
    simp only [headerWords, List.mem_cons, List.not_mem_nil, or_false, String.toList_inj, not_or]
    exact ⟨hid.ne_flowchart, hid.ne_graph⟩
  style := style?_append_cons hid.chars hc hnext
  membership := by
    rw [← Option.not_isSome_iff_eq_none]
    intro hmembers
    rcases isWordListChar_of_membership? hmembers d (List.mem_append_right _ hd) with hmem | heq
    · exact Bool.false_ne_true (hlist.symm.trans hmem)
    · exact hend heq

namespace ReadAsStatement

variable {line : List Char} (h : ReadAsStatement line)

include h

/-- A line that is read as a statement defines the direction that it states or,
    without one, the classes that its nodes join. -/
theorem definition_ofLine : Definition.ofLine line =
    (directionIn? false line).elim (.members (findAll markedRef? line)) .direction := by
  rw [Definition.ofLine, h.style, h.membership]
  cases directionIn? false line <;> rfl

/-- A line that is read as a statement states what is read of it without its
    class marks. -/
theorem statement_ofLine? : Statement.ofLine? line = Statement.read? (statementText line) := by
  rw [Statement.ofLine?, h.header, h.style, h.membership]
  rfl

/-- The flowchart of a header and a line that is read as a statement. A
    direction in the line takes the place of that in the header, and the nodes
    then join no class. -/
theorem ofLines_underHeader (config : Config) :
    ofLines [headerLine .topDown, line] config =
      { direction := (directionIn? false line).getD .topDown
        nodes := nodesOf ((Statement.read? (statementText line)).elim [] Statement.declarations)
          ((Statement.read? (statementText line)).elim [] Statement.edges) (markedIn line)
        edges := (Statement.read? (statementText line)).elim [] Statement.edges
        config } := by
  have hstated : [headerLine .topDown, line].filterMap Statement.ofLine? =
      (Statement.read? (statementText line)).toList := by
    rw [List.filterMap_cons_none (statement_headerLine .topDown), ← h.statement_ofLine?, List.filterMap_cons]
    cases Statement.ofLine? line <;> rfl
  have hstatement : ∀ {β : Type} (f : Statement → List β), ([headerLine .topDown, line].filterMap
      Statement.ofLine?).flatMap f = (Statement.read? (statementText line)).elim [] f := by
    intro β f
    rw [hstated]
    cases Statement.read? (statementText line) <;> simp
  rw [ofLines]
  simp only [hstatement, List.map_cons, List.map_nil, definition_headerLine, h.definition_ofLine, markedIn]
  cases directionIn? false line <;> simp [direction?, styles, joins]

end ReadAsStatement

end Statements

section Arrows

variable {id : String} {rest : List Char}

/-- A line that starts with the id of a node and, behind a space, a stroke. -/
def arrowLine (id : String) (rest : List Char) : List Char :=
  id.toList ++ ' ' :: '-' :: rest

variable (hid : IsName id)

include hid

/-- A line that starts with an id and a stroke is neither a header nor a class
    line. -/
theorem readAsStatement_arrowLine (rest : List Char) : ReadAsStatement (arrowLine id rest) := by
  refine readAsStatement_append_cons (d := '-') hid (by decide) (fun _ => ?_)
    (List.mem_cons_of_mem _ List.mem_cons_self) (by decide) (by decide)
  rw [skipSpaces_of_head? (forall_mem_head?_cons (by decide) _), word?_cons_eq_none (by decide)]

omit hid in
/-- An ampersand inside the text makes several targets of it, if something
    stands before and behind it and no line break does. -/
theorem isFanTargets_append {before s after : List Char} (hbefore : before ≠ []) (hafter : after ≠ [])
    (hamp : '&' ∈ s)
    (hreturn : '\r' ∉ before ++ (s ++ after)) (hfeed : '\n' ∉ before ++ (s ++ after)) :
    Statement.isFanTargets (before ++ (s ++ after)) = true := by
  obtain ⟨c, before, rfl⟩ := List.exists_cons_of_ne_nil hbefore
  have hinside : '&' ∈ (c :: before ++ (s ++ after)).tail.dropLast := by
    rw [List.cons_append, List.tail_cons,
      List.dropLast_append_of_ne_nil (List.append_ne_nil_of_right_ne_nil s hafter),
      List.dropLast_append_of_ne_nil hafter]
    exact List.mem_append_right _ (List.mem_append_left _ hamp)
  have hfree : (c :: before ++ (s ++ after)).any isLineBreak = false := by
    rw [List.any_eq_false]
    intro d hd
    simp [isLineBreak, ne_of_mem_of_not_mem hd hreturn, ne_of_mem_of_not_mem hd hfeed]
  rw [Statement.isFanTargets, hfree, List.any_eq_true.mpr ⟨'&', hinside, rfl⟩]
  rfl

/-- A line is read as arrows to several nodes if its targets are several. Parts
    between ampersands that are no references are passed over. -/
theorem fan?_arrowLine {gap targets : List Char} (hgap : ∀ c ∈ gap, isSpace c)
    (hhead : ∀ c ∈ targets.head?, isSpace c = false) (hfan : Statement.isFanTargets targets) :
    Statement.fan? (arrowLine id ('-' :: '>' :: (gap ++ targets))) =
      some (.fan ⟨id.toList, none⟩ (((splitOn '&' targets).map trim).filterMap NodeRef.whole?)) := by
  have htargets : afterSpaces 0 Statement.isFanTargets (gap ++ targets) = some targets :=
    afterSpaces_append (Nat.zero_le _) hgap hhead hfan
  have hskip : skipSpaces (' ' :: '-' :: '-' :: '>' :: (gap ++ targets)) = ['-', '-', '>'] ++ (gap ++ targets) :=
    skipSpaces_cons (by decide) (forall_mem_head?_cons (by decide) _)
  rw [Statement.fan?, arrowLine,
    NodeRef.readings_append hid.toList_ne_nil hid.chars (forall_mem_head?_cons ⟨by decide, by decide⟩ _),
    List.findSome?_singleton]
  dsimp only
  rw [hskip, after?_append]
  simp only [Option.bind_eq_bind, Option.bind_some, htargets, Option.pure_def]

end Arrows

end Flowchart

/-- The text of a header and a line that is a statement states the flowchart of
    the two, without settings, whoever reads them. -/
theorem Diagram.ofText_underHeader [YamlReader] {line : List Char} (hline : IsStatement line) :
    ofText (String.ofList (joinLines [Flowchart.headerLine .topDown, line])) =
      .flowchart (Flowchart.ofLines [Flowchart.headerLine .topDown, line] ∅) := by
  have hlines : ∀ l ∈ [Flowchart.headerLine .topDown, line], IsStatement l := by
    simpa using ⟨Flowchart.isStatement_headerLine .topDown, hline⟩
  rw [ofText_joinLines (List.cons_ne_nil _ _) hlines]
  rfl

end LiveDiagram
