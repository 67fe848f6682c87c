import LiveDiagram.Proofs.Flowchart.Mention
import LiveDiagram.Proofs.Flowchart.OneLine
import LiveDiagram.Proofs.Source.Statements
import LiveDiagram.Proofs.Source.Replaced
import LiveDiagram.Proofs.Text.Forms

namespace LiveDiagram

open Text

namespace Flowchart

namespace Mention

section Lines

/-- What stands behind the first target of several: each other target behind an
    ampersand. -/
def laterText (ts : List Mention) : List Char :=
  ts.flatMap fun t => [' ', '&', ' '] ++ t.text

/-- The line of the arrows from a node to one or several others. -/
def arrowsLine (s : Mention) (ts : List Mention) : List Char :=
  s.text ++ ([' ', '-', '-', '>', ' '] ++ List.intercalate [' ', '&', ' '] (ts.map text))

/-- The lines of the arrows from a node to several others, one for each of them.
    The node is written with its label and its class on the first line only. -/
def arrowLines (s : Mention) : List Mention → List (List Char)
  | [] => []
  | t :: ts => arrowsLine s [t] :: ts.map fun u => arrowsLine s.bare [u]

/-- A line of arrows with its first target apart from the others. -/
theorem arrowsLine_cons (s t : Mention) (ts : List Mention) :
    arrowsLine s (t :: ts) = s.text ++ ([' ', '-', '-', '>', ' '] ++ (t.text ++ laterText ts)) := by
  rw [arrowsLine, List.map_cons, intercalate_cons_eq_flatMap, List.flatMap_map]
  rfl

theorem laterText_cons (t : Mention) (ts : List Mention) :
    laterText (t :: ts) = [' ', '&', ' '] ++ (t.text ++ laterText ts) := by
  rw [laterText, List.flatMap_cons, List.append_assoc]
  rfl

/-- No word goes on where the later targets start, and no label is opened
    there. -/
theorem apart_laterText (ts : List Mention) : Apart (laterText ts) := by
  cases ts with
  | nil => exact apart_nil
  | cons t ts =>
    rw [laterText_cons]
    exact apart_cons _

/-- A line of arrows starts with an id, behind which no word goes on, and has a
    stroke. No class line looks like this, since behind the keyword and white
    space it goes on with a word. -/
theorem exists_arrowsLine_eq (s t : Mention) (ts : List Mention) :
    ∃ c rest, arrowsLine s (t :: ts) = s.id.toList ++ c :: rest ∧ isWordChar c = false ∧
      (isSpace c → word? (skipSpaces rest) = none) ∧ '-' ∈ c :: rest := by
  have hline : arrowsLine s (t :: ts) = s.id.toList ++ (s.label.text ++ (markText s.className ++
      ' ' :: '-' :: (['-', '>', ' '] ++ (t.text ++ laterText ts)))) := by
    rw [arrowsLine_cons, text, List.append_assoc, List.append_assoc]
    rfl
  generalize ['-', '>', ' '] ++ (t.text ++ laterText ts) = arrow at hline
  rw [hline]
  cases s.label with
  | absent =>
    cases s.className with
    | none =>
      refine ⟨' ', '-' :: arrow, rfl, by decide, fun _ => ?_, by simp⟩
      rw [skipSpaces_of_head? (forall_mem_head?_cons (by decide) _), word?_cons_eq_none (by decide)]
    | some name =>
      exact ⟨':', ':' :: ':' :: (name.toList ++ ' ' :: '-' :: arrow), rfl, by decide,
        fun hspace => absurd hspace (by decide), by simp⟩
  | bracketed label =>
    exact ⟨'[', (label.toList ++ [']']) ++ (markText s.className ++ ' ' :: '-' :: arrow), rfl, by decide,
      fun hspace => absurd hspace (by decide), by simp⟩
  | quoted label =>
    exact ⟨'[', '"' :: ((label.toList ++ ['"', ']']) ++ (markText s.className ++ ' ' :: '-' :: arrow)),
      rfl, by decide,
      fun hspace => absurd hspace (by decide), by simp⟩

theorem apart_arrow (rest : List Char) : Apart ([' ', '-', '-', '>', ' '] ++ rest) :=
  apart_cons _

end Lines

section Marks

variable {s t : Mention} {ts : List Mention}

/-- The later targets join the classes that stand behind them. -/
theorem findAll_markedRef?_laterText (hts : ∀ u ∈ ts, u.Plain) :
    findAll markedRef? (laterText ts) = ts.flatMap joins := by
  induction ts with
  | nil => rfl
  | cons u ts ih =>
    obtain ⟨hu, hts⟩ := List.forall_mem_cons.mp hts
    rw [laterText_cons, findAll_markedRef?_append (by decide) (by decide) (by simp [isWordChar]),
      hu.findAll_markedRef?_text (apart_laterText ts), ih hts, List.flatMap_cons]

/-- The nodes of a line of arrows join the classes that stand behind them, from
    left to right, whether there is one target or more. -/
theorem findAll_markedRef?_arrowsLine (hs : s.Plain) (hts : ∀ u ∈ t :: ts, u.Plain) :
    findAll markedRef? (arrowsLine s (t :: ts)) = (s :: t :: ts).flatMap joins := by
  obtain ⟨ht, hts⟩ := List.forall_mem_cons.mp hts
  rw [arrowsLine_cons, hs.findAll_markedRef?_text (apart_arrow _),
    findAll_markedRef?_append (by decide) (by decide) (by simp [isWordChar]),
    ht.findAll_markedRef?_text (apart_laterText ts), findAll_markedRef?_laterText hts, List.flatMap_cons,
    List.flatMap_cons]

/-- Without its class marks, the text of later targets is that of the same
    targets without a class. -/
theorem eraseAll_classMark?_laterText (hts : ∀ u ∈ ts, u.Plain) :
    eraseAll classMark? (laterText ts) = laterText (ts.map unmarked) := by
  induction ts with
  | nil => rfl
  | cons u ts ih =>
    obtain ⟨hu, hts⟩ := List.forall_mem_cons.mp hts
    rw [laterText_cons, eraseAll_append_of_unread (classMark?_append_eq_none (by decide) _),
      hu.eraseAll_classMark?_text (apart_laterText ts), ih hts, List.map_cons, laterText_cons]

/-- Without its class marks, a line of arrows is the line of the same references
    without a class. Labels keep what looks like a mark of theirs, since plain
    ones have none. -/
theorem eraseAll_classMark?_arrowsLine (hs : s.Plain) (hts : ∀ u ∈ t :: ts, u.Plain) :
    eraseAll classMark? (arrowsLine s (t :: ts)) = arrowsLine s.unmarked ((t :: ts).map unmarked) := by
  obtain ⟨ht, hts⟩ := List.forall_mem_cons.mp hts
  rw [arrowsLine_cons, hs.eraseAll_classMark?_text (apart_arrow _),
    eraseAll_append_of_unread (classMark?_append_eq_none (by decide) _),
    ht.eraseAll_classMark?_text (apart_laterText ts), eraseAll_classMark?_laterText hts, List.map_cons,
      arrowsLine_cons]

end Marks

section Shape

variable {s t : Mention} {ts : List Mention} {c : Char}

/-- A character that neither a plain reference nor what stands between
    references holds is not in the text of later targets. -/
theorem not_mem_laterText (hts : ∀ u ∈ ts, u.Plain) (hc : isPlainChar c = false)
    (hmarks : c ∉ ['[', '"', ']', ':', ' ', '&']) : c ∉ laterText ts := by
  simp only [List.mem_cons, List.not_mem_nil, or_false, not_or] at hmarks
  intro hmem
  obtain ⟨u, hu, hmem⟩ := List.mem_flatMap.mp hmem
  have htext : c ∉ u.text := (hts u hu).not_mem_text hc (by simp [hmarks])
  simp [hmarks, htext] at hmem

/-- No word in the text of later targets opens a flowchart. -/
theorem headerFree_laterText (hts : ∀ u ∈ ts, u.Plain) : HeaderFree (laterText ts) := by
  induction ts with
  | nil => decide
  | cons u ts ih =>
    obtain ⟨hu, hts⟩ := List.forall_mem_cons.mp hts
    have htarget : HeaderFree (u.text ++ laterText ts) :=
      headerFree_append hu.headerFree_text (ih hts) fun d hd => ((apart_laterText ts).ends d hd).1
    have hopen : HeaderFree ([' ', '&'] ++ ' ' :: (u.text ++ laterText ts)) :=
      (headerFree_append_cons (by decide)).mpr ⟨by decide, htarget⟩
    rw [laterText_cons]
    exact hopen

theorem plain_map_unmarked (hts : ∀ u ∈ ts, u.Plain) : ∀ u ∈ ts.map unmarked, u.Plain :=
  List.forall_mem_map.mpr fun u hu => (hts u hu).unmarked

variable (hs : s.Plain) (hts : ∀ u ∈ t :: ts, u.Plain)

include hs hts

/-- A character that neither a plain reference nor an arrow holds is not in a
    line of arrows. -/
theorem not_mem_arrowsLine (hc : isPlainChar c = false)
    (hmarks : c ∉ ['[', '"', ']', ':', ' ', '&', '-', '>']) : c ∉ arrowsLine s (t :: ts) := by
  obtain ⟨ht, hts⟩ := List.forall_mem_cons.mp hts
  simp only [List.mem_cons, List.not_mem_nil, or_false, not_or] at hmarks
  have hsource : c ∉ s.text := hs.not_mem_text hc (by simp [hmarks])
  have htarget : c ∉ t.text := ht.not_mem_text hc (by simp [hmarks])
  have hlater : c ∉ laterText ts := not_mem_laterText hts hc (by simp [hmarks])
  rw [arrowsLine_cons]
  simp [hsource, htarget, hlater, hmarks]

/-- No word in a line of arrows opens a flowchart, so the line sets no
    direction. -/
theorem headerFree_arrowsLine : HeaderFree (arrowsLine s (t :: ts)) := by
  obtain ⟨ht, hts⟩ := List.forall_mem_cons.mp hts
  have htarget : HeaderFree (t.text ++ laterText ts) :=
    headerFree_append ht.headerFree_text (headerFree_laterText hts) fun d hd => ((apart_laterText ts).ends d hd).1
  have harrow : HeaderFree ([' ', '-', '-', '>', ' '] ++ (t.text ++ laterText ts)) := by
    have hopen : HeaderFree ([' ', '-', '-', '>'] ++ ' ' :: (t.text ++ laterText ts)) :=
      (headerFree_append_cons (by decide)).mpr ⟨by decide, htarget⟩
    exact hopen
  rw [arrowsLine_cons]
  exact headerFree_append hs.headerFree_text harrow fun d hd => ((apart_arrow _).ends d hd).1

omit hts in
/-- What starts with a reference and an arrow behind it is neither a header nor
    a class line. -/
theorem readAsStatement_arrowsLine (t : Mention) (ts : List Mention) :
    ReadAsStatement (arrowsLine s (t :: ts)) := by
  obtain ⟨c, rest, hline, hc, hnext, hhyphen⟩ := exists_arrowsLine_eq s t ts
  rw [hline]
  exact readAsStatement_append_cons hs.id hc hnext hhyphen (by decide) (by decide)

omit hs in
/-- A line of arrows ends as one of its references does, in a word or a
    bracket. -/
theorem getLast?_arrowsLine (s : Mention) :
    ∀ d ∈ (arrowsLine s (t :: ts)).getLast?, isWordChar d ∨ d = ']' := by
  obtain ⟨front, u, hu, hline⟩ : ∃ front u, u ∈ t :: ts ∧ arrowsLine s (t :: ts) = front ++ u.text := by
    obtain rfl | ⟨us, u, rfl⟩ := List.eq_nil_or_concat' ts
    · exact ⟨s.text ++ [' ', '-', '-', '>', ' '], t, List.mem_cons_self, by simp [arrowsLine]⟩
    · refine ⟨s.text ++ ([' ', '-', '-', '>', ' '] ++ (t.text ++ (laterText us ++ [' ', '&', ' ']))), u,
        by simp, ?_⟩
      simp [arrowsLine_cons, laterText]
  intro d hd
  rw [hline, List.getLast?_append_of_ne_nil front (hts u hu).text_ne_nil] at hd
  exact (hts u hu).getLast?_text d hd

/-- A line of arrows is a statement as it stands. -/
theorem isStatement_arrowsLine : IsStatement (arrowsLine s (t :: ts)) where
  noBreak := not_mem_arrowsLine hs hts (by decide) (by decide)
  head := by
    rw [arrowsLine, text, List.append_assoc]
    exact hs.id.head?_any _
  last d hd := by
    rcases getLast?_arrowsLine hts s d hd with hword | rfl
    · exact isBlank_eq_false_of_isWordChar hword
    · rfl

/-- What is read of a line of arrows is the line without its classes. It has no
    semicolon at its end to lose. -/
theorem statementText_arrowsLine :
    statementText (arrowsLine s (t :: ts)) = arrowsLine s.unmarked ((t :: ts).map unmarked) := by
  have hunmarked : ∀ u ∈ (t :: ts).map unmarked, u.Plain := plain_map_unmarked hts
  have herased := eraseAll_classMark?_arrowsLine hs hts
  rw [← herased]
  refine statementText_eq_eraseAll ?_ ?_
  · rw [herased]
    exact (isStatement_arrowsLine hs.unmarked hunmarked).trim_eq_self
  · rw [herased]
    intro d hd
    rcases getLast?_arrowsLine hunmarked s.unmarked d hd with hword | rfl
    · rw [beq_eq_false_iff_ne]
      rintro rfl
      exact absurd hword (by decide)
    · rfl

/-- A line of arrows defines nothing but the classes that its nodes join. -/
theorem definition_arrowsLine :
    Definition.ofLine (arrowsLine s (t :: ts)) = .members ((s :: t :: ts).flatMap joins) := by
  rw [(readAsStatement_arrowsLine hs t ts).definition_ofLine, (headerFree_arrowsLine hs hts).directionIn?_eq_none,
    findAll_markedRef?_arrowsLine hs hts]
  rfl

end Shape

section Reading

variable {s t : Mention} {ts : List Mention}

/-- The parts between the ampersands are the targets, up to the spaces around
    them. No plain target holds an ampersand. -/
theorem map_trim_splitOn {first : List Char} (hfirst : '&' ∉ first) (hts : ∀ u ∈ ts, u.Plain) :
    (splitOn '&' (first ++ laterText ts)).map trim = trim first :: ts.map text := by
  induction ts generalizing first with
  | nil =>
    have hend : first ++ laterText [] = first := List.append_nil first
    rw [hend, splitOn_eq, List.splitOn_eq_singleton hfirst]
    rfl
  | cons u ts ih =>
    obtain ⟨hu, hts⟩ := List.forall_mem_cons.mp hts
    have htext : first ++ laterText (u :: ts) =
        (first ++ [' ']) ++ '&' :: ((' ' :: u.text) ++ laterText ts) := by
      rw [laterText_cons]
      simp
    have hnext : '&' ∉ ' ' :: u.text := by simp [hu.not_mem_text (c := '&') (by decide) (by decide)]
    have hspace : trim (' ' :: u.text) = trim u.text := strip_cons (by decide) _
    rw [htext, splitOn_eq, List.splitOn_append_cons_self_of_not_mem (by simp [hfirst]), ← splitOn_eq, List.map_cons,
      ih hnext hts, trim_append_singleton (by decide), hspace, hu.trim_text, List.map_cons]

/-- Between the ampersands the targets are read, each as a whole. -/
theorem filterMap_whole?_splitOn (hts : ∀ u ∈ t :: ts, u.Plain) :
    ((splitOn '&' (t.unmarked.text ++ laterText (ts.map unmarked))).map trim).filterMap NodeRef.whole? =
      (t :: ts).map ref := by
  obtain ⟨ht, hlater⟩ := List.forall_mem_cons.mp hts
  have hread : ∀ v ∈ t :: ts, NodeRef.whole? v.unmarked.text = some v.ref :=
    fun v hv => (hts v hv).whole?_unmarked
  have hampersand : '&' ∉ t.unmarked.text := ht.unmarked.not_mem_text (by decide) (by decide)
  rw [← filterMap_map_eq_map hread, map_trim_splitOn hampersand (plain_map_unmarked hlater), ht.unmarked.trim_text]
  simp [Function.comp_def]

/-- Two targets or more are targets of several arrows: an ampersand stands
    between them, and there is no line break. -/
theorem isFanTargets_laterText {u : Mention} (hts : ∀ v ∈ t :: u :: ts, v.Plain) :
    Statement.isFanTargets (t.text ++ laterText (u :: ts)) := by
  obtain ⟨ht, hlater⟩ := List.forall_mem_cons.mp hts
  have hu : u.Plain := hlater u List.mem_cons_self
  have hbreak : ∀ c ∈ ['\r', '\n'], c ∉ t.text ++ laterText (u :: ts) := by
    have hmarks : ∀ c ∈ ['\r', '\n'], isPlainChar c = false ∧ c ∉ ['[', '"', ']', ':', ' ', '&'] := by
      simp [isPlainChar, isWordChar]
    intro c hc
    obtain ⟨hplain, hmarks⟩ := hmarks c hc
    rw [List.mem_append, not_or]
    exact ⟨ht.not_mem_text hplain (by simp_all), not_mem_laterText hlater hplain hmarks⟩
  rw [laterText_cons] at hbreak ⊢
  exact isFanTargets_append ht.text_ne_nil (List.append_ne_nil_of_left_ne_nil hu.text_ne_nil _) (by decide)
    (hbreak '\r' (by decide)) (hbreak '\n' (by decide))

variable (hs : s.Plain)

include hs

/-- One target is read as the target of an arrow, by the form that is searched
    for an arrow. -/
theorem read?_arrowsLine_singleton (ht : t.Plain) :
    Statement.read? (arrowsLine s.unmarked [t.unmarked]) = some (.link s.ref [] .arrow t.ref) := by
  have hmarks : ∀ c ∈ ['-', '<', '|', '&'], isPlainChar c = false ∧ c ∉ ['[', '"', ']', ':'] := by
    simp [isPlainChar, isWordChar]
  have hline : arrowsLine s.unmarked [t.unmarked] =
      s.unmarked.text ++ ' ' :: (['-', '-', '>'] ++ ' ' :: t.unmarked.text) := by simp [arrowsLine]
  have htarget := ht.read?_unmarked apart_nil
  have hhead := ht.unmarked.head?_text []
  rw [List.append_nil] at htarget hhead
  rw [hline]
  exact Statement.read?_arrow (hs.read?_unmarked (apart_cons _)) htarget hhead
    (fun c hc => hs.unmarked.not_mem_text (hmarks c hc).1 (hmarks c hc).2)
    fun c hc => ht.unmarked.not_mem_text (hmarks c hc).1 (hmarks c hc).2

/-- Several targets are read as such, by the form for several arrows, which is
    tried first and has to fit the whole statement. -/
theorem read?_arrowsLine_cons_cons {u : Mention} (hts : ∀ v ∈ t :: u :: ts, v.Plain) :
    Statement.read? (arrowsLine s.unmarked ((t :: u :: ts).map unmarked)) =
      some (.fan s.ref ((t :: u :: ts).map ref)) := by
  have hsplit := filterMap_whole?_splitOn hts
  have hseveral : Statement.isFanTargets (t.unmarked.text ++ laterText ((u :: ts).map unmarked)) :=
    isFanTargets_laterText (plain_map_unmarked hts)
  have hhead := (hts t List.mem_cons_self).unmarked.head?_text (laterText ((u :: ts).map unmarked))
  have hline : arrowsLine s.unmarked ((t :: u :: ts).map unmarked) = s.unmarked.text ++
      ' ' :: (['-', '-', '>'] ++ ([' '] ++ (t.unmarked.text ++ laterText ((u :: ts).map unmarked)))) :=
    arrowsLine_cons ..
  generalize t.unmarked.text ++ laterText ((u :: ts).map unmarked) = targets at hsplit hseveral hhead hline
  obtain ⟨others, hreadings⟩ := hs.exists_readings (apart_cons (['-', '-', '>'] ++ ([' '] ++ targets)))
  have hskip : skipSpaces (' ' :: (['-', '-', '>'] ++ ([' '] ++ targets))) =
      ['-', '-', '>'] ++ ([' '] ++ targets) :=
    skipSpaces_cons (by decide) (forall_mem_head?_cons (by decide) _)
  have hgap : afterSpaces 0 Statement.isFanTargets ([' '] ++ targets) = some targets :=
    afterSpaces_append (Nat.zero_le _) (List.forall_mem_singleton.mpr rfl) hhead hseveral
  have hfan : Statement.fan? (arrowsLine s.unmarked ((t :: u :: ts).map unmarked)) =
      some (.fan s.ref ((t :: u :: ts).map ref)) := by
    rw [Statement.fan?, hline, hreadings, List.findSome?_cons]
    simp only [hskip, after?_append, Option.bind_eq_bind, Option.bind_some, hgap, Option.pure_def, hsplit]
  rw [Statement.read?, hfan]
  rfl

end Reading

section Statements

variable {s t : Mention} {ts : List Mention} (hs : s.Plain)

include hs

/-- The line of a single arrow states an edge between its two nodes. -/
theorem statement_arrowsLine_singleton (ht : t.Plain) :
    Statement.ofLine? (arrowsLine s [t]) = some (.link s.ref [] .arrow t.ref) := by
  rw [(readAsStatement_arrowsLine hs t []).statement_ofLine?,
    statementText_arrowsLine hs (List.forall_mem_singleton.mpr ht)]
  exact read?_arrowsLine_singleton hs ht

/-- The references that have a label are declared, and an edge is stated to each
    target, however many there are. The two forms of statements are not told
    apart here. -/
theorem exists_statement_arrowsLine (hts : ∀ u ∈ t :: ts, u.Plain) :
    ∃ statement, Statement.ofLine? (arrowsLine s (t :: ts)) = some statement ∧
      statement.declarations = ((s :: t :: ts).map ref).filterMap NodeRef.declared? ∧
      statement.edges = (t :: ts).map fun u => { source := s.id, target := u.id } := by
  cases ts with
  | nil =>
    refine ⟨_, statement_arrowsLine_singleton hs (hts t List.mem_cons_self), rfl, ?_⟩
    simp [Statement.edges, ref]
  | cons u ts =>
    have hread : Statement.ofLine? (arrowsLine s (t :: u :: ts)) = some (.fan s.ref ((t :: u :: ts).map ref)) := by
      rw [(readAsStatement_arrowsLine hs t (u :: ts)).statement_ofLine?, statementText_arrowsLine hs hts]
      exact read?_arrowsLine_cons_cons hs hts
    refine ⟨_, hread, rfl, ?_⟩
    simp [Statement.edges, ref, Function.comp_def]

end Statements

end Mention

section Alike

variable (before after : List Definition) (members : List (List (String × String)))

/-- Lines that only put nodes into classes set no direction, wherever they
    stand. -/
theorem direction?_append_members :
    direction? (before ++ (members.map .members ++ after)) = direction? (before ++ after) := by
  simp [direction?, List.filterMap_append, List.filterMap_map]

theorem styles_append_members : styles (before ++ (members.map .members ++ after)) = styles (before ++ after) := by
  simp [styles, List.filterMap_append, List.filterMap_map]

/-- Lines that only put nodes into classes do so in their order, between the
    other lines. -/
theorem joins_append_members :
    joins (before ++ (members.map .members ++ after)) = joins before ++ (members.flatten ++ joins after) := by
  simp [joins, List.flatMap_append, List.flatMap_map]

/-- Two groups of lines define and state the same, and neither sets the
    direction or a style. -/
structure StateAlike (ls ls' : List (List Char)) : Prop where
  declarations : (ls.filterMap Statement.ofLine?).flatMap Statement.declarations =
    (ls'.filterMap Statement.ofLine?).flatMap Statement.declarations
  edges : (ls.filterMap Statement.ofLine?).flatMap Statement.edges =
    (ls'.filterMap Statement.ofLine?).flatMap Statement.edges
  members : ∃ members members' : List (List (String × String)), ls.map Definition.ofLine = members.map .members ∧
    ls'.map Definition.ofLine = members'.map .members ∧ members.flatten = members'.flatten

/-- In the midst of other lines, a group of lines can stand for another that
    states the same, since a flowchart is made of what its lines declare, state
    and join, each in order. -/
theorem StateAlike.ofLines_eq {ls ls' : List (List Char)} (h : StateAlike ls ls') (before after : List (List Char))
    (config : Config) : ofLines (before ++ (ls ++ after)) config = ofLines (before ++ (ls' ++ after)) config := by
  obtain ⟨members, members', hmembers, hmembers', hflatten⟩ := h.members
  simp only [ofLines, List.map_append, List.filterMap_append, List.flatMap_append, h.declarations,
    h.edges, hmembers,
    hmembers', direction?_append_members, styles_append_members, joins_append_members, hflatten]

end Alike

namespace Mention

variable {s t : Mention} {ts : List Mention}

/-- The line of the arrows to several nodes states what the lines of the single
    arrows do. The source declares its label and joins its class once in both,
    as only the first of the lines writes it out. -/
theorem stateAlike_arrowLines (hs : s.Plain) (hts : ∀ u ∈ t :: ts, u.Plain) :
    StateAlike [arrowsLine s (t :: ts)] (arrowLines s (t :: ts)) := by
  obtain ⟨ht, hlater⟩ := List.forall_mem_cons.mp hts
  obtain ⟨statement, hread, hdeclarations, hedges⟩ := exists_statement_arrowsLine hs hts
  have hfirst := statement_arrowsLine_singleton hs ht
  have hrest : (ts.map fun u => arrowsLine s.bare [u]).filterMap Statement.ofLine? =
      ts.map fun u => .link s.bare.ref [] .arrow u.ref :=
    filterMap_map_eq_map fun u hu => statement_arrowsLine_singleton hs.bare (hlater u hu)
  have hlines : (arrowLines s (t :: ts)).filterMap Statement.ofLine? =
      .link s.ref [] .arrow t.ref :: ts.map fun u => .link s.bare.ref [] .arrow u.ref := by
    rw [arrowLines, List.filterMap_cons_some hfirst, hrest]
  have hbare : ∀ u : Mention, Statement.declarations (.link s.bare.ref [] .arrow u.ref) =
      u.ref.declared?.toList := fun u => by
    rw [Statement.declarations, List.filterMap_cons_none s.declared?_bare, List.filterMap_eq_flatMap_toList,
      List.flatMap_singleton]
  have hsplit : (s :: t :: ts).map ref = [s.ref, t.ref] ++ ts.map ref := rfl
  have hedge : ∀ u v : Mention, u.id = s.id → Statement.edges (.link u.ref [] .arrow v.ref) =
      [{ source := s.id, target := v.id }] := fun u v hid => by simp [Statement.edges, ref, hid]
  constructor
  case declarations =>
    rw [List.filterMap_cons_some hread, hlines, List.filterMap_nil, List.flatMap_singleton, hdeclarations,
      List.flatMap_cons, List.flatMap_map, hsplit, List.filterMap_append, List.filterMap_map,
      List.filterMap_eq_flatMap_toList (f := _ ∘ ref)]
    simp only [hbare, Function.comp_apply]
    rfl
  case edges =>
    rw [List.filterMap_cons_some hread, hlines, List.filterMap_nil, List.flatMap_singleton, hedges,
      List.flatMap_cons, List.flatMap_map, hedge s t rfl]
    simp only [hedge s.bare _ rfl]
    rw [List.map_cons, List.map_eq_flatMap, List.singleton_append]
  case members =>
    refine ⟨[(s :: t :: ts).flatMap joins], [s, t].flatMap joins :: ts.map fun u => [s.bare, u].flatMap joins,
      ?_, ?_, ?_⟩
    · rw [List.map_singleton, definition_arrowsLine hs hts]
      rfl
    · rw [arrowLines, List.map_cons, definition_arrowsLine hs (List.forall_mem_singleton.mpr ht), List.map_cons,
        List.map_map, List.map_map]
      refine congrArg _ (List.map_congr_left fun u hu => ?_)
      exact definition_arrowsLine hs.bare (List.forall_mem_singleton.mpr (hlater u hu))
    · simp [joins_bare, List.flatMap]

/-- Each line of a single arrow is a statement as it stands. -/
theorem isStatement_of_mem_arrowLines (hs : s.Plain) (hts : ∀ u ∈ t :: ts, u.Plain) {line : List Char}
    (hline : line ∈ arrowLines s (t :: ts)) : IsStatement line := by
  obtain ⟨ht, hlater⟩ := List.forall_mem_cons.mp hts
  rcases List.mem_cons.mp hline with rfl | hmem
  · exact isStatement_arrowsLine hs (List.forall_mem_singleton.mpr ht)
  · obtain ⟨u, hu, rfl⟩ := List.mem_map.mp hmem
    exact isStatement_arrowsLine hs.bare (List.forall_mem_singleton.mpr (hlater u hu))

/-- Whether a line of arrows makes a text a sequence diagram is told by the id
    that it starts with, and this is the same id on the first of the single
    lines. -/
theorem isSequence_arrowLines (s t : Mention) (ts : List Mention) (front after : List (List Char)) :
    isSequence (front ++ (arrowLines s (t :: ts) ++ after)) =
      isSequence (front ++ ([arrowsLine s (t :: ts)] ++ after)) := by
  cases front with
  | cons line front => rfl
  | nil =>
    have hkeyword : "sequence".toList.all fun c => isWordChar c.toLower := by decide
    have hstart : ∀ us : List Mention, (afterAnyCase? "sequence".toList (arrowsLine s (t :: us))).isSome =
        (afterAnyCase? "sequence".toList s.id.toList).isSome := by
      intro us
      obtain ⟨c, rest, hline, hc, -⟩ := exists_arrowsLine_eq s t us
      rw [hline, isSome_afterAnyCase?_append_cons hkeyword hc]
    simp only [isSequence, arrowLines, List.nil_append, List.cons_append, List.head?_cons, Option.any_some, hstart]

end Mention

end Flowchart

namespace Diagram

open Flowchart Mention

variable {s t : Mention} {ts : List Mention}

/-- Arrows to several nodes on one line are short for the arrows to each of them
    on a line of its own, where the node that they start from is written out
    once. The lines may stand anywhere in the text of a flowchart, with blanks
    around them. If they stand behind the settings, the diagram is the same with
    its settings; if they are settings themselves, the text states the same and
    a reader may find other settings. -/
theorem ofText_arrowLines [YamlReader] {text text' : String} {before after raws : List (List Char)}
    {raw : List Char}
    {d : Flowchart} (hs : s.Plain) (hts : ∀ u ∈ t :: ts, u.Plain)
    (htext : lines text.toList = before ++ raw :: after) (hraw : trim raw = arrowsLine s (t :: ts))
    (htext' : lines text'.toList = before ++ (raws ++ after)) (hraws : raws.map trim = arrowLines s (t :: ts))
    (hflowchart : ofText text = .flowchart d) :
    ∃ config, ofText text' = .flowchart { d with config } ∧
      (raw :: after <:+ bodyLines (lines text.toList) → config = d.config) := by
  have hstatement : ∀ line ∈ [raw], IsStatement (trim line) := by
    rw [List.forall_mem_singleton, hraw]
    exact isStatement_arrowsLine hs hts
  have hstatements : ∀ line ∈ raws, IsStatement (trim line) := fun line hline =>
    isStatement_of_mem_arrowLines hs hts (hraws ▸ List.mem_map_of_mem hline)
  have hne : raws ≠ [] := by
    rintro rfl
    cases hraws
  replace htext : lines text.toList = before ++ ([raw] ++ after) := htext
  have hreplaced := statements_replace before after (List.cons_ne_nil raw []) hne hstatement hstatements
  obtain ⟨hkind, rfl⟩ := ofText_eq_flowchart_iff.mp hflowchart
  rw [statementLines, htext] at hkind
  refine ⟨Config.ofLines (lines text'.toList), ofText_eq_flowchart_iff.mpr ?_, fun hbehind => ?_⟩
  · -- the settings are kept as they are found, so only the statements are to be compared
    show _ ∧ Flowchart.ofLines (statementLines text) _ = Flowchart.ofLines (statementLines text') _
    rw [statementLines, statementLines, htext, htext']
    rcases hreplaced with ⟨-, hsame⟩ | ⟨-, front, hfront, hfront'⟩
    · rw [hsame]
      exact ⟨hkind, rfl⟩
    · rw [hfront, List.map_singleton, hraw] at hkind ⊢
      rw [hfront', hraws, ← (stateAlike_arrowLines hs hts).ofLines_eq]
      exact ⟨hkind ▸ isSequence_arrowLines s t ts front _, rfl⟩
  · show Config.ofLines (lines text'.toList) = Config.ofLines (lines text.toList)
    rw [htext] at hbehind ⊢
    rw [htext']
    rcases hreplaced with ⟨hsuffix, -⟩ | ⟨hconfig, -⟩
    · exact absurd (hbehind.trans hsuffix).length_le (Nat.not_succ_le_self _)
    · exact hconfig

/-- A text with a line of arrows to three nodes, behind a block of settings. -/
def threeTargetsText : String :=
  "---\nlayout: auto\n---\nflowchart LR\nd\n a[Start]:::hot --> b & c[\"See me\"]:::cold & d\r\nd --> a"

/-- The same with three lines of one arrow each. -/
def threeArrowsText : String :=
  "---\nlayout: auto\n---\nflowchart LR\nd\na[Start]:::hot --> b\n\ta --> c[\"See me\"]:::cold\na --> d\nd --> a"

/-- The flowchart of both texts. -/
def threeArrows : Flowchart where
  direction := .leftRight
  nodes := [⟨"a", "Start", some "hot"⟩, ⟨"c", "See me", some "cold"⟩, ⟨"b", "b", none⟩,
    ⟨"d", "d", none⟩]
  edges := [⟨"a", "b", "", .arrow⟩, ⟨"a", "c", "", .arrow⟩, ⟨"a", "d", "", .arrow⟩,
    ⟨"d", "a", "", .arrow⟩]
  config := (∅ : Config).insert "layout" "auto"

/-- Both texts with the arrows to three nodes, behind settings that stay the
    same. The single lines have other blanks around them. -/
theorem ofText_arrowLines_threeTargets :
    ofText threeTargetsText = .flowchart threeArrows ∧ ofText threeArrowsText = .flowchart threeArrows := by
  have hread : ofText threeTargetsText = .flowchart threeArrows := rfl
  let before := ["---".toList, "layout: auto".toList, "---".toList, "flowchart LR".toList, "d".toList]
  let arrows := ["a[Start]:::hot --> b".toList, "\ta --> c[\"See me\"]:::cold".toList, "a --> d".toList]
  have hsource : Plain ⟨"a", .bracketed "Start", some "hot"⟩ := by decide
  have htargets : ∀ u ∈
    ([⟨"b", .absent, none⟩, ⟨"c", .quoted "See me", some "cold"⟩, ⟨"d", .absent, none⟩] :
      List Mention), u.Plain := by
    decide
  have hlines : lines threeTargetsText.toList =
      before ++ " a[Start]:::hot --> b & c[\"See me\"]:::cold & d".toList :: ["d --> a".toList] := rfl
  have hlines' : lines threeArrowsText.toList = before ++ (arrows ++ ["d --> a".toList]) := rfl
  obtain ⟨config, htext', hsettings⟩ := ofText_arrowLines hsource htargets hlines rfl hlines' rfl hread
  obtain rfl := hsettings ⟨["flowchart LR".toList, "d".toList], rfl⟩
  exact ⟨hread, htext'⟩

end Diagram

end LiveDiagram
