import LiveDiagram.Proofs.Flowchart.Reading
import LiveDiagram.Proofs.Flowchart.Stated
import LiveDiagram.Proofs.Source.Statements

namespace LiveDiagram

open Text

/-- Whichever way a reference is read, its id is a word. -/
theorem NodeRef.isWord_of_mem_readings {s rest : List Char} {r : NodeRef} (h : (r, rest) ∈ readings s) :
    IsWord r.id := by
  unfold readings at h
  split at h
  · cases h
  · rename_i id after hword
    have hid : IsWord id := isWord_of_word? hword
    simp only [List.mem_append, Option.mem_toList, Option.map_eq_some_iff, List.mem_singleton,
      Prod.mk.injEq] at h
    obtain (⟨-, -, rfl, -⟩ | ⟨-, -, rfl, -⟩) | ⟨rfl, -⟩ := h
    all_goals exact hid

namespace Flowchart

namespace Statement

/-- The ids that a statement names. -/
def ids : Statement → List (List Char)
  | fan source targets => source.id :: targets.map NodeRef.id
  | link source _ _ target => [source.id, target.id]
  | node id _ => [id]

variable {s : List Char} {statement : Statement}

/-- The ids of arrows to several nodes are words, the targets being whole
    references. -/
theorem isWord_of_fan? (h : fan? s = some statement) : ∀ id ∈ statement.ids, IsWord id := by
  obtain ⟨⟨source, rest⟩, hsource, h⟩ := List.exists_of_findSome?_eq_some h
  simp only [Option.bind_eq_bind, Option.bind_eq_some_iff, Option.pure_def, Option.some.injEq] at h
  obtain ⟨_, -, _, -, rfl⟩ := h
  intro id hid
  rcases List.mem_cons.mp hid with rfl | hid
  · exact NodeRef.isWord_of_mem_readings hsource
  · obtain ⟨target, htarget, rfl⟩ := List.mem_map.mp hid
    obtain ⟨part, -, hpart⟩ := List.mem_filterMap.mp htarget
    obtain ⟨⟨_, rest⟩, hfound, rfl⟩ := Option.map_eq_some_iff.mp hpart
    exact NodeRef.isWord_of_mem_readings (List.mem_of_find?_eq_some hfound)

/-- The ids of an edge are words, whatever its arrow is. -/
theorem isWord_of_linkAt? {kind : EdgeKind} {arrow : List Char → Option (List Char × List Char)}
    (h : linkAt? kind arrow s = some statement) : ∀ id ∈ statement.ids, IsWord id := by
  obtain ⟨⟨source, rest⟩, hsource, h⟩ := List.exists_of_findSome?_eq_some h
  simp only [Option.bind_eq_bind, Option.bind_eq_some_iff, Option.pure_def, Option.some.injEq] at h
  obtain ⟨_, -, ⟨target, _⟩, htarget, rfl⟩ := h
  have hends : IsWord source.id ∧ IsWord target.id :=
    ⟨NodeRef.isWord_of_mem_readings hsource, NodeRef.isWord_of_mem_readings (List.mem_of_mem_head? htarget)⟩
  simpa [ids] using hends

/-- The id of a node with a quoted label is a word. -/
theorem isWord_of_quotedNodeAt? (h : quotedNodeAt? s = some statement) : ∀ id ∈ statement.ids, IsWord id := by
  unfold quotedNodeAt? at h
  simp only [Option.bind_eq_bind, Option.bind_eq_some_iff] at h
  obtain ⟨⟨id, _⟩, hword, ⟨label, _⟩, -, h⟩ := h
  split at h
  · cases h
  · cases h
    exact List.forall_mem_singleton.mpr (isWord_of_word? hword)

/-- The id of a node with a label in brackets is a word. -/
theorem isWord_of_bracketNodeAt? (h : bracketNodeAt? s = some statement) : ∀ id ∈ statement.ids, IsWord id := by
  unfold bracketNodeAt? at h
  simp only [Option.bind_eq_bind, Option.bind_eq_some_iff] at h
  obtain ⟨⟨id, _⟩, hword, ⟨label, _⟩, -, h⟩ := h
  split at h
  · cases h
  · cases h
    exact List.forall_mem_singleton.mpr (isWord_of_word? hword)

/-- The ids of what a search finds are words if those of what can be read
    anywhere are. -/
theorem isWord_of_search {read : List Char → Option Statement}
    (hread : ∀ {t : List Char} {statement : Statement}, read t = some statement →
      ∀ id ∈ statement.ids, IsWord id)
    (h : search read s = some statement) : ∀ id ∈ statement.ids, IsWord id := by
  obtain ⟨t, -, ht⟩ := exists_of_search h
  exact hread ht

/-- Whatever form a statement has, the ids that it names are words. The forms
    are gone through in the order in which they are tried. -/
theorem isWord_of_read? (h : read? s = some statement) : ∀ id ∈ statement.ids, IsWord id := by
  unfold read? at h
  simp only [Option.orElse_eq_orElse, Option.orElse_eq_or, Option.or_eq_some_iff] at h
  rcases h with h | ⟨-, h | ⟨-, h | ⟨-, h | ⟨-, h | ⟨-, h | ⟨-, h⟩⟩⟩⟩⟩⟩
  · exact isWord_of_fan? h
  · exact isWord_of_search isWord_of_linkAt? h
  · exact isWord_of_search isWord_of_linkAt? h
  · exact isWord_of_search isWord_of_linkAt? h
  · exact isWord_of_search isWord_of_linkAt? h
  · exact isWord_of_search isWord_of_quotedNodeAt? h
  · exact isWord_of_search isWord_of_bracketNodeAt? h

theorem isWord_of_ofLine? (h : ofLine? s = some statement) : ∀ id ∈ statement.ids, IsWord id := by
  unfold ofLine? at h
  split at h
  · cases h
  · exact isWord_of_read? h

/-- What a statement gives a label to is one of the ids that it names. -/
theorem exists_of_mem_labelled {id : String} (h : id ∈ statement.labelled) :
    ∃ word ∈ statement.ids, id = String.ofList word := by
  obtain ⟨r, hr, rfl⟩ := List.mem_map.mp h
  have hids : statement.ids = statement.refs.map NodeRef.id := by cases statement <;> rfl
  exact ⟨r.id, hids ▸ List.mem_map_of_mem (List.mem_filter.mp hr).1, rfl⟩

/-- The ends of an edge that a statement states are ids that it names. -/
theorem exists_of_mem_edges {e : Edge} (h : e ∈ statement.edges) :
    (∃ id ∈ statement.ids, e.source = String.ofList id) ∧
      ∃ id ∈ statement.ids, e.target = String.ofList id := by
  cases statement with
  | fan source targets =>
    obtain ⟨target, htarget, rfl⟩ := List.mem_map.mp h
    exact ⟨⟨source.id, List.mem_cons_self, rfl⟩,
      ⟨target.id, List.mem_cons_of_mem _ (List.mem_map_of_mem htarget), rfl⟩⟩
  | link source label kind target =>
    obtain rfl := List.mem_singleton.mp h
    exact ⟨⟨source.id, List.mem_cons_self, rfl⟩,
      ⟨target.id, List.mem_cons_of_mem _ List.mem_cons_self, rfl⟩⟩
  | node id label => cases h

end Statement

/-- The ids of the nodes of a flowchart that lines state are words, be they
    declared or only mentioned in an edge. -/
theorem isWord_ofLines {lines : List (List Char)} {config : Config} :
    ∀ id ∈ (ofLines lines config).nodeIds, IsWord id.toList := by
  have hstated : ∀ statement ∈ lines.filterMap Statement.ofLine?, ∀ id ∈ statement.ids, IsWord id := by
    intro statement hmem
    obtain ⟨line, -, hline⟩ := List.mem_filterMap.mp hmem
    exact Statement.isWord_of_ofLine? hline
  intro id hid
  rw [nodeIds_ofLines, List.mem_eraseDups, List.mem_append] at hid
  rcases hid with hdeclared | hend
  · rw [← flatMap_labelled, List.mem_flatMap] at hdeclared
    obtain ⟨statement, hmem, hlabelled⟩ := hdeclared
    obtain ⟨word, hword, rfl⟩ := Statement.exists_of_mem_labelled hlabelled
    rw [String.toList_ofList]
    exact hstated statement hmem word hword
  · obtain ⟨e, he, hend⟩ := List.mem_flatMap.mp hend
    obtain ⟨statement, hmem, hedge⟩ := List.mem_flatMap.mp he
    obtain ⟨⟨source, hsource, hsourceEq⟩, ⟨target, htarget, htargetEq⟩⟩ :=
      Statement.exists_of_mem_edges hedge
    rcases List.mem_pair.mp hend with rfl | rfl
    · rw [hsourceEq, String.toList_ofList]
      exact hstated statement hmem source hsource
    · rw [htargetEq, String.toList_ofList]
      exact hstated statement hmem target htarget

end Flowchart

/-- The ids of the nodes that a text states are words, under whatever
    settings. -/
theorem Diagram.OfText.isWord {d : Flowchart} (h : (Diagram.flowchart d).OfText) :
    ∀ id ∈ d.nodeIds, IsWord id.toList := by
  obtain ⟨text, config, htext⟩ := h
  rw [(ofStatements_eq_flowchart_iff.mp htext.symm).2]
  exact Flowchart.isWord_ofLines

end LiveDiagram
