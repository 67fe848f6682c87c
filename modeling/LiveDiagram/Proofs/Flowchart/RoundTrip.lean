import LiveDiagram.Proofs.Flowchart.Stated
import LiveDiagram.Proofs.Flowchart.WrittenLines
import LiveDiagram.Proofs.Flowchart.WrittenStyles
import LiveDiagram.Source.Diagram

namespace LiveDiagram

open Text

namespace Flowchart

section Nodes

variable {nodes : List Node}

/-- The class of a node is the one that it joins in the list of members. Each
    node is there once, so no later member takes it away. -/
theorem lastClass?_members (hnodup : (nodes.map Node.id).Nodup) {n : Node} (hn : n ∈ nodes) :
    lastClass? (members nodes) n.id = n.className := by
  have hother : ∀ others : List Node, n.id ∉ others.map Node.id → lastClass? (members others) n.id = none := by
    intro others hnot
    refine lastClass?_eq_none fun member hmember heq => hnot ?_
    obtain ⟨m, hm, hclass⟩ := List.mem_filterMap.mp hmember
    obtain ⟨name, -, rfl⟩ := Option.map_eq_some_iff.mp hclass
    exact List.mem_map.mpr ⟨m, hm, heq⟩
  obtain ⟨before, after, rfl⟩ := List.append_of_mem hn
  rw [List.map_append, List.map_cons] at hnodup
  obtain ⟨-, hlater, hapart⟩ := List.nodup_append.mp hnodup
  have hbefore : lastClass? (members before) n.id = none :=
    hother before fun h => hapart n.id h n.id List.mem_cons_self rfl
  have hafter : lastClass? (members after) n.id = none := hother after (List.nodup_cons.mp hlater).1
  have hmembers : members (before ++ n :: after) =
      members before ++ ((n.className.map fun name => (n.id, name)).toList ++ members after) := by
    rw [members, List.filterMap_append, List.filterMap_cons, members, members]
    cases n.className <;> rfl
  rw [hmembers, lastClass?_append, lastClass?_append, hbefore, hafter, Option.none_or, Option.or_none]
  cases n.className with
  | none => rfl
  | some name => rw [Option.map_some, Option.toList_some, lastClass?_singleton, if_pos rfl]

/-- Nodes are put together from their declarations and the classes that they
    join, if the edges name no others. -/
theorem nodesOf_members {edges : List Edge} (hnodup : (nodes.map Node.id).Nodup)
    (hedges : ∀ e ∈ edges, e.source ∈ nodes.map Node.id ∧ e.target ∈ nodes.map Node.id) :
    nodesOf (nodes.map fun n => (n.id, n.label)) edges (members nodes) = nodes := by
  have hids : (nodes.map fun n => (n.id, n.label)).map Prod.fst = nodes.map Node.id := List.map_map
  have hends : ∀ id ∈ edges.flatMap fun e => [e.source, e.target],
      id ∈ (nodes.map fun n => (n.id, n.label)).map Prod.fst := by
    intro id hid
    rw [hids]
    obtain ⟨e, he, hend⟩ := List.mem_flatMap.mp hid
    rcases List.mem_pair.mp hend with rfl | rfl
    · exact (hedges e he).1
    · exact (hedges e he).2
  rw [nodesOf_eq, namings, Naming.known_of_nodup (hids ▸ hnodup) hends, List.map_map]
  refine (List.map_congr_left fun n hn => ?_).trans (List.map_id nodes)
  rw [Function.comp_apply, lastClass?_members hnodup hn]
  rfl

end Nodes

section Lines

variable {d : Flowchart}

/-- What the lines of a flowchart define. -/
def defined (d : Flowchart) : List Definition :=
  .direction d.direction :: (d.classes.toList.map (fun style => .style style.1 style.2)
    ++ d.nodes.map (fun _ => .members []) ++ d.edges.map (fun _ => .members [])
    ++ (members d.nodes).map fun member => .members [member])

/-- What the lines of a flowchart state. -/
def stated (d : Flowchart) : List Statement :=
  d.nodes.map (fun n => .node n.id.toList n.label.toList)
    ++ d.edges.map fun e => .link ⟨e.source.toList, none⟩ e.label.toList e.kind ⟨e.target.toList, none⟩

namespace Writable

theorem isPropertyList (h : d.Writable) {style : String × Properties} (hstyle : style ∈ d.classes.toList) :
    IsPropertyList (propertiesText style.2) :=
  isPropertyList_propertiesText (h.properties_ne_empty style hstyle) (h.properties style hstyle)

/-- Every line of a writable flowchart is a statement as it stands. -/
theorem isStatement_of_mem_toLines (h : d.Writable) : ∀ line ∈ d.toLines, IsStatement line := by
  intro line hline
  simp only [toLines, List.mem_cons, List.mem_append, List.mem_map] at hline
  obtain rfl | ((⟨style, hstyle, rfl⟩ | ⟨n, hn, rfl⟩) | ⟨e, he, rfl⟩) | ⟨member, hmember, rfl⟩ :=
    hline
  · exact isStatement_headerLine d.direction
  · exact isStatement_styleLine (h.isName_style hstyle) (h.isPropertyList hstyle)
  · exact (definesNothing_nodeLine (h.isName_node hn) (h.labels n hn).2).isStatement
  · exact (h.isPlainEdge he).definesNothing_edgeLine.isStatement
  · exact isStatement_memberLine (h.isName_member hmember).1 (h.isName_member hmember).2

/-- The lines of a writable flowchart define what they were written for, each by
    itself: no label of a node or an edge sets a direction or puts a node into a
    class. -/
theorem map_ofLine_toLines (h : d.Writable) : d.toLines.map Definition.ofLine = d.defined := by
  have hstyles : (d.classes.toList.map fun style => styleLine style.1 (propertiesText style.2)).map
      Definition.ofLine = d.classes.toList.map fun style => .style style.1 style.2 := by
    refine List.map_map.trans (List.map_congr_left fun style hstyle => ?_)
    have hread := ofText_propertiesText (h.properties_ne_empty style hstyle) (h.properties style hstyle)
    rw [Function.comp_apply, definition_styleLine (h.isName_style hstyle) (h.isPropertyList hstyle), hread]
  have hnodes : (d.nodes.map nodeLine).map Definition.ofLine = d.nodes.map fun _ => .members [] :=
    List.map_map.trans (List.map_congr_left fun n hn =>
      (definesNothing_nodeLine (h.isName_node hn) (h.labels n hn).2).definition_ofLine)
  have hedges : (d.edges.map edgeLine).map Definition.ofLine = d.edges.map fun _ => .members [] :=
    List.map_map.trans (List.map_congr_left fun e he =>
      (h.isPlainEdge he).definesNothing_edgeLine.definition_ofLine)
  have hmembers : ((members d.nodes).map memberLine).map Definition.ofLine =
      (members d.nodes).map fun member => .members [member] :=
    List.map_map.trans (List.map_congr_left fun member hmember =>
      definition_memberLine (h.isName_member hmember).1 (h.isName_member hmember).2)
  rw [toLines, List.map_cons, definition_headerLine, List.map_append, List.map_append, List.map_append, hstyles,
    hnodes, hedges, hmembers, defined]

/-- The lines of a writable flowchart state what they were written for: its
    nodes and then its edges. -/
theorem filterMap_ofLine?_toLines (h : d.Writable) : d.toLines.filterMap Statement.ofLine? = d.stated := by
  have hstyles : (d.classes.toList.map fun style => styleLine style.1 (propertiesText style.2)).filterMap
      Statement.ofLine? = [] :=
    filterMap_map_eq_nil fun style hstyle =>
      statement_styleLine (h.isName_style hstyle) (h.isPropertyList hstyle)
  have hnodes : (d.nodes.map nodeLine).filterMap Statement.ofLine? =
      d.nodes.map fun n => .node n.id.toList n.label.toList :=
    filterMap_map_eq_map fun n hn => statement_nodeLine (h.isName_node hn) (h.labels n hn).2 (h.labels n hn).1
  have hedges : (d.edges.map edgeLine).filterMap Statement.ofLine? = d.edges.map fun e =>
      .link ⟨e.source.toList, none⟩ e.label.toList e.kind ⟨e.target.toList, none⟩ :=
    filterMap_map_eq_map fun e he => (h.isPlainEdge he).statement_edgeLine
  have hmembers : ((members d.nodes).map memberLine).filterMap Statement.ofLine? = [] :=
    filterMap_map_eq_nil fun member hmember =>
      statement_memberLine (h.isName_member hmember).1 (h.isName_member hmember).2
  rw [toLines, List.filterMap_cons_none (statement_headerLine d.direction), List.filterMap_append,
    List.filterMap_append, List.filterMap_append, hstyles, hnodes, hedges, hmembers, List.nil_append,
    List.append_nil, stated]

end Writable

theorem direction?_defined (d : Flowchart) : direction? d.defined = some d.direction := by
  simp [direction?, defined, List.filterMap_map]

/-- The styles that the lines define are those of the flowchart. -/
theorem styles_defined (d : Flowchart) : styles d.defined = d.classes := by
  rw [styles, defined]
  simp only [List.filterMap_cons, List.filterMap_append, List.filterMap_map, Function.comp_def]
  simp
  exact Json.foldl_insert_toList d.classes

/-- The classes that nodes join are the members that the lines list. -/
theorem joins_defined (d : Flowchart) : joins d.defined = members d.nodes := by
  simp only [joins, defined, List.flatMap_cons, List.flatMap_append, List.flatMap_map, flatMap_nil_fun,
    List.nil_append]
  exact List.flatMap_singleton' _

/-- The lines declare the nodes of the flowchart, in order and with their
    labels. -/
theorem declarations_stated (d : Flowchart) :
    d.stated.flatMap Statement.declarations = d.nodes.map fun n => (n.id, n.label) := by
  simp [stated, List.flatMap_map, Statement.declarations, NodeRef.declared?, flatMap_nil_fun]
  exact List.map_eq_flatMap.symm

theorem edges_stated (d : Flowchart) : d.stated.flatMap Statement.edges = d.edges := by
  simp [stated, List.flatMap_map, Statement.edges]

end Lines

/-- The lines of a flowchart that can be written are those of the flowchart. The
    settings are no part of them and are whatever was found in front. -/
theorem ofLines_toLines {d : Flowchart} (h : d.Writable) (config : Config) :
    ofLines d.toLines config = { d with config } := by
  have hedges : ∀ e ∈ d.edges, e.source ∈ d.nodes.map Node.id ∧ e.target ∈ d.nodes.map Node.id :=
    fun e he =>
    (h.edges e he).2
  rw [ofLines]
  simp only [h.map_ofLine_toLines, h.filterMap_ofLine?_toLines, direction?_defined, styles_defined, joins_defined,
    declarations_stated, edges_stated, Option.getD_some, nodesOf_members h.nodup hedges]

end Flowchart

/-- The text of a flowchart that can be written is the text of that flowchart,
    less its settings: its direction, its nodes and edges in order, with their
    labels and classes, and the styles of its classes are all read back. -/
theorem Diagram.ofText_toText [YamlReader] {d : Flowchart} (h : d.Writable) :
    Diagram.ofText d.toText = .flowchart { d with config := ∅ } := by
  have hne : d.toLines ≠ [] := List.cons_ne_nil _ _
  have hsequence : isSequence d.toLines = false := by
    have hheader : (afterAnyCase? "sequence".toList (Flowchart.headerLine d.direction)).isSome = false := by
      cases d.direction <;> rfl
    exact hheader
  rw [Flowchart.toText, ofText_joinLines hne h.isStatement_of_mem_toLines, ofStatements_eq_flowchart_iff]
  exact ⟨hsequence, (Flowchart.ofLines_toLines h ∅).symm⟩

namespace Flowchart

/-- A class of two properties, which joins a colour to a plain word. -/
def hotStyle : Properties :=
  (∅ : Properties).insert "fill" "#f9f" |>.insert "stroke" "dark red"

/-- A flowchart with a class and edges of every kind. -/
def cyclic : Flowchart where
  direction := .leftRight
  nodes :=
    [{ id := "start", label := "Go!" },
     { id := "class", label := " v1.2 is #1", className := some "hot" }]
  edges :=
    [{ source := "start", target := "class" },
     { source := "class", target := "start", label := "not yet" },
     { source := "start", target := "start", kind := .bidirectional }]
  classes := (∅ : Std.ExtTreeMap String Properties).insert "hot" hotStyle

theorem mem_toList_hotStyle {property : String × String} (hproperty : property ∈ hotStyle.toList) :
    property = ("fill", "#f9f") ∨ property = ("stroke", "dark red") := by
  obtain ⟨key, value⟩ := property
  have hvalue := Std.ExtTreeMap.mem_toList_iff_getElem?_eq_some.mp hproperty
  simp only [hotStyle, Std.ExtTreeMap.getElem?_insert, Std.LawfulEqOrd.compare_eq_iff_eq,
    Std.ExtTreeMap.getElem?_empty] at hvalue
  grind

theorem mem_toList_classes_cyclic {style : String × Properties} (hstyle : style ∈ cyclic.classes.toList) :
    style = ("hot", hotStyle) := by
  obtain ⟨name, properties⟩ := style
  have hvalue := Std.ExtTreeMap.mem_toList_iff_getElem?_eq_some.mp hstyle
  simp only [cyclic, Std.ExtTreeMap.getElem?_insert, Std.LawfulEqOrd.compare_eq_iff_eq,
    Std.ExtTreeMap.getElem?_empty] at hvalue
  grind

theorem writable_cyclic : cyclic.Writable where
  ids := by decide
  nodup := by decide
  labels := by decide
  edges e he := ⟨he, by revert e; decide⟩
  edgeLabels := by decide
  unlabelled := by decide
  classNames name hname := by
    obtain rfl : "hot" = name := by
      simpa [cyclic, Std.LawfulEqOrd.compare_eq_iff_eq] using hname
    decide
  nodeClasses n hn name hname := by
    have hhot : ∀ n ∈ cyclic.nodes, ∀ name ∈ n.className, name = "hot" := by decide
    rw [hhot n hn name hname]
    exact Std.ExtTreeMap.mem_insert_self
  properties_ne_empty style hstyle := by
    obtain rfl := mem_toList_classes_cyclic hstyle
    simp [hotStyle]
  properties style hstyle property hproperty := by
    obtain rfl := mem_toList_classes_cyclic hstyle
    rcases mem_toList_hotStyle hproperty with rfl | rfl
    · exact ⟨by decide, by decide, by decide, by decide, by decide⟩
    · exact ⟨by decide, by decide, by decide, by decide, by decide⟩

end Flowchart

/-- A flowchart with a node that is named like a keyword, a class and edges of
    every kind is read back from its text. -/
theorem Diagram.ofText_toText_cyclic :
    Flowchart.cyclic.Writable ∧ Diagram.ofText Flowchart.cyclic.toText = .flowchart Flowchart.cyclic :=
  ⟨Flowchart.writable_cyclic, Diagram.ofText_toText Flowchart.writable_cyclic⟩

end LiveDiagram
