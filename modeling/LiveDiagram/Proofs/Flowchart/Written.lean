import LiveDiagram.Proofs.Flowchart.Declared
import LiveDiagram.Proofs.Flowchart.HeaderWords
import LiveDiagram.Proofs.Source.Statements

namespace LiveDiagram

open Text

namespace Flowchart

section Lines

/-- The line that opens a flowchart and states its direction. -/
def headerLine (d : Direction) : List Char :=
  "flowchart".toList ++ ' ' :: d.name.toList

/-- A property of a style: its key, a colon and its value. -/
def propertyText (property : String × String) : List Char :=
  property.1.toList ++ ':' :: property.2.toList

/-- The properties of a style, separated by commas. -/
def propertiesText (properties : Properties) : List Char :=
  List.intercalate [','] (properties.toList.map propertyText)

/-- The line of the class of that name, of which the properties are written. -/
def styleLine (name : String) (properties : List Char) : List Char :=
  "classDef".toList ++ ' ' :: (name.toList ++ ' ' :: properties)

/-- The line of a node, with its label in quotes. -/
def nodeLine (n : Node) : List Char :=
  n.id.toList ++ '[' :: '"' :: (n.label.toList ++ ['"', ']'])

/-- The arrow of an edge. Only an arrow with one head can carry a label. -/
def arrowText (e : Edge) : List Char :=
  match e.kind with
  | .bidirectional => ['<', '-', '-', '>']
  | .arrow =>
    if e.label = "" then ['-', '-', '>'] else ['-', '-', '>'] ++ '|' :: (e.label.toList ++ ['|'])

/-- The line of an edge, in which both ends are ids alone. -/
def edgeLine (e : Edge) : List Char :=
  e.source.toList ++ ' ' :: (arrowText e ++ ' ' :: e.target.toList)

/-- The line that makes a node join a class. -/
def memberLine (member : String × String) : List Char :=
  "class".toList ++ ' ' :: (member.1.toList ++ ' ' :: member.2.toList)

/-- The ids of the nodes that are in a class, with the class. -/
def members (nodes : List Node) : List (String × String) :=
  nodes.filterMap fun n => n.className.map fun name => (n.id, name)

/-- The lines of a flowchart, in a fixed order: the direction, the style of each
    class, the nodes, the edges, and the class of each node that is in one. -/
def toLines (d : Flowchart) : List (List Char) :=
  headerLine d.direction ::
    (d.classes.toList.map (fun style => styleLine style.1 (propertiesText style.2))
    ++ d.nodes.map nodeLine ++ d.edges.map edgeLine ++ (members d.nodes).map memberLine)

/-- The text of a flowchart. -/
def toText (d : Flowchart) : String :=
  String.ofList (joinLines d.toLines)

end Lines

section Plain

/-- A character that is kept wherever it stands: a word character, a space, one
    of a few marks, or any character outside ASCII. -/
def isPlainChar (c : Char) : Bool :=
  isWordChar c || c == ' ' || c == '.' || c == '#' || c == '!' || decide (128 ≤ c.toNat)

/-- A text of plain characters of which no word opens a flowchart. -/
structure IsPlain (s : List Char) : Prop where
  chars : ∀ c ∈ s, isPlainChar c
  headerFree : HeaderFree s

/-- A word that does not open a flowchart. -/
structure IsName (name : String) : Prop where
  ne_empty : name ≠ ""
  chars : ∀ c ∈ name.toList, isWordChar c
  ne_flowchart : name ≠ "flowchart"
  ne_graph : name ≠ "graph"

/-- A property of which the key and the value are plain and lose nothing when
    they are trimmed. -/
structure IsPlainProperty (property : String × String) : Prop where
  key_ne_empty : property.1 ≠ ""
  key : IsPlain property.1.toList
  key_trimmed : trim property.1.toList = property.1.toList
  value : IsPlain property.2.toList
  value_trimmed : trim property.2.toList = property.2.toList

instance (s : List Char) : Decidable (IsPlain s) :=
  decidable_of_iff (s.all isPlainChar ∧ HeaderFree s)
    ⟨fun h => ⟨List.all_eq_true.mp h.1, h.2⟩, fun h => ⟨List.all_eq_true.mpr h.1, h.2⟩⟩

instance (name : String) : Decidable (IsName name) :=
  decidable_of_iff (name ≠ "" ∧ name.toList.all isWordChar ∧ name ≠ "flowchart" ∧ name ≠ "graph")
    ⟨fun h => ⟨h.1, List.all_eq_true.mp h.2.1, h.2.2.1, h.2.2.2⟩,
      fun h => ⟨h.1, List.all_eq_true.mpr h.2, h.3, h.4⟩⟩

/-- An edge between named nodes. Its label is plain and loses nothing when it is
    trimmed, and an edge with two heads has none. -/
structure IsPlainEdge (e : Edge) : Prop where
  source : IsName e.source
  target : IsName e.target
  label : IsPlain e.label.toList
  label_trimmed : trim e.label.toList = e.label.toList
  unlabelled : e.kind = .bidirectional → e.label = ""

/-- A flowchart that its text states. The ids of its nodes and the names of its
    classes have to be words, and what stands between quotes, bars, colons and
    commas has to be free of them and of the words that open a flowchart. -/
structure Writable (d : Flowchart) : Prop where
  ids : ∀ id ∈ d.nodeIds, IsName id
  nodup : d.nodeIds.Nodup
  labels : ∀ n ∈ d.nodes, n.label ≠ "" ∧ IsPlain n.label.toList
  edges : ∀ e ∈ d.edges, d.Joins e
  edgeLabels : ∀ e ∈ d.edges, IsPlain e.label.toList ∧ trim e.label.toList = e.label.toList
  unlabelled : ∀ e ∈ d.edges, e.kind = .bidirectional → e.label = ""
  classNames : ∀ name ∈ d.classes, IsName name
  nodeClasses : ∀ n ∈ d.nodes, ∀ name ∈ n.className, name ∈ d.classes
  properties_ne_empty : ∀ style ∈ d.classes.toList, style.2.toList ≠ []
  properties : ∀ style ∈ d.classes.toList, ∀ property ∈ style.2.toList, IsPlainProperty property

variable {c : Char} {s : List Char} {name : String}

theorem isPlainChar_of_isWordChar (hc : isWordChar c) : isPlainChar c := by
  simp [isPlainChar, hc]

theorem isSpace_eq_false_of_isPlainChar (hc : isPlainChar c) (hblank : isBlank c = false) : isSpace c = false := by
  rw [← Bool.not_eq_true]
  intro hspace
  simp only [isSpace, hblank, Bool.false_or, Bool.or_eq_true, beq_iff_eq] at hspace
  rcases hspace with rfl | rfl
  all_goals exact absurd hc (by decide)

/-- A plain text holds no character that is not plain, so none of the marks that
    lines are made of. -/
theorem IsPlain.not_mem (hs : IsPlain s) (hc : isPlainChar c = false) : c ∉ s := fun h =>
  Bool.false_ne_true (hc.symm.trans (hs.chars c h))

namespace IsName

theorem toList_ne_nil (h : IsName name) : name.toList ≠ [] := fun hnil =>
  h.ne_empty (String.toList_eq_nil_iff.mp hnil)

theorem isWord (h : IsName name) : IsWord name.toList :=
  ⟨h.toList_ne_nil, h.chars⟩

/-- A name is plain, and is not one of the words that open a flowchart. -/
theorem isPlain (h : IsName name) : IsPlain name.toList where
  chars c hc := isPlainChar_of_isWordChar (h.chars c hc)
  headerFree := by
    refine headerFree_of_forall_isWordChar h.chars ?_
    simp only [headerWords, List.mem_cons, List.not_mem_nil, or_false, String.toList_inj, not_or]
    exact ⟨h.ne_flowchart, h.ne_graph⟩

theorem not_mem (h : IsName name) (hc : isWordChar c = false) : c ∉ name.toList :=
  h.isWord.not_mem hc

theorem exists_cons (h : IsName name) : ∃ c rest, name.toList = c :: rest ∧ isWordChar c :=
  h.isWord.exists_cons

theorem head?_any (h : IsName name) (s : List Char) : (name.toList ++ s).head?.any isWordChar := by
  obtain ⟨c, rest, hname, hc⟩ := h.exists_cons
  rw [hname, List.cons_append, List.head?_cons, Option.any_some]
  exact hc

theorem head?_append (h : IsName name) (s : List Char) :
    ∀ c ∈ (name.toList ++ s).head?, isSpace c = false :=
  h.isWord.head?_append s

/-- What ends in a name ends in a word character. -/
theorem getLast?_append (h : IsName name) (s : List Char) :
    ∀ c ∈ (s ++ name.toList).getLast?, isWordChar c := by
  intro c hc
  rw [List.getLast?_append_of_ne_nil s h.toList_ne_nil] at hc
  exact h.chars c (List.mem_of_mem_getLast? hc)

theorem head?_isSpace (h : IsName name) : ∀ c ∈ name.toList.head?, isSpace c = false := fun c hc =>
  isSpace_eq_false_of_isWordChar (h.chars c (List.mem_of_mem_head? hc))

theorem getLast?_isSpace (h : IsName name) : ∀ c ∈ name.toList.getLast?, isSpace c = false := fun c hc =>
  isSpace_eq_false_of_isWordChar (h.chars c (List.mem_of_mem_getLast? hc))

theorem trim_toList (h : IsName name) : trim name.toList = name.toList :=
  h.isWord.trim_eq_self

end IsName

namespace Writable

variable {d : Flowchart}

theorem isName_node (h : d.Writable) {n : Node} (hn : n ∈ d.nodes) : IsName n.id :=
  h.ids n.id (List.mem_map_of_mem hn)

/-- Each edge of a writable flowchart is a plain one between its nodes. -/
theorem isPlainEdge (h : d.Writable) {e : Edge} (he : e ∈ d.edges) : IsPlainEdge e where
  source := h.ids e.source (h.edges e he).2.1
  target := h.ids e.target (h.edges e he).2.2
  label := (h.edgeLabels e he).1
  label_trimmed := (h.edgeLabels e he).2
  unlabelled := h.unlabelled e he

/-- The name of each style of a writable flowchart is a name. -/
theorem isName_style (h : d.Writable) {style : String × Properties} (hstyle : style ∈ d.classes.toList) :
    IsName style.1 := by
  have hvalue : d.classes[style.1]? = some style.2 := Std.ExtTreeMap.mem_toList_iff_getElem?_eq_some.mp hstyle
  refine h.classNames style.1 ?_
  rw [Std.ExtTreeMap.mem_iff_isSome_getElem?, hvalue]
  rfl

/-- The id and the class of each member are names, in a writable flowchart. -/
theorem isName_member (h : d.Writable) {member : String × String} (hmember : member ∈ members d.nodes) :
    IsName member.1 ∧ IsName member.2 := by
  obtain ⟨n, hn, hclass⟩ := List.mem_filterMap.mp hmember
  obtain ⟨name, hname, rfl⟩ := Option.map_eq_some_iff.mp hclass
  exact ⟨h.isName_node hn, h.classNames name (h.nodeClasses n hn name hname)⟩

end Writable

end Plain

end Flowchart

end LiveDiagram
