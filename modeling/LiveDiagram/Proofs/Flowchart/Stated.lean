import LiveDiagram.Flowchart.Reader
import LiveDiagram.Proofs.Flowchart.Declared
import LiveDiagram.Proofs.Source.Naming

namespace LiveDiagram

namespace Flowchart

namespace Statement

/-- The references in a statement, from left to right. A node on its own is one
    with a label. -/
def refs : Statement → List NodeRef
  | fan source targets => source :: targets
  | link source _ _ target => [source, target]
  | node id label => [{ id, label := some label }]

/-- The ids that a statement declares with a label, from left to right. -/
def labelled (s : Statement) : List String :=
  (s.refs.filter fun r => r.label.isSome).map fun r => String.ofList r.id

/-- The references that declare something are those with a label. -/
theorem map_fst_filterMap_declared? (refs : List NodeRef) :
    (refs.filterMap NodeRef.declared?).map Prod.fst =
      (refs.filter fun r => r.label.isSome).map fun r => String.ofList r.id := by
  induction refs with
  | nil => rfl
  | cons r refs ih =>
    cases hlabel : r.label with
    | none =>
      have hnone : r.declared? = none := by rw [NodeRef.declared?, hlabel, Option.map_none]
      rw [List.filterMap_cons_none hnone, List.filter_cons_of_neg (by simp [hlabel]), ih]
    | some label =>
      have hsome : r.declared? =
          some (String.ofList r.id, String.ofList (if label.isEmpty then r.id else label)) := by
        rw [NodeRef.declared?, hlabel, Option.map_some]
      rw [List.filterMap_cons_some hsome, List.filter_cons_of_pos (by simp [hlabel]), List.map_cons, ih,
        List.map_cons]

/-- What a statement declares is what it gives a label to. -/
theorem map_fst_declarations (s : Statement) : s.declarations.map Prod.fst = s.labelled := by
  cases s with
  | fan source targets => exact map_fst_filterMap_declared? (source :: targets)
  | link source label kind target => exact map_fst_filterMap_declared? [source, target]
  | node id label => rfl

end Statement

section Nodes

/-- The node with that id and that label, which is in no class. -/
def nodeNamed (entry : String × String) : Node where
  id := entry.1
  label := entry.2

/-- The nodes with these ids and labels, which are in no class. -/
def nodesNamed (known : List (String × String)) : List Node :=
  known.map nodeNamed

/-- Declaring a node is an appearance of its id with a label. -/
theorem declare_nodesNamed (known : List (String × String)) (id label : String) :
    declare (nodesNamed known) id label = nodesNamed (Naming.appear known (id, some label)) :=
  (Naming.map_appear_labelled nodeNamed Node.id (fun _ => rfl) (fun n => { n with label }) known id label
    fun _ => rfl).symm

/-- Mentioning a node is an appearance of its id without a label. -/
theorem mention_nodesNamed (known : List (String × String)) (id : String) :
    mention (nodesNamed known) id = nodesNamed (Naming.appear known (id, none)) :=
  (Naming.map_appear_unlabelled nodeNamed Node.id (fun _ => rfl) known id).symm

/-- Declaring nodes one after the other is an appearance of each. -/
theorem foldl_declare_nodesNamed (known declarations : List (String × String)) :
    declarations.foldl (fun nodes (id, label) => declare nodes id label) (nodesNamed known) =
      nodesNamed ((declarations.map Naming.labelled).foldl Naming.appear known) := by
  rw [List.foldl_map]
  exact List.foldl_hom nodesNamed fun known entry => declare_nodesNamed known entry.1 entry.2

/-- Mentioning nodes one after the other is an appearance of each. -/
theorem foldl_mention_nodesNamed (known : List (String × String)) (ids : List String) :
    ids.foldl mention (nodesNamed known) =
      nodesNamed ((ids.map Naming.unlabelled).foldl Naming.appear known) := by
  rw [List.foldl_map]
  exact List.foldl_hom nodesNamed mention_nodesNamed

/-- The class that the node with that id joins last. -/
def lastClass? (joins : List (String × String)) (id : String) : Option String :=
  (joins.reverse.find? fun member => member.1 == id).map Prod.snd

/-- A class that is joined later counts, and one that was joined earlier counts
    where none is. -/
theorem lastClass?_append (joins later : List (String × String)) (id : String) :
    lastClass? (joins ++ later) id = (lastClass? later id).or (lastClass? joins id) := by
  rw [lastClass?, List.reverse_append, List.find?_append, Option.map_or, ← lastClass?, ← lastClass?]

theorem lastClass?_singleton (member : String × String) (id : String) :
    lastClass? [member] id = if member.1 = id then some member.2 else none := by
  rw [lastClass?, List.reverse_singleton, List.find?_singleton]
  by_cases hid : member.1 = id
  · simp [hid]
  · simp [hid]

theorem lastClass?_eq_none {joins : List (String × String)} {id : String}
    (h : ∀ member ∈ joins, member.1 ≠ id) : lastClass? joins id = none := by
  rw [lastClass?, Option.map_eq_none_iff, List.find?_eq_none]
  exact fun member hmember => by simpa using h member (List.mem_reverse.mp hmember)

/-- Each node ends up in the class that it joins last, or in its own if it joins
    none. The induction is on the joins from the end, because the last class
    that a node joins is the one that counts. -/
theorem foldl_join (nodes : List Node) (joins : List (String × String)) :
    joins.foldl (fun nodes (id, className) => join nodes id className) nodes =
      nodes.map fun n => { n with className := (lastClass? joins n.id).or n.className } := by
  induction joins using List.reverseRecOn with
  | nil => exact (List.map_id nodes).symm
  | append_singleton joins member ih =>
    simp only [List.foldl_append, ih, List.foldl_cons, List.foldl_nil]
    rw [join, List.map_map]
    refine List.map_congr_left fun n _ => ?_
    rw [Function.comp_apply, lastClass?_append, lastClass?_singleton]
    by_cases hid : n.id = member.1
    · simp [hid]
    · simp [hid, Ne.symm hid]

/-- The declarations and the ends of the edges, as names that appear. -/
def namings (declarations : List (String × String)) (edges : List Edge) : List Naming :=
  declarations.map Naming.labelled ++ (edges.flatMap fun e => [e.source, e.target]).map Naming.unlabelled

/-- The names that appear are those of the declarations, and then the ends of
    the edges. -/
theorem map_fst_namings (declarations : List (String × String)) (edges : List Edge) :
    (namings declarations edges).map Prod.fst =
      declarations.map Prod.fst ++ edges.flatMap fun e => [e.source, e.target] := by
  rw [namings, List.map_append, Naming.map_fst_labelled, Naming.map_fst_unlabelled]

/-- The nodes of a flowchart, told at once. They are put together in three
    passes, declarations, the ends of edges, and classes; what comes out are the
    names that appear, each with the class that it joins last. -/
theorem nodesOf_eq (declarations : List (String × String)) (edges : List Edge) (joins : List (String × String)) :
    nodesOf declarations edges joins = (Naming.known (namings declarations edges)).map fun entry =>
      { id := entry.1, label := entry.2, className := lastClass? joins entry.1 } := by
  have hnamed : (edges.flatMap fun e => [e.source, e.target]).foldl mention
      (declarations.foldl (fun nodes (id, label) => declare nodes id label) []) =
        nodesNamed (Naming.known (namings declarations edges)) := by
    have hdeclared := foldl_declare_nodesNamed [] declarations
    rw [nodesNamed, List.map_nil] at hdeclared
    rw [hdeclared, foldl_mention_nodesNamed, ← List.foldl_append, ← namings, Naming.foldl_appear]
  rw [nodesOf]
  simp only [hnamed]
  rw [foldl_join, nodesNamed, List.map_map]
  refine List.map_congr_left fun entry _ => ?_
  have hclass : (nodeNamed entry).className = none := rfl
  rw [Function.comp_apply, hclass, Option.or_none]
  rfl

/-- The ids of the nodes are the distinct names, the declared ones first. -/
theorem map_id_nodesOf (declarations : List (String × String)) (edges : List Edge)
    (joins : List (String × String)) :
    (nodesOf declarations edges joins).map Node.id =
      (declarations.map Prod.fst ++ edges.flatMap fun e => [e.source, e.target]).eraseDups := by
  rw [nodesOf_eq, ← map_fst_namings, ← Naming.map_fst_known, List.map_map]
  rfl

variable {declarations joins : List (String × String)} {edges : List Edge} {n : Node}

/-- A node has the label that was declared last for its id, and the class that
    it joins last. -/
theorem of_mem_nodesOf (hn : n ∈ nodesOf declarations edges joins) :
    n.label = (Naming.lastLabel? (namings declarations edges) n.id).getD n.id ∧
      n.className = lastClass? joins n.id := by
  simp only [nodesOf_eq, Naming.known, List.map_map] at hn
  obtain ⟨id, -, rfl⟩ := List.mem_map.mp hn
  exact ⟨rfl, rfl⟩

/-- The label of a node is its id or was declared for it, in whatever
    declaration. -/
theorem eq_or_mem_declarations (hn : n ∈ nodesOf declarations edges joins) :
    n.label = n.id ∨ (n.id, n.label) ∈ declarations := by
  have hlabel := (of_mem_nodesOf hn).1
  cases hlast : Naming.lastLabel? (namings declarations edges) n.id with
  | none => exact .inl (by rw [hlabel, hlast, Option.getD_none])
  | some label =>
    rw [hlast, Option.getD_some] at hlabel
    obtain ⟨naming, hnaming, hgiven⟩ := List.exists_of_findSome?_eq_some hlast
    rw [List.mem_reverse, namings, List.mem_append] at hnaming
    split at hgiven
    · rename_i hid
      rcases hnaming with hdeclared | hend
      · obtain ⟨entry, hentry, rfl⟩ := List.mem_map.mp hdeclared
        obtain rfl := Option.some.inj hgiven
        rw [hlabel, ← hid]
        exact .inr hentry
      · obtain ⟨_, -, rfl⟩ := List.mem_map.mp hend
        cases hgiven
    · cases hgiven

end Nodes

section Lines

/-- The ids that a line declares with a label, from left to right. -/
def labelledIn (line : List Char) : List String :=
  (Statement.ofLine? line).elim [] Statement.labelled

variable {lines : List (List Char)} {config : Config}

/-- The ids that lines declare with a label, told line by line. -/
theorem flatMap_labelled (lines : List (List Char)) :
    (lines.filterMap Statement.ofLine?).flatMap Statement.labelled = lines.flatMap labelledIn := by
  rw [List.filterMap_eq_flatMap_toList, List.flatMap_assoc]
  refine List.flatMap_congr fun line _ => ?_
  rw [labelledIn]
  cases Statement.ofLine? line <;> simp

/-- What lines declare is what they give a label to, line by line. -/
theorem map_fst_declarations_ofLines (lines : List (List Char)) :
    ((lines.filterMap Statement.ofLine?).flatMap Statement.declarations).map Prod.fst =
      lines.flatMap labelledIn := by
  rw [List.map_flatMap, ← flatMap_labelled]
  exact List.flatMap_congr fun s _ => s.map_fst_declarations

/-- The ids of the nodes: the distinct ones of those that are declared with a
    label, then of the others that edges mention. A node that is mentioned
    before it is declared still stands among the first. -/
theorem nodeIds_ofLines (lines : List (List Char)) (config : Config) :
    (ofLines lines config).nodeIds = (lines.flatMap labelledIn
      ++ (ofLines lines config).edges.flatMap fun e => [e.source, e.target]).eraseDups := by
  rw [nodeIds, ofLines, ← map_fst_declarations_ofLines]
  exact map_id_nodesOf _ _ _

end Lines

end Flowchart

end LiveDiagram
