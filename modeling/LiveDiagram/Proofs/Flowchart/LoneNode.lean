import LiveDiagram.Proofs.Flowchart.OneLine

namespace LiveDiagram

open Text

namespace NodeRef

variable {id label content rest left : List Char}

/-- What stands in brackets is nothing but quotes with blanks around them. -/
def IsHollow (content : List Char) : Prop :=
  ∃ front quotes back, content = front ++ (quotes ++ back) ∧
    (∀ c ∈ front, isBlank c) ∧ (∀ c ∈ quotes, c = '"') ∧ ∀ c ∈ back, isBlank c

/-- Nothing is left of what stands in brackets just if it is nothing but quotes
    with blanks around them. -/
theorem unquote_eq_nil_iff : unquote content = [] ↔ IsHollow content := by
  rw [unquote, strip_eq_nil_iff]
  constructor
  · intro hquotes
    obtain ⟨front, back, hcontent, hfront, hback⟩ := exists_append_strip isBlank content
    exact ⟨front, trim content, back, hcontent, hfront, fun c hc => beq_iff_eq.mp (hquotes c hc), hback⟩
  · rintro ⟨front, quotes, back, rfl, hfront, hquotes, hback⟩ c hc
    by_cases hne : quotes = []
    · have hnothing : trim (front ++ (quotes ++ back)) = [] := by
        rw [hne, List.nil_append, trim, strip_eq_nil_iff]
        exact List.forall_mem_append.mpr ⟨hfront, hback⟩
      rw [hnothing] at hc
      cases hc
    · have hvisible : ∀ c ∈ quotes, isBlank c = false := fun c hc => by
        rw [hquotes c hc]
        rfl
      rw [trim, strip_append_append hfront hback hvisible hne] at hc
      exact beq_iff_eq.mpr (hquotes c hc)

/-- The quotes around a label without quotes are taken off and nothing else. -/
theorem unquote_quoted (hlabel : '"' ∉ label) : unquote ('"' :: (label ++ ['"'])) = label := by
  have htrim : trim ('"' :: (label ++ ['"'])) = '"' :: (label ++ ['"']) := by
    refine trim_eq_self (forall_mem_head?_cons (by decide) _) fun c hc => ?_
    rw [← List.cons_append, List.getLast?_concat] at hc
    obtain rfl := Option.some.inj hc
    rfl
  rw [unquote, htrim]
  by_cases hne : label = []
  · rw [hne]
    rfl
  · have hfree : ∀ c ∈ label, (c == '"') = false := fun c hc => by simpa using ne_of_mem_of_not_mem hc hlabel
    show strip (· == '"') (['"'] ++ (label ++ ['"'])) = label
    exact strip_append_append (by simp) (by simp) hfree hne

/-- A label in quotes is all that the brackets around it hold, without the
    quotes. There is no other closing bracket behind, at which it could end. -/
theorem of_quotedLabel? (hcontent : ']' ∉ content) (hrest : ']' ∉ rest)
    (h : quotedLabel? ('[' :: (content ++ ']' :: rest)) = some (label, left)) :
    label = unquote content ∧ content ≠ [] ∧ left = rest := by
  obtain ⟨htext, hquote⟩ := append_of_label h
  have hsplit : content ++ ']' :: rest = '"' :: (label ++ ['"']) ++ ']' :: left := by
    simpa using htext.symm
  obtain ⟨rfl, rfl⟩ := append_cons_inj_once hcontent hrest hsplit
  exact ⟨(unquote_quoted hquote).symm, List.cons_ne_nil _ _, rfl⟩

/-- A reference with a label in brackets is read with what the brackets hold,
    without the blanks and the quotes at its ends, whichever of the two forms of
    a label it has. -/
theorem read?_bracketed (hid : IsWord id) (hcontent : ']' ∉ content) (hrest : ']' ∉ rest) :
    read? (id ++ '[' :: (content ++ ']' :: rest)) = some (⟨id, some (unquote content)⟩, rest) := by
  have hword :=
    word?_append (t := '[' :: (content ++ ']' :: rest)) hid.1 hid.2 (forall_mem_head?_cons (by decide) _)
  rw [read?, readings, hword]
  cases hquoted : quotedLabel? ('[' :: (content ++ ']' :: rest)) with
  | none =>
    dsimp only
    rw [hquoted, bracketLabel?_append hcontent]
    rfl
  | some read =>
    obtain ⟨label, left⟩ := read
    obtain ⟨hlabel, -, hleft⟩ := of_quotedLabel? hcontent hrest hquoted
    dsimp only
    rw [hquoted, ← hlabel, ← hleft]
    rfl

end NodeRef

namespace Flowchart

namespace Statement

variable {id content rest s : List Char}

/-- A node on its own, read by the rule for quotes: it needs a label that is not
    empty. -/
theorem quotedNodeAt?_append (hid : IsWord id) (rest : List Char) : quotedNodeAt? (id ++ '[' :: rest) =
    (NodeRef.quotedLabel? ('[' :: rest)).bind fun r => if r.1.isEmpty then none else some (.node id r.1) := by
  rw [quotedNodeAt?, word?_append hid.1 hid.2 (forall_mem_head?_cons (by decide) _)]
  rfl

/-- A node on its own, read by the rule for brackets: something has to stand in
    them, though nothing need be left of it. -/
theorem bracketNodeAt?_append (hid : IsWord id) (hclosing : ']' ∉ content) (rest : List Char) :
    bracketNodeAt? (id ++ '[' :: (content ++ ']' :: rest)) =
      if content.isEmpty then none else some (.node id (NodeRef.unquote content)) := by
  have hword :=
    word?_append (t := '[' :: (content ++ ']' :: rest)) hid.1 hid.2 (forall_mem_head?_cons (by decide) _)
  simp only [bracketNodeAt?, hword, Option.bind_eq_bind, Option.bind_some, NodeRef.bracketLabel?_append hclosing]
  rfl

/-- Nothing is found in a node on its own if nothing can be read from inside its
    id, and a bracket is needed. -/
theorem search_bracketed_eq_none {read : List Char → Option Statement} (hopening : '[' ∉ content)
    (hid : ∀ t, t <:+ id → t ≠ [] → read (t ++ '[' :: (content ++ [']'])) = none)
    (hhead : ∀ t, read ('[' :: t) = none) (hnone : ∀ t, '[' ∉ t → read t = none) :
    search read (id ++ '[' :: (content ++ [']'])) = none := by
  rw [search_append hid, search, hhead]
  refine search_eq_none fun t ht => hnone t fun hmem => ?_
  exact hopening (by simpa using ht.subset hmem)

theorem quotedNodeAt?_eq_none (hs : '[' ∉ s) : quotedNodeAt? s = none := by
  cases hword : word? s with
  | none => rw [quotedNodeAt?, hword, Option.bind_eq_bind, Option.bind_none]
  | some read =>
    have hrest : '[' ∉ read.2 := fun hmem => hs ((suffix_of_word? hword).subset hmem)
    have hlabel : NodeRef.quotedLabel? read.2 = none := by
      rw [NodeRef.quotedLabel?, after?_eq_none List.mem_cons_self hrest, Option.bind_eq_bind, Option.bind_none]
    simp only [quotedNodeAt?, hword, Option.bind_eq_bind, Option.bind_some, hlabel, Option.bind_none]

theorem bracketNodeAt?_eq_none (hs : '[' ∉ s) : bracketNodeAt? s = none := by
  cases hword : word? s with
  | none => rw [bracketNodeAt?, hword, Option.bind_eq_bind, Option.bind_none]
  | some read =>
    have hrest : '[' ∉ read.2 := fun hmem => hs ((suffix_of_word? hword).subset hmem)
    have hlabel : NodeRef.bracketLabel? read.2 = none := by
      rw [NodeRef.bracketLabel?, after?_eq_none List.mem_cons_self hrest, Option.bind_eq_bind, Option.bind_none]
    simp only [bracketNodeAt?, hword, Option.bind_eq_bind, Option.bind_some, hlabel, Option.bind_none]

/-- On its own, a node is read with what its brackets hold unless that is
    nothing at all, even if nothing of it is left as a label. The rule for
    quotes is tried first, and what it reads the rule for brackets would read as
    well. From inside the id the same brackets are read, so no later start
    succeeds where the first one failed. -/
theorem read?_bracketed (hid : IsWord id) (hopening : '[' ∉ content) (hclosing : ']' ∉ content)
    (harrow : '-' ∉ content) (hfan : '&' ∉ content) :
    read? (id ++ '[' :: (content ++ [']'])) =
      if content.isEmpty then none else some (.node id (NodeRef.unquote content)) := by
  have hword : ∀ t, t <:+ id → t ≠ [] → IsWord t := fun t ht hne =>
    ⟨hne, fun c hc => hid.2 c (ht.subset hc)⟩
  have hhead : ∀ t, word? ('[' :: t) = none := word?_cons_eq_none (by decide)
  have hlone : search bracketNodeAt? (id ++ '[' :: (content ++ [']'])) =
      if content.isEmpty then none else some (.node id (NodeRef.unquote content)) := by
    split
    · rename_i hempty
      refine search_bracketed_eq_none hopening (fun t ht hne => ?_) (fun t => ?_) fun t => bracketNodeAt?_eq_none
      · rw [bracketNodeAt?_append (hword t ht hne) hclosing, if_pos hempty]
      · rw [bracketNodeAt?, hhead, Option.bind_eq_bind, Option.bind_none]
    · rename_i hne
      refine search_eq_some ?_
      rw [bracketNodeAt?_append hid hclosing, if_neg hne]
  rw [read?_of_not_mem (by simp [hid.not_mem (c := '-') (by decide), harrow])
    (by simp [hid.not_mem (c := '&') (by decide), hfan])]
  cases hquoted : quotedNodeAt? (id ++ '[' :: (content ++ [']'])) with
  | some statement =>
    rw [search_eq_some hquoted]
    rw [quotedNodeAt?_append hid, Option.bind_eq_some_iff] at hquoted
    obtain ⟨⟨label, left⟩, hread, hstatement⟩ := hquoted
    obtain ⟨rfl, hne, -⟩ := NodeRef.of_quotedLabel? hclosing List.not_mem_nil hread
    split at hstatement
    · cases hstatement
    · obtain rfl := Option.some.inj hstatement
      rw [if_neg (by simpa using hne)]
      rfl
  | none =>
    have hnone : search quotedNodeAt? (id ++ '[' :: (content ++ [']'])) = none := by
      refine search_bracketed_eq_none hopening (fun t ht hne => ?_) (fun t => ?_) fun t => quotedNodeAt?_eq_none
      · rw [quotedNodeAt?_append hid, Option.bind_eq_none_iff] at hquoted
        rw [quotedNodeAt?_append (hword t ht hne), Option.bind_eq_none_iff]
        intro r hr
        have hempty := hquoted r hr
        split at hempty
        · rw [if_pos ‹_›]
        · cases hempty
      · rw [quotedNodeAt?, hhead, Option.bind_eq_bind, Option.bind_none]
    rw [hnone, hlone]
    rfl

/-- At the source of an arrow, a node is read with what its brackets hold, be it
    nothing at all. -/
theorem read?_bracketed_arrow {target : List Char} (hid : IsWord id) (hclosing : ']' ∉ content)
    (hcontent : ∀ c ∈ ['-', '<', '|', '&'], c ∉ content) (htarget : IsWord target) :
    read? (id ++ '[' :: (content ++ ']' :: ' ' :: (['-', '-', '>'] ++ ' ' :: target))) =
      some (.link ⟨id, some (NodeRef.unquote content)⟩ [] .arrow ⟨target, none⟩) := by
  have hmarks : ∀ c ∈ ['-', '<', '|', '&'], isWordChar c = false ∧ c ≠ '[' ∧ c ≠ ']' := by
    simp [isWordChar]
  have hfront : ∀ c ∈ ['-', '<', '|', '&'], c ∉ id ++ '[' :: (content ++ [']']) := fun c hc => by
    simp [hid.not_mem (hmarks c hc).1, hcontent c hc, hmarks c hc]
  have hrest : ']' ∉ ' ' :: (['-', '-', '>'] ++ ' ' :: target) := by simp [htarget.not_mem (c := ']') (by decide)]
  have hsource := NodeRef.read?_bracketed hid hclosing hrest
  have htext : id ++ '[' :: (content ++ ']' :: ' ' :: (['-', '-', '>'] ++ ' ' :: target)) =
      (id ++ '[' :: (content ++ [']'])) ++ ' ' :: (['-', '-', '>'] ++ ' ' :: target) := by simp
  have hspace := htarget.head?_append []
  rw [List.append_nil] at hspace
  rw [htext] at hsource ⊢
  exact read?_arrow hsource (NodeRef.read?_word htarget.1 htarget.2) hspace hfront fun c hc =>
    htarget.not_mem (hmarks c hc).1

end Statement

section Nodes

/-- The label of the node with that id. -/
def label? (d : Flowchart) (id : String) : Option String :=
  (d.findNode? id).map Node.label

/-- A node has a label in both flowcharts, and the same in both. -/
def LabelsAlike (d e : Flowchart) (id : String) : Prop :=
  ∃ label, d.label? id = some label ∧ e.label? id = some label

/-- A node that is declared or mentioned has the label that was declared last
    for it, or its id where none was. -/
theorem label?_of_mem {d : Flowchart} {declarations joins : List (String × String)} {edges : List Edge}
    {id : String}
    (hd : d.nodes = nodesOf declarations edges joins)
    (hid : id ∈ declarations.map Prod.fst ++ edges.flatMap fun e => [e.source, e.target]) :
    d.label? id = some ((Naming.lastLabel? (namings declarations edges) id).getD id) := by
  have hfound : (d.findNode? id).isSome := by
    rw [findNode?_isSome, nodeIds, hd, map_id_nodesOf]
    exact List.mem_eraseDups.mpr hid
  obtain ⟨n, hn⟩ := Option.isSome_iff_exists.mp hfound
  have hmem : n ∈ nodesOf declarations edges joins := hd ▸ List.mem_of_find?_eq_some hn
  have hnid : n.id = id := beq_iff_eq.mp (List.find?_some (p := fun n : Node => n.id == id) hn)
  rw [label?, hn, Option.map_some, (of_mem_nodesOf hmem).1, hnid]

theorem label?_eq_none {d : Flowchart} {id : String} (h : id ∉ d.nodeIds) : d.label? id = none := by
  rw [label?, Option.map_eq_none_iff, ← Option.not_isSome_iff_eq_none, findNode?_isSome]
  exact h

theorem lastLabel?_namings_singleton (id label : String) (edges : List Edge) :
    Naming.lastLabel? (namings [(id, label)] edges) id = some label := by
  rw [namings, Naming.lastLabel?_append, Naming.lastLabel?_unlabelled, Option.none_or, List.map_singleton,
    Naming.lastLabel?_singleton, if_pos rfl]

end Nodes

section Lines

variable {a c z : String}

/-- The text of a node with something in brackets behind its id. -/
def loneText (a c : String) : String :=
  "flowchart TD\n" ++ a ++ "[" ++ c ++ "]"

/-- The text of the same node at the source of an arrow. -/
def linkedText (a c z : String) : String :=
  loneText a c ++ " --> " ++ z

def loneLine (a c : String) : List Char :=
  a.toList ++ '[' :: (c.toList ++ [']'])

def linkedLine (a c z : String) : List Char :=
  a.toList ++ '[' :: (c.toList ++ ']' :: ' ' :: (['-', '-', '>'] ++ ' ' :: z.toList))

/-- What may stand in the brackets: plain characters and quotes. -/
def IsContent (c : String) : Prop :=
  ∀ d ∈ c.toList, isPlainChar d ∨ d = '"'

instance (c : String) : Decidable (IsContent c) :=
  List.decidableBAll (fun d => isPlainChar d ∨ d = '"') c.toList

theorem IsContent.not_mem (h : IsContent c) {d : Char} (hd : isPlainChar d = false) (hquote : d ≠ '"') :
    d ∉ c.toList := by
  intro hmem
  rcases h d hmem with hplain | heq
  · exact Bool.false_ne_true (hd.symm.trans hplain)
  · exact hquote heq

/-- The text of a node on its own is made of a header and its line. -/
theorem loneText_eq (a c : String) :
    loneText a c = String.ofList (joinLines [headerLine .topDown, loneLine a c]) := by
  have hheader : "flowchart TD\n".toList = headerLine .topDown ++ ['\n'] := rfl
  have hopening : "[".toList = ['['] := rfl
  have hclosing : "]".toList = [']'] := rfl
  have hlist : (loneText a c).toList = joinLines [headerLine .topDown, loneLine a c] := by
    unfold loneText
    simp only [String.toList_append, hheader, hopening, hclosing, List.append_assoc]
    rw [joinLines, List.intercalate_cons_cons, List.intercalate_singleton, List.append_assoc]
    rfl
  rw [← hlist, String.ofList_toList]

/-- The text of a node at the source of an arrow is made of a header and its
    line. -/
theorem linkedText_eq (a c z : String) :
    linkedText a c z = String.ofList (joinLines [headerLine .topDown, linkedLine a c z]) := by
  have harrow : " --> ".toList = [' ', '-', '-', '>', ' '] := rfl
  have hlist : (linkedText a c z).toList = joinLines [headerLine .topDown, linkedLine a c z] := by
    unfold linkedText
    rw [String.toList_append, String.toList_append, loneText_eq, String.toList_ofList, harrow, joinLines,
      List.intercalate_cons_cons, List.intercalate_singleton, joinLines, List.intercalate_cons_cons,
      List.intercalate_singleton, loneLine, linkedLine]
    simp only [List.append_assoc, List.cons_append, List.nil_append]
  rw [← hlist, String.ofList_toList]

section Lone

variable (ha : IsName a) (hc : IsContent c)

include ha

/-- The line of a node on its own is neither a header nor a class line. -/
theorem readAsStatement_loneLine (c : String) : ReadAsStatement (loneLine a c) :=
  readAsStatement_append_cons (d := '[') ha (by decide) (fun h => absurd h (by decide))
    List.mem_cons_self (by decide)
    (by decide)

include hc

/-- The line of a node on its own is a statement as it stands. -/
theorem isStatement_loneLine : IsStatement (loneLine a c) where
  noBreak := by
    simp [loneLine, ha.not_mem (c := '\n') (by decide), hc.not_mem (d := '\n') (by decide) (by decide)]
  head := ha.head?_any _
  last := by
    have hlast : (loneLine a c).getLast? = some ']' := by simp [loneLine, List.getLast?_append, List.getLast?_cons]
    rw [hlast]
    rintro d ⟨⟩
    rfl

/-- The line of a node on its own has no class marks and no semicolon to
    lose. -/
theorem statementText_loneLine : statementText (loneLine a c) = loneLine a c := by
  have hlast : (loneLine a c).getLast? = some ']' := by simp [loneLine, List.getLast?_append, List.getLast?_cons]
  refine statementText_eq_self ?_ (isStatement_loneLine ha hc).trim_eq_self ?_
  · simp [loneLine, ha.not_mem (c := ':') (by decide), hc.not_mem (d := ':') (by decide) (by decide)]
  · rw [hlast]
    rintro d ⟨⟩
    rfl

/-- The label of a node on its own is what its brackets hold, even where that
    leaves nothing of it, and there is no node if they hold nothing at all. -/
theorem label?_loneLine : (ofLines [headerLine .topDown, loneLine a c] ∅).label? a =
    if c = "" then none else some (String.ofList (NodeRef.unquote c.toList)) := by
  have hread : Statement.read? (loneLine a c) = _ := Statement.read?_bracketed ha.isWord
    (hc.not_mem (by decide) (by decide)) (hc.not_mem (by decide) (by decide)) (hc.not_mem (by decide) (by decide))
    (hc.not_mem (by decide) (by decide))
  rw [(readAsStatement_loneLine ha c).ofLines_underHeader, statementText_loneLine ha hc, hread]
  by_cases hempty : c = ""
  · rw [if_pos hempty, hempty]
    refine label?_eq_none ?_
    rw [nodeIds, map_id_nodesOf]
    exact List.not_mem_nil
  · rw [if_neg hempty, if_neg (by simpa using hempty)]
    refine (label?_of_mem rfl ?_).trans ?_
    · simp [Statement.declarations]
    · simp [Statement.declarations, Statement.edges, lastLabel?_namings_singleton]

end Lone

section Linked

variable (ha : IsName a) (hc : IsContent c) (hz : IsName z)

include ha

/-- The line of a node at the source of an arrow is neither a header nor a class
    line. -/
theorem readAsStatement_linkedLine (c z : String) : ReadAsStatement (linkedLine a c z) :=
  readAsStatement_append_cons (d := '[') ha (by decide) (fun h => absurd h (by decide))
    List.mem_cons_self (by decide)
    (by decide)

omit ha in
include hz in
/-- The line of a node at the source of an arrow ends in the id of the
    target. -/
theorem getLast?_linkedLine (a c : String) : ∀ d ∈ (linkedLine a c z).getLast?, isWordChar d := by
  have hline : linkedLine a c z =
      (a.toList ++ '[' :: (c.toList ++ ']' :: ' ' :: ['-', '-', '>', ' '])) ++ z.toList := by simp [linkedLine]
  rw [hline]
  exact hz.getLast?_append _

include hc hz

/-- The line of a node at the source of an arrow holds no other marks than
    brackets, quotes and those of the arrow. -/
theorem not_mem_linkedLine {d : Char} (hd : isPlainChar d = false) (hmarks : d ∉ ['"', '[', ']', ' ', '-', '>']) :
    d ∉ linkedLine a c z := by
  simp only [List.mem_cons, List.not_mem_nil, or_false, not_or] at hmarks
  have hcontent : d ∉ c.toList := hc.not_mem hd hmarks.1
  simp [linkedLine, ha.isPlain.not_mem hd, hz.isPlain.not_mem hd, hcontent, hmarks]

/-- The line of a node at the source of an arrow is a statement as it stands. -/
theorem isStatement_linkedLine : IsStatement (linkedLine a c z) where
  noBreak := not_mem_linkedLine ha hc hz (by decide) (by decide)
  head := ha.head?_any _
  last d hd := isBlank_eq_false_of_isWordChar (getLast?_linkedLine hz a c d hd)

/-- The line of a node at the source of an arrow has no class marks and no
    semicolon to lose. -/
theorem statementText_linkedLine : statementText (linkedLine a c z) = linkedLine a c z := by
  refine statementText_eq_self (not_mem_linkedLine ha hc hz (by decide) (by decide))
    (isStatement_linkedLine ha hc hz).trim_eq_self fun d hd => ?_
  have hword := getLast?_linkedLine hz a c d hd
  rw [beq_eq_false_iff_ne]
  rintro rfl
  exact absurd hword (by decide)

/-- The label of a node at the source of an arrow is what its brackets hold, or
    its id if that leaves nothing. Here an id stands in for an empty label,
    where on a line of its own nothing stands in. -/
theorem label?_linkedLine : (ofLines [headerLine .topDown, linkedLine a c z] ∅).label? a =
    some (if NodeRef.unquote c.toList = [] then a else String.ofList (NodeRef.unquote c.toList)) := by
  have hcontent : ∀ d ∈ ['-', '<', '|', '&'], d ∉ c.toList := by
    have hmarks : ∀ d ∈ ['-', '<', '|', '&'], isPlainChar d = false ∧ d ≠ '"' := by
      simp [isPlainChar, isWordChar]
    exact fun d hd => hc.not_mem (hmarks d hd).1 (hmarks d hd).2
  have hread : Statement.read? (linkedLine a c z) = _ := Statement.read?_bracketed_arrow ha.isWord
    (hc.not_mem (by decide) (by decide)) hcontent hz.isWord
  rw [(readAsStatement_linkedLine ha c z).ofLines_underHeader, statementText_linkedLine ha hc hz, hread]
  refine (label?_of_mem rfl ?_).trans ?_
  · simp [Statement.declarations, NodeRef.declared?]
  · by_cases hempty : NodeRef.unquote c.toList = []
    · simp [Statement.declarations, NodeRef.declared?, hempty, lastLabel?_namings_singleton]
    · simp [Statement.declarations, NodeRef.declared?, hempty, lastLabel?_namings_singleton]

end Linked

end Lines

end Flowchart

namespace Diagram

open Flowchart

/-- A node that is declared on its own has the label that it has at the source
    of an arrow just if its brackets hold more than quotes with blanks around
    them. If they do not, the arrow takes the id of the node for its label, but
    on its own the node is lost if the brackets are empty, and has an empty
    label if they are not. -/
theorem ofText_loneText [YamlReader] {a c z : String} (ha : IsName a) (hz : IsName z) (hc : IsContent c) :
    ∃ alone linked, ofText (loneText a c) = .flowchart alone ∧ ofText (linkedText a c z) = .flowchart linked ∧
      (LabelsAlike alone linked a ↔ ¬NodeRef.IsHollow c.toList) ∧
      (NodeRef.IsHollow c.toList →
        linked.label? a = some a ∧ alone.label? a = if c = "" then none else some "") := by
  have halone := label?_loneLine ha hc
  have hlinked := label?_linkedLine ha hc hz
  have hofAlone := ofText_underHeader (isStatement_loneLine ha hc)
  have hofLinked := ofText_underHeader (isStatement_linkedLine ha hc hz)
  rw [← loneText_eq] at hofAlone
  rw [← linkedText_eq] at hofLinked
  refine ⟨_, _, hofAlone, hofLinked, ?_, ?_⟩
  · rw [LabelsAlike, halone, hlinked, ← NodeRef.unquote_eq_nil_iff]
    constructor
    · rintro ⟨label, hlone, hlink⟩ hhollow
      rw [hhollow] at hlone hlink
      rw [if_pos rfl] at hlink
      obtain rfl := Option.some.inj hlink
      split at hlone
      · cases hlone
      · exact ha.ne_empty (Option.some.inj hlone).symm
    · intro hkept
      have hne : c ≠ "" := by
        rintro rfl
        exact hkept rfl
      refine ⟨String.ofList (NodeRef.unquote c.toList), ?_, ?_⟩
      · rw [if_neg hne]
      · rw [if_neg hkept]
  · intro hhollow
    have hnothing := NodeRef.unquote_eq_nil_iff.mpr hhollow
    rw [halone, hlinked, if_pos hnothing, hnothing]
    exact ⟨rfl, rfl⟩

/-- A node with an empty label in quotes has that label on its own and its id
    for a label at an arrow. -/
theorem ofText_loneText_emptyQuotes : ∃ alone linked, ofText "flowchart TD\na[\"\"]" = .flowchart alone ∧
    ofText "flowchart TD\na[\"\"] --> z" = .flowchart linked ∧ ¬LabelsAlike alone linked "a" ∧
    linked.label? "a" = some "a" ∧ alone.label? "a" = some "" := by
  obtain ⟨alone, linked, halone, hlinked, hiff, hhollow⟩ :=
    ofText_loneText (a := "a") (c := "\"\"") (z := "z") (by decide) (by decide) (by decide)
  have hquotes : NodeRef.IsHollow "\"\"".toList := ⟨[], ['"', '"'], [], rfl, by simp, by simp, by simp⟩
  obtain ⟨hlink, hlone⟩ := hhollow hquotes
  exact ⟨alone, linked, halone, hlinked, fun halike => hiff.mp halike hquotes, hlink, hlone⟩

end Diagram

end LiveDiagram
