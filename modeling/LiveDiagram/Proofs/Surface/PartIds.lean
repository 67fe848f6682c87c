import LiveDiagram.Chart.Drawing
import LiveDiagram.Proofs.Text.Separators
import LiveDiagram.Timeline.Drawing

namespace LiveDiagram

/-- The ids made of a word, an owner and one of some endings. The owner can be
    read off such an id in two cases: the owner has no colon, and each ending is
    empty or starts with one; or no ending ends in another. Nodes and
    participants are of the first kind, edges and messages of the second. Notes
    are of neither. -/
def partNames (word owner : String) (endings : List String) : List String :=
  endings.map fun ending => word ++ owner ++ ending

/-- Different endings make different ids, whatever the owner is called. -/
theorem partNames_nodup {word owner : String} {endings : List String} (h : endings.Nodup) :
    (partNames word owner endings).Nodup := by
  refine List.Pairwise.map _ (fun a b hne heq => hne ?_) h
  rw [← String.toList_inj] at heq ⊢
  simpa using heq

/-- An id of a part, taken apart into its word, its owner and its ending. -/
theorem mem_partNames {word owner : String} {endings : List String} {name : String} :
    name ∈ partNames word owner endings ↔
      ∃ ending ∈ endings, name.toList = word.toList ++ (owner.toList ++ ending.toList) := by
  simp [partNames, ← String.toList_inj, eq_comm]

/-- An owner without a colon can be read off an id whose ending, if it has one,
    starts with a colon: the owner is all that stands before it. -/
theorem owner_eq_of_colon_endings {word owner owner' : String} {endings : List String}
    (hendings : ∀ ending ∈ endings, ∀ c ∈ ending.toList.head?, c = ':') (hfree : ':' ∉ owner.toList)
    (hfree' : ':' ∉ owner'.toList) {name : String} (hname : name ∈ partNames word owner endings)
    (hname' : name ∈ partNames word owner' endings) : owner = owner' := by
  obtain ⟨ending, hmem, heq⟩ := mem_partNames.mp hname
  obtain ⟨ending', hmem', heq'⟩ := mem_partNames.mp hname'
  rw [heq] at heq'
  have hrest := List.append_cancel_left heq'
  have hlists := Text.append_inj_of_head? hfree hfree' (hendings ending hmem) (hendings ending' hmem')
    hrest
  exact String.toList_inj.mp hlists.1

/-- An owner can be read off an id when no ending ends in another: at most one
    ending fits the id, and it leaves the owner. The owner may be called
    anything. -/
theorem owner_eq_of_distinct_endings {word owner owner' : String} {endings : List String}
    (hendings : ∀ ending ∈ endings, ∀ other ∈ endings, ending.toList <:+ other.toList → ending = other)
    {name : String} (hname : name ∈ partNames word owner endings)
    (hname' : name ∈ partNames word owner' endings) : owner = owner' := by
  obtain ⟨ending, hmem, heq⟩ := mem_partNames.mp hname
  obtain ⟨ending', hmem', heq'⟩ := mem_partNames.mp hname'
  rw [heq] at heq'
  have hends : ∀ t ∈ endings.map String.toList, ∀ u ∈ endings.map String.toList,
      t <:+ u → t = u := by
    intro t ht u hu hsuffix
    obtain ⟨a, ha, rfl⟩ := List.mem_map.mp ht
    obtain ⟨b, hb, rfl⟩ := List.mem_map.mp hu
    rw [hendings a ha b hb hsuffix]
  have hlists := Text.append_inj_of_endings hends (List.mem_map_of_mem hmem)
    (List.mem_map_of_mem hmem') (List.append_cancel_left heq')
  exact String.toList_inj.mp hlists.1

/-- An id starts with the letter of its word, whoever the owner is. -/
theorem head?_of_mem_partNames {word owner : String} {endings : List String} {c : Char}
    (hword : word.toList.head? = some c) {name : String} (hname : name ∈ partNames word owner endings) :
    name.toList.head? = some c := by
  obtain ⟨ending, -, heq⟩ := mem_partNames.mp hname
  simp [heq, hword]

/-- Ids that start with different letters are of different kinds of owner, so
    parts of a node and of a message, say, are never mixed up. -/
theorem not_mem_partNames_of_head? {word word' owner owner' : String}
    {endings endings' : List String} (c c' : Char) (hword : word.toList.head? = some c)
    (hword' : word'.toList.head? = some c') (hne : c ≠ c') {name : String}
    (hname : name ∈ partNames word owner endings) : name ∉ partNames word' owner' endings' := by
  intro hname'
  have hfirst := head?_of_mem_partNames hword hname
  rw [head?_of_mem_partNames hword' hname'] at hfirst
  exact hne (Option.some.inj hfirst).symm

namespace NodeItem

/-- How the ids of the parts of a node end. -/
def partEndings : List String :=
  ["", ":label"] ++ Handle.all.map fun h => ":handle:" ++ h.name

theorem partIds_eq (id : String) : partIds id = partNames "node:" id partEndings := by
  simp [partIds, partNames, partEndings, Part.id, Handle.all, String.append_assoc]

/-- No two parts of one node have the same id, whatever the id of the node
    is. -/
theorem nodup_partIds (id : String) : (partIds id).Nodup := by
  rw [partIds_eq]
  exact partNames_nodup (by simp [partEndings, Handle.all, Handle.name, ← String.toList_inj])

/-- Two nodes without colons in their ids that have a part in common are the
    same node. With a colon an id could be that of another node followed by the
    name of a part. -/
theorem eq_of_mem_partIds {id other name : String} (hid : ':' ∉ id.toList)
    (hother : ':' ∉ other.toList) (hname : name ∈ partIds id) (hname' : name ∈ partIds other) :
    id = other := by
  rw [partIds_eq] at hname hname'
  refine owner_eq_of_colon_endings ?_ hid hother hname hname'
  simp [partEndings, Handle.all, Handle.name]

end NodeItem

namespace EdgeItem

/-- How the ids of the parts of an edge end. -/
def partEndings : List String :=
  [":path", ":arrow_end", ":arrow_start", ":label", ":cp:start", ":cp:end", ":cp:control1",
    ":cp:control2"]

theorem partIds_eq (key : String) : partIds key = partNames "edge:" key partEndings := by
  simp [partIds, partNames, partEndings, Part.id, EdgePoint.all, EdgePoint.name, String.append_assoc]

/-- No two parts of one edge have the same id, whatever its key is. -/
theorem nodup_partIds (key : String) : (partIds key).Nodup := by
  rw [partIds_eq]
  exact partNames_nodup (by decide)

/-- Two edges that have a part in common are the same edge, whatever their keys
    hold, since no ending of a part of an edge ends in another. -/
theorem eq_of_mem_partIds {key other name : String} (hname : name ∈ partIds key)
    (hname' : name ∈ partIds other) : key = other := by
  rw [partIds_eq] at hname hname'
  exact owner_eq_of_distinct_endings (by decide) hname hname'

/-- No part of an edge is a part of a node: their ids start with different
    letters. -/
theorem not_mem_partIds_node {key id name : String} (hname : name ∈ partIds key) :
    name ∉ NodeItem.partIds id := by
  rw [partIds_eq] at hname
  rw [NodeItem.partIds_eq]
  exact not_mem_partNames_of_head? 'e' 'n' (by decide) (by decide) (by decide) hname

end EdgeItem

namespace ParticipantItem

theorem partIds_eq (id : String) :
    partIds id = partNames "participant:" id ["", ":label", ":lifeline"] := by
  simp [partIds, partNames, Part.id, String.append_assoc]

theorem head?_of_mem_partIds {id name : String} (hname : name ∈ partIds id) :
    name.toList.head? = some 'p' := by
  rw [partIds_eq] at hname
  exact head?_of_mem_partNames (by decide) hname

/-- No two parts of one participant have the same id, whatever the id of the
    participant is. -/
theorem nodup_partIds (id : String) : (partIds id).Nodup := by
  rw [partIds_eq]
  exact partNames_nodup (by decide)

/-- Two participants without colons in their ids that have a part in common are
    the same participant. -/
theorem eq_of_mem_partIds {id other name : String} (hid : ':' ∉ id.toList) (hother : ':' ∉ other.toList)
    (hname : name ∈ partIds id) (hname' : name ∈ partIds other) : id = other := by
  rw [partIds_eq] at hname hname'
  exact owner_eq_of_colon_endings (by simp) hid hother hname hname'

end ParticipantItem

namespace MessageItem

/-- How the ids of the parts of a message end. -/
def partEndings : List String :=
  [":line", ":head0", ":head1", ":head2", ":head3", ":label"]

theorem partIds_eq (key : String) : partIds key = partNames "message:" key partEndings := by
  simp only [partIds, partNames, partEndings, Part.id, List.map_cons, List.map_nil, String.append_assoc]
  rfl

theorem head?_of_mem_partIds {key name : String} (hname : name ∈ partIds key) :
    name.toList.head? = some 'm' := by
  rw [partIds_eq] at hname
  exact head?_of_mem_partNames (by decide) hname

/-- Two messages that have a part in common are the same message, whatever their
    keys hold. -/
theorem eq_of_mem_partIds {key other name : String} (hname : name ∈ partIds key)
    (hname' : name ∈ partIds other) : key = other := by
  rw [partIds_eq] at hname hname'
  exact owner_eq_of_distinct_endings (by decide) hname hname'

end MessageItem

namespace NoteItem

theorem partIds_eq (key : String) : partIds key = partNames "note:" key ["", ":label"] := by
  simp [partIds, partNames, Part.id, String.append_assoc]

theorem head?_of_mem_partIds {key name : String} (hname : name ∈ partIds key) :
    name.toList.head? = some 'n' := by
  rw [partIds_eq] at hname
  exact head?_of_mem_partNames (by decide) hname

theorem nodup_partIds (key : String) : (partIds key).Nodup := by
  rw [partIds_eq]
  exact partNames_nodup (by decide)

/-- Two notes have a part in common only if they are the same note, or the body
    of one has the id of the label of the other. The second case can arise,
    since the key of a note ends in its text. -/
theorem mem_partIds_cases {key other name : String} (hname : name ∈ partIds key)
    (hname' : name ∈ partIds other) :
    key = other ∨ key = other ++ ":label" ∨ other = key ++ ":label" := by
  simp only [partIds, Part.id, List.mem_cons, List.not_mem_nil, or_false] at hname hname'
  rcases hname with rfl | rfl <;> rcases hname' with hname' | hname' <;>
    simp only [← String.toList_inj, String.toList_append, List.append_assoc] at hname' ⊢ <;>
    have hrest := List.append_cancel_left hname'
  · exact .inl hrest
  · exact .inr (.inl hrest)
  · exact .inr (.inr hrest.symm)
  · exact .inl (List.append_cancel_right hrest)

end NoteItem

end LiveDiagram
