import LiveDiagram.Number.Double
import LiveDiagram.Proofs.Json.Objects

namespace LiveDiagram

open Json

variable {α : Type} [Scalar α]

section Finite

/-- Both coordinates have digits. -/
def Point.Finite (p : Point α) : Prop :=
  Scalar.isFinite p.x ∧ Scalar.isFinite p.y

/-- The corner and the size have digits. -/
structure Rect.Finite (r : Rect α) : Prop where
  x : Scalar.isFinite r.x
  y : Scalar.isFinite r.y
  width : Scalar.isFinite r.width
  height : Scalar.isFinite r.height

/-- The points that the shape has have digits. -/
structure EdgeShape.Finite (e : EdgeShape α) : Prop where
  startOffset : ∀ p ∈ e.startOffset, p.Finite
  endOffset : ∀ p ∈ e.endOffset, p.Finite
  control1 : ∀ p ∈ e.control1, p.Finite
  control2 : ∀ p ∈ e.control2, p.Finite

/-- All that is recorded has digits. -/
structure Positions.Finite (p : Positions α) : Prop where
  nodes : ∀ {id : String} {r : Rect α}, p.nodes[id]? = some r → r.Finite
  edges : ∀ {key : String} {e : EdgeShape α}, p.edges[key]? = some e → e.Finite

theorem Positions.finite_empty : (empty : Positions α).Finite where
  nodes h := by simp [empty] at h
  edges h := by simp [empty] at h

/-- A record with digits keeps the positions as they should be for saving. -/
theorem Positions.Finite.setNode {p : Positions α} (hp : p.Finite) (id : String) {r : Rect α}
    (hr : r.Finite) : (p.setNode id r).Finite where
  nodes {id' r'} h := by
    rw [Positions.setNode, Std.ExtTreeMap.getElem?_insert] at h
    split at h
    · exact Option.some.inj h ▸ hr
    · exact hp.nodes h
  edges h := hp.edges h

theorem EdgeShape.finite_empty : ({} : EdgeShape α).Finite where
  startOffset _ h := by simp at h
  endOffset _ h := by simp at h
  control1 _ h := by simp at h
  control2 _ h := by simp at h

/-- A change gives only points with digits if it does so to the shape that has
    none. Asking it of that shape is asking it of the change alone. -/
theorem EdgeShape.Finite.update {e : EdgeShape α} (he : e.Finite) {u : EdgeUpdate α}
    (hu : (({} : EdgeShape α).update u).Finite) : (e.update u).Finite := by
  have hor : ∀ {new old : Option (Point α)}, (∀ p ∈ (new <|> none), p.Finite) → (∀ p ∈ old, p.Finite) →
      ∀ p ∈ (new <|> old), p.Finite := by
    intro new old hnew hold
    cases new with
    | none => simpa using hold
    | some p => simpa using hnew
  exact
    { startOffset := hor hu.startOffset he.startOffset
      endOffset := hor hu.endOffset he.endOffset
      control1 := hor hu.control1 he.control1
      control2 := hor hu.control2 he.control2 }

/-- The shape of an edge has digits, also that of an edge without a record,
    which has no points at all. -/
theorem Positions.Finite.edge {p : Positions α} (hp : p.Finite) (key : String) :
    (p.edges.getD key {}).Finite := by
  rw [Std.ExtTreeMap.getD_eq_getD_getElem?]
  cases hrecord : p.edges[key]? with
  | none => exact EdgeShape.finite_empty
  | some e => exact hp.edges hrecord

/-- A change that gives points with digits keeps the positions as they should be
    for saving, whatever it is merged with. -/
theorem Positions.Finite.updateEdge {p : Positions α} (hp : p.Finite) (key : String) {u : EdgeUpdate α}
    (hu : (({} : EdgeShape α).update u).Finite) : (p.updateEdge key u).Finite where
  nodes h := hp.nodes h
  edges {key' e} h := by
    rw [Positions.updateEdge, Std.ExtTreeMap.getElem?_insert] at h
    split at h
    · exact Option.some.inj h ▸ (hp.edge key).update hu
    · exact hp.edges h

theorem Json.finite_ofPoint {p : Point α} (hp : p.Finite) : (ofPoint p).Finite := by
  refine .arr fun item hitem => ?_
  obtain rfl | rfl : item = num p.x ∨ item = num p.y := by simpa using hitem
  · exact .num hp.1
  · exact .num hp.2

/-- The object of a map has digits if what is written for its values has. -/
theorem Json.finite_ofMap {β : Type} {write : β → Json α} {m : Std.ExtTreeMap String β}
    (hwrite : ∀ {key : String} {value : β}, m[key]? = some value → (write value).Finite) :
    (ofMap write m).Finite := by
  refine .obj fun member hmember => ?_
  obtain ⟨⟨key, value⟩, hentry, rfl⟩ := List.mem_map.mp hmember
  exact hwrite (Std.ExtTreeMap.mem_toList_iff_getElem?_eq_some.mp hentry)

theorem Rect.Finite.toJson {r : Rect α} (hr : r.Finite) : r.toJson.Finite := by
  refine .obj fun member hmember => ?_
  simp only [List.mem_cons, List.not_mem_nil, or_false] at hmember
  obtain rfl | rfl | rfl | rfl := hmember
  exacts [.num hr.x, .num hr.y, .num hr.width, .num hr.height]

/-- The record of a shape has digits if the points that the shape has do. Those
    that it lacks are not written. -/
theorem EdgeShape.Finite.toJson {e : EdgeShape α} (he : e.Finite) : e.toJson.Finite := by
  have hpoint : ∀ (key : String) (p : Option (Point α)), (∀ q ∈ p, q.Finite) →
      ∀ member ∈ (p.map fun q => (key, ofPoint q)).toList, member.2.Finite := by
    intro key p hp member hmember
    obtain ⟨q, hq, rfl⟩ : ∃ q, p = some q ∧ (key, ofPoint q) = member := by simpa using hmember
    exact finite_ofPoint (hp q hq)
  refine .obj fun member hmember => ?_
  simp only [List.cons_append, List.append_assoc, List.mem_cons, List.mem_append] at hmember
  obtain rfl | h | h | h | h := hmember
  exacts [.bool _, hpoint _ _ he.startOffset _ h, hpoint _ _ he.endOffset _ h,
    hpoint _ _ he.control1 _ h, hpoint _ _ he.control2 _ h]

/-- Both members of an object of positions have digits if the positions do. -/
theorem Positions.Finite.toMembers {p : Positions α} (hp : p.Finite) :
    ∀ member ∈ p.toMembers, member.2.Finite := by
  intro member hmember
  simp only [Positions.toMembers, List.mem_cons, List.not_mem_nil, or_false] at hmember
  obtain rfl | rfl := hmember
  · exact finite_ofMap fun h => (hp.edges h).toJson
  · exact finite_ofMap fun h => (hp.nodes h).toJson

end Finite

omit [Scalar α] in
/-- A point that may be missing is read back, and a missing one stays
    missing. -/
@[simp] theorem Json.bind_point?_ofPoint (p : Option (Point α)) : (p.map ofPoint).bind point? = p := by
  cases p <;> rfl

@[simp] theorem Rect.ofJson?_toJson (r : Rect α) : ofJson? r.toJson = some r := by
  simp [Rect.toJson, Rect.ofJson?, numField, List.lookup_cons, num?]

omit [Scalar α] in
@[simp] theorem EdgeShape.ofJson?_toJson (e : EdgeShape α) : ofJson? e.toJson = some e := by
  simp [EdgeShape.toJson, EdgeShape.ofJson?, List.lookup_cons, List.lookup_append, lookup_optional, bool?]

namespace Positions

/-- Whatever an object records besides them, positions are found under the names
    of their members. This covers the file of positions and that of a
    document. -/
theorem ofJson_obj_of_lookup {members : List (String × Json α)} {p : Positions α}
    (hnodes : members.lookup "nodes" = some (ofMap Rect.toJson p.nodes))
    (hedges : members.lookup "edges" = some (ofMap EdgeShape.toJson p.edges)) :
    ofJson (obj members) = p := by
  simp only [ofJson, field?_obj, hnodes, hedges, Option.getD_some]
  rw [toMap_ofMap Rect.ofJson?_toJson, toMap_ofMap EdgeShape.ofJson?_toJson]

/-- Reading undoes writing. Positions are written in the nested form only, and
    are read in that form whatever the ids and keys in them are: the two members
    of the outermost object are always there. -/
theorem ofJson_toJson (p : Positions α) : ofJson p.toJson = p :=
  ofJson_obj_of_lookup rfl rfl

/-- Reading undoes writing through the text of a file as well, for positions
    whose numbers have digits. -/
theorem Finite.ofJson_reread_toJson {p : Positions α} (hp : p.Finite) : ofJson p.toJson.reread = p := by
  rw [toJson, (Json.Finite.obj hp.toMembers).reread_eq]
  exact p.ofJson_toJson

/-- Reading undoes writing, through the text of a file for positions whose
    numbers have digits, whatever the ids and keys are. Any value at all is
    read, and what is read of it is kept when it is written. -/
theorem json_roundTrip :
    (∀ p : Positions α, p.Finite → ofJson p.toJson.reread = p) ∧
      (∀ p : Positions α, ofJson p.toJson = p) ∧
      ∀ j : Json α, ofJson (ofJson j).toJson = ofJson j :=
  ⟨fun _ hp => hp.ofJson_reread_toJson, ofJson_toJson, fun j => (ofJson j).ofJson_toJson⟩

/-- Positions in which the names of the members of the file are ids and keys. -/
def oddlyNamed : Positions Float :=
  (((((empty : Positions Float).setNode "nodes" ⟨1, 2, 30, 40⟩).setNode "edges" ⟨-5, 0.5, 0, 0⟩).setNode ""
    ⟨0, 0, 1, 1⟩).updateEdge "edges" { curved := some true, control1 := some ⟨3, 4⟩ }).updateEdge ""
    { endOffset := some ⟨0, -1⟩ }

/-- Ids and keys that are the names of members of the file are read back as ids
    and keys. -/
theorem json_roundTrip_oddlyNamed :
    oddlyNamed.Finite ∧ ofJson oddlyNamed.toJson.reread = oddlyNamed := by
  have hpoint {x y : Float} (hx : Scalar.isFinite x) (hy : Scalar.isFinite y) (p : Point Float)
      (hp : p ∈ some (⟨x, y⟩ : Point Float)) : p.Finite := by
    obtain rfl : ⟨x, y⟩ = p := by simpa using hp
    exact ⟨hx, hy⟩
  have hnodes := (((finite_empty.setNode "nodes" (r := (⟨1, 2, 30, 40⟩ : Rect Float))
    ⟨by decide, by decide, by decide, by decide⟩).setNode "edges" (r := (⟨-5, 0.5, 0, 0⟩ : Rect Float))
    ⟨by decide, by decide, by decide, by decide⟩).setNode "" (r := (⟨0, 0, 1, 1⟩ : Rect Float))
    ⟨by decide, by decide, by decide, by decide⟩)
  have hfinite : oddlyNamed.Finite := by
    refine (hnodes.updateEdge "edges" ?_).updateEdge "" ?_
    · exact { EdgeShape.finite_empty with control1 := hpoint (by decide) (by decide) }
    · exact { EdgeShape.finite_empty with endOffset := hpoint (by decide) (by decide) }
  exact ⟨hfinite, json_roundTrip.1 oddlyNamed hfinite⟩

end Positions

end LiveDiagram
