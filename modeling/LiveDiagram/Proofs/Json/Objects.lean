import Mathlib.Data.List.Basic
import LiveDiagram.Positions.Codec

namespace LiveDiagram.Json

variable {α β : Type}

@[simp] theorem field?_obj (members : List (String × Json α)) (key : String) :
    (obj members).field? key = members.lookup key :=
  rfl

/-- An optional member is found under its name only, and there just if there is
    a value to write. -/
theorem lookup_optional {γ : Type} (write : β → γ) (name key : String) (value : Option β) :
    ((value.map fun v => (name, write v)).toList).lookup key =
      if key = name then value.map write else none := by
  cases value with
  | none => simp
  | some v =>
    by_cases heq : key = name
    · simp [heq]
    · simp [heq, List.lookup_cons, beq_false_of_ne heq]

section Maps

/-- Adding entries one after the other is what the library does with many at
    once. -/
private theorem foldl_insert_eq_insertMany (entries : List (String × β)) (m : Std.ExtTreeMap String β) :
    entries.foldl (fun m entry => m.insert entry.1 entry.2) m = m.insertMany entries := by
  induction entries generalizing m with
  | nil => simp
  | cons entry entries ih => rw [List.foldl_cons, ih, Std.ExtTreeMap.insertMany_cons]

/-- A map is made up of its entries: adding them to the empty map gives it back,
    since no key has two of them. -/
theorem foldl_insert_toList (m : Std.ExtTreeMap String β) :
    m.toList.foldl (fun m entry => m.insert entry.1 entry.2) ∅ = m := by
  rw [foldl_insert_eq_insertMany, ← Std.ExtTreeMap.ofList_eq_insertMany_empty]
  apply Std.ExtTreeMap.ext_getElem?
  intro key
  cases hvalue : m[key]? with
  | some value =>
    refine Std.ExtTreeMap.getElem?_ofList_of_mem Std.ReflCmp.compare_self
      Std.ExtTreeMap.distinct_keys_toList ?_
    exact Std.ExtTreeMap.mem_toList_iff_getElem?_eq_some.mpr hvalue
  | none =>
    apply Std.ExtTreeMap.getElem?_ofList_of_contains_eq_false
    rw [Std.ExtTreeMap.map_fst_toList_eq_keys, List.contains_eq_mem, decide_eq_false_iff_not,
      Std.ExtTreeMap.mem_keys, Std.ExtTreeMap.mem_iff_isSome_getElem?, hvalue]
    simp

/-- A map is read back from its object if its values are read back. Keys may be
    anything, since they are written as the names of members and no name is
    special in an object. -/
theorem toMap_ofMap {read : Json α → Option β} {write : β → Json α}
    (hread : ∀ value, read (write value) = some value) (m : Std.ExtTreeMap String β) :
    (ofMap write m).toMap read = m := by
  unfold toMap ofMap
  simp only [entries?, Option.getD_some, List.foldl_map, hread]
  exact foldl_insert_toList m

end Maps

section Reread

variable [Scalar α]

/-- Every number in the value has digits. -/
inductive Finite : Json α → Prop
  | null : Finite null
  | bool (b : Bool) : Finite (bool b)
  | num {x : α} (hx : Scalar.isFinite x) : Finite (num x)
  | str (s : String) : Finite (str s)
  | arr {items : List (Json α)} (hitems : ∀ item ∈ items, Finite item) : Finite (arr items)
  | obj {members : List (String × Json α)} (hmembers : ∀ m ∈ members, Finite m.2) :
    Finite (obj members)

theorem rereadItems_eq_map (items : List (Json α)) : rereadItems items = items.map reread := by
  induction items with
  | nil => rfl
  | cons item items ih => rw [rereadItems, ih, List.map_cons]

/-- The members of an object are read back one by one, each under its own
    name. -/
theorem rereadMembers_eq_map (members : List (String × Json α)) :
    rereadMembers members = members.map fun m => (m.1, m.2.reread) := by
  induction members with
  | nil => rfl
  | cons m members ih => rw [rereadMembers, ih, List.map_cons]

/-- A value whose numbers have digits is read back as it is. Only a number
    without digits is written as something else, namely as nothing. -/
theorem Finite.reread_eq {j : Json α} (hj : j.Finite) : j.reread = j := by
  induction hj with
  | null => rw [reread]
  | bool b => rw [reread]
  | num hx => rw [reread, if_pos hx]
  | str s => rw [reread]
  | arr _ ih =>
    rw [reread, rereadItems_eq_map]
    exact congrArg Json.arr ((List.map_congr_left ih).trans (List.map_id' _))
  | @obj members _ ih =>
    rw [reread, rereadMembers_eq_map]
    have hsame : ∀ m ∈ members, (m.1, m.2.reread) = m := fun m hm => Prod.ext rfl (ih m hm)
    exact congrArg Json.obj ((List.map_congr_left hsame).trans (List.map_id' _))

/-- An object is read back member by member, so what is found under a key
    afterwards is what was there, read back. -/
theorem field?_reread (j : Json α) (key : String) :
    j.reread.field? key = (j.field? key).map reread := by
  cases j with
  | obj members =>
    rw [reread, rereadMembers_eq_map, field?_obj, field?_obj]
    induction members with
    | nil => rfl
    | cons m members ih =>
      obtain ⟨name, value⟩ := m
      by_cases heq : key = name
      · simp [heq]
      · simpa [List.lookup_cons, beq_false_of_ne heq] using ih
  | num x =>
    rw [reread]
    split <;> rfl
  | _ => rw [reread]; rfl

end Reread

end LiveDiagram.Json
