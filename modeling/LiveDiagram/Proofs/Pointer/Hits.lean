import LiveDiagram.Pointer.Hit

namespace LiveDiagram

variable {α : Type} [Scalar α]

namespace Chart

/-- What can be hit on the chart. -/
def Has (c : Chart α) : Hit → Prop
  | .nothing => True
  | .node id | .handle id _ => id ∈ c.nodes
  | .edgePath key | .edgeAnchor key _ | .edgeControl key _ => key ∈ c.edges
  | .participant _ => False

variable {c : Chart α} {p : Point α} {h : Hit}

/-- A point of the selected edge is hit only if that edge is on the chart. -/
theorem exists_of_hitSelectedEdge (hh : c.hitSelectedEdge p = some h) :
    ∃ key ∈ c.edges, (∃ which, h = .edgeAnchor key which) ∨ ∃ index, h = .edgeControl key index := by
  unfold hitSelectedEdge at hh
  obtain ⟨key, -, hh⟩ := Option.bind_eq_some_iff.mp hh
  obtain ⟨e, he, hh⟩ := Option.bind_eq_some_iff.mp hh
  obtain ⟨⟨q, point⟩, hpoint, hnear⟩ := List.exists_of_findSome?_eq_some hh
  have hpoint : h = point := by
    dsimp only at hnear
    split at hnear
    · exact (Option.some.inj hnear).symm
    · cases hnear
  subst hpoint
  refine ⟨key, Std.ExtTreeMap.mem_iff_isSome_getElem?.mpr (Option.isSome_of_eq_some he), ?_⟩
  simp only [List.mem_cons, List.not_mem_nil, or_false, Prod.mk.injEq] at hpoint
  rcases hpoint with ⟨-, rfl⟩ | ⟨-, rfl⟩ | ⟨-, rfl⟩ | ⟨-, rfl⟩
  · exact .inl ⟨_, rfl⟩
  · exact .inl ⟨_, rfl⟩
  · exact .inr ⟨_, rfl⟩
  · exact .inr ⟨_, rfl⟩

/-- A handle is hit only if its node is on the chart. -/
theorem exists_of_hitHandle (hh : c.hitHandle p = some h) :
    ∃ id ∈ c.nodes, ∃ handle, h = .handle id handle := by
  obtain ⟨⟨id, n⟩, hn, hfound⟩ := List.exists_of_findSome?_eq_some hh
  obtain ⟨handle, -, rfl⟩ := Option.map_eq_some_iff.mp hfound
  have hnode := Std.ExtTreeMap.mem_toList_iff_getElem?_eq_some.mp (List.mem_filter.mp hn).1
  exact ⟨id, Std.ExtTreeMap.mem_iff_isSome_getElem?.mpr (Option.isSome_of_eq_some hnode), handle, rfl⟩

/-- An edge is hit by its path only if it is on the chart. -/
theorem exists_of_hitEdge (hh : c.hitEdge p = some h) : ∃ key ∈ c.edges, h = .edgePath key := by
  refine List.foldlRecOn
    (motive := fun nearest : α × Option Hit => ∀ h, nearest.2 = some h → ∃ key ∈ c.edges, h = .edgePath key)
    c.edges.toList _ (fun h hnone => by cases hnone) (fun nearest hnearest edge hedge h => ?_) h hh
  have he := Std.ExtTreeMap.mem_toList_iff_getElem?_eq_some.mp hedge
  dsimp only
  split
  · rintro ⟨⟩
    exact ⟨edge.1, Std.ExtTreeMap.mem_iff_isSome_getElem?.mpr (Option.isSome_of_eq_some he), rfl⟩
  · exact hnearest h

/-- A node is hit only if it is on the chart. -/
theorem exists_of_hitNode (hh : c.hitNode p = some h) : ∃ id ∈ c.nodes, h = .node id := by
  obtain ⟨⟨id, n⟩, hn, rfl⟩ := Option.map_eq_some_iff.mp hh
  have hnode := Std.ExtTreeMap.mem_toList_iff_getElem?_eq_some.mp
    (List.mem_reverse.mp (List.mem_of_find?_eq_some hn))
  exact ⟨id, Std.ExtTreeMap.mem_iff_isSome_getElem?.mpr (Option.isSome_of_eq_some hnode), rfl⟩

/-- What is hit is a point of the selected edge, a handle, a node, an edge or
    nothing, in this order. -/
theorem hit_cases (c : Chart α) (p : Point α) :
    c.hitSelectedEdge p = some (c.hit p) ∨ c.hitHandle p = some (c.hit p) ∨ c.hitNode p = some (c.hit p) ∨
      c.hitEdge p = some (c.hit p) ∨ c.hit p = .nothing := by
  unfold hit
  cases c.hitSelectedEdge p with
  | some h => exact .inl rfl
  | none =>
    cases c.hitHandle p with
    | some h => exact .inr (.inl rfl)
    | none =>
      cases c.hitNode p with
      | some h => exact .inr (.inr (.inl rfl))
      | none =>
        cases c.hitEdge p with
        | some h => exact .inr (.inr (.inr (.inl rfl)))
        | none => exact .inr (.inr (.inr (.inr rfl)))

/-- A point of a chart hits only what is on it. -/
theorem has_hit (c : Chart α) (p : Point α) : c.Has (c.hit p) := by
  rcases c.hit_cases p with h | h | h | h | h
  · obtain ⟨key, hkey, ⟨which, heq⟩ | ⟨index, heq⟩⟩ := exists_of_hitSelectedEdge h <;>
      (rw [heq]; exact hkey)
  · obtain ⟨id, hid, handle, heq⟩ := exists_of_hitHandle h
    rw [heq]
    exact hid
  · obtain ⟨id, hid, heq⟩ := exists_of_hitNode h
    rw [heq]
    exact hid
  · obtain ⟨key, hkey, heq⟩ := exists_of_hitEdge h
    rw [heq]
    exact hkey
  · rw [h]
    trivial

/-- A node is hit only by its rectangle. -/
theorem hitNode_of_hit {id : String} (hh : c.hit p = .node id) : c.hitNode p = some (.node id) := by
  rcases c.hit_cases p with h | h | h | h | h <;> rw [hh] at h
  · obtain ⟨key, -, ⟨which, heq⟩ | ⟨index, heq⟩⟩ := exists_of_hitSelectedEdge h <;> cases heq
  · obtain ⟨other, -, handle, heq⟩ := exists_of_hitHandle h
    cases heq
  · exact h
  · obtain ⟨key, -, heq⟩ := exists_of_hitEdge h
    cases heq
  · cases h

end Chart

/-- A participant that is hit is on the timeline, and nothing else of a timeline
    can be hit. -/
theorem Timeline.hit_cases (t : Timeline α) (p : Point α) :
    t.hit p = .nothing ∨ ∃ id ∈ t.participants, t.hit p = .participant id := by
  unfold hit
  cases hfound : t.participants.toList.find? fun q => q.2.header.contains p with
  | none => exact .inl rfl
  | some x =>
    have hitem := Std.ExtTreeMap.mem_toList_iff_getElem?_eq_some.mp (List.mem_of_find?_eq_some hfound)
    have hid := Std.ExtTreeMap.mem_iff_isSome_getElem?.mpr (Option.isSome_of_eq_some hitem)
    exact .inr ⟨x.1, hid, rfl⟩

namespace Session

variable {s : Session α} {p : Point α}

/-- If something other than a participant is hit, a chart is shown, and the
    thing is on it. -/
theorem chart_of_hit {h : Hit} (hh : s.hit p = h) (hkind : h ≠ .nothing ∧ ∀ id, h ≠ .participant id) :
    ∃ c, s.picture = .chart c ∧ c.Has h := by
  cases hpicture : s.picture with
  | chart c =>
    rw [hit, hpicture] at hh
    exact ⟨c, rfl, hh ▸ c.has_hit p⟩
  | timeline t =>
    rw [hit, hpicture] at hh
    rcases t.hit_cases p with hnothing | ⟨id, -, hparticipant⟩
    · exact absurd (hh.symm.trans hnothing) hkind.1
    · exact absurd (hh.symm.trans hparticipant) (hkind.2 id)

/-- If a participant is hit, a timeline is shown, and the participant is on
    it. -/
theorem timeline_of_hit {id : String} (hh : s.hit p = .participant id) :
    ∃ t, s.picture = .timeline t ∧ id ∈ t.participants := by
  cases hpicture : s.picture with
  | chart c =>
    rw [hit, hpicture] at hh
    have hhas : c.Has (.participant id) := hh ▸ c.has_hit p
    exact hhas.elim
  | timeline t =>
    rw [hit, hpicture] at hh
    rcases t.hit_cases p with hnothing | ⟨other, hother, hparticipant⟩
    · cases hnothing.symm.trans hh
    · cases hparticipant.symm.trans hh
      exact ⟨t, rfl, hother⟩

end Session

end LiveDiagram
