import LiveDiagram.Pointer.Basic
import LiveDiagram.Proofs.Session.Writes

namespace LiveDiagram

/-- Something that happens to a session or to the pointer that acts on it: texts
    are shown and forgotten, documents are saved and opened, pictures are
    edited, and the pointer is pressed, moved and released. -/
inductive Event (α : Type) where
  | renderText (text : String)
  | render (d : Diagram)
  | resetPositions (text : String)
  | openFile (f : FileContent α)
  | saveFile (text : String) (f : File α)
  | clear
  | updateSettings (settings : Settings)
  | editChart (e : ChartEdit α)
  | editTimeline (e : TimelineEdit α)
  | press (p : Point α) (button : Button) (additive : Bool)
  | move (p : Point α)
  | release (p : Point α) (button : Button)
  /-- From now on the surface refuses these ids and no others. -/
  | refuse (ids : List String)
  /-- From now on positions are loaded and saved elsewhere, where that may
      fail. -/
  | backend (b : Backend α)

variable {α : Type} [Scalar α]

namespace Desk

/-- The desk after an event. One that the surface stops leaves the state that it
    reached. -/
def event [YamlReader] (d : Desk α) : Event α → Desk α
  | .renderText text => { d with session := (d.session.renderText text).1 }
  | .render diagram => { d with session := (d.session.render diagram).state }
  | .resetPositions text => { d with session := (d.session.resetPositions text).1 }
  | .openFile f => { d with session := (d.session.openFile f).1 }
  | .saveFile text f => { d with session := (d.session.saveFile text f).1 }
  | .clear => { d with session := d.session.clear }
  | .updateSettings settings => { d with session := d.session.updateSettings settings }
  | .editChart e => { d with session := d.session.call (.editChart e) }
  | .editTimeline e => { d with session := d.session.call (.editTimeline e) }
  | .press p button additive => (d.press p button additive).state
  | .move p => (d.move p).state
  | .release p button => (d.release p button).state
  | .refuse ids => { d with session := d.session.call (.refuse ids) }
  | .backend b => { d with session := { d.session with store := { d.session.store with backend := b } } }

/-- The desk after some events. -/
def events [YamlReader] (d : Desk α) (es : List (Event α)) : Desk α :=
  es.foldl event d

end Desk

/-- A call that makes an edit. -/
inductive Call.IsEdit : Call α → Prop
  | chart (e : ChartEdit α) : IsEdit (.editChart e)
  | timeline (e : TimelineEdit α) : IsEdit (.editTimeline e)

namespace ChartStage

/-- The stage after some edits. -/
abbrev Edited : ChartStage α → ChartStage α → Prop :=
  Relation.ReflTransGen fun s t => ∃ e, t = (edit s e).state

theorem edited_edit (s : ChartStage α) (e : ChartEdit α) : Edited s (s.edit e).state :=
  .single ⟨e, rfl⟩

end ChartStage

namespace Session

/-- The session after some edits. -/
abbrev Edited : Session α → Session α → Prop :=
  Relation.ReflTransGen fun s t => ∃ c : Call α, c.IsEdit ∧ t = s.call c

theorem Edited.induction {I : Session α → Prop} {s t : Session α} (h : Edited s t)
    (hcall : ∀ (s : Session α) (c : Call α), c.IsEdit → I s → I (s.call c)) (hs : I s) : I t := by
  induction h with
  | refl => exact hs
  | tail _ hlast ih =>
    obtain ⟨c, hc, rfl⟩ := hlast
    exact hcall _ c hc ih

/-- Each edit of the chart is a call of the session that shows it. -/
theorem edited_withPicture {t u : ChartStage α} (h : ChartStage.Edited t u) :
    Edited (t.withPicture (.chart t.picture)) (u.withPicture (.chart u.picture)) := by
  induction h with
  | refl => exact .refl
  | tail _ hlast ih =>
    obtain ⟨e, rfl⟩ := hlast
    refine ih.tail ⟨.editChart e, .chart e, ?_⟩
    rw [call, onChart_of_chart rfl]
    rfl

/-- What is done to the chart by edits is done to the session by edits. If no
    chart is shown, nothing is done. -/
theorem edited_onChart (s : Session α) {f : ChartStage α → Outcome (ChartStage α)}
    (hf : ∀ t, ChartStage.Edited t (f t).state) : Edited s (s.onChart f).state := by
  cases hpicture : s.picture with
  | timeline t =>
    rw [onChart, hpicture]
    exact .refl
  | chart c =>
    have hstart : (s.withPicture c).withPicture (.chart c) = s := by
      rw [← hpicture]
      rfl
    have hedited := edited_withPicture (hf (s.withPicture c))
    rw [onChart_of_chart hpicture, Outcome.map_state]
    exact hstart ▸ hedited

/-- What is done to the timeline by an edit is done to the session by an
    edit. -/
theorem edited_onTimeline (s : Session α) (e : TimelineEdit α) :
    Edited s (s.onTimeline fun t => t.edit e).state :=
  .single ⟨.editTimeline e, .timeline e, rfl⟩

theorem Edited.exists_calls {s t : Session α} (h : Edited s t) :
    ∃ calls : List (Call α), (∀ c ∈ calls, c.IsEdit) ∧ t = s.run calls := by
  induction h with
  | refl => exact ⟨[], by simp, rfl⟩
  | tail _ hlast ih =>
    obtain ⟨calls, hedits, rfl⟩ := ih
    obtain ⟨c, hc, rfl⟩ := hlast
    refine ⟨calls ++ [c], fun other hother => ?_, ?_⟩
    · rcases List.mem_append.mp hother with hbefore | hlast
      · exact hedits other hbefore
      · exact List.mem_singleton.mp hlast ▸ hc
    · unfold run
      rw [List.foldl_append]
      rfl

end Session

namespace Desk

section Chart

variable (s : ChartStage α)

/-- Selecting a node to drag it is made of edits. -/
theorem edited_selectForDrag (id : String) (additive : Bool) :
    ChartStage.Edited s (selectForDrag id additive s).state := by
  rw [selectForDrag]
  split
  · exact .refl
  · split
    · exact .refl
    · refine Outcome.andThen_state (P := ChartStage.Edited s) ?_ fun t ht =>
        ht.trans (t.edited_edit (.setSelected id true))
      split
      · exact .refl
      · exact s.edited_edit .clearSelection

/-- Dragging a point of an edge is an edit, or none. -/
theorem edited_dragEdgePoint (active : Hit) (p last : Point α) :
    ChartStage.Edited s (dragEdgePoint active p last s).state := by
  unfold dragEdgePoint
  split
  · exact s.edited_edit (.setAnchor _ _ p)
  · split
    · exact .refl
    · exact s.edited_edit (.setControl _ _ _)

/-- Nodes that are recorded one after the other are recorded by edits. -/
theorem edited_commitNodes (starts : List (String × Point α)) :
    ChartStage.Edited s (starts.foldl (fun t (id, _) => t.commitNode id) s) := by
  induction starts generalizing s with
  | nil => exact .refl
  | cons item starts ih => exact (s.edited_edit (.commitNode item.1)).trans (ih (s.commitNode item.1))

end Chart

/-- Whatever happened to the session of the desk was done by edits. -/
abbrev Edited (d d' : Desk α) : Prop :=
  Session.Edited d.session d'.session

variable (d : Desk α)

theorem edited_onChart {f : ChartStage α → Outcome (ChartStage α)}
    (hf : ∀ t, ChartStage.Edited t (f t).state) : d.Edited (d.onChart f).state :=
  d.session.edited_onChart hf

theorem edited_dragNodes (id : String) (additive : Bool) : d.Edited (d.dragNodes id additive).state := by
  refine Outcome.andThen_state (P := d.Edited)
    (d.edited_onChart fun t => edited_selectForDrag t id additive) fun d' hd' => ?_
  split <;> exact hd'

/-- What a press does to the thing that it hits, it does by edits. -/
theorem edited_grab (additive : Bool) (hit : Hit) : d.Edited (d.grab additive hit).state := by
  cases hit with
  | edgeAnchor key which => exact .refl
  | edgeControl key index => exact .refl
  | edgePath key => exact d.edited_onChart fun t => t.edited_edit (.toggleEdge key)
  | handle id h => exact .refl
  | node id => exact d.edited_dragNodes id additive
  | participant id =>
    rw [grab, dragParticipant]
    split <;> exact .refl
  | nothing => exact d.edited_onChart fun t => t.edited_edit .clearSelection

/-- What a press does to the session, it does by edits. -/
theorem edited_press (p : Point α) (button : Button) (additive : Bool) :
    d.Edited (d.press p button additive).state := by
  cases button with
  | right =>
    rw [press]
    split
    · exact edited_onChart _ fun t => t.edited_edit (.toggleCurve _)
    · exact .refl
  | left =>
    rw [press]
    refine Outcome.andThen_state (P := d.Edited) ?_ fun d' hd' =>
      hd'.trans (d'.edited_grab additive _)
    split
    · exact .refl
    · exact edited_onChart _ fun t => t.edited_edit .deselectEdge

/-- What a drag does to the session, it does by edits, one for each node. -/
theorem edited_dragTo (p : Point α) : d.Edited (d.dragTo p).state := by
  rw [dragTo]
  split
  · exact .refl
  · rename_i starts _
    refine d.edited_onChart fun t => ?_
    exact Outcome.forEach_state (P := ChartStage.Edited t)
      (fun item _ u hu => hu.trans (u.edited_edit (.moveNode item.1 _))) .refl
  · exact d.edited_onChart fun t => t.edited_edit (.resizeNode _ _ _)
  · exact d.edited_onChart fun t => edited_dragEdgePoint t _ p _
  · exact d.session.edited_onTimeline (.moveParticipant _ _)

theorem edited_move (p : Point α) : d.Edited (d.move p).state :=
  Outcome.andThen_state (P := d.Edited) (d.edited_dragTo p) fun _ hd' => hd'

theorem edited_commitDrag (p : Point α) : d.Edited (d.commitDrag p) := by
  rw [commitDrag]
  split
  · split
    · exact .refl
    · exact d.edited_onChart fun t => edited_commitNodes t _
  · exact d.session.edited_onTimeline (.commitParticipant _)
  · exact .refl

/-- What a release does to the session, it does by edits. -/
theorem edited_release (p : Point α) (button : Button) : d.Edited (d.release p button).state := by
  cases button with
  | right => exact .refl
  | left =>
    rw [release]
    refine Outcome.andThen_state (P := d.Edited) ?_ fun d' hd' =>
      hd'.trans (d'.edited_commitDrag p)
    split
    · exact d.edited_move p
    · exact .refl

end Desk

section Shows

variable {P : Diagram → Prop}

/-- The call makes the surface refuse nothing, and shows only diagrams with the
    property. -/
def Call.Shows (P : Diagram → Prop) : Call α → Prop
  | .render d => P d
  | .refuse _ => False
  | _ => True

/-- The event makes the surface refuse nothing, and shows only texts and
    diagrams with the property. -/
def Event.Shows (P : Diagram → Prop) : Event α → Prop
  | .render d => P d
  | .refuse _ => False
  | _ => True

omit [Scalar α] in
/-- A call that shows diagrams with a property shows diagrams with a weaker
    one. -/
theorem Call.Shows.imp {Q : Diagram → Prop} {c : Call α} (hc : c.Shows P) (h : ∀ d, P d → Q d) :
    c.Shows Q := by
  cases c with
  | render d => exact h d hc
  | refuse ids => exact hc
  | clear | updateSettings _ | editChart _ | editTimeline _ | replaceStore _ => trivial

omit [Scalar α] in
theorem Call.IsEdit.shows {c : Call α} (hc : c.IsEdit) : c.Shows P := by
  cases hc <;> trivial

namespace Desk

/-- What an event does to the session, calls do that show the same kind of
    diagram. The diagram of every text has to have the property, since the text
    of an event may be any text, and resetting shows it without its settings. -/
theorem exists_calls [YamlReader] (d : Desk α) (htexts : ∀ text, P (.ofText text)) {e : Event α}
    (he : e.Shows P) :
    ∃ calls : List (Call α), (∀ c ∈ calls, c.Shows P) ∧ (d.event e).session = d.session.run calls := by
  have hedited {t : Session α} (h : Session.Edited d.session t) :
      ∃ calls : List (Call α), (∀ c ∈ calls, c.Shows P) ∧ t = d.session.run calls := by
    obtain ⟨calls, hedits, heq⟩ := h.exists_calls
    exact ⟨calls, fun c hc => (hedits c hc).shows, heq⟩
  cases e with
  | renderText text =>
    have hshows := htexts text
    simp only [event, Session.renderText]
    generalize Diagram.ofText text = diagram at hshows ⊢
    exact ⟨[.render diagram], List.forall_mem_singleton.mpr hshows, rfl⟩
  | render diagram => exact ⟨[.render diagram], List.forall_mem_singleton.mpr he, rfl⟩
  | resetPositions text =>
    have hshows := htexts (String.ofList (removeFrontMatter text.toList))
    simp only [event, Session.resetPositions, Session.renderText]
    generalize Diagram.ofText _ = diagram at hshows ⊢
    refine ⟨[.replaceStore d.session.store.clear, .clear, .render diagram], ?_, rfl⟩
    simpa [Call.Shows] using hshows
  | openFile f =>
    simp only [event, Session.openFile]
    split
    · rename_i document _
      refine ⟨[.replaceStore (d.session.store.replace document.positions), .updateSettings document.settings,
        .clear], by simp [Call.Shows], ?_⟩
      simp only [Session.openDocument, Session.run, List.foldl_cons, List.foldl_nil, Session.call]
    · exact ⟨[], by simp, rfl⟩
  | saveFile text f => exact ⟨[.replaceStore d.session.store.load], by simp [Call.Shows], rfl⟩
  | clear => exact ⟨[.clear], by simp [Call.Shows], rfl⟩
  | updateSettings settings => exact ⟨[.updateSettings settings], by simp [Call.Shows], rfl⟩
  | editChart e => exact ⟨[.editChart e], by simp [Call.Shows], rfl⟩
  | editTimeline e => exact ⟨[.editTimeline e], by simp [Call.Shows], rfl⟩
  | press p button additive => exact hedited (d.edited_press p button additive)
  | move p => exact hedited (d.edited_move p)
  | release p button => exact hedited (d.edited_release p button)
  | refuse ids => exact he.elim
  | backend b => exact ⟨[.replaceStore { d.session.store with backend := b }], by simp [Call.Shows], rfl⟩

/-- What holds of a session and is kept by every call that shows such diagrams
    holds after any events that do. So whatever holds in all runs of calls holds
    in all runs of events, with the pointer in them. -/
theorem events_induction [YamlReader] {I : Session α → Prop} (htexts : ∀ text, P (.ofText text))
    (hcall : ∀ c : Call α, c.Shows P → ∀ s, I s → I (s.call c)) {es : List (Event α)}
    (hes : ∀ e ∈ es, e.Shows P)
    {d : Desk α} (hd : I d.session) : I (d.events es).session := by
  unfold events
  induction es generalizing d with
  | nil => exact hd
  | cons e es ih =>
    obtain ⟨calls, hshows, hsession⟩ := d.exists_calls htexts (hes e List.mem_cons_self)
    refine ih (fun other hother => hes other (List.mem_cons_of_mem _ hother)) ?_
    rw [hsession]
    exact Session.run_induction (fun c hc => hcall c (hshows c hc)) hd

end Desk

end Shows

end LiveDiagram
