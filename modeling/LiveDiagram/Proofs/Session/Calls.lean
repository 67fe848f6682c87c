import LiveDiagram.Proofs.Chart.Edits
import LiveDiagram.Session.Text

namespace LiveDiagram

/-- An edit of a timeline. -/
inductive TimelineEdit (α : Type) where
  | moveParticipant (id : String) (x : α)
  | commitParticipant (id : String)
  deriving Repr

/-- Something that is done to a session. -/
inductive Call (α : Type) where
  | render (d : Diagram)
  | clear
  | updateSettings (settings : Settings)
  | editChart (e : ChartEdit α)
  | editTimeline (e : TimelineEdit α)
  /-- The positions are replaced behind the back of the session. -/
  | replaceStore (store : Store α)
  /-- From now on the surface refuses these ids and no others. -/
  | refuse (ids : List String)

variable {α : Type}

theorem Chart.linked_complete_empty :
    (empty : Chart α).Linked ∧ (empty : Chart α).Complete := by
  refine ⟨linked_empty, ?_⟩
  intro key e he
  simp [empty] at he

namespace Session

/-- A surface that refuses nothing is under the chart that is worked on. -/
theorem accepts_chartStage {s : Session α} (hs : s.surface.Accepts) :
    s.chartStage.surface.Accepts := by
  unfold chartStage
  split <;> exact hs

/-- A surface that refuses nothing is under the timeline that a session has for
    a diagram. -/
theorem accepts_timelineStage {s : Session α} (hs : s.surface.Accepts) (ids : List String) :
    (s.timelineStage ids).surface.Accepts := by
  unfold timelineStage
  split
  · split <;> exact hs
  · exact hs

/-- The stage for a sequence diagram has the timeline that is shown, if that had
    these participants or none, or else an empty one on an empty surface. -/
theorem timelineStage_cases (s : Session α) (ids : List String) :
    (∃ t, s.picture = .timeline t ∧ (t.order = [] ∨ t.order = ids) ∧
      s.timelineStage ids = s.withPicture t) ∨
      s.timelineStage ids = s.clearSurface.withPicture .empty := by
  unfold timelineStage
  split
  · rename_i t ht
    split
    · rename_i horder
      exact .inl ⟨t, ht, by simpa using horder, rfl⟩
    · exact .inr rfl
  · exact .inr rfl

/-- A timeline that knows the order of all its participants is kept only for a
    diagram that has them. -/
theorem mem_of_mem_timelineStage {s : Session α} {ids : List String}
    (hordered : ∀ t, s.picture = .timeline t → ∀ id ∈ t.participants, id ∈ t.order) {id : String}
    (hid : id ∈ (s.timelineStage ids).picture.participants) : id ∈ ids := by
  rcases s.timelineStage_cases ids with ⟨t, ht, horder, hstage⟩ | hstage
  · rw [hstage] at hid
    have hmem : id ∈ t.order := hordered t ht id hid
    rcases horder with hnil | heq
    · rw [hnil] at hmem
      cases hmem
    · rwa [heq] at hmem
  · rw [hstage] at hid
    simp [Stage.withPicture, Timeline.empty] at hid

/-- What is done to the chart leaves a session with a timeline as it is. -/
theorem timeline_of_onChart {s : Session α} {f : ChartStage α → Outcome (ChartStage α)} {t : Timeline α}
    (ht : (s.onChart f).state.picture = .timeline t) : s.picture = .timeline t ∧ (s.onChart f).state = s := by
  unfold Session.onChart at ht ⊢
  split at ht
  · cases ht
  · rename_i hbefore
    rw [Outcome.done_state] at ht
    simp only [hbefore] at ht ⊢
    exact ⟨ht, Outcome.done_state s⟩

/-- The chart of the session, if there is one, is linked and complete. -/
def Sound (s : Session α) : Prop :=
  ∀ c, s.picture = .chart c → c.Linked ∧ c.Complete

theorem sound_start (measure : Measure α) (store : Store α) : (start measure store).Sound := by
  intro c hc
  cases hc
  exact Chart.linked_complete_empty

/-- The chart that is worked on is linked and complete. If a timeline is shown,
    it is the empty one. -/
theorem Sound.chartStage {s : Session α} (hs : s.Sound) :
    s.chartStage.picture.Linked ∧ s.chartStage.picture.Complete := by
  unfold Session.chartStage
  split
  · exact hs _ ‹_›
  · exact Chart.linked_complete_empty

end Session

variable [Scalar α]

/-- Makes an edit. -/
def TimelineStage.edit (s : TimelineStage α) : TimelineEdit α → Outcome (TimelineStage α)
  | .moveParticipant id x => s.moveParticipant id x
  | .commitParticipant id => .done (s.commitParticipant id)

namespace Session

/-- The session after a call. One that the surface stops leaves the session in
    the state that it reached. -/
def call (s : Session α) : Call α → Session α
  | .render d => (s.render d).state
  | .clear => s.clear
  | .updateSettings settings => s.updateSettings settings
  | .editChart e => (s.onChart fun t => t.edit e).state
  | .editTimeline e => (s.onTimeline fun t => t.edit e).state
  | .replaceStore store => { s with store }
  | .refuse ids => { s with surface := { s.surface with refused := ids } }

/-- The session after some calls. -/
def run (s : Session α) (calls : List (Call α)) : Session α :=
  calls.foldl call s

/-- What a run keeps if every one of its calls does. -/
theorem run_induction {I : Session α → Prop} {calls : List (Call α)}
    (hcall : ∀ c ∈ calls, ∀ s, I s → I (s.call c)) {s : Session α} (hs : I s) : I (s.run calls) := by
  unfold run
  induction calls generalizing s with
  | nil => exact hs
  | cons c calls ih =>
    refine ih (fun other hother => hcall other (List.mem_cons_of_mem _ hother)) ?_
    exact hcall c List.mem_cons_self s hs

/-- What is done to the chart in elementary changes keeps it linked and
    complete. -/
theorem Sound.onChart {s : Session α} (hs : s.Sound)
    {f : ChartStage α → Outcome (ChartStage α)}
    (hf : ∀ t, ChartStage.Steps (fun _ => True) t (f t).state) : (s.onChart f).state.Sound := by
  intro c hc
  unfold Session.onChart at hc
  split at hc
  · rename_i before hbefore
    simp only [Outcome.map_state, Stage.withPicture, Picture.chart.injEq] at hc
    rw [← hc]
    exact (hf _).linked_complete (hs before hbefore)
  · exact hs c hc

theorem Sound.renderFlowchart {s : Session α} (hs : s.Sound) (d : Flowchart) :
    (s.renderFlowchart d).Sound := by
  intro c hc
  simp only [Session.renderFlowchart, Stage.withPicture, Picture.chart.injEq] at hc
  rw [← hc]
  have hstart := hs.chartStage
  have hsteps := s.chartStage.render_steps (P := fun _ => True) (d := d) fun _ _ => trivial
  exact hsteps.linked_complete ⟨hstart.1.congr rfl rfl, hstart.2⟩

/-- Every call keeps the chart linked and complete, whatever the surface
    refuses. -/
theorem Sound.call {s : Session α} (hs : s.Sound) (c : Call α) : (s.call c).Sound := by
  cases c with
  | render d =>
    cases d with
    | flowchart d => exact hs.renderFlowchart d
    | sequence d =>
      intro c hc
      cases hc
  | clear =>
    intro c hc
    cases hc
    exact Chart.linked_complete_empty
  | updateSettings settings =>
    exact Sound.onChart (s := { s with settings }) hs fun t => t.restyle_steps
  | editChart e => exact hs.onChart fun t => t.edit_steps e
  | editTimeline e =>
    intro c hc
    unfold Session.call Session.onTimeline at hc
    dsimp only at hc
    split at hc
    · exact hs c hc
    · cases hc
  | replaceStore store => exact hs
  | refuse ids => exact hs

/-- What holds of a timeline and of what is drawn of it holds after a call if
    renderings bring it about and edits keep it. -/
theorem call_timeline {I : TimelineStage α → Prop} {s : Session α} {c : Call α}
    (hcongr : ∀ t u : TimelineStage α, u.picture = t.picture → u.surface = t.surface → I t → I u)
    (hedit : ∀ (t : TimelineStage α) (e : TimelineEdit α), I t → I (t.edit e).state)
    (hrender : ∀ d, c = .render (.sequence d) →
      I ((s.timelineStage (d.participants.map Participant.id)).render d).state)
    (hrefuse : ∀ ids t, c = .refuse ids → I (s.withPicture t) → I ((s.call c).withPicture t))
    (hs : ∀ t, s.picture = .timeline t → I (s.withPicture t)) {t : Timeline α}
    (ht : (s.call c).picture = .timeline t) : I ((s.call c).withPicture t) := by
  cases c with
  | render d =>
    cases d with
    | flowchart d => cases ht
    | sequence d =>
      cases ht
      exact hrender d rfl
  | clear => cases ht
  | updateSettings settings =>
    obtain ⟨hbefore, hsame⟩ := timeline_of_onChart ht
    exact hcongr (s.withPicture t) _ rfl (congrArg Stage.surface hsame :) (hs t hbefore)
  | editChart e =>
    obtain ⟨hbefore, hsame⟩ := timeline_of_onChart ht
    exact hcongr (s.withPicture t) _ rfl (congrArg Stage.surface hsame :) (hs t hbefore)
  | editTimeline e =>
    unfold Session.call Session.onTimeline at ht ⊢
    cases hpicture : s.picture with
    | chart before =>
      rw [hpicture] at ht
      cases hpicture.symm.trans ht
    | timeline before =>
      rw [hpicture] at ht
      cases ht
      exact hedit (s.withPicture before) e (hs before hpicture)
  | replaceStore store => exact hcongr (s.withPicture t) _ rfl rfl (hs t ht)
  | refuse ids => exact hrefuse ids t rfl (hs t ht)

/-- However the chart of a session came about, it is linked and complete. -/
theorem sound_run (measure : Measure α) (store : Store α) (calls : List (Call α)) :
    ((start measure store).run calls).Sound :=
  run_induction (fun c _ _ hs => hs.call c) (sound_start measure store)

end Session

end LiveDiagram
