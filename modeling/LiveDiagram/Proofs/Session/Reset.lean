import LiveDiagram.Proofs.Chart.Rects
import LiveDiagram.Proofs.Session.Forgetting
import LiveDiagram.Proofs.Session.Lefts
import LiveDiagram.Proofs.Source.Removal

namespace LiveDiagram

open Text

variable {α : Type} [Scalar α]

theorem Store.introduces_nil {store : Store α} (hstore : ∀ id, store.node? id = none) : store.Introduces [] :=
  hstore

namespace Session

/-- The session with nothing shown and nothing recorded, under the same settings
    and on the same surface. -/
def blank (s : Session α) : Session α :=
  { s.clear with store := Store.inMemory }

/-- What has become of a session shows the diagram as if nothing had ever been
    shown or recorded: everything where the diagram alone puts it. A node stands
    in the cell of its index, and a participant at the place of its index under
    the spacing that the settings of the diagram give. -/
structure ShowsUnplaced (s : Session α) (d : Diagram) (t : Session α) : Prop where
  alike : Stage.Alike (s.blank.render d).state t
  nodes : ∀ e, d = .flowchart e → ∃ c, t.picture = .chart c ∧
    ∀ id, c.rect? id =
      if id ∈ e.nodeIds then some (Layout.nodeRect (e.firstIndex id) e.direction) else none
  participants : s.surface.Accepts → ∀ e, d = .sequence e → ∃ u, t.picture = .timeline u ∧
    ∀ id, u.participants[id]?.map ParticipantItem.header =
      if id ∈ e.participantIds then some (e.defaultHeader id) else none

variable {s : Session α}

/-- On a cleared session without records each node stands in the cell of its
    index. -/
theorem renderFlowchart_rect?_of_clear (hstore : ∀ id, s.store.node? id = none) (d : Flowchart) (id : String) :
    (s.clear.chartStage.render d).picture.rect? id =
      if id ∈ d.nodeIds then some (Layout.nodeRect (d.firstIndex id) d.direction) else none := by
  have hempty : s.clear.chartStage.picture.rect? id = none := by
    show (Chart.empty : Chart α).nodes[id]?.map NodeItem.rect = none
    simp [Chart.empty]
  have hnode : s.clear.chartStage.store.node? id = none := hstore id
  rw [ChartStage.render_rect?, hempty, hnode]
  rfl

/-- On a cleared session without records each participant stands at the place of
    its index, with the header of the default size. -/
theorem renderSequence_header_of_clear (haccepts : s.surface.Accepts) (hstore : ∀ id, s.store.node? id = none)
    {d : Sequence} (hd : d.participantIds.Nodup) (id : String) :
    ((s.clear.timelineStage (d.participants.map Participant.id)).render d).state.picture.participants[id]?.map
        ParticipantItem.header =
      if id ∈ d.participantIds then some (d.defaultHeader id) else none := by
  have hrefused : s.clear.surface.refused = [] := haccepts
  have hintroduces : s.clear.store.Introduces [] := Store.introduces_nil hstore
  obtain ⟨htitle, hstage⟩ := timelineStage_introduces hrefused hintroduces d
  rw [TimelineStage.render_header hstage hd htitle]
  split
  · rename_i hid
    have hfirst : Sequence.introducing? ([] ++ [d]) id = some d := by
      rw [Sequence.introducing?_append_singleton, if_pos hid]
      rfl
    rw [hfirst, Option.map_some]
  · rfl

/-- The session with all positions forgotten, and nothing shown. -/
def forgotten (s : Session α) : Session α :=
  Session.clear { s with store := s.store.clear }

theorem resetPositions_state [YamlReader] (s : Session α) (text : String) :
    (s.resetPositions text).1 =
      (s.forgotten.render (Diagram.ofText (String.ofList (removeFrontMatter text.toList)))).state := by
  simp only [resetPositions, renderText, forgotten]

/-- Once all positions are forgotten, it makes no difference over which store a
    session is. -/
theorem alike_blank_forgotten (s : Session α) : Stage.Alike s.blank s.forgotten where
  picture := rfl
  surface := .clear rfl
  positions := s.store.positions_replace {}
  settings := rfl
  measure := rfl

/-- A session that has forgotten all positions shows a diagram as if nothing had
    ever been shown. -/
theorem forgotten_showsUnplaced (s : Session α) {diagram : Diagram} (hdiagram : diagram.OfText) :
    s.ShowsUnplaced diagram (s.forgotten.render diagram).state := by
  have hstore (id : String) : s.store.clear.node? id = none := by
    simp [Store.node?, Store.clear]
  refine ⟨(alike_render s.alike_blank_forgotten _).state, fun d hd => ?_, fun haccepts d hd => ?_⟩
  · rw [hd]
    exact ⟨_, rfl, renderFlowchart_rect?_of_clear (s := { s with store := s.store.clear }) hstore d⟩
  · subst hd
    have hnodup : d.participantIds.Nodup := Sequence.OfText.nodup hdiagram
    exact ⟨_, rfl, renderSequence_header_of_clear (s := { s with store := s.store.clear }) haccepts hstore hnodup⟩

/-- Resetting shows what the text states without its settings: the diagram of
    the text, unless the lines behind the settings open with a block again. Then
    it is the diagram of the lines behind that one, under the settings that the
    reader finds in it, each line of which may have lost one more carriage
    return. Nothing is asked of the reader: which lines are settings does not
    depend on it. -/
theorem resetPositions_redraws [YamlReader] (s : Session α) (text : String) :
    ((¬∃ m : FrontMatter, m.Closed ∧ m.toLines = bodyLines (lines text.toList)) →
      Diagram.ofText (String.ofList (removeFrontMatter text.toList)) = (Diagram.ofText text).unconfigured ∧
        s.ShowsUnplaced (Diagram.ofText text).unconfigured (s.resetPositions text).1) ∧
    ∀ m : FrontMatter, m.Closed → m.toLines = bodyLines (lines text.toList) →
      Diagram.ofText (String.ofList (removeFrontMatter text.toList)) =
          Diagram.ofStatements (statements m.body) m.rejoined.config ∧
        s.ShowsUnplaced (Diagram.ofStatements (statements m.body) m.rejoined.config) (s.resetPositions text).1 := by
  have hshown := s.forgotten_showsUnplaced (Diagram.ofText_ofText (String.ofList (removeFrontMatter text.toList)))
  rw [← resetPositions_state] at hshown
  have hremoved := Diagram.ofText_removeFrontMatter text
  constructor
  · intro hnot
    have hnone := FrontMatter.ofLines?_eq_none_iff.mpr hnot
    have hsame : Diagram.ofText (String.ofList (removeFrontMatter text.toList)) =
        (Diagram.ofText text).unconfigured := by
      rw [hremoved, hnone, bodyLines_eq_self hnone, Diagram.ofText, Diagram.unconfigured_ofStatements]
      rfl
    exact ⟨hsame, hsame ▸ hshown⟩
  · intro m hm hlines
    have hbehind : Diagram.ofText (String.ofList (removeFrontMatter text.toList)) =
        Diagram.ofStatements (statements m.body) m.rejoined.config := by
      rw [hremoved, ← hlines, hm.ofLines?_toLines, bodyLines_of_closed hm]
      rfl
    exact ⟨hbehind, hbehind ▸ hshown⟩

/-- A text with settings, behind which a single delimiter stands and closes
    nothing. -/
def looseText : String :=
  "\n---\nlayout: fixed\n---\n\n---\r\nflowchart LR\r\na --> b\n"

/-- A text that opens with an empty block, so that its second block is no block
    but lines of a flowchart. Behind it stands a sequence diagram. -/
def reopenedText : String :=
  "---\n---\n---\nparticipant_spacing: 300\n---\nsequence\nA->B: x"

/-- The second block of the text. -/
def reopenedBlock : FrontMatter where
  before := []
  opening := ['-', '-', '-']
  settings := ["participant_spacing: 300".toList]
  closing := ['-', '-', '-']
  body := ["sequence".toList, "A->B: x".toList]

/-- The diagram behind the second block, with the settings in it. -/
def reopened : Sequence where
  participants := [⟨"A", "A"⟩, ⟨"B", "B"⟩]
  messages := [⟨"A", "B", "x", .solid⟩]
  config := (∅ : Config).insert "participant_spacing" "300"

/-- The second block sets the spacing of the participants. -/
theorem reopened_participantSpacing : (reopened.config.participantSpacing : ℝ) = 300 := by
  have hnumeral : Numeral.read? "300".toList = some (.decimal false 300 0) := by decide
  have hspacing : reopened.config["participant_spacing"]? = some "300" := by
    simp [reopened]
  have hvalue : (Scalar.ofNumeral (.decimal false 300 0) : ℝ) = 300 := by
    simp [Scalar.ofNumeral, Numeral.real]
  have hpositive : ¬ (300 : ℝ) ≤ 0 := by norm_num
  rw [Config.participantSpacing, hspacing, Option.bind_some, NodeStyle.positive?, hnumeral]
  dsimp only
  rw [hvalue, Scalar.zero_real, if_neg hpositive, Option.getD_some]

/-- A delimiter that closes nothing changes nothing. A second block gives its
    settings to what is behind it. -/
theorem resetPositions_redraws_delimiters :
    (∃ c, ((start (fun _ => ⟨0, 0⟩) (Store.inMemory : Store ℝ)).resetPositions
        looseText).1.picture = .chart c ∧
      c.rect? "b" = some (Layout.nodeRect 1 .leftRight)) ∧
    ∃ t, ((start (fun _ => ⟨0, 0⟩) (Store.inMemory : Store ℝ)).resetPositions reopenedText).1.picture =
        .timeline t ∧
      t.participants["B"]?.map ParticipantItem.header =
        some ⟨300, 0, Layout.participantWidth, Layout.participantHeight⟩ := by
  obtain ⟨hloose, -⟩ :=
    resetPositions_redraws (start (fun _ => ⟨0, 0⟩) (Store.inMemory : Store ℝ)) looseText
  obtain ⟨-, hreopened⟩ :=
    resetPositions_redraws (start (fun _ => ⟨0, 0⟩) (Store.inMemory : Store ℝ)) reopenedText
  obtain ⟨-, hshown⟩ := hloose (FrontMatter.ofLines?_eq_none_iff.mp (by decide))
  obtain ⟨-, hbehind⟩ := hreopened reopenedBlock ⟨by decide, by decide, by decide, by decide⟩ (by decide)
  constructor
  · obtain ⟨c, hc, hrects⟩ := hshown.nodes _ rfl
    exact ⟨c, hc, hrects "b"⟩
  · obtain ⟨t, ht, hheaders⟩ := hbehind.participants rfl reopened rfl
    have hleft : (reopened.defaultLeft "B" : ℝ) = 300 := by
      have hindex : reopened.participantIds.idxOf "B" = 1 := by decide
      rw [Sequence.defaultLeft, reopened_participantSpacing, hindex]
      simp [Layout.participantLeft]
    refine ⟨t, ht, (hheaders "B").trans ?_⟩
    rw [if_pos (by decide), Sequence.defaultHeader, hleft, Scalar.zero_real]

/-- Removing the first of two blocks makes the second one the settings, whoever
    reads them: what was a flowchart is then a sequence diagram. -/
theorem not_forall_ofText_removeFrontMatter :
    ¬ ∃ _ : YamlReader, ∀ text : String,
      (Diagram.ofText (String.ofList (removeFrontMatter text.toList))).unconfigured =
        (Diagram.ofText text).unconfigured := by
  rintro ⟨_, hall⟩
  have hremoved : ∃ d, (Diagram.ofText (String.ofList (removeFrontMatter reopenedText.toList))).unconfigured =
      .sequence d := ⟨_, rfl⟩
  have hwhole : ∃ d, (Diagram.ofText reopenedText).unconfigured = .flowchart d := ⟨_, rfl⟩
  obtain ⟨d, hd⟩ := hremoved
  obtain ⟨e, he⟩ := hwhole
  have hsame := (hd.symm.trans (hall reopenedText)).trans he
  cases hsame

end Session

end LiveDiagram
