import LiveDiagram.Number.Double
import LiveDiagram.Proofs.Chart.Render
import LiveDiagram.Document.Basic
import LiveDiagram.Proofs.Positions.Codec
import LiveDiagram.Proofs.Session.Flowcharts
import LiveDiagram.Proofs.Session.Writes
import LiveDiagram.Proofs.Source.FrontMatter
import LiveDiagram.Proofs.Store.Positions
import LiveDiagram.Session.Text

namespace LiveDiagram

variable {α : Type} [Scalar α]

section Codec

open Json

/-- The colours of the settings denote colours. -/
structure Settings.Coloured (s : Settings) : Prop where
  nodeColor : (Color.ofText? s.nodeColor).isSome
  borderColor : (Color.ofText? s.borderColor).isSome

instance (s : Settings) : Decidable s.Coloured :=
  decidable_of_iff ((Color.ofText? s.nodeColor).isSome ∧ (Color.ofText? s.borderColor).isSome)
    ⟨fun h => ⟨h.1, h.2⟩, fun h => ⟨h.1, h.2⟩⟩

/-- Settings hold no numbers, so there is none that could not be written. -/
theorem Settings.finite_toJson (s : Settings) : (s.toJson : Json α).Finite := by
  refine .obj fun member hmember => ?_
  simp only [List.mem_cons, List.not_mem_nil, or_false] at hmember
  obtain rfl | rfl | rfl | rfl := hmember
  exacts [.bool _, .str _, .str _, .bool _]

omit [Scalar α] in
/-- Settings whose colours are colours are read back as they were. A text that
    is no colour is replaced by the default. -/
theorem Settings.Coloured.ofJson_toJson {s : Settings} (hs : s.Coloured) :
    Settings.ofJson (s.toJson : Json α) = s := by
  simp [Settings.ofJson, Settings.toJson, colorField?, boolField?, List.lookup_cons, str?, bool?,
    Option.filter_some, hs.nodeColor, hs.borderColor]

namespace Document

/-- What is read back of a member of a document that holds only numbers with
    digits. -/
theorem field?_reread_toJson {d : Document α} {key : String} {value : Json α}
    (hvalue : d.toJson.field? key = some value) (hfinite : value.Finite) :
    d.toJson.reread.field? key = some value := by
  rw [field?_reread, hvalue, Option.map_some, hfinite.reread_eq]

/-- A document is read back from its file: the positions if their numbers have
    digits, and the settings if their colours are colours. What the file states
    of its format and version is not read. -/
theorem ofJson?_reread_toJson {d : Document α} (hpositions : d.positions.Finite)
    (hsettings : d.settings.Coloured) : ofJson? d.toJson.reread = some d := by
  have htext : d.toJson.reread.field? "text" = some (str d.text) :=
    field?_reread_toJson rfl (.str _)
  have hnodes : d.toJson.reread.field? "nodes" = some (ofMap Rect.toJson d.positions.nodes) :=
    field?_reread_toJson rfl (finite_ofMap fun h => (hpositions.nodes h).toJson)
  have hedges : d.toJson.reread.field? "edges" = some (ofMap EdgeShape.toJson d.positions.edges) :=
    field?_reread_toJson rfl (finite_ofMap fun h => (hpositions.edges h).toJson)
  have hfields : d.toJson.reread.field? "settings" = some d.settings.toJson :=
    field?_reread_toJson rfl d.settings.finite_toJson
  have hread : ofJson? d.toJson.reread =
      some
        { text := textOf d.toJson.reread
          positions := positionsOf d.toJson.reread
          settings := Settings.ofJson ((d.toJson.reread.field? "settings").getD null) } := by
    rw [toJson, reread]
    rfl
  have hpositions' : positionsOf d.toJson.reread = d.positions := by
    simp only [positionsOf, hnodes, hedges, Option.getD_some, Option.orElse_eq_orElse,
      Option.orElse_eq_or, Option.some_or]
    rw [toMap_ofMap Rect.ofJson?_toJson, toMap_ofMap EdgeShape.ofJson?_toJson]
  rw [hread, hpositions', hfields, Option.getD_some, hsettings.ofJson_toJson]
  simp [textOf, htext, str?]

end Document

end Codec

namespace ChartStage

/-- A recorded rectangle that has a size is taken as it is. -/
theorem recordedRect_of_pos {r : Rect α} (hwidth : 0 < r.width) (hheight : 0 < r.height) :
    recordedRect r = r := by
  rw [recordedRect, if_pos hwidth, if_pos hheight]

/-- A node that the chart did not have stands where its record says. -/
theorem render_rect_of_recorded {s : ChartStage α} {d : Flowchart} {id : String}
    (hnew : s.picture.nodes[id]? = none) (hid : id ∈ d.nodeIds) {r : Rect α}
    (hrecord : s.store.node? id = some r) (hwidth : 0 < r.width) (hheight : 0 < r.height) :
    ∃ n, (s.render d).picture.nodes[id]? = some n ∧ n.rect = r := by
  obtain ⟨last, hlast⟩ := Option.isSome_iff_exists.mp (Flowchart.lastNode?_isSome.mpr hid)
  have hbare := s.render_bare? d id
  rw [hlast, Chart.bare?_eq_none_iff.mpr hnew, Option.map_some] at hbare
  obtain ⟨n, hn, hsame⟩ := Chart.exists_of_bare? hbare
  have hplaced : n.rect = (s.pruned d).initialRect last.id (d.firstIndex last.id) :=
    congrArg NodeItem.rect hsame
  refine ⟨n, hn, ?_⟩
  rw [hplaced, pruned_initialRect, Flowchart.id_of_lastNode? hlast, hrecord]
  exact recordedRect_of_pos hwidth hheight

end ChartStage

namespace Session

/-- The session has taken over the positions and the settings of a saved one,
    shows nothing, and puts the nodes of the saved text where they were
    recorded. -/
structure Restores [YamlReader] (saved : Session α) (text : String) (s : Session α) : Prop where
  positions : s.store.positions = saved.store.positions
  settings : s.settings = saved.settings
  picture : s.picture = .chart .empty
  primitives : s.surface.primitives = ∅
  rendered : ∀ d, Diagram.ofText text = .flowchart d →
    ∃ c, (s.renderText (String.ofList (pinLayout text.toList))).1.picture = .chart c ∧
      (∀ id, id ∈ c.nodes ↔ id ∈ d.nodeIds) ∧
      ∀ id r, id ∈ d.nodeIds → saved.store.node? id = some r → 0 < r.width → 0 < r.height →
        ∃ n, c.nodes[id]? = some n ∧ n.rect = r

omit [Scalar α] in
/-- What leaves the settings of every chart leaves those of the session. -/
theorem onChart_settings (s : Session α) {f : ChartStage α → Outcome (ChartStage α)}
    (hf : ∀ t, (f t).state.settings = t.settings) : (s.onChart f).state.settings = s.settings := by
  rw [onChart]
  split
  · exact hf _
  · rfl

/-- The session has the settings that it is given, also if nodes could not be
    drawn with them. -/
theorem updateSettings_settings (s : Session α) (settings : Settings) :
    (s.updateSettings settings).settings = settings := by
  refine onChart_settings { s with settings } fun t => ?_
  have hsteps : ChartStage.Steps (fun _ => True) t t.restyle := t.restyle_steps
  exact hsteps.sameSetup.settings

/-- Rendering the pinned text on a cleared session shows the flowchart of the
    text. Pinning changes the settings of the text only, and a flowchart does
    not read them. -/
theorem renderText_pinLayout [YamlReader] {s : Session α} (hpicture : s.picture = .chart .empty) {text : String}
    {d : Flowchart} (hd : Diagram.ofText text = .flowchart d) :
    (s.renderText (String.ofList (pinLayout text.toList))).1.picture =
      .chart (ChartStage.render (s.withPicture .empty) d).picture := by
  have hsame : (Diagram.ofText (String.ofList (pinLayout text.toList))).unconfigured =
      (Diagram.flowchart d).unconfigured := by
    rw [Diagram.ofText_pinLayout, hd]
  obtain ⟨config, hpinned⟩ := Diagram.exists_eq_flowchart hsame
  rw [renderText, hpinned]
  show (s.renderFlowchart { d with config }).picture = _
  rw [renderFlowchart, chartStage, hpicture]
  rfl

/-- A session that opens a document takes over all that the document records and
    forgets all that it showed. -/
theorem restores_openDocument [YamlReader] (saved s : Session α) (text : String) :
    Restores saved text (s.openDocument (saved.document text)).1 where
  positions := by
    show (Session.updateSettings _ _).store.positions = _
    rw [(updateSettings_sameRecords _ _).store, Store.positions_replace]
    rfl
  settings := updateSettings_settings _ _
  picture := rfl
  primitives := rfl
  rendered d hd := by
    refine ⟨_, renderText_pinLayout rfl hd, fun id => ?_, fun id r hid hrecord hwidth hheight => ?_⟩
    · rw [Chart.mem_nodes_iff, ChartStage.render_bare?, Option.isSome_map, Flowchart.lastNode?_isSome]
    · refine ChartStage.render_rect_of_recorded (by simp [Stage.withPicture, Chart.empty]) hid ?_ hwidth hheight
      show Store.node? (Session.updateSettings _ _).store id = _
      rw [(updateSettings_sameRecords _ _).store, Store.node?, Store.positions_replace]
      exact hrecord

/-- A file that holds no object has no document in it. -/
theorem document?_eq_none {f : FileContent α} (hf : ∀ members, f.value? ≠ some (.obj members)) :
    f.value?.bind Document.ofJson? = none := by
  cases hvalue : f.value? with
  | none => rfl
  | some value =>
    cases value with
    | obj members => exact absurd hvalue (hf members)
    | _ => rfl

/-- What was saved with success is opened by any session: it then has the saved
    positions and settings and nothing of its own. A file without an object in
    it changes nothing. Rendering the text of the document puts the nodes back
    where they were when it was saved. Numbers without digits, and colours that
    are none, would be lost in the file. -/
theorem openFile_saveFile [YamlReader] :
    (∀ (saved s : Session α) (text : String) (f : File α),
      saved.store.positions.Finite → saved.settings.Coloured → (saved.saveFile text f).2.2 = true →
      ∃ t, s.openFile (saved.saveFile text f).2.1.content =
          (t, some { saved.document text with text := String.ofList (pinLayout text.toList) }) ∧
        Restores saved text t) ∧
    ∀ (s : Session α) (f : FileContent α), (∀ members, f.value? ≠ some (.obj members)) →
      s.openFile f = (s, none) := by
  refine ⟨fun saved s text f hpositions hsettings hsaved => ?_, fun s f hf => ?_⟩
  · have hwritable : f.writable = true := by
      by_contra h
      rw [saveFile, File.write, if_neg h] at hsaved
      cases hsaved
    have hcontent : (saved.saveFile text f).2.1.content = .json (saved.document text).toJson.reread := by
      rw [saveFile, File.write, if_pos hwritable]
    have hread : Document.ofJson? (saved.document text).toJson.reread = some (saved.document text) :=
      Document.ofJson?_reread_toJson hpositions hsettings
    refine ⟨_, ?_, restores_openDocument saved s text⟩
    rw [hcontent, openFile, FileContent.value?, Option.bind_some, hread]
    rfl
  · rw [openFile, document?_eq_none hf]

/-- A session that knows the place of one node and has colours of its own. -/
def placedNode : Session Float where
  picture := .chart .empty
  store := { (default : Store Float) with loaded := some (Positions.empty.setNode "a" ⟨40, 80, 160, 60⟩) }
  settings := { nodeColor := "#abcdef", borderColor := "#123456", showGrid := false }
  measure := fun _ => ⟨0, 0⟩

/-- A text with that node in it. -/
def placedText : String :=
  "flowchart TD\na[A] --> b[B]"

/-- A session that shows an edge opens what another one has saved, and gets its
    positions and settings. A file that cannot be read leaves it as it is. -/
theorem openFile_saveFile_placedNode :
    (∃ t, oneEdgeShown.openFile (placedNode.saveFile placedText {}).2.1.content =
        (t, some { placedNode.document placedText with text := String.ofList (pinLayout placedText.toList) }) ∧
      Restores placedNode placedText t) ∧
    oneEdgeShown.openFile .unreadable = (oneEdgeShown, none) := by
  have hpositions : placedNode.store.positions.Finite :=
    Positions.finite_empty.setNode "a" ⟨by decide, by decide, by decide, by decide⟩
  refine ⟨?_, openFile_saveFile.2 oneEdgeShown .unreadable fun members h => by cases h⟩
  exact openFile_saveFile.1 placedNode oneEdgeShown placedText {} hpositions ⟨by decide, by decide⟩ rfl

end Session

end LiveDiagram
