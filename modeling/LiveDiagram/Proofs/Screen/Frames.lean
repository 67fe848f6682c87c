import LiveDiagram.Proofs.Number.Exact
import LiveDiagram.Proofs.Pointer.Unstopped
import LiveDiagram.Screen.Frame

namespace LiveDiagram

variable {α β : Type}

/-- Something that happens at a workplace. -/
inductive Happening (α β : Type) where
  /-- A frame in a region. The flag says whether the desk gets what happens on
      the canvas. -/
  | frame (interactive : Bool) (region : Region β) (g : Gesture β)
  | zoomAt (p : Point β) (factor : β)
  | zoomAtCenter (factor : β)
  | fit (bounds : Rect α)
  /-- Something happens to the desk that the canvas has no part in. -/
  | event (e : Event α)

namespace Happening

/-- A frame is drawn. -/
def IsFrame : Happening α β → Prop
  | frame _ _ _ => True
  | _ => False

/-- The canvas is zoomed, or fitted to bounds. -/
def Zooms : Happening α β → Prop
  | zoomAt _ _ | zoomAtCenter _ | fit _ => True
  | _ => False

end Happening

namespace Canvas

/-- The canvases show the same part of the plane in the same region. -/
structure SameView (c c' : Canvas β) : Prop where
  view : c'.view = c.view
  region : c'.region = c.region
  placed : c'.placed = c.placed

variable {c c' c'' : Canvas β}

theorem SameView.refl (c : Canvas β) : c.SameView c :=
  ⟨rfl, rfl, rfl⟩

theorem SameView.trans (h : c.SameView c') (h' : c'.SameView c'') : c.SameView c'' :=
  ⟨h'.view.trans h.view, h'.region.trans h.region, h'.placed.trans h.placed⟩

end Canvas

section Canvas

variable [Scalar β]

/-- Where the view is when the pointer is there. -/
def PanStart.offsetAt (start : PanStart β) (mouse : Point β) : Point β :=
  ⟨start.offset.x + (mouse.x - start.mouse.x), start.offset.y + (mouse.y - start.mouse.y)⟩

namespace Canvas

/-- The end of a frame: the view follows the pointer, and turns of the wheel
    zoom if the pointer is over the canvas. -/
def settle (c : Canvas β) (hovered : Bool) (g : Gesture β) : Canvas β :=
  if hovered then (c.followPan g.mouse).turnWheel g.mouse g.wheel else c.followPan g.mouse

/-- A gesture turns the wheel over the canvas in a region. -/
def Turns (c : Canvas β) (region : Region β) (g : Gesture β) : Prop :=
  (c.enter region).isHovered g = true ∧ (g.wheel == 0) = false

/-- The canvas pans, and the view is not where the pan takes it with the pointer
    there. -/
def Drifted (c : Canvas β) (mouse : Point β) : Prop :=
  ∃ start, c.pan = some start ∧ c.view.offset ≠ start.offsetAt mouse

variable {c : Canvas β} {mouse : Point β}

@[simp] theorem followPan_zoom (c : Canvas β) (mouse : Point β) : (c.followPan mouse).view.zoom = c.view.zoom := by
  rw [followPan]
  split <;> rfl

/-- Following the pointer takes a view that has drifted back to the pan, and
    leaves every other one. A pan remembers where it began and nothing else, so
    what zooms or fits the view while it lasts is not known to it. -/
theorem followPan_view_eq_iff : (c.followPan mouse).view = c.view ↔ ¬ c.Drifted mouse := by
  cases hpan : c.pan with
  | none => simp [followPan, Drifted, hpan]
  | some start =>
    have hview : (c.followPan mouse).view = { c.view with offset := start.offsetAt mouse } := by
      rw [followPan, hpan]
      rfl
    have hdrifted : ¬ c.Drifted mouse ↔ c.view.offset = start.offsetAt mouse := by simp [Drifted, hpan]
    rw [hview, hdrifted]
    exact ⟨fun h => (congrArg View.offset h).symm, fun h => by rw [← h]⟩

theorem not_drifted_followPan (c : Canvas β) (mouse : Point β) : ¬ (c.followPan mouse).Drifted mouse := by
  rw [← followPan_view_eq_iff]
  cases hpan : c.pan <;> simp [followPan, hpan]

/-- At the end of a frame in which the wheel was not turned the view has not
    drifted. -/
theorem not_drifted_settle (c : Canvas β) {hovered : Bool} {g : Gesture β}
    (hwheel : ¬ (hovered = true ∧ (g.wheel == 0) = false)) : ¬ (c.settle hovered g).Drifted g.mouse := by
  rw [settle]
  split
  · have hstill : (g.wheel == 0) = true := by simp_all
    rw [turnWheel, if_pos hstill]
    exact c.not_drifted_followPan g.mouse
  · exact c.not_drifted_followPan g.mouse

theorem enter_placed (c : Canvas β) (region : Region β) : (c.enter region).placed = true := by
  unfold enter
  dsimp only
  split <;> simp_all

/-- Once it is placed, a canvas keeps its view in every region. -/
theorem enter_of_placed (region : Region β) (hc : c.placed = true) : c.enter region = { c with region } := by
  unfold enter
  dsimp only
  rw [if_pos hc]

/-- Drawing a canvas in a region leaves the zoom, also when it places the
    view. -/
theorem enter_zoom (c : Canvas β) (region : Region β) : (c.enter region).view.zoom = c.view.zoom := by
  unfold enter
  dsimp only
  split <;> rfl

/-- The end of a frame places no view. -/
theorem settle_placed (c : Canvas β) (hovered : Bool) (g : Gesture β) : (c.settle hovered g).placed = c.placed := by
  have hfollow : (c.followPan g.mouse).placed = c.placed := by
    rw [followPan]
    split <;> rfl
  have hturn (c : Canvas β) : (c.turnWheel g.mouse g.wheel).placed = c.placed := by
    rw [turnWheel]
    split <;> rfl
  rw [settle]
  split
  · exact (hturn _).trans hfollow
  · exact hfollow

end Canvas

/-- A gesture in which the pointer does not move, and no button but the middle
    one is clicked, and none released. -/
structure Gesture.Still (g : Gesture β) : Prop where
  leftPressed : g.leftPressed = false
  rightPressed : g.rightPressed = false
  leftReleased : g.leftReleased = false
  middleReleased : g.middleReleased = false
  delta : (g.delta.x == 0) = true ∧ (g.delta.y == 0) = true

/-- A gesture in which nothing is clicked or released and neither the pointer
    nor the wheel moves. -/
structure Gesture.Idle (g : Gesture β) : Prop extends g.Still where
  middlePressed : g.middlePressed = false
  wheel : (g.wheel == 0) = true

end Canvas

namespace Workplace

section Handled

/-- The outcome of what leaves the view alone and is stopped by nothing but a
    refusal. -/
structure Handled (w : Workplace α β) (o : Outcome (Workplace α β)) : Prop where
  sameView : w.canvas.SameView o.state.canvas
  unstopped : w.desk.session.surface.Accepts → o.refusal = none ∧ o.state.desk.session.surface.Accepts

/-- What leaves the view alone and is stopped by nothing but a refusal,
    something else after it. -/
theorem Handled.andThen {w : Workplace α β} {o : Outcome (Workplace α β)}
    {f : Workplace α β → Outcome (Workplace α β)}
    (ho : Handled w o) (hf : ∀ w', Handled w' (f w')) : Handled w (o.andThen f) where
  sameView := Outcome.andThen_state (P := fun w' : Workplace α β => w.canvas.SameView w'.canvas) ho.sameView
    fun w' hw' => hw'.trans (hf w').sameView
  unstopped hw := Outcome.andThen_unstopped (P := fun w' : Workplace α β => w'.desk.session.surface.Accepts)
    (Q := fun w' : Workplace α β => w'.desk.session.surface.Accepts) (ho.unstopped hw) fun w' => (hf w').unstopped

/-- What is done to the canvas without changing the view is handled. -/
theorem Handled.canvas (w : Workplace α β) {f : Canvas β → Canvas β}
    (hf : ∀ c : Canvas β, c.SameView (f c)) :
    Handled w (.done (w.onCanvas f)) :=
  ⟨hf w.canvas, fun hw => ⟨rfl, hw⟩⟩

/-- What the desk does, and nothing stops on a surface that refuses nothing, is
    handled. -/
theorem Handled.desk (w : Workplace α β) {f : Desk α → Outcome (Desk α)}
    (hf : ∀ d : Desk α, d.session.surface.Accepts → Desk.Unstopped (f d)) : Handled w (w.onDesk f) :=
  ⟨.refl _, fun hw => ⟨(hf w.desk hw).refusal, (hf w.desk hw).accepts⟩⟩

theorem Handled.nothing (w : Workplace α β) : Handled w (.done w) :=
  ⟨.refl _, fun hw => ⟨rfl, hw⟩⟩

variable [Scalar α]

/-- A left press leaves the view alone. -/
theorem handled_pressLeft (w : Workplace α β) (interactive : Bool) (p : Point α) (g : Gesture β) :
    Handled w (w.pressLeft interactive p g) := by
  rw [pressLeft]
  split
  · refine (Handled.desk w fun d hd => d.press_unstopped hd p .left g.additive).andThen fun w' => ?_
    dsimp only
    split
    · exact .canvas w' (f := fun c => { c with pointerDown := true }.startPan g.mouse) fun _ => ⟨rfl, rfl, rfl⟩
    · exact .canvas w' fun _ => ⟨rfl, rfl, rfl⟩
  · exact .canvas w fun _ => ⟨rfl, rfl, rfl⟩

theorem handled_releaseLeft (w : Workplace α β) (interactive : Bool) (p : Point α) :
    Handled w (w.releaseLeft interactive p) := by
  refine Handled.andThen ?_ fun w' => .canvas w' fun _ => ⟨rfl, rfl, rfl⟩
  split
  · exact .desk w fun d hd => d.release_unstopped hd p .left
  · exact .nothing w

end Handled

variable [Scalar α] [Scalar β] [Narrowing α β]

/-- A desk with a canvas on which nothing was drawn yet. -/
def start (desk : Desk α) : Workplace α β where
  desk
  canvas := .start

/-- The workplace after something happened. A frame that is refused leaves the
    state that it reached. -/
def happen [YamlReader] (w : Workplace α β) : Happening α β → Workplace α β
  | .frame interactive region g => (w.frame interactive region g).state
  | .zoomAt p factor => w.onCanvas (·.zoomAt p factor)
  | .zoomAtCenter factor => w.onCanvas (·.zoomAtCenter factor)
  | .fit bounds => w.onCanvas (·.fit bounds)
  | .event e => { w with desk := w.desk.event e }

/-- The workplace after some things happened. -/
def run [YamlReader] (w : Workplace α β) (happenings : List (Happening α β)) : Workplace α β :=
  happenings.foldl happen w

section Handling

/-- Whatever is clicked, dragged or released leaves the view to the end of the
    frame, which is not reached if something was refused. -/
theorem handle_settles (w : Workplace α β) (interactive : Bool) (g : Gesture β) : ∃ o, Handled w o ∧
    w.handle interactive g = o.andThen fun w' => .done (w'.onCanvas (·.settle (w.canvas.isHovered g) g)) := by
  have hwhenever {condition : Bool} {f : Workplace α β → Outcome (Workplace α β)}
    (hf : ∀ w', Handled w' (f w'))
      (w' : Workplace α β) : Handled w' (if condition then f w' else .done w') := by
    split
    · exact hf w'
    · exact .nothing w'
  have hend : (fun w' : Workplace α β =>
      let w' := w'.onCanvas (·.followPan g.mouse)
      Outcome.done (if w.canvas.isHovered g then w'.onCanvas (·.turnWheel g.mouse g.wheel) else w')) =
      fun w' => .done (w'.onCanvas (·.settle (w.canvas.isHovered g) g)) := by
    funext w'
    cases w.canvas.isHovered g <;> rfl
  rw [← hend]
  refine ⟨_, ?_, rfl⟩
  refine .andThen ?_ (hwhenever fun w' => .canvas w' fun _ => ⟨rfl, rfl, rfl⟩)
  refine .andThen ?_ (hwhenever fun w' => w'.handled_releaseLeft interactive _)
  refine .andThen ?_ fun w' => ?moves
  case moves =>
    split
    · exact .desk w' fun d hd => d.move_unstopped hd _
    · exact .nothing w'
  refine .andThen ?_ (hwhenever fun w' => .canvas w' fun _ => ⟨rfl, rfl, rfl⟩)
  refine .andThen ?_ (hwhenever fun w' => .desk w' fun d hd => d.press_unstopped hd _ .right false)
  exact hwhenever (fun w' => w'.handled_pressLeft interactive _ g) w

/-- The middle button and the wheel are for the canvas alone. -/
theorem handle_still (w : Workplace α β) (interactive : Bool) {g : Gesture β} (hg : g.Still) :
    w.handle interactive g = .done (w.onCanvas fun c =>
      (if g.middlePressed && w.canvas.isHovered g then c.startPan g.mouse else c).settle
        (w.canvas.isHovered g) g) := by
  simp only [handle, hg.leftPressed, hg.rightPressed, hg.leftReleased, hg.middleReleased, hg.delta, Bool.false_and,
    Bool.not_true, Bool.or_self, Bool.and_false, Bool.false_eq_true, if_false]
  cases w.canvas.isHovered g <;> cases g.middlePressed <;> rfl

/-- Nothing happens on an idle gesture but that the view follows the pointer. -/
theorem handle_idle (w : Workplace α β) (interactive : Bool) {g : Gesture β} (hg : g.Idle) :
    w.handle interactive g = .done (w.onCanvas (·.followPan g.mouse)) := by
  have hsettle (c : Canvas β) (hovered : Bool) : c.settle hovered g = c.followPan g.mouse := by
    rw [Canvas.settle, Canvas.turnWheel, if_pos hg.wheel, ite_self]
  rw [handle_still w interactive hg.toStill]
  simp only [hg.middlePressed, Bool.false_and, Bool.false_eq_true, if_false, hsettle]

end Handling

section Frames

variable {w : Workplace α β} {region : Region β} {g : Gesture β}

/-- A frame in a region with an area enters it and, unless it is refused,
    settles the view. -/
theorem frame_settles (w : Workplace α β) (interactive : Bool) (g : Gesture β) (hregion : region.hasArea = true) :
    ∃ w' : Workplace α β, (w.canvas.enter region).SameView w'.canvas ∧
      ((w.frame interactive region g).refusal ≠ none ∧ (w.frame interactive region g).state = w' ∨
        (w.frame interactive region g).state =
          w'.onCanvas (·.settle ((w.canvas.enter region).isHovered g) g)) := by
  obtain ⟨o, hhandled, hhandle⟩ := (w.onCanvas (·.enter region)).handle_settles interactive g
  refine ⟨o.state, hhandled.sameView, ?_⟩
  rw [frame, if_pos hregion, hhandle]
  cases hrefusal : o.refusal with
  | none =>
    right
    rw [Outcome.andThen_of_refusal_eq_none hrefusal]
    rfl
  | some refusal =>
    left
    simp [Outcome.andThen, hrefusal]

/-- On a surface that refuses nothing no frame is refused. -/
theorem frame_refusal (w : Workplace α β) (interactive : Bool) (region : Region β) (g : Gesture β)
    (hw : w.desk.session.surface.Accepts) : (w.frame interactive region g).refusal = none := by
  rw [frame]
  split
  · obtain ⟨o, hhandled, hhandle⟩ := (w.onCanvas (·.enter region)).handle_settles interactive g
    rw [hhandle, Outcome.andThen_of_refusal_eq_none (hhandled.unstopped hw).1]
    rfl
  · rfl

/-- After a frame in a region with an area the view is placed, also if the frame
    was refused. -/
theorem frame_placed (w : Workplace α β) (interactive : Bool) (g : Gesture β) (hregion : region.hasArea = true) :
    (w.frame interactive region g).state.canvas.placed = true := by
  obtain ⟨w', hsame, ⟨-, hstate⟩ | hstate⟩ := w.frame_settles interactive g hregion
  · rw [hstate, hsame.placed, Canvas.enter_placed]
  · rw [hstate]
    exact ((w'.canvas.settle_placed _ g).trans hsame.placed).trans (w.canvas.enter_placed region)

/-- A frame that was not refused and in which the wheel was not turned leaves
    the view where the pan takes it. -/
theorem not_drifted_frame {interactive : Bool} (hregion : region.hasArea = true)
    (hrefusal : (w.frame interactive region g).refusal = none) (hwheel : ¬ w.canvas.Turns region g) :
    ¬ (w.frame interactive region g).state.canvas.Drifted g.mouse := by
  obtain ⟨w', -, ⟨hrefused, -⟩ | hstate⟩ := w.frame_settles interactive g hregion
  · exact absurd hrefusal hrefused
  · rw [hstate]
    exact w'.canvas.not_drifted_settle hwheel

theorem happen_placed [YamlReader] (w : Workplace α β) {h : Happening α β} (hh : ¬ h.IsFrame) :
    (w.happen h).canvas.placed = w.canvas.placed := by
  cases h with
  | frame interactive region g => exact absurd trivial hh
  | zoomAt p factor | zoomAtCenter factor | event e => rfl
  | fit bounds =>
    rw [happen, onCanvas, Canvas.fit]
    split
    · rfl
    · split <;> rfl

/-- Only frames, zooming and fitting do something to the canvas. -/
theorem happen_canvas [YamlReader] (w : Workplace α β) {h : Happening α β} (hh : ¬ h.IsFrame)
    (hzoom : ¬ h.Zooms) :
    (w.happen h).canvas = w.canvas := by
  cases h with
  | frame interactive region g => exact absurd trivial hh
  | zoomAt p factor | zoomAtCenter factor | fit bounds => exact absurd trivial hzoom
  | event e => rfl

/-- What everything that happens keeps, a run keeps. -/
theorem run_induction [YamlReader] {I : Workplace α β → Prop} {happenings : List (Happening α β)}
    (hstep : ∀ h ∈ happenings, ∀ w : Workplace α β, I w → I (w.happen h)) {w : Workplace α β} (hw : I w) :
    I (w.run happenings) := by
  unfold run
  induction happenings generalizing w with
  | nil => exact hw
  | cons h happenings ih =>
    obtain ⟨hfirst, hrest⟩ := List.forall_mem_cons.mp hstep
    exact ih hrest (hfirst w hw)

theorem run_placed [YamlReader] (w : Workplace α β) {happenings : List (Happening α β)}
    (hh : ∀ h ∈ happenings, ¬ h.IsFrame) :
    (w.run happenings).canvas.placed = w.canvas.placed :=
  run_induction (I := fun w' => w'.canvas.placed = w.canvas.placed)
    (fun h hmem w' hw' => (w'.happen_placed (hh h hmem)).trans hw') rfl

/-- A run without frames, zooming and fitting leaves the canvas as it is. -/
theorem run_canvas [YamlReader] (w : Workplace α β) {happenings : List (Happening α β)}
    (hh : ∀ h ∈ happenings, ¬ h.IsFrame)
    (hzooms : ∀ h ∈ happenings, ¬ h.Zooms) : (w.run happenings).canvas = w.canvas :=
  run_induction (I := fun w' => w'.canvas = w.canvas)
    (fun h hmem w' hw' => (w'.happen_canvas (hh h hmem) (hzooms h hmem)).trans hw') rfl

/-- A frame with an idle gesture follows the pan. In a region without an area
    nothing is drawn, and the view stays. -/
theorem frame_idle (w : Workplace α β) (interactive : Bool) {idle : Gesture β} (hidle : idle.Idle)
    (hplaced : region.hasArea = true → w.canvas.placed = true) :
    w.frame interactive region idle = .done (if region.hasArea then
      w.onCanvas fun c => { c with region }.followPan idle.mouse else w) := by
  rw [frame]
  split
  · rename_i hregion
    rw [handle_idle _ interactive hidle, onCanvas, onCanvas, Canvas.enter_of_placed region (hplaced hregion)]
    rfl
  · rfl

/-- What an idle frame in a region does, with the pointer at a place. -/
structure FollowsPan (before : Workplace α β) (region : Region β) (mouse : Point β)
    (after : Outcome (Workplace α β)) : Prop where
  refusal : after.refusal = none
  desk : after.state.desk = before.desk
  zoom : after.state.canvas.view.zoom = before.canvas.view.zoom
  /-- The view moves just if it had drifted. -/
  view : after.state.canvas.view = before.canvas.view ↔ ¬ (region.hasArea = true ∧ before.canvas.Drifted mouse)
  /-- Then it moves to where the pan takes it. -/
  follows : region.hasArea = true → ¬ after.state.canvas.Drifted mouse

/-- An idle frame follows the pan. The view must have been placed before, since
    placing it for the first time moves it. -/
theorem followsPan_idle (w : Workplace α β) (interactive : Bool) {idle : Gesture β} (hidle : idle.Idle)
    (hplaced : region.hasArea = true → w.canvas.placed = true) :
    w.FollowsPan region idle.mouse (w.frame interactive region idle) := by
  rw [w.frame_idle interactive hidle hplaced]
  cases hregion : region.hasArea with
  | false => exact ⟨rfl, rfl, rfl, by simp [hregion], by simp [hregion]⟩
  | true =>
    refine ⟨rfl, rfl, Canvas.followPan_zoom _ _, ?_, fun _ => Canvas.not_drifted_followPan _ _⟩
    simp only [hregion, true_and]
    exact Canvas.followPan_view_eq_iff

/-- What an idle frame does after one in the same region with the pointer at the
    same place, and after things that happened in between. It moves the view if
    that has drifted from a pan, and on a surface that refuses nothing only the
    wheel or another zoom during the pan brings that about. -/
theorem frame_idle_after [YamlReader] (w : Workplace α β) (interactive interactive' : Bool) (region : Region β)
    (g idle : Gesture β)
    (between : List (Happening α β)) (hbetween : ∀ h ∈ between, ¬ h.IsFrame) (hidle : idle.Idle)
    (hmouse : idle.mouse = g.mouse) :
    let framed := w.frame interactive region g
    let before := framed.state.run between
    before.FollowsPan region g.mouse (before.frame interactive' region idle) ∧
    (region.hasArea = true → before.canvas.Drifted g.mouse →
      framed.refusal ≠ none ∨ w.canvas.Turns region g ∨ ∃ h ∈ between, h.Zooms) ∧
    (w.desk.session.surface.Accepts → framed.refusal = none) := by
  intro framed before
  refine ⟨?_, fun hregion hdrifted => ?_, w.frame_refusal interactive region g⟩
  · rw [← hmouse]
    exact before.followsPan_idle interactive' hidle fun hregion =>
      (framed.state.run_placed hbetween).trans (w.frame_placed interactive g hregion)
  · by_contra hnone
    obtain ⟨hrefusal, hwheel, hzooms⟩ : framed.refusal = none ∧ ¬ w.canvas.Turns region g ∧
        ∀ h ∈ between, ¬ h.Zooms := by simpa using hnone
    rw [show before.canvas = _ from framed.state.run_canvas hbetween hzooms] at hdrifted
    exact not_drifted_frame hregion hrefusal hwheel hdrifted

end Frames

section Turned

/-- The pointer rests at a place of the window. -/
def resting : Gesture ℝ where
  window := ⟨0, 0⟩
  mouse := ⟨50, 50⟩
  delta := ⟨0, 0⟩
  wheel := 0
  additive := false
  windowHovered := true
  leftPressed := false
  rightPressed := false
  middlePressed := false
  leftReleased := false
  middleReleased := false

/-- The middle button is pressed there. -/
def pressing : Gesture ℝ :=
  { resting with middlePressed := true }

/-- The wheel is turned there. -/
def turning : Gesture ℝ :=
  { resting with wheel := 1 }

/-- A region of the size of a window. -/
def window : Region ℝ :=
  ⟨⟨0, 0⟩, ⟨800, 600⟩⟩

/-- A workplace on which the middle button was pressed in the first frame. -/
noncomputable def panning : Workplace ℝ ℝ :=
  (start (.start (.start (fun _ => ⟨0, 0⟩) Store.inMemory))).run [.frame true window pressing]

theorem idle_resting : resting.Idle := by
  refine ⟨⟨rfl, rfl, rfl, rfl, ?_⟩, rfl, ?_⟩ <;> simp [resting]

theorem hasArea_window : window.hasArea = true := by
  simp [Region.hasArea, window]

theorem isHovered_window {c : Canvas ℝ} (hc : c.region = window) :
    c.isHovered pressing = true ∧ c.isHovered turning = true := by
  simp only [Canvas.isHovered, hc, window, pressing, turning, resting]
  norm_num

theorem enter_start : (Canvas.start : Canvas ℝ).enter window =
    { (Canvas.start : Canvas ℝ) with view := ⟨⟨40, 40⟩, 1⟩, placed := true, region := window } := by
  simp [Canvas.enter, Canvas.start, Canvas.initialMargin, window]

/-- The pan began where the pointer rests, with the view where it is placed at
    first. -/
theorem canvas_panning : panning.canvas =
    { (Canvas.start : Canvas ℝ) with
      view := ⟨⟨40, 40⟩, 1⟩, placed := true, region := window,
      pan := some ⟨⟨50, 50⟩, ⟨40, 40⟩⟩ } := by
  have hstill : pressing.Still := ⟨rfl, rfl, rfl, rfl, idle_resting.delta⟩
  simp only [panning, run, List.foldl_cons, List.foldl_nil, happen, frame, hasArea_window, if_true]
  rw [handle_still _ true hstill]
  simp only [start, onCanvas, enter_start, Outcome.done_state]
  rw [(isHovered_window rfl).1]
  simp [Canvas.settle, Canvas.turnWheel, Canvas.startPan, Canvas.followPan, pressing, resting]

theorem canvas_turned : (panning.frame true window turning).state.canvas =
    { panning.canvas with view := ⟨⟨38, 38⟩, Canvas.wheelFactor⟩ } := by
  have hstill : turning.Still := ⟨rfl, rfl, rfl, rfl, idle_resting.delta⟩
  have hentered : panning.canvas.enter window = panning.canvas := by
    rw [canvas_panning, Canvas.enter_of_placed _ rfl]
  rw [frame, if_pos hasArea_window, handle_still _ true hstill]
  simp only [onCanvas, hentered, Outcome.done_state]
  rw [(isHovered_window (by rw [canvas_panning])).2, canvas_panning]
  simp [Canvas.settle, Canvas.turnWheel, Canvas.followPan, Canvas.zoomAt, turning, resting, Scalar.clamp,
    Canvas.minZoom, Canvas.maxZoom, Canvas.wheelFactor]
  norm_num

/-- While the view pans the wheel zooms around the pointer, and the next idle
    frame moves the view back to the pan. -/
theorem frame_idle_after_turned :
    let framed := panning.frame true window turning
    let after := framed.state.frame true window resting
    framed.state.canvas.view = ⟨⟨38, 38⟩, Canvas.wheelFactor⟩ ∧
      after.state.canvas.view ≠ framed.state.canvas.view ∧
      after.state.canvas.view.zoom = Canvas.wheelFactor := by
  intro framed after
  obtain ⟨hfollows, -, -⟩ := frame_idle_after panning true true window turning resting [] (List.forall_mem_nil _)
    idle_resting rfl
  have hturned : framed.state.canvas.view = ⟨⟨38, 38⟩, Canvas.wheelFactor⟩ :=
    congrArg Canvas.view canvas_turned
  have hdrifted : framed.state.canvas.Drifted turning.mouse := by
    refine ⟨⟨⟨50, 50⟩, ⟨40, 40⟩⟩, ?_, ?_⟩
    · rw [show framed.state.canvas = _ from canvas_turned, canvas_panning]
    · rw [hturned]
      simp [PanStart.offsetAt, turning, resting]
  refine ⟨hturned, fun hkept => hfollows.view.mp hkept ⟨hasArea_window, hdrifted⟩, ?_⟩
  exact hfollows.zoom.trans (congrArg View.zoom hturned)

end Turned

end Workplace

end LiveDiagram
