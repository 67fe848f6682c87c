import Mathlib.Tactic.FieldSimp
import LiveDiagram.Proofs.Number.Exact
import LiveDiagram.Proofs.Screen.Frames

namespace LiveDiagram

open Scalar

namespace Canvas

/-- The zoom is within its limits. -/
structure InRange (c : Canvas ℝ) : Prop where
  least : 1 / 10 ≤ c.view.zoom
  greatest : c.view.zoom ≤ 10

/-- A canvas on which places of the screen and points of the plane belong
    together, also while it zooms. -/
structure Zoomable (c : Canvas ℝ) : Prop extends c.InRange where
  zoom_ne_zero : c.view.zoom ≠ 0
  toScreen_toPlane : ∀ p : Point ℝ, c.view.toScreen (c.view.toPlane p : Point ℝ) = p
  toPlane_toScreen : ∀ p : Point ℝ, c.view.toPlane (c.view.toScreen p) = p
  toPlane_zoomAt : ∀ (p : Point ℝ) (factor : ℝ),
    ((c.zoomAt p factor).view.toPlane p : Point ℝ) = c.view.toPlane p

variable {c : Canvas ℝ}

theorem zoom_limits : (minZoom : ℝ) = 1 / 10 ∧ (maxZoom : ℝ) = 10 := by
  simp [minZoom, maxZoom]

/-- What is clamped between the least zoom and one that is not too great is
    within the limits. -/
theorem clamp_zoom {greatest : ℝ} (zoom : ℝ) (hleast : 1 / 10 ≤ greatest) (hgreatest : greatest ≤ 10) :
    1 / 10 ≤ clamp zoom minZoom greatest ∧ clamp zoom minZoom greatest ≤ 10 := by
  rw [zoom_limits.1]
  obtain ⟨hlow, hhigh⟩ := clamp_mem (a := zoom) hleast
  exact ⟨hlow, hhigh.trans hgreatest⟩

/-- Zooming leaves the zoom within its limits, whatever the factor and whatever
    the zoom was before. -/
theorem inRange_zoomAt (c : Canvas ℝ) (p : Point ℝ) (factor : ℝ) : (c.zoomAt p factor).InRange := by
  have hmax := zoom_limits.2
  obtain ⟨hleast, hgreatest⟩ := clamp_zoom (c.view.zoom * factor) (by norm_num [hmax]) hmax.le
  exact ⟨hleast, hgreatest⟩

namespace InRange

/-- Whether the zoom is within its limits is seen at the zoom. -/
theorem of_zoom_eq (hc : c.InRange) {c' : Canvas ℝ} (hzoom : c'.view.zoom = c.view.zoom) : c'.InRange :=
  ⟨hzoom ▸ hc.least, hzoom ▸ hc.greatest⟩

theorem zoom_ne_zero (hc : c.InRange) : c.view.zoom ≠ 0 :=
  (one_div_pos.mpr (by norm_num : (0 : ℝ) < 10)).trans_le hc.least |>.ne'

/-- Fitting the view to bounds leaves the zoom within its limits. Bounds without
    an area, and an empty region, leave the view as it is. -/
theorem fit (hc : c.InRange) (bounds : Rect ℝ) : (c.fit bounds).InRange := by
  rw [Canvas.fit]
  split
  · exact hc
  split
  · exact hc
  · have hone : 1 / 10 ≤ (Scalar.instOfNat 1 : OfNat ℝ 1).ofNat ∧
        (Scalar.instOfNat 1 : OfNat ℝ 1).ofNat ≤ 10 := by
      rw [one_real]
      norm_num
    constructor
    · exact (clamp_zoom _ hone.1 hone.2).1
    · exact (clamp_zoom _ hone.1 hone.2).2

/-- The end of a frame leaves the zoom within its limits. -/
theorem settle (hc : c.InRange) (hovered : Bool) (g : Gesture ℝ) : (c.settle hovered g).InRange := by
  have hfollow : (c.followPan g.mouse).InRange := hc.of_zoom_eq (c.followPan_zoom g.mouse)
  rw [Canvas.settle]
  split
  · rw [turnWheel]
    split
    · exact hfollow
    · exact inRange_zoomAt _ _ _
  · exact hfollow

/-- With a zoom within its limits no place on the screen is ever divided by
    zero, and each belongs to one point of the plane. Zooming takes the factor
    that remains within the limits, and so it keeps the point of the plane under
    the place around which it zooms. -/
theorem zoomable (hc : c.InRange) : c.Zoomable where
  toInRange := hc
  zoom_ne_zero := hc.zoom_ne_zero
  toScreen_toPlane p := by
    have hzoom := hc.zoom_ne_zero
    simp only [View.toScreen, View.toPlane, Narrowing.narrow, Narrowing.widen]
    congr 1 <;> field_simp <;> ring
  toPlane_toScreen p := by
    have hzoom := hc.zoom_ne_zero
    simp only [View.toScreen, View.toPlane, Narrowing.narrow, Narrowing.widen]
    congr 1 <;> field_simp <;> ring
  toPlane_zoomAt p factor := by
    have hzoom := hc.zoom_ne_zero
    have hzoomed := (c.inRange_zoomAt p factor).zoom_ne_zero
    simp only [zoomAt] at hzoomed
    simp only [View.toPlane, Narrowing.widen, zoomAt]
    congr 1 <;> field_simp <;> ring

end InRange

end Canvas

namespace Workplace

/-- Whatever happens, the zoom stays within its limits. -/
theorem inRange_happen [YamlReader] {w : Workplace ℝ ℝ} (hw : w.canvas.InRange) (h : Happening ℝ ℝ) :
    (w.happen h).canvas.InRange := by
  cases h with
  | frame interactive region g =>
    cases hregion : region.hasArea with
    | false =>
      rw [happen, frame, hregion]
      exact hw
    | true =>
      have hentered := hw.of_zoom_eq (w.canvas.enter_zoom region)
      obtain ⟨w', hsame, hstate⟩ := w.frame_settles interactive g hregion
      have hw' := hentered.of_zoom_eq (congrArg View.zoom hsame.view)
      rw [happen]
      obtain ⟨-, hstate⟩ | hstate := hstate <;> rw [hstate]
      · exact hw'
      · exact hw'.settle _ g
  | zoomAt p factor => exact w.canvas.inRange_zoomAt p factor
  | zoomAtCenter factor => exact w.canvas.inRange_zoomAt _ factor
  | fit bounds => exact hw.fit bounds
  | event e => exact hw

/-- Whatever happened one after the other, the zoom is within its limits. -/
theorem inRange_run [YamlReader] {w : Workplace ℝ ℝ} (hw : w.canvas.InRange)
    (happenings : List (Happening ℝ ℝ)) :
    (w.run happenings).canvas.InRange :=
  run_induction (I := fun w => w.canvas.InRange) (fun h _ _ hw => inRange_happen hw h) hw

/-- Whatever happened on it, a canvas can be zoomed around every place of the
    screen. No factor is excluded, not even zero or a negative one. -/
theorem zoomable_run [YamlReader] (desk : Desk ℝ) (happenings : List (Happening ℝ ℝ)) :
    ((start desk).run happenings).canvas.Zoomable := by
  have hstart : (start desk : Workplace ℝ ℝ).canvas.InRange := by
    constructor <;> simp only [start, Canvas.start, one_real] <;> norm_num
  exact (inRange_run hstart happenings).zoomable

end Workplace

end LiveDiagram
