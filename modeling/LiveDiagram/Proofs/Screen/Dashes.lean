import LiveDiagram.Proofs.Plane.Polyline
import LiveDiagram.Screen.Dash

namespace LiveDiagram

open Scalar Polyline

namespace Pen

section Unbounded

variable {β : Type} [Scalar β]

/-- How far the pen goes in one step if the end of the segment is `length`
    away. -/
def stride (pen : Pen β) (length : β) : β :=
  if length < pen.remaining then length else pen.remaining

/-- Where the pen, at `p`, is after one step towards the end `q` of the segment,
    `length` away. -/
def next (pen : Pen β) (p q : Point β) (length : β) : Point β :=
  p.along q (pen.stride length / length)

/-- The pen comes from `p` to the end `q` of a segment, `length` away, by steps
    that go on for as long as there is something left of the segment: how it
    arrives, and what it has inked. No bound on the steps is part of this, so a
    pen that never arrives crosses nothing. -/
inductive Crosses (q : Point β) : Pen β → Point β → β → Pen β × List (Point β × Point β) → Prop where
  | arrived {pen : Pen β} {p : Point β} {length : β} (h : ¬ 0 < length) : Crosses q pen p length (pen, [])
  | step {pen last : Pen β} {p : Point β} {length : β} {inked : List (Point β × Point β)} (h : 0 < length)
      (hrest : Crosses q (pen.advance (pen.stride length)) (pen.next p q length) (length - pen.stride length)
        (last, inked)) :
      Crosses q pen p length (last, if pen.isDown then (p, pen.next p q length) :: inked else inked)

/-- The pen comes to the end of a polyline, segment by segment, and has inked
    these strokes. -/
inductive Follows : Pen β → List (Point β) → List (Point β × Point β) → Prop where
  | nowhere {pen : Pen β} : Follows pen [] []
  | arrived {pen : Pen β} {p : Point β} : Follows pen [p] []
  | segment {pen last : Pen β} {p q : Point β} {points : List (Point β)} {inked rest : List (Point β × Point β)}
      (hsegment : Crosses q pen p (q.distance p) (last, inked)) (hrest : Follows last (q :: points) rest) :
      Follows pen (p :: q :: points) (inked ++ rest)

/-- The pen crosses a segment by a step and the steps that it needs for the rest
    of the segment. -/
theorem Crosses.walkSegment_succ {n : ℕ} {pen : Pen β} {p q : Point β} {length : β}
    (h : 0 < length → Crosses q (pen.advance (pen.stride length)) (pen.next p q length) (length - pen.stride length)
      (walkSegment n (pen.advance (pen.stride length)) (pen.next p q length) q (length - pen.stride length))) :
    Crosses q pen p length (walkSegment (n + 1) pen p q length) := by
  rw [walkSegment]
  split
  · exact .step ‹_› (h ‹_›)
  · exact .arrived ‹_›

/-- A pen arrives in one way only. -/
theorem Crosses.unique {q p : Point β} {pen : Pen β} {length : β} {r r' : Pen β × List (Point β × Point β)}
    (h : Crosses q pen p length r) (h' : Crosses q pen p length r') : r = r' := by
  induction h generalizing r' with
  | arrived hzero =>
    cases h' with
    | arrived => rfl
    | step hpos => exact absurd hpos hzero
  | step hpos _ ih =>
    cases h' with
    | arrived hzero => exact absurd hpos hzero
    | step _ hrest' =>
      obtain ⟨rfl, rfl⟩ := Prod.mk.inj (ih hrest')
      rfl

/-- A pen follows a polyline with one list of strokes only. -/
theorem Follows.unique {pen : Pen β} {points : List (Point β)} {strokes strokes' : List (Point β × Point β)}
    (h : Follows pen points strokes) (h' : Follows pen points strokes') : strokes = strokes' := by
  induction h generalizing strokes' with
  | nowhere =>
    cases h'
    rfl
  | arrived =>
    cases h'
    rfl
  | segment hsegment _ ih =>
    cases h' with
    | segment hsegment' hrest' =>
      obtain ⟨rfl, rfl⟩ := Prod.mk.inj (hsegment.unique hsegment')
      rw [ih hrest']

end Unbounded

section Steps

variable {pen : Pen ℝ} {step length : ℝ}

theorem fresh_true : (fresh true : Pen ℝ) = ⟨true, 6⟩ :=
  rfl

theorem fresh_false : (fresh false : Pen ℝ) = ⟨false, 4⟩ :=
  rfl

/-- A dash or a gap that begins is at least four long. -/
theorem four_le_fresh (isDown : Bool) : 4 ≤ (fresh isDown : Pen ℝ).remaining := by
  cases isDown
  · exact le_rfl
  · rw [fresh_true]
    norm_num

/-- A step that ends before the dash or the gap does leaves the rest of it. -/
theorem advance_of_lt (h : step < pen.remaining) : pen.advance step = ⟨pen.isDown, pen.remaining - step⟩ := by
  have hleft : ¬ pen.remaining - step ≤ 0 := not_le.mpr (sub_pos.mpr h)
  simp only [advance, zero_real, if_neg hleft]

/-- A step that uses up a dash begins a gap, and the other way round. -/
theorem advance_remaining (pen : Pen ℝ) : pen.advance pen.remaining = fresh (!pen.isDown) := by
  simp only [advance, sub_self, zero_real, le_refl, if_true]

theorem stride_of_lt (h : pen.remaining < length) : pen.stride length = pen.remaining :=
  if_neg h.not_gt

theorem stride_of_le (h : length ≤ pen.remaining) : pen.stride length = length := by
  obtain hlt | rfl := h.lt_or_eq
  · exact if_pos hlt
  · exact ite_self _

theorem stride_le_remaining (pen : Pen ℝ) (length : ℝ) : pen.stride length ≤ pen.remaining := by
  obtain hle | hlt := le_or_gt length pen.remaining
  · rwa [stride_of_le hle]
  · rw [stride_of_lt hlt]

/-- A step does not go beyond the end of the segment. -/
theorem stride_le (pen : Pen ℝ) (length : ℝ) : pen.stride length ≤ length := by
  obtain hle | hlt := le_or_gt length pen.remaining
  · rw [stride_of_le hle]
  · rw [stride_of_lt hlt]
    exact hlt.le

/-- A step goes on as long as there is something left of the segment. -/
theorem stride_pos (hpen : 0 < pen.remaining) (hlength : 0 < length) : 0 < pen.stride length := by
  obtain hle | hlt := le_or_gt length pen.remaining
  · rwa [stride_of_le hle]
  · rwa [stride_of_lt hlt]

end Steps

section Termination

variable {pen : Pen ℝ} {p q : Point ℝ} {length : ℝ}

/-- After a step something remains of a dash or of a gap. -/
theorem advance_remaining_pos (pen : Pen ℝ) (length : ℝ) : 0 < (pen.advance (pen.stride length)).remaining := by
  obtain hlt | heq := (pen.stride_le_remaining length).lt_or_eq
  · rw [advance_of_lt hlt]
    exact sub_pos.mpr hlt
  · rw [heq, advance_remaining]
    exact lt_of_lt_of_le (by norm_num) (four_le_fresh _)

/-- A bound on the steps that leaves four of the segment for each but the first
    of them is never reached: every step that does not end the segment uses up
    what remains of a dash or of a gap, and then four remain at least. -/
theorem crosses_walkSegment (n : ℕ) (hbound : length ≤ pen.remaining + 4 * n) :
    Crosses q pen p length (walkSegment (n + 1) pen p q length) := by
  induction n generalizing pen p length with
  | zero =>
    refine Crosses.walkSegment_succ fun _ => .arrived ?_
    rw [Nat.cast_zero, mul_zero, add_zero] at hbound
    rw [stride_of_le hbound, sub_self, zero_real]
    exact lt_irrefl 0
  | succ n ih =>
    refine Crosses.walkSegment_succ fun _ => ih ?_
    by_cases hle : length ≤ pen.remaining
    · have hleft := pen.advance_remaining_pos length
      rw [stride_of_le hle] at hleft ⊢
      rw [sub_self]
      positivity
    · have hfresh := four_le_fresh (!pen.isDown)
      rw [stride_of_lt (not_le.mp hle), advance_remaining]
      push_cast at hbound
      linarith

/-- A pen that arrives has something left of a dash or of a gap, as it had
    before. -/
theorem Crosses.remaining_pos {r : Pen ℝ × List (Point ℝ × Point ℝ)} (h : Crosses q pen p length r)
    (hpen : 0 < pen.remaining) : 0 < r.1.remaining := by
  induction h with
  | arrived => exact hpen
  | step _ _ ih => exact ih (advance_remaining_pos _ _)

/-- The bound on the steps in a segment, which is not less than its length, is
    never reached on the way along a polyline. A polyline of any corners is
    followed to its end, also one in which corners coincide. -/
theorem follows_walk (hpen : 0 < pen.remaining) (points : List (Point ℝ)) :
    Follows pen points (pen.walk points) := by
  induction points generalizing pen with
  | nil => exact .nowhere
  | cons p points ih =>
    cases points with
    | nil => exact .arrived
    | cons q points =>
      have hsegment : Crosses q pen p (q.distance p)
          (walkSegment (bound (q.distance p) + 3) pen p q (q.distance p)) := by
        refine crosses_walkSegment (bound (q.distance p) + 2) ?_
        have hbound : q.distance p ≤ (bound (q.distance p) : ℕ) := Nat.le_ceil _
        push_cast
        linarith [q.distance_nonneg p]
      exact .segment hsegment (ih (hsegment.remaining_pos hpen))

end Termination

/-- How the pen stands when it is `s` from the start: in a dash or in a gap of
    the pattern, with what remains of it. -/
inductive OnPattern (s : ℝ) : Pen ℝ → Prop where
  | dash (k : ℕ) (hfrom : 10 * k ≤ s) (hto : s < 10 * k + 6) : OnPattern s ⟨true, 10 * k + 6 - s⟩
  | gap (k : ℕ) (hfrom : 10 * k + 6 ≤ s) (hto : s < 10 * (k + 1)) : OnPattern s ⟨false, 10 * (k + 1) - s⟩

namespace OnPattern

variable {s step : ℝ} {pen : Pen ℝ}

/-- At the start the pen stands at the beginning of a dash. -/
theorem start : OnPattern 0 (fresh true) := by
  have hdash := OnPattern.dash 0 (s := 0) (by norm_num) (by norm_num)
  norm_num at hdash
  exact hdash

theorem remaining_pos (h : OnPattern s pen) : 0 < pen.remaining := by
  cases h with
  | dash k _ hto => exact sub_pos.mpr hto
  | gap k _ hto => exact sub_pos.mpr hto

/-- A step that does not go beyond what remains takes the pen on along the
    pattern. -/
theorem advance (h : OnPattern s pen) (hpos : 0 ≤ step) (hle : step ≤ pen.remaining) :
    OnPattern (s + step) (pen.advance step) := by
  obtain hlt | rfl := hle.lt_or_eq
  · rw [advance_of_lt hlt]
    cases h with
    | dash k hfrom _ =>
      simp only at hlt ⊢
      rw [sub_sub]
      exact .dash k (by linarith) (by linarith)
    | gap k hfrom _ =>
      simp only at hlt ⊢
      rw [sub_sub]
      exact .gap k (by linarith) (by linarith)
  · rw [advance_remaining]
    cases h with
    | dash k hfrom _ =>
      have hgap := OnPattern.gap k (s := 10 * k + 6) le_rfl (by linarith)
      simp only [add_sub_cancel, Bool.not_true, fresh_false]
      convert hgap using 2
      ring
    | gap k hfrom _ =>
      have hdash := OnPattern.dash (k + 1) (s := 10 * (k + 1)) (by push_cast; exact le_rfl) (by push_cast; linarith)
      simp only [add_sub_cancel, Bool.not_false, fresh_true]
      convert hdash using 2
      push_cast
      ring

end OnPattern

/-- The place is in a dash of the pattern, as far as the dash is between `s` and
    `e`; a dash that only touches what is between the two does not count. -/
structure InDash (s e u : ℝ) : Prop where
  from_le : s ≤ u
  le_to : u ≤ e
  from_lt_to : s < e
  exists_dash : ∃ k : ℕ, s < 10 * k + 6 ∧ 10 * k < e ∧ 10 * k ≤ u ∧ u ≤ 10 * k + 6

/-- What is inked up to a place between `s` and `e` and from there on is what is
    inked between the two. A dash that ends at that very place, or starts there,
    is counted on one side of it. -/
theorem inDash_or_inDash_iff {s m e : ℝ} (hsm : s ≤ m) (hme : m ≤ e) (u : ℝ) :
    InDash s m u ∨ InDash m e u ↔ InDash s e u := by
  constructor
  · rintro (⟨hsu, hum, hlt, k, hs, hm, hfrom, hto⟩ | ⟨hmu, hue, hlt, k, hm, he, hfrom, hto⟩)
    · exact ⟨hsu, hum.trans hme, hlt.trans_le hme, k, hs, hm.trans_le hme, hfrom, hto⟩
    · exact ⟨hsm.trans hmu, hue, hsm.trans_lt hlt, k, hsm.trans_lt hm, he, hfrom, hto⟩
  · rintro ⟨hsu, hue, hlt, k, hs, he, hfrom, hto⟩
    obtain hum | rfl | hmu := lt_trichotomy u m
    · exact .inl ⟨hsu, hum.le, hsu.trans_lt hum, k, hs, hfrom.trans_lt hum, hfrom, hto⟩
    · -- the dash has ink before this place, unless the dash itself or the whole way only starts here
      by_cases hleft : s < u ∧ 10 * k < u
      · exact .inl ⟨hsu, le_rfl, hleft.1, k, hs, hleft.2, hfrom, hto⟩
      · have hright : u < e ∧ u < 10 * k + 6 := by
          obtain hus | huk := not_and_or.mp hleft
          · rw [le_antisymm (not_lt.mp hus) hsu]
            exact ⟨hlt, hs⟩
          · rw [le_antisymm (not_lt.mp huk) hfrom]
            exact ⟨he, by linarith⟩
        exact .inr ⟨le_rfl, hue, hright.1, k, hright.2, he, hfrom, hto⟩
    · exact .inr ⟨hmu.le, hue, hmu.trans_le hue, k, hmu.trans_le hto, he, hfrom, hto⟩

theorem inDash_iff_of_dash {s e : ℝ} {k : ℕ} (hfrom : 10 * k ≤ s) (hlt : s < e)
    (hto : e ≤ 10 * k + 6) (u : ℝ) :
    InDash s e u ↔ s ≤ u ∧ u ≤ e := by
  constructor
  · rintro ⟨hsu, hue, -⟩
    exact ⟨hsu, hue⟩
  · rintro ⟨hsu, hue⟩
    exact ⟨hsu, hue, hlt, k, hlt.trans_le hto, hfrom.trans_lt hlt, hfrom.trans hsu, hue.trans hto⟩

/-- A dash from before a gap ends before it, and one from behind it starts
    behind it. -/
theorem not_inDash_of_gap {s e : ℝ} {k : ℕ} (hfrom : 10 * k + 6 ≤ s) (hto : e ≤ 10 * (k + 1)) (u : ℝ) :
    ¬ InDash s e u := by
  rintro ⟨-, -, -, j, hs, he, -, -⟩
  have hjk : (j : ℝ) < (k + 1 : ℕ) := by
    push_cast
    linarith
  have hle : (j : ℝ) ≤ k := Nat.cast_le.mpr (Nat.lt_succ_iff.mp (Nat.cast_lt.mp hjk))
  linarith

/-- The stretches follow each other from `s` to `e` and have together what is in
    a dash there. -/
structure Covers (s e : ℝ) (stretches : List (ℝ × ℝ)) : Prop where
  within : ∀ x ∈ stretches, s ≤ x.1 ∧ x.1 < x.2 ∧ x.2 ≤ e
  ordered : stretches.Pairwise fun x y => x.2 ≤ y.1
  mem_iff : ∀ u, (∃ x ∈ stretches, x.1 ≤ u ∧ u ≤ x.2) ↔ InDash s e u

namespace Covers

variable {s m e : ℝ} {xs ys : List (ℝ × ℝ)}

theorem blank (h : ∀ u, ¬ InDash s e u) : Covers s e [] where
  within x hx := absurd hx List.not_mem_nil
  ordered := .nil
  mem_iff u := by simp [h u]

theorem nil (s : ℝ) : Covers s s [] :=
  blank fun _ hu => lt_irrefl s hu.from_lt_to

/-- Where all is in a dash, one stretch covers it. -/
theorem single (hlt : s < e) (h : ∀ u, InDash s e u ↔ s ≤ u ∧ u ≤ e) : Covers s e [(s, e)] where
  within x hx := by
    rw [List.mem_singleton.mp hx]
    exact ⟨le_rfl, hlt, le_rfl⟩
  ordered := List.pairwise_singleton _ _
  mem_iff u := by simp [h u]

/-- What covers two parts of the way that follow each other covers both
    together. -/
theorem append (hsm : s ≤ m) (hme : m ≤ e) (hxs : Covers s m xs) (hys : Covers m e ys) :
    Covers s e (xs ++ ys) where
  within x hx := by
    obtain hx | hx := List.mem_append.mp hx
    · obtain ⟨hs, hlt, hm⟩ := hxs.within x hx
      exact ⟨hs, hlt, hm.trans hme⟩
    · obtain ⟨hm, hlt, he⟩ := hys.within x hx
      exact ⟨hsm.trans hm, hlt, he⟩
  ordered := by
    refine List.pairwise_append.mpr ⟨hxs.ordered, hys.ordered, fun x hx y hy => ?_⟩
    exact (hxs.within x hx).2.2.trans (hys.within y hy).1
  mem_iff u := by
    rw [← inDash_or_inDash_iff hsm hme, ← hxs.mem_iff, ← hys.mem_iff]
    simp only [List.mem_append, or_and_right, exists_or]

/-- A step of the pen inks all of its way if the pen is down, and nothing of it
    otherwise. -/
theorem stride {pen : Pen ℝ} {step : ℝ} (h : OnPattern s pen) (hpos : 0 < step) (hle : step ≤ pen.remaining) :
    Covers s (s + step) (if pen.isDown then [(s, s + step)] else []) := by
  have hlt : s < s + step := lt_add_of_pos_right s hpos
  cases h with
  | dash k hfrom _ => exact single hlt (inDash_iff_of_dash hfrom hlt (le_sub_iff_add_le'.mp hle))
  | gap k hfrom _ => exact blank (not_inDash_of_gap hfrom (le_sub_iff_add_le'.mp hle))

end Covers

/-- The stroke over a stretch of a path. -/
def strokeOver (path : ℝ → Point ℝ) (x : ℝ × ℝ) : Point ℝ × Point ℝ :=
  (path x.1, path x.2)

section Run

variable {path : ℝ → Point ℝ} {s length : ℝ} {pen : Pen ℝ} {p q : Point ℝ}

/-- Across a straight segment the pen inks what is in a dash there, and it
    arrives as the pattern has it. The induction is on the steps of the pen. -/
theorem Crosses.covers {r : Pen ℝ × List (Point ℝ × Point ℝ)} (h : Crosses q pen p length r)
    (hpen : OnPattern s pen) (hlength : 0 ≤ length) (hpath : Straight path s (s + length))
    (hp : path s = p) (hq : path (s + length) = q) :
    OnPattern (s + length) r.1 ∧
      ∃ stretches, Covers s (s + length) stretches ∧ r.2 = stretches.map (strokeOver path) := by
  induction h generalizing s with
  | arrived hzero =>
    rw [zero_real] at hzero
    obtain rfl := le_antisymm (not_lt.mp hzero) hlength
    rw [add_zero]
    exact ⟨hpen, [], .nil s, rfl⟩
  | @step pen last p length inked hpos hrest ih =>
    rw [zero_real] at hpos
    have hstride := stride_pos hpen.remaining_pos hpos
    have hle := pen.stride_le length
    have hremaining := pen.stride_le_remaining length
    have hend : s + pen.stride length + (length - pen.stride length) = s + length := by ring
    have hnext : path (s + pen.stride length) = pen.next p q length := by
      have hchord := hpath.chord (u := s + pen.stride length) (by linarith) (by linarith) (by linarith)
      rwa [hp, hq, add_sub_cancel_left, add_sub_cancel_left, eq_comm] at hchord
    obtain ⟨hlast, stretches, hcovers, hinked⟩ := ih (hpen.advance hstride.le hremaining) (sub_nonneg.mpr hle)
      (hend ▸ hpath.mono (by linarith) le_rfl) hnext (hend ▸ hq)
    rw [hend] at hlast hcovers
    refine ⟨hlast, _, (Covers.stride hpen hstride hremaining).append (by linarith) (by linarith) hcovers, ?_⟩
    rw [List.map_append, ← hinked]
    cases pen.isDown with
    | false => rfl
    | true => simp [strokeOver, hp, hnext]

/-- Along a polyline the pen inks what is in a dash, each stroke over a straight
    stretch. The induction is on the segments; a stroke ends at a corner, and
    the next one goes on in the same dash. -/
theorem Follows.covers {points : List (Point ℝ)} {strokes : List (Point ℝ × Point ℝ)}
    (h : Follows pen points strokes) (hpen : OnPattern s pen)
    (hpath : ∀ u, 0 ≤ u → path (s + u) = pointAt points u) :
    ∃ stretches, Covers s (s + arcLength points) stretches ∧ strokes = stretches.map (strokeOver path) ∧
      ∀ x ∈ stretches, Straight path x.1 x.2 := by
  induction h generalizing s with
  | nowhere | arrived =>
    refine ⟨[], ?_, rfl, fun x hx => absurd hx List.not_mem_nil⟩
    rw [arcLength, add_zero]
    exact .nil s
  | @segment pen last p q points inked rest hsegment hrest ih =>
    have hstraight := straight_segment hpath
    have hp : path s = p := by
      have hstart := hpath 0 le_rfl
      rwa [add_zero, pointAt_zero] at hstart
    have hq : path (s + q.distance p) = q := by
      rw [hpath _ (q.distance_nonneg p), pointAt_corner]
    obtain ⟨hlast, xs, hxs, rfl⟩ := hsegment.covers hpen (q.distance_nonneg p) hstraight hp hq
    obtain ⟨ys, hys, rfl, hsteps⟩ := ih hlast fun u hu => by
      rw [add_assoc, hpath _ (add_nonneg (q.distance_nonneg p) hu), pointAt_add p q points hu]
    rw [add_assoc] at hys
    rw [arcLength]
    refine ⟨xs ++ ys, ?_, List.map_append.symm, fun x hx => ?_⟩
    · refine hxs.append ?_ ?_ hys
      · linarith [q.distance_nonneg p]
      · linarith [arcLength_nonneg (q :: points)]
    · obtain hx | hx := List.mem_append.mp hx
      · obtain ⟨hfrom, -, hto⟩ := hxs.within x hx
        exact hstraight.mono hfrom hto
      · exact hsteps x hx

end Run

end Pen

/-- The place on the way along a polyline is in a dash of the pattern: dashes of
    six with gaps of four between them, across all corners. A dash that would
    only start at the end of the line has no place on it. -/
structure Dashed (points : List (Point ℝ)) (u : ℝ) : Prop where
  le_arcLength : u ≤ arcLength points
  exists_dash : ∃ k : ℕ, 10 * k ≤ u ∧ u ≤ 10 * k + 6 ∧ 10 * k < arcLength points

/-- The strokes lie over stretches of a polyline, one after the other, which
    have all that is in a dash of the pattern and nothing else. -/
structure InkedOver (points : List (Point ℝ)) (strokes : List (Point ℝ × Point ℝ))
    (stretches : List (ℝ × ℝ)) : Prop where
  strokes_eq : strokes = stretches.map fun x => (pointAt points x.1, pointAt points x.2)
  /-- Each stroke has the points of its stretch, in their order and at their
      distances. -/
  along_eq : ∀ x ∈ stretches, ∀ u, x.1 ≤ u → u ≤ x.2 →
    (pointAt points x.1).along (pointAt points x.2) ((u - x.1) / (x.2 - x.1)) = pointAt points u
  distance_eq : ∀ x ∈ stretches, (pointAt points x.2).distance (pointAt points x.1) = x.2 - x.1
  within : ∀ x ∈ stretches, 0 ≤ x.1 ∧ x.1 < x.2 ∧ x.2 ≤ arcLength points
  ordered : stretches.Pairwise fun x y => x.2 ≤ y.1
  mem_iff : ∀ u, (∃ x ∈ stretches, x.1 ≤ u ∧ u ≤ x.2) ↔ Dashed points u

/-- The strokes are those of a pen that comes to the end of the polyline, and
    they ink its dashes. -/
structure Patterned (points : List (Point ℝ)) (strokes : List (Point ℝ × Point ℝ)) : Prop where
  /-- The way of the pen ends, and it ends with these strokes only. -/
  follows_iff : ∀ strokes', (Pen.fresh true).Follows points strokes' ↔ strokes' = strokes
  exists_stretches : ∃ stretches, InkedOver points strokes stretches
  /-- The points on the strokes are the points of the polyline that are in a
      dash. -/
  exists_along_iff : ∀ p, (∃ stroke ∈ strokes, ∃ t, 0 ≤ t ∧ t ≤ 1 ∧ stroke.1.along stroke.2 t = p) ↔
    ∃ u, Dashed points u ∧ pointAt points u = p

/-- What is in a dash from the start of a polyline to its end is what is dashed
    on it. -/
theorem inDash_iff_dashed (points : List (Point ℝ)) (u : ℝ) :
    Pen.InDash 0 (arcLength points) u ↔ Dashed points u := by
  constructor
  · rintro ⟨-, hend, -, k, -, hlt, hfrom, hto⟩
    exact ⟨hend, k, hfrom, hto, hlt⟩
  · rintro ⟨hend, k, hfrom, hto, hlt⟩
    have hk : (0 : ℝ) ≤ 10 * k := by positivity
    exact ⟨hk.trans hfrom, hend, hk.trans_lt hlt, k, by linarith, hlt, hfrom, hto⟩

/-- The points on the strokes are the points of the polyline that are in a
    dash. -/
theorem InkedOver.exists_along_iff {points : List (Point ℝ)} {strokes : List (Point ℝ × Point ℝ)}
    {stretches : List (ℝ × ℝ)} (h : InkedOver points strokes stretches) (p : Point ℝ) :
    (∃ stroke ∈ strokes, ∃ t, 0 ≤ t ∧ t ≤ 1 ∧ stroke.1.along stroke.2 t = p) ↔
      ∃ u, Dashed points u ∧ pointAt points u = p := by
  rw [h.strokes_eq]
  constructor
  · rintro ⟨stroke, hstroke, t, hzero, hone, rfl⟩
    obtain ⟨x, hx, rfl⟩ := List.mem_map.mp hstroke
    have hlt := sub_pos.mpr (h.within x hx).2.1
    have hfrom : x.1 ≤ x.1 + (x.2 - x.1) * t := le_add_of_nonneg_right (mul_nonneg hlt.le hzero)
    have hto : x.1 + (x.2 - x.1) * t ≤ x.2 := by linarith [mul_le_of_le_one_right hlt.le hone]
    have hplace := h.along_eq x hx _ hfrom hto
    rw [add_sub_cancel_left, mul_div_cancel_left₀ _ hlt.ne'] at hplace
    exact ⟨_, (h.mem_iff _).mp ⟨x, hx, hfrom, hto⟩, hplace.symm⟩
  · rintro ⟨u, hu, rfl⟩
    obtain ⟨x, hx, hfrom, hto⟩ := (h.mem_iff u).mpr hu
    have hlt := sub_pos.mpr (h.within x hx).2.1
    refine ⟨_, List.mem_map_of_mem hx, (u - x.1) / (x.2 - x.1), ?_, ?_, h.along_eq x hx u hfrom hto⟩
    · exact div_nonneg (sub_nonneg.mpr hfrom) hlt.le
    · exact (div_le_one hlt).mpr (sub_le_sub_right hto _)

/-- The pen follows every polyline to its end, with the dashes of the line. -/
theorem follows_dashes (points : List (Point ℝ)) : (Pen.fresh true).Follows points (dashes points) :=
  Pen.follows_walk Pen.OnPattern.start.remaining_pos points

/-- The dashes of a polyline lie over stretches of it. -/
theorem exists_inkedOver (points : List (Point ℝ)) : ∃ stretches, InkedOver points (dashes points) stretches := by
  have hpath : ∀ u, 0 ≤ u → pointAt points (0 + u) = pointAt points u := fun u _ => by rw [zero_add]
  obtain ⟨stretches, hcovers, hstrokes, hstraight⟩ := (follows_dashes points).covers .start hpath
  rw [zero_add] at hcovers
  refine ⟨stretches, hstrokes, fun x hx u hfrom hto => ?_, fun x hx => ?_, hcovers.within, hcovers.ordered,
    fun u => (hcovers.mem_iff u).trans (inDash_iff_dashed points u)⟩
  · exact (hstraight x hx).chord (hcovers.within x hx).2.1 hfrom hto
  · exact (hstraight x hx).distance_eq (hcovers.within x hx).2.1.le

/-- The way of the pen along a polyline comes to an end, with the dashes of the
    line and no other strokes. They lie on the line, in order and without
    overlap, and together they have just the points that are in a dash of the
    pattern, which is told by the distance from the start alone and so runs on
    through all corners. -/
theorem patterned_dashes (points : List (Point ℝ)) : Patterned points (dashes points) := by
  obtain ⟨stretches, hinked⟩ := exists_inkedOver points
  refine ⟨fun strokes => ⟨fun h => h.unique (follows_dashes points), ?_⟩, ⟨stretches, hinked⟩,
    hinked.exists_along_iff⟩
  rintro rfl
  exact follows_dashes points

end LiveDiagram
