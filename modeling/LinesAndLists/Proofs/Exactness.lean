import LinesAndLists.Proofs.Walking

/-! No line leaves its words. Cursors stay between the ends of the segment, since the
error allows no more changes of height than lead from one end to the other, and so far
inside the words of 64 bits every sum and difference is that of the integers. -/
namespace LinesAndLists

def Point.InBox (a b p : Point) : Prop :=
  (min a.x.toInt b.x.toInt ≤ p.x.toInt ∧ p.x.toInt ≤ max a.x.toInt b.x.toInt) ∧
  (min a.y.toInt b.y.toInt ≤ p.y.toInt ∧ p.y.toInt ≤ max a.y.toInt b.y.toInt)

theorem Point.axisDistance_lt (a b : Int32) : Point.axisDistance a b < 2 ^ 32 := by
  have := a.le_toInt
  have := a.toInt_lt
  have := b.le_toInt
  have := b.toInt_lt
  simp only [axisDistance]
  omega

namespace Frame

def Spans (f : Frame) (x y : Int) : Prop :=
  (f.x1.toInt ≤ x ∧ x ≤ f.x2.toInt) ∧
  (min f.y1.toInt f.y2.toInt ≤ y ∧ y ≤ max f.y1.toInt f.y2.toInt)

theorem spans_ordered_iff {steep : Bool} {p q : Point} {x y : Int} :
    (ordered steep p q).Spans x y ↔
      (min p.x.toInt q.x.toInt ≤ x ∧ x ≤ max p.x.toInt q.x.toInt) ∧
      (min p.y.toInt q.y.toInt ≤ y ∧ y ≤ max p.y.toInt q.y.toInt) := by
  by_cases back : q.x.toInt < p.x.toInt
  · simp only [ordered_of_lt back, Spans, Int32.toInt_toInt64]
    omega
  · simp only [ordered_of_le (Int.not_lt.1 back), Spans, Int32.toInt_toInt64]
    omega

theorem inBox_of_spans {a b p : Point} {x y : Int} (inside : (between a b).Spans x y)
    (place : p.coordinates = (between a b).place x y) : Point.InBox a b p := by
  rw [between_eq_ordered, spans_ordered_iff] at inside
  simp only [Frame.place, between_steep, Point.coordinates] at place
  by_cases turns : isSteep a b = true
  · simp only [turns, if_true, Prod.mk.injEq] at place
    simp only [turned, turns, if_true, Point.transpose] at inside
    rw [Point.InBox, place.1, place.2]
    exact ⟨inside.2, inside.1⟩
  · simp only [turns, Bool.false_eq_true, if_false, Prod.mk.injEq] at place
    simp only [turned, turns, Bool.false_eq_true, if_false] at inside
    rw [Point.InBox, place.1, place.2]
    exact inside

variable {f : Frame} {k : Nat}

theorem Upright.spans_track (upright : f.Upright) (within : k ≤ f.width) :
    f.Spans (f.track k).x (f.track k).y :=
  ⟨upright.track_x (Int.natCast_nonneg k) (by omega),
    upright.track_y (Int.natCast_nonneg k) (by omega)⟩

/-- What holds of a cursor of a line at any time: its next step is computed exactly to
either side, and its point is given away without a loss. -/
structure Safe (f : Frame) (c : Cursor Int64) : Prop where
  advance : c.AdvanceExact f.slope
  retreat : c.RetreatExact f.slope
  spans : f.Spans c.x.toInt c.y.toInt
  x : c.x.toInt32.toInt = c.x.toInt
  y : c.y.toInt32.toInt = c.y.toInt

theorem Upright.safe (upright : f.Upright) (within : k ≤ f.width) {c : Cursor Int64}
    (on : c.value = f.track k) : f.Safe c := by
  have near := upright.near (Int.natCast_nonneg k) (by omega) on
  have spans := upright.spans_track within
  rw [← on] at spans
  exact ⟨near.advanceExact, near.retreatExact, spans, toInt_toInt32_of_short near.x,
    toInt_toInt32_of_short near.y⟩

end Frame

/-- Whatever is asked of a line between two points, nothing it computes differs from the
integers, and no point it gives away lies outside the box of the two. -/
theorem run_exact (a b : Point) (schedule : List End) :
    let f := Frame.between a b
    let start := Line.between a b
    let line := (start.run schedule).2
    (Point.axisDistance b.x a.x < 2 ^ 32 ∧ Point.axisDistance b.y a.y < 2 ^ 32) ∧
      (f.SlopeExact ∧ line.slope = f.slope) ∧
      (start.remaining.toNat = f.slope.dx.toUInt64.toNat + 1 ∧ 1 ≤ start.remaining.toNat ∧
        start.remaining.toNat ≤ 2 ^ 32) ∧
      (∀ c ∈ [line.left, line.right], f.Safe c) ∧
      (∀ e p next, line.pop e = some (p, next) → line.remaining ≠ 0 ∧
        next.remaining.toNat + 1 = line.remaining.toNat) ∧
      ∀ p ∈ (start.run schedule).1.reduceOption, Point.InBox a b p := by
  intro f start line
  have upright : f.Upright := Frame.upright_between a b
  have exact := upright.slopeExact
  have narrow := upright.run_lt
  have forward := upright.forward
  obtain ⟨last, spent, _⟩ := upright.spent_line.run upright schedule
  have count : start.remaining.toNat = f.slope.dx.toUInt64.toNat + 1 := exact.count
  have word := exact.word
  refine ⟨⟨Point.axisDistance_lt _ _, Point.axisDistance_lt _ _⟩, ⟨exact, spent.slope⟩,
    ⟨count, by omega, ?_⟩, ?_, ?_, ?_⟩
  · rw [count]
    omega
  · obtain ⟨k, k', within, within', left, right⟩ := spent.onTrack
    intro c member
    rcases List.mem_pair.1 member with rfl | rfl
    · exact upright.safe within left
    · exact upright.safe within' right
  · intro e p next popped
    have fewer := Line.size_of_pop popped
    refine ⟨fun finished => ?_, fewer.symm⟩
    rw [Line.remaining_eq_zero_iff] at finished
    omega
  · intro p member
    obtain ⟨k, within, rfl⟩ := upright.spent_line.answers upright schedule p member
    exact Frame.inBox_of_spans (upright.spans_track within)
      (Frame.coordinates_pointOver upright (Int.natCast_nonneg k) (by omega))

/-- Across the whole grid, after a point at either end. -/
theorem run_exact_widest :
    let a : Point := ⟨Int32.minValue, Int32.maxValue⟩
    let b : Point := ⟨Int32.maxValue, Int32.minValue⟩
    let line := ((Line.between a b).run [.front, .back]).2
    (Frame.between a b).Safe line.left ∧ (Frame.between a b).Safe line.right ∧
      ∃ p next, line.pop .front = some (p, next) ∧
        next.remaining.toNat + 1 = line.remaining.toNat := by
  intro a b line
  obtain ⟨_, _, _, safe, popped, _⟩ := run_exact a b [.front, .back]
  have more : line.size ≠ 0 := by decide +kernel
  refine ⟨safe line.left (by simp [line]), safe line.right (by simp [line]), ?_⟩
  cases came : line.pop .front with
  | none => exact absurd (Line.pop_eq_none_iff.1 came) more
  | some taken => exact ⟨taken.1, taken.2, rfl, (popped .front taken.1 taken.2 came).2⟩

end LinesAndLists
