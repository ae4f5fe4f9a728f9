import LinesAndLists.Proofs.Spreading
import Mathlib.Tactic.LinearCombination

/-! Segments cut in two at a point of the grid. The parts are as steep as the whole, so in
each column the nearest height is the same for a part and for the whole, exact halves
included. It does not matter that a part is of another width and begins with another error,
nor that it is from the far end that a reversed segment is measured. -/
namespace LinesAndLists

/-- The point lies exactly on the segment from `a` to `b`, which includes its ends. -/
structure Point.OnSegment (q a b : Point) : Prop where
  straight : (b.x.toInt - a.x.toInt) * (q.y.toInt - a.y.toInt) =
    (b.y.toInt - a.y.toInt) * (q.x.toInt - a.x.toInt)
  x : min a.x.toInt b.x.toInt ≤ q.x.toInt ∧ q.x.toInt ≤ max a.x.toInt b.x.toInt
  y : min a.y.toInt b.y.toInt ≤ q.y.toInt ∧ q.y.toInt ≤ max a.y.toInt b.y.toInt

section Nearest

variable {D D' m m' k : Nat}

/-- Heights are measured against the slope alone, not against the width. -/
theorem nearest_scaled (wide : 0 < D) (wide' : 0 < D') (slope : D * m' = D' * m) :
    nearest D m k = nearest D' m' k := by
  obtain ⟨low, high⟩ := (@eq_nearest_iff D m k wide _).1 rfl
  have positive : (0 : Int) < D := by exact_mod_cast wide
  have slope : (D : Int) * m' = D' * m := by exact_mod_cast slope
  have scaled : D * (2 * ((D' : Int) * nearest D m k - k * m')) =
      D' * (2 * ((D : Int) * nearest D m k - k * m)) := by
    linear_combination -2 * k * slope
  have same : (nearest D m k : Int) = nearest D' m' k := by
    apply (eq_nearest_iff wide').2
    constructor
    · apply le_of_mul_le_mul_left _ positive
      have := Int.mul_le_mul_of_nonneg_left low (Int.natCast_nonneg D')
      linarith
    · apply lt_of_mul_lt_mul_left _ positive.le
      have := Int.mul_lt_mul_of_pos_left high (show (0 : Int) < D' by exact_mod_cast wide')
      linarith
  exact_mod_cast same

theorem nearest_add (wide : 0 < D) (slope : D * m' = D' * m) (k : Nat) :
    nearest D m (D' + k) = m' + nearest D m k := by
  rw [nearest, nearest, Nat.add_mul, ← slope, Nat.add_assoc, Nat.mul_add_div wide]

theorem nearest_zero (D m : Nat) : nearest D m 0 = 0 := by
  rcases Nat.eq_zero_or_pos D with rfl | wide
  · exact Nat.div_zero _
  · rw [nearest, Nat.zero_mul, Nat.zero_add, Nat.div_eq_of_lt (by omega)]

end Nearest

theorem steeper_of_parallel {x y x' y' : Nat} (parallel : x * y' = y * x') (long : 0 < x ∨ 0 < y)
    (steeper : x' < y') : x < y := by
  by_contra flat
  have wide : 0 < x := by omega
  have less : y * x' ≤ x * x' := Nat.mul_le_mul_right x' (Nat.not_lt.1 flat)
  have more : x * x' < x * y' := Nat.mul_lt_mul_of_pos_left steeper wide
  omega

theorem slope_rest {D D' D'' m m' m'' : Nat} (width : D = D' + D'') (height : m = m' + m'')
    (slope : D * m' = D' * m) : D * m'' = D'' * m := by
  have whole : D * (m' + m'') = (D' + D'') * m := by rw [← width, ← height]
  rw [Nat.mul_add, Nat.add_mul] at whole
  omega

theorem natAbs_way {way u w : Int} {n : Nat} (unit : way = 1 ∨ way = -1)
    (whole : w = u + way * n) : (w - u).natAbs = n := by
  rcases unit with rfl | rfl <;> omega

theorem ways_add {way way' way'' : Int} (unit : way = 1 ∨ way = -1) (unit' : way' = 1 ∨ way' = -1)
    (unit'' : way'' = 1 ∨ way'' = -1) {n n' n'' : Nat} {u v w : Int} (whole : w = u + way * n)
    (first : v = u + way' * n') (second : w = v + way'' * n'')
    (between : min u w ≤ v ∧ v ≤ max u w) :
    n = n' + n'' ∧ (0 < n' → way' = way) ∧ (0 < n'' → way'' = way) := by
  rcases unit with rfl | rfl <;> rcases unit' with rfl | rfl <;>
    rcases unit'' with rfl | rfl <;> omega

namespace Point

variable {tall : Bool} {p q a b : Point}

theorem eq_of_axes (major : p.major tall = q.major tall) (minor : p.minor tall = q.minor tall) :
    p = q := by
  apply coordinates_injective
  cases tall with
  | false => exact Prod.ext major minor
  | true => exact Prod.ext minor major

theorem spans_pos (apart : a ≠ b) : 0 < axisDistance b.x a.x ∨ 0 < axisDistance b.y a.y := by
  by_contra same
  simp only [axisDistance] at same
  exact apart (coordinates_injective (Prod.ext (show a.x.toInt = b.x.toInt by omega)
    (show a.y.toInt = b.y.toInt by omega)))

theorem OnSegment.axes (on : q.OnSegment a b) (tall : Bool) :
    (b.major tall - a.major tall) * (q.minor tall - a.minor tall) =
        (b.minor tall - a.minor tall) * (q.major tall - a.major tall) ∧
      (min (a.major tall) (b.major tall) ≤ q.major tall ∧
        q.major tall ≤ max (a.major tall) (b.major tall)) ∧
      min (a.minor tall) (b.minor tall) ≤ q.minor tall ∧
        q.minor tall ≤ max (a.minor tall) (b.minor tall) := by
  cases tall with
  | false => exact ⟨on.straight, on.x, on.y⟩
  | true => exact ⟨on.straight.symm, on.y, on.x⟩

end Point

namespace Frame

variable {f g h : Frame} {i : Nat} {a b c d q : Point}

theorem Upright.crossed_width (upright : f.Upright) : f.crossed f.width = f.height := by
  simp only [crossed]
  split
  · rw [Nat.sub_self, nearest_zero, Nat.sub_zero]
  · exact nearest_width upright.height_le

theorem Upright.crossed_le (upright : f.Upright) (within : i ≤ f.width) :
    f.crossed i ≤ f.height := upright.crossed_width ▸ crossed_mono within

/-- The frame and the ends leave no choice of the points between them. -/
theorem Course.unique {ps qs : List Point} (course : f.Course a b ps) (course' : f.Course a b qs) :
    ps = qs := by
  refine List.ext_getElem (course.length.trans course'.length.symm) fun i inside inside' => ?_
  obtain ⟨major, minor⟩ := course.place (List.getElem?_eq_getElem inside)
  obtain ⟨major', minor'⟩ := course'.place (List.getElem?_eq_getElem inside')
  exact Point.eq_of_axes (major.trans major'.symm) (minor.trans minor'.symm)

theorem finish_between (a b : Point) :
    let f := between a b
    b.major f.steep = a.major f.steep + f.onward * f.width ∧
      b.minor f.steep = a.minor f.steep + f.sideward * f.height := by
  intro f
  have course := course_points a b
  have finish := course.place course.finish
  rwa [(upright_between a b).crossed_width] at finish

theorem width_pos (apart : a ≠ b) : 0 < (between a b).width := by
  have flat := (upright_between a b).height_le
  obtain ⟨major, minor⟩ := finish_between a b
  by_contra narrow
  have width : (between a b).width = 0 := by omega
  have height : (between a b).height = 0 := by omega
  rw [width, Int.natCast_zero, Int.mul_zero, Int.add_zero] at major
  rw [height, Int.natCast_zero, Int.mul_zero, Int.add_zero] at minor
  exact apart (Point.eq_of_axes major minor).symm

theorem isSteep_parallel (apart : a ≠ b) (apart' : c ≠ d)
    (parallel : (b.x.toInt - a.x.toInt) * (d.y.toInt - c.y.toInt) =
      (b.y.toInt - a.y.toInt) * (d.x.toInt - c.x.toInt)) :
    isSteep c d = isSteep a b := by
  have spans : Point.axisDistance b.x a.x * Point.axisDistance d.y c.y =
      Point.axisDistance b.y a.y * Point.axisDistance d.x c.x := by
    simpa only [Point.axisDistance, Int.natAbs_mul] using congrArg Int.natAbs parallel
  have spans' : Point.axisDistance d.x c.x * Point.axisDistance b.y a.y =
      Point.axisDistance d.y c.y * Point.axisDistance b.x a.x := by
    rw [Nat.mul_comm, ← spans, Nat.mul_comm]
  rw [Bool.eq_iff_iff, isSteep_iff, isSteep_iff]
  exact ⟨steeper_of_parallel spans (Point.spans_pos apart),
    steeper_of_parallel spans' (Point.spans_pos apart')⟩

/-- The frames `g` and `h` of the parts of a segment with the frame `f`. -/
structure Parts (f g h : Frame) : Prop where
  first : 0 < g.width
  second : 0 < h.width
  width : f.width = g.width + h.width
  height : f.height = g.height + h.height
  slope : f.width * g.height = g.width * f.height ∧ f.width * h.height = h.width * f.height
  steep : g.steep = f.steep ∧ h.steep = f.steep
  onward : g.onward = f.onward ∧ h.onward = f.onward
  sideward : 0 < f.height → g.sideward = f.sideward ∧ h.sideward = f.sideward

theorem reversed_eq_of_onward (same : g.onward = f.onward) : g.reversed = f.reversed := by
  cases left : g.reversed <;> cases right : f.reversed <;>
    simp [onward, left, right] at same ⊢

namespace Parts

theorem wide (parts : Parts f g h) : 0 < f.width := by
  rw [parts.width]
  exact Nat.add_pos_left parts.first _

theorem crossed_first (parts : Parts f g h) (within : i ≤ g.width) :
    f.crossed i = g.crossed i := by
  have same (k : Nat) : nearest f.width f.height k = nearest g.width g.height k :=
    nearest_scaled parts.wide parts.first parts.slope.1
  simp only [crossed, reversed_eq_of_onward parts.onward.1]
  split
  -- A reversed line is measured from its right end, so the second part comes first.
  · have far : f.width - i = h.width + (g.width - i) := by
      have := parts.width
      omega
    rw [far, nearest_add parts.wide parts.slope.2, same, parts.height]
    omega
  · exact same i

theorem crossed_second (parts : Parts f g h) (upright : h.Upright) (within : i ≤ h.width) :
    f.crossed (g.width + i) = g.height + h.crossed i := by
  have same (k : Nat) : nearest f.width f.height k = nearest h.width h.height k :=
    nearest_scaled parts.wide parts.second parts.slope.2
  simp only [crossed, reversed_eq_of_onward parts.onward.2]
  split
  · have far : f.width - (g.width + i) = h.width - i := by
      have := parts.width
      omega
    have most := upright.nearest_le (Nat.sub_le h.width i)
    rw [far, same, parts.height]
    omega
  · rw [nearest_add parts.wide parts.slope.1, same]

/-- How far the line has come across is the same in its first part. -/
theorem across_first (parts : Parts f g h) (upright : g.Upright) (within : i ≤ g.width) :
    f.sideward * f.crossed i = g.sideward * g.crossed i := by
  rw [parts.crossed_first within]
  rcases Nat.eq_zero_or_pos f.height with level | tilted
  -- A level segment has no direction across, and its parts need not agree on one.
  · have low := upright.crossed_le within
    have height := parts.height
    rw [show g.crossed i = 0 by omega, Int.natCast_zero, Int.mul_zero, Int.mul_zero]
  · rw [(parts.sideward tilted).1]

theorem across_second (parts : Parts f g h) (upright : h.Upright) (within : i ≤ h.width) :
    f.sideward * f.crossed (g.width + i) =
      g.sideward * g.height + h.sideward * h.crossed i := by
  rw [parts.crossed_second upright within, Int.natCast_add, Int.mul_add]
  rcases Nat.eq_zero_or_pos f.height with level | tilted
  · have low := upright.crossed_le within
    have height := parts.height
    rw [show h.crossed i = 0 by omega, show g.height = 0 by omega]
    simp only [Int.natCast_zero, Int.mul_zero]
  · rw [(parts.sideward tilted).1, (parts.sideward tilted).2]

variable {qs rs : List Point}

/-- The points of both parts, of which the joint is taken once, run as those of the whole. -/
theorem course (parts : Parts f g h) (upright : g.Upright) (upright' : h.Upright)
    (first : g.Course a q qs) (second : h.Course q b rs) : f.Course a b (qs ++ rs.tail) := by
  have width := parts.width
  have long := parts.second
  have length := first.length
  have length' := second.length
  have joint := first.place first.finish
  rw [parts.steep.1, parts.onward.1, upright.crossed_width] at joint
  refine ⟨by rw [List.length_append, List.length_tail]; omega, ?_, ?_⟩
  · intro i p at_i
    rw [List.getElem?_append] at at_i
    split at at_i
    · have place := first.place at_i
      rwa [parts.steep.1, parts.onward.1,
        ← parts.across_first upright (show i ≤ g.width by omega)] at place
    · rw [List.getElem?_tail] at at_i
      obtain ⟨k, index⟩ : ∃ k, i = g.width + k := ⟨i - g.width, by omega⟩
      rw [show i - qs.length + 1 = k by omega] at at_i
      have place := second.place at_i
      rw [parts.steep.2, parts.onward.2, joint.1, joint.2] at place
      rw [index, parts.across_second upright' (second.within at_i), place.1, place.2]
      push_cast
      constructor <;> ring
  · rw [List.getElem?_append_right (by omega), List.getElem?_tail,
      show f.width - qs.length + 1 = h.width by omega]
    exact second.finish

end Parts

theorem parts_between (on : q.OnSegment a b) (start : a ≠ q) (finish : q ≠ b) :
    Parts (between a b) (between a q) (between q b) := by
  -- Were the ends the same point, nothing else would lie between them.
  have apart : a ≠ b := by
    rintro rfl
    obtain ⟨-, x, y⟩ := on
    exact start (Point.coordinates_injective (Prod.ext (show a.x.toInt = q.x.toInt by omega)
      (show a.y.toInt = q.y.toInt by omega)))
  have straight := on.straight
  have steep : (between a q).steep = (between a b).steep ∧
      (between q b).steep = (between a b).steep := by
    simp only [between_steep]
    exact ⟨isSteep_parallel apart start straight,
      isSteep_parallel apart finish (by linear_combination -straight)⟩
  obtain ⟨far, high⟩ := finish_between a b
  obtain ⟨farFirst, highFirst⟩ := finish_between a q
  obtain ⟨farSecond, highSecond⟩ := finish_between q b
  rw [steep.1] at farFirst highFirst
  rw [steep.2] at farSecond highSecond
  obtain ⟨along, major, minor⟩ := on.axes (between a b).steep
  obtain ⟨width, onward, onward'⟩ := ways_add (onward_eq _) (onward_eq _) (onward_eq _)
    far farFirst farSecond major
  obtain ⟨height, sideward, sideward'⟩ := ways_add (sideward_eq _) (sideward_eq _) (sideward_eq _)
    high highFirst highSecond minor
  have slope : (between a b).width * (between a q).height =
      (between a q).width * (between a b).height := by
    have sizes := congrArg Int.natAbs along
    rw [Int.natAbs_mul, Int.natAbs_mul, natAbs_way (onward_eq _) far,
      natAbs_way (onward_eq _) farFirst, natAbs_way (sideward_eq _) high,
      natAbs_way (sideward_eq _) highFirst] at sizes
    rw [sizes, Nat.mul_comm]
  have slope' : (between a b).width * (between q b).height =
      (between q b).width * (between a b).height := slope_rest width height slope
  have tilts {n n' : Nat} (same : (between a b).width * n' = n * (between a b).height)
      (long : 0 < n) (tilted : 0 < (between a b).height) : 0 < n' :=
    Nat.pos_of_mul_pos_left (same ▸ Nat.mul_pos long tilted)
  exact ⟨width_pos start, width_pos finish, width, height, ⟨slope, slope'⟩, steep,
    ⟨onward (width_pos start), onward' (width_pos finish)⟩, fun tilted =>
      ⟨sideward (tilts slope (width_pos start) tilted),
        sideward' (tilts slope' (width_pos finish) tilted)⟩⟩

end Frame

theorem Line.points_self (a : Point) : points a a = [a] := by
  have single := Frame.length_listed (Frame.between a a)
  have head := Frame.head_listed a a
  rw [Frame.width_self] at single
  rw [points_eq_listed]
  obtain ⟨p, only⟩ := List.length_eq_one_iff.1 single
  rw [only] at head ⊢
  rw [Option.some.inj head]

/-- A segment is drawn as its two parts are drawn, wherever on it the grid lets it be cut:
over every column the three make the same choice of a height. -/
theorem points_split (a b q : Point) (on : q.OnSegment a b) :
    Line.points a b = Line.points a q ++ (Line.points q b).tail := by
  by_cases start : a = q
  -- A part that is a single point adds nothing but the point where the parts are joined.
  · subst start
    have head := Frame.head_listed a b
    rw [← Line.points_eq_listed] at head
    rw [Line.points_self, List.singleton_append]
    exact (List.cons_head?_tail head).symm
  · by_cases finish : q = b
    · rw [finish, Line.points_self, List.tail_cons, List.append_nil]
    · have parts := Frame.parts_between on start finish
      exact (Frame.course_points a b).unique (parts.course (Frame.upright_between a q)
        (Frame.upright_between q b) (Frame.course_points a q) (Frame.course_points q b))

/-- Of the whole and of either part the ideal line passes half-way between two grid points,
and all are drawn from right to left. -/
theorem points_split_half_way :
    (⟨2, -1⟩ : Point).OnSegment ⟨6, -3⟩ ⟨-2, 1⟩ ∧
      Line.points ⟨6, -3⟩ ⟨-2, 1⟩ =
        Line.points ⟨6, -3⟩ ⟨2, -1⟩ ++ (Line.points ⟨2, -1⟩ ⟨-2, 1⟩).tail := by
  have on : (⟨2, -1⟩ : Point).OnSegment ⟨6, -3⟩ ⟨-2, 1⟩ :=
    ⟨by decide, by decide, by decide⟩
  exact ⟨on, points_split ⟨6, -3⟩ ⟨-2, 1⟩ ⟨2, -1⟩ on⟩

end LinesAndLists
