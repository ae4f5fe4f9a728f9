import LinesAndLists.Proofs.Splitting
import Mathlib.Data.List.Forall2

/-! Lines under the symmetries of the grid. Which points a line consists of depends only on
how far its finish lies from its start along the longer and along the shorter axis: if two
segments agree in this, their lines agree point by point. The direction along the longer axis
has to be the same, since halves are rounded towards the left end; the direction across it
makes no difference. -/
namespace LinesAndLists

/-- The reflection in the longer axis of a segment. It turns x round if the segment is tall,
and y otherwise. -/
def flipped (tall : Bool) (p : Int × Int) : Int × Int := if tall then (-p.1, p.2) else (p.1, -p.2)

theorem sign_way {way u w : Int} {n i : Nat} (unit : way = 1 ∨ way = -1) (whole : w = u + way * n)
    (within : i ≤ n) : (w - u).sign * i = way * i := by
  rcases Nat.eq_zero_or_pos n with still | moving
  -- A way without steps has no sign.
  · rw [show i = 0 by omega, Int.natCast_zero, Int.mul_zero, Int.mul_zero]
  · rcases unit with rfl | rfl
    · rw [Int.sign_eq_one_of_pos (by omega)]
    · rw [Int.sign_eq_neg_one_of_neg (by omega)]

/-- Seen from `a'` the point `p'` is where `p` is seen from `a`, apart from the direction
across the longer axes. -/
@[mk_iff]
structure Point.Corresponds (tall tall' : Bool) (way : Int) (a a' p p' : Point) : Prop where
  major : p'.major tall' - a'.major tall' = p.major tall - a.major tall
  minor : p'.minor tall' - a'.minor tall' = way * (p.minor tall - a.minor tall)

namespace Frame

variable {f g : Frame} {i : Nat} {a b a' b' p p' : Point} {ps qs : List Point}
  {way : Int}

theorem reversed_between (a b : Point) :
    (between a b).reversed = true ↔ b.major (isSteep a b) < a.major (isSteep a b) := by
  have along (p : Point) : (turned (isSteep a b) p).x.toInt = p.major (isSteep a b) := by
    cases isSteep a b <;> rfl
  rw [between_eq_ordered, ← along a, ← along b]
  by_cases back : (turned (isSteep a b) b).x.toInt < (turned (isSteep a b) a).x.toInt
  · simp only [ordered_of_lt back, back]
  · simp only [ordered_of_le (Int.not_lt.1 back), back, Bool.false_eq_true]

theorem Course.place_between (course : (between a b).Course a b ps) (at_i : ps[i]? = some p) :
    let f := between a b
    let tall := isSteep a b
    p.major tall = a.major tall + (b.major tall - a.major tall).sign * i ∧
      p.minor tall = a.minor tall + (b.minor tall - a.minor tall).sign * f.crossed i := by
  have within := course.within at_i
  have across := (upright_between a b).crossed_le within
  obtain ⟨far, high⟩ := finish_between a b
  obtain ⟨major, minor⟩ := course.place at_i
  rw [← between_steep]
  dsimp only
  rw [major, minor, sign_way (onward_eq _) far within, sign_way (sideward_eq _) high across]
  exact ⟨rfl, rfl⟩

/-- Frames of the same size, in which a line starts at the same end. -/
structure Alike (f g : Frame) : Prop where
  width : g.width = f.width
  height : g.height = f.height
  reversed : g.reversed = f.reversed

theorem Alike.crossed (alike : Alike f g) (i : Nat) : g.crossed i = f.crossed i := by
  simp only [Frame.crossed, alike.width, alike.height, alike.reversed]

theorem alike_between (unit : way = 1 ∨ way = -1)
    (finish : Point.Corresponds (isSteep a b) (isSteep a' b') way a a' b b') :
    Alike (between a b) (between a' b') := by
  obtain ⟨far, high⟩ := finish_between a b
  obtain ⟨far', high'⟩ := finish_between a' b'
  have width := natAbs_way (onward_eq _) far
  have width' := natAbs_way (onward_eq _) far'
  have height := natAbs_way (sideward_eq _) high
  have height' := natAbs_way (sideward_eq _) high'
  rw [between_steep] at width width' height height'
  obtain ⟨major, minor⟩ := finish
  refine ⟨by rw [← width, ← width', major], ?_, ?_⟩
  · have same : way.natAbs = 1 := by rcases unit with rfl | rfl <;> rfl
    rw [← height, ← height', minor, Int.natAbs_mul, same, Nat.one_mul]
  · rw [Bool.eq_iff_iff, reversed_between, reversed_between]
    omega

theorem Course.forall₂ {R : Point → Point → Prop} (course : f.Course a b ps)
    (course' : g.Course a' b' qs) (width : g.width = f.width)
    (each : ∀ {i : Nat} {p q : Point}, ps[i]? = some p → qs[i]? = some q → R p q) :
    List.Forall₂ R ps qs := by
  refine List.forall₂_iff_get.2 ⟨?_, fun i inside inside' => ?_⟩
  · rw [course.length, course'.length, width]
  · exact each (List.getElem?_eq_getElem inside) (List.getElem?_eq_getElem inside')

theorem corresponds_points (unit : way = 1 ∨ way = -1)
    (finish : Point.Corresponds (isSteep a b) (isSteep a' b') way a a' b b') :
    List.Forall₂ (Point.Corresponds (isSteep a b) (isSteep a' b') way a a')
      (Line.points a b) (Line.points a' b') := by
  have alike := alike_between unit finish
  refine (course_points a b).forall₂ (course_points a' b') alike.width fun at_i at_i' => ?_
  obtain ⟨major, minor⟩ := (course_points a b).place_between at_i
  obtain ⟨major', minor'⟩ := (course_points a' b').place_between at_i'
  have sign : way.sign = way := by rcases unit with rfl | rfl <;> rfl
  rw [finish.major] at major'
  rw [finish.minor, Int.sign_mul, sign, alike.crossed] at minor'
  exact ⟨by rw [major, major']; ring, by rw [minor, minor']; ring⟩

theorem crossed_diagonal (square : f.height = f.width) (within : i ≤ f.width) :
    f.crossed i = i := by
  -- The height is a whole number over every column, and rounding leaves it alone.
  have straight {k : Nat} (inside : k ≤ f.width) : nearest f.width f.width k = k := by
    rcases Nat.eq_zero_or_pos f.width with narrow | wide
    · rw [show k = 0 by omega, nearest_zero]
    · rw [nearest, Nat.mul_comm, Nat.mul_add_div wide, Nat.div_eq_of_lt (by omega), Nat.add_zero]
  rw [crossed, square, straight (Nat.sub_le _ _), straight within]
  split <;> omega

end Frame

namespace Point

variable {tall : Bool} {v : Int × Int} {a a' p p' : Point}

theorem corresponds_shifted (start : a'.coordinates = a.coordinates + v) :
    Corresponds tall tall 1 a a' p p' ↔ p'.coordinates = p.coordinates + v := by
  obtain ⟨dx, dy⟩ := v
  cases tall with
  | false =>
    simp only [corresponds_iff, coordinates, major, minor, Bool.false_eq_true, if_false,
      Prod.mk_add_mk, Prod.mk.injEq] at start ⊢
    omega
  | true =>
    simp only [corresponds_iff, coordinates, major, minor, if_true, Prod.mk_add_mk,
      Prod.mk.injEq] at start ⊢
    omega

theorem corresponds_flipped (start : a'.coordinates = flipped tall a.coordinates) :
    Corresponds tall tall (-1) a a' p p' ↔ p'.coordinates = flipped tall p.coordinates := by
  cases tall with
  | false =>
    simp only [corresponds_iff, coordinates, flipped, major, minor, Bool.false_eq_true, if_false,
      Prod.mk.injEq] at start ⊢
    omega
  | true =>
    simp only [corresponds_iff, coordinates, flipped, major, minor, if_true,
      Prod.mk.injEq] at start ⊢
    omega

theorem corresponds_transposed :
    Corresponds tall (!tall) 1 a a.transpose p p' ↔ p'.coordinates = p.coordinates.swap := by
  cases tall with
  | false =>
    simp only [corresponds_iff, coordinates, transpose, major, minor, Bool.not_false,
      Bool.false_eq_true, if_true, if_false, Prod.swap_prod_mk, Prod.mk.injEq]
    omega
  | true =>
    simp only [corresponds_iff, coordinates, transpose, major, minor, Bool.not_true,
      Bool.false_eq_true, if_true, if_false, Prod.swap_prod_mk, Prod.mk.injEq]
    omega

end Point

namespace Frame

variable {a b a' b' : Point}

theorem isSteep_congr (x : Point.axisDistance b'.x a'.x = Point.axisDistance b.x a.x)
    (y : Point.axisDistance b'.y a'.y = Point.axisDistance b.y a.y) :
    isSteep a' b' = isSteep a b := by
  simp only [isSteep, x, y]

theorem isSteep_shifted {v : Int × Int} (start : a'.coordinates = a.coordinates + v)
    (finish : b'.coordinates = b.coordinates + v) : isSteep a' b' = isSteep a b := by
  obtain ⟨dx, dy⟩ := v
  simp only [Point.coordinates, Prod.mk_add_mk, Prod.mk.injEq] at start finish
  apply isSteep_congr <;> simp only [Point.axisDistance] <;> omega

theorem isSteep_flipped {tall : Bool} (start : a'.coordinates = flipped tall a.coordinates)
    (finish : b'.coordinates = flipped tall b.coordinates) : isSteep a' b' = isSteep a b := by
  cases tall with
  | false =>
    simp only [Point.coordinates, flipped, Bool.false_eq_true, if_false, Prod.mk.injEq]
      at start finish
    apply isSteep_congr <;> simp only [Point.axisDistance] <;> omega
  | true =>
    simp only [Point.coordinates, flipped, if_true, Prod.mk.injEq] at start finish
    apply isSteep_congr <;> simp only [Point.axisDistance] <;> omega

theorem isSteep_transpose
    (oblique : Point.axisDistance b.x a.x ≠ Point.axisDistance b.y a.y) :
    isSteep a.transpose b.transpose = !isSteep a b := by
  simp only [isSteep, Point.transpose, gt_iff_lt, ← decide_not, decide_eq_decide]
  omega

theorem square_between (square : Point.axisDistance b.x a.x = Point.axisDistance b.y a.y) :
    (between a b).height = (between a b).width := by
  rw [height_between, width_between, square, Nat.min_self, Nat.max_self]

/-- A diagonal may start at the left before and at the right after its axes were exchanged, but
there is nothing to round on it. Any other segment becomes tall, or is no longer tall. -/
theorem transposed_points (a b : Point) :
    List.Forall₂ (fun p p' => p'.coordinates = p.coordinates.swap) (Line.points a b)
      (Line.points a.transpose b.transpose) := by
  by_cases square : Point.axisDistance b.x a.x = Point.axisDistance b.y a.y
  · have flat : isSteep a b = false ∧ isSteep a.transpose b.transpose = false := by
      simp [isSteep, Point.transpose, square]
    have width : (between a.transpose b.transpose).width = (between a b).width := by
      rw [width_between, width_between, Point.transpose, Point.transpose, Nat.max_comm]
    have course := course_points a b
    have course' := course_points a.transpose b.transpose
    refine course.forall₂ course' width fun at_i at_i' => ?_
    obtain ⟨x, y⟩ := course.place_between at_i
    obtain ⟨x', y'⟩ := course'.place_between at_i'
    rw [crossed_diagonal (square_between square) (course.within at_i)] at y
    rw [crossed_diagonal (square_between square.symm) (course'.within at_i')] at y'
    simp only [flat, Point.major, Point.minor, Bool.false_eq_true, if_false] at x y x' y'
    exact Prod.ext (x'.trans y.symm) (y'.trans x.symm)
  -- No tie-break differs: the frame is the same up to the names of its axes.
  · have turns := isSteep_transpose square
    have finish : Point.Corresponds (isSteep a b) (isSteep a.transpose b.transpose) 1 a a.transpose
        b b.transpose := turns ▸ Point.corresponds_transposed.2 rfl
    refine (corresponds_points (.inl rfl) finish).imp fun p p' corresponds => ?_
    rw [turns] at corresponds
    exact Point.corresponds_transposed.1 corresponds

end Frame

theorem map_coordinates_of_forall₂ {σ : Int × Int → Int × Int} {ps qs : List Point}
    (same : List.Forall₂ (fun p q => q.coordinates = σ p.coordinates) ps qs) :
    qs.map Point.coordinates = ps.map fun p => σ p.coordinates := by
  induction same with
  | nil => rfl
  | cons here _ ih => rw [List.map_cons, List.map_cons, here, ih]

/-- Moving a segment, exchanging its axes or reflecting it in its longer axis does the same to
every point of its line, in the same order. -/
theorem points_symmetries (a b : Point) :
    let tall : Bool := Point.axisDistance b.y a.y > Point.axisDistance b.x a.x
    (∀ (v : Int × Int) (a' b' : Point),
      a'.coordinates = a.coordinates + v → b'.coordinates = b.coordinates + v →
        (Line.points a' b').map Point.coordinates =
          (Line.points a b).map fun p => p.coordinates + v) ∧
      Line.points a.transpose b.transpose = (Line.points a b).map Point.transpose ∧
      ∀ a' b' : Point, a'.coordinates = flipped tall a.coordinates →
        b'.coordinates = flipped tall b.coordinates →
          (Line.points a' b').map Point.coordinates =
            (Line.points a b).map fun p => flipped tall p.coordinates := by
  intro tall
  refine ⟨?_, ?_, ?_⟩
  · intro v a' b' start finish
    have steep : Frame.isSteep a' b' = tall := Frame.isSteep_shifted start finish
    have corresponds := @Frame.corresponds_points a b a' b' 1 (.inl rfl)
    rw [steep] at corresponds
    have points := corresponds ((Point.corresponds_shifted start).2 finish)
    exact map_coordinates_of_forall₂ (σ := (· + v))
      (points.imp fun p p' => (Point.corresponds_shifted start).1)
  · have same := map_coordinates_of_forall₂ (Frame.transposed_points a b)
    apply List.map_injective_iff.2 fun _ _ => Point.coordinates_injective
    rw [same, List.map_map]
    rfl
  · intro a' b' start finish
    have steep : Frame.isSteep a' b' = tall := Frame.isSteep_flipped start finish
    have corresponds := @Frame.corresponds_points a b a' b' (-1) (.inr rfl)
    rw [steep] at corresponds
    have points := corresponds ((Point.corresponds_flipped start).2 finish)
    exact map_coordinates_of_forall₂ (points.imp fun p p' => (Point.corresponds_flipped start).1)

/-- Both segments are tall. The first is moved into a corner of the grid, and the second starts
as far to the left as can still be reflected. -/
theorem points_symmetries_corner :
    let a : Point := ⟨3, -2⟩
    let b : Point := ⟨-1, 4⟩
    let v : Int × Int := (2147483644, -2147483646)
    let a' : Point := ⟨2147483647, -2147483648⟩
    let b' : Point := ⟨2147483643, -2147483642⟩
    let c : Point := ⟨-2147483647, 5⟩
    let d : Point := ⟨-2147483644, -1⟩
    let c' : Point := ⟨2147483647, 5⟩
    let d' : Point := ⟨2147483644, -1⟩
    a'.coordinates = a.coordinates + v ∧ b'.coordinates = b.coordinates + v ∧
      (Line.points a' b').map Point.coordinates =
        (Line.points a b).map (fun p => p.coordinates + v) ∧
      c'.coordinates = flipped true c.coordinates ∧
      d'.coordinates = flipped true d.coordinates ∧
      (Line.points c' d').map Point.coordinates =
        (Line.points c d).map fun p => flipped true p.coordinates := by
  intro a b v a' b' c d c' d'
  have start : a'.coordinates = a.coordinates + v := by decide
  have finish : b'.coordinates = b.coordinates + v := by decide
  have start' : c'.coordinates = flipped true c.coordinates := by decide
  have finish' : d'.coordinates = flipped true d.coordinates := by decide
  exact ⟨start, finish, (points_symmetries a b).1 v a' b' start finish, start', finish',
    (points_symmetries c d).2.2 c' d' start' finish'⟩

end LinesAndLists
