import LinesAndLists.Proofs.Splitting
import Mathlib.Algebra.Group.Nat.Even
import Mathlib.Data.Nat.GCD.Basic

/-! Half turns about the middle of a segment. They exchange its ends and take its points to
its points, in the other order, unless it passes half-way between two heights of the grid:
there the same height is chosen from either side, and a half turn would choose the other. -/
namespace LinesAndLists

/-- The half turn about the middle of `a` and `b` takes `p` to `q`. -/
structure Point.Opposite (a b p q : Point) : Prop where
  x : q.x.toInt = a.x.toInt + b.x.toInt - p.x.toInt
  y : q.y.toInt = a.y.toInt + b.y.toInt - p.y.toInt

/-- Where its longer axis is at `u`, a number of the grid, the segment is in the middle
between `w` and `w + 1` on the other axis. -/
def Point.PassesHalfWay (a b : Point) : Prop :=
  let tall : Bool := axisDistance b.y a.y > axisDistance b.x a.x
  ∃ u w : Int, (min (a.major tall) (b.major tall) ≤ u ∧ u ≤ max (a.major tall) (b.major tall)) ∧
    (b.major tall - a.major tall) * (2 * (w - a.minor tall) + 1) =
      (b.minor tall - a.minor tall) * (2 * (u - a.major tall))

/-- In the column `k`, a segment `m` high and `D` wide is half-way between two heights. -/
def HalfWay (D m k : Nat) : Prop := ∃ j : Int, (D : Int) * (2 * j + 1) = m * (2 * k)

section HalfWay

variable {D m k : Nat}

theorem halfWay_iff (wide : 0 < D) :
    HalfWay D m k ↔ (D : Int) * (2 * nearest D m k + 1) = m * (2 * k) := by
  constructor
  · rintro ⟨j, tie⟩
    have chosen : j = nearest D m k := (eq_nearest_iff wide).2 ⟨by linarith, by linarith⟩
    rwa [← chosen]
  · exact fun tie => ⟨_, tie⟩

theorem halfWay_turned {way : Int} (unit : way = 1 ∨ way = -1) :
    HalfWay D m k ↔ ∃ v : Int, (D : Int) * (2 * v + 1) = way * m * (2 * k) := by
  rcases unit with rfl | rfl
  · rw [Int.one_mul]
    exact Iff.rfl
  · constructor
    · rintro ⟨j, tie⟩
      exact ⟨-j - 1, by linear_combination -tie⟩
    · rintro ⟨v, tie⟩
      exact ⟨-v - 1, by linear_combination -tie⟩

/-- Seen from its other end the segment is as far from the heights there as from those here,
but on the other side of them. -/
theorem nearest_opposite_iff (wide : 0 < D) (within : k ≤ D) :
    nearest D m k + nearest D m (D - k) = m ↔ ¬ HalfWay D m k := by
  obtain ⟨low, high⟩ := (@eq_nearest_iff D m k wide _).1 rfl
  have turned : nearest D m k + nearest D m (D - k) = m ↔
      (m - nearest D m k : Int) = nearest D m (D - k) := by omega
  rw [turned, eq_nearest_iff wide, halfWay_iff wide]
  push_cast [within]
  have off : (D : Int) * (m - nearest D m k) - (D - k) * m =
      -(D * nearest D m k - k * m) := by ring
  rw [off]
  constructor
  · rintro ⟨-, above⟩ tie
    linarith
  · intro apart
    refine ⟨by linarith, ?_⟩
    by_contra below
    exact apart (by linarith)

theorem exists_halfWay_iff (wide : 0 < D) :
    (∃ k ≤ D, HalfWay D m k) ↔ Even (D / Nat.gcd D m) := by
  have common : 0 < Nat.gcd D m := Nat.gcd_pos_of_pos_left m wide
  -- The ratio `D : m` is reduced to `d : e`; then half of `d` columns is the first place for a tie.
  obtain ⟨d, e, coprime, width, height⟩ := Nat.exists_coprime D m
  have reduced : D / Nat.gcd D m = d := Nat.div_eq_of_eq_mul_left common width
  have cancel (j k : Nat) : D * (2 * j + 1) = m * (2 * k) ↔ d * (2 * j + 1) = e * (2 * k) := by
    have scaled (n : Nat) : D * n = Nat.gcd D m * (d * n) := by
      rw [← Nat.mul_assoc, Nat.mul_comm _ d, ← width]
    have scaled' (n : Nat) : m * n = Nat.gcd D m * (e * n) := by
      rw [← Nat.mul_assoc, Nat.mul_comm _ e, ← height]
    rw [scaled, scaled', Nat.mul_right_inj common.ne']
  rw [reduced]
  constructor
  · rintro ⟨k, -, tie⟩
    have tie : D * (2 * nearest D m k + 1) = m * (2 * k) := by
      exact_mod_cast (halfWay_iff wide).1 tie
    have product : Even (d * (2 * nearest D m k + 1)) :=
      (cancel _ k).1 tie ▸ (even_two_mul k).mul_left e
    exact (Nat.even_mul.1 product).resolve_right (Nat.not_even_two_mul_add_one _)
  · rintro ⟨k, half⟩
    -- If `d` is even, `e` is not, or they would have a common factor.
    have odd : Odd e := by
      by_contra even
      have both := Nat.dvd_gcd (show 2 ∣ d by omega) (Nat.not_odd_iff_even.1 even).two_dvd
      rw [coprime] at both
      omega
    obtain ⟨j, odd⟩ := odd
    have tie : D * (2 * j + 1) = m * (2 * k) := (cancel j k).2 (by rw [half, odd]; ring)
    have within : k ≤ D := by
      have most : d ≤ D := Nat.le_of_dvd wide (Dvd.intro _ width.symm)
      omega
    exact ⟨k, within, j, by exact_mod_cast tie⟩

end HalfWay

theorem exists_column {way u v : Int} {n : Nat} (unit : way = 1 ∨ way = -1)
    (between : min u (u + way * n) ≤ v ∧ v ≤ max u (u + way * n)) :
    ∃ k ≤ n, v = u + way * (k : Nat) := by
  refine ⟨(v - u).natAbs, ?_, ?_⟩ <;> rcases unit with rfl | rfl <;> omega

namespace Point

variable {a b p q : Point}

theorem opposite_iff_axes (tall : Bool) : Opposite a b p q ↔
    q.major tall = a.major tall + b.major tall - p.major tall ∧
      q.minor tall = a.minor tall + b.minor tall - p.minor tall := by
  cases tall with
  | false => exact ⟨fun ⟨x, y⟩ => ⟨x, y⟩, fun ⟨x, y⟩ => ⟨x, y⟩⟩
  | true => exact ⟨fun ⟨x, y⟩ => ⟨y, x⟩, fun ⟨y, x⟩ => ⟨x, y⟩⟩

end Point

namespace Frame

variable {f : Frame} {i : Nat} {a b p q : Point} {ps : List Point}

theorem Upright.crossed_opposite_iff (upright : f.Upright) (within : i ≤ f.width) :
    f.crossed i + f.crossed (f.width - i) = f.height ↔
      nearest f.width f.height i + nearest f.width f.height (f.width - i) = f.height := by
  have here := upright.nearest_le within
  have there := upright.nearest_le (Nat.sub_le f.width i)
  simp only [crossed, Nat.sub_sub_self within]
  split <;> omega

theorem Course.exists_at (course : f.Course a b ps) (within : i ≤ f.width) :
    ∃ p, ps[i]? = some p :=
  ⟨_, List.getElem?_eq_getElem (course.length ▸ Nat.lt_succ_of_le within)⟩

theorem Course.opposite_iff (course : f.Course a b ps) (upright : f.Upright) (wide : 0 < f.width)
    (within : i ≤ f.width) (at_i : ps[i]? = some p) (far : ps[f.width - i]? = some q) :
    Point.Opposite a b p q ↔ ¬ HalfWay f.width f.height i := by
  obtain ⟨majorP, minorP⟩ := course.place at_i
  obtain ⟨majorQ, minorQ⟩ := course.place far
  obtain ⟨majorB, minorB⟩ := course.place course.finish
  rw [upright.crossed_width] at minorB
  rw [← nearest_opposite_iff wide within, ← upright.crossed_opposite_iff within,
    Point.opposite_iff_axes f.steep, majorP, majorQ, majorB, minorP, minorQ, minorB]
  push_cast [within]
  -- Along the frame two such points always match; the heights decide.
  constructor
  · rintro ⟨-, across⟩
    rcases f.sideward_eq with up | down
    · rw [up] at across
      omega
    · rw [down] at across
      omega
  · intro whole
    rw [← whole]
    push_cast
    constructor <;> ring

theorem Course.balanced_iff (course : f.Course a b ps) (upright : f.Upright) (wide : 0 < f.width) :
    (∀ i ≤ f.width, ∃ p q, ps[i]? = some p ∧ ps[f.width - i]? = some q ∧
        Point.Opposite a b p q) ↔
      ¬ ∃ k ≤ f.width, HalfWay f.width f.height k := by
  simp only [not_exists, not_and]
  refine forall₂_congr fun i within => ?_
  obtain ⟨p, at_i⟩ := course.exists_at within
  obtain ⟨q, far⟩ := course.exists_at (Nat.sub_le f.width i)
  rw [← course.opposite_iff upright wide within at_i far]
  constructor
  · rintro ⟨p', q', at_i', far', opposite⟩
    cases at_i.symm.trans at_i'
    cases far.symm.trans far'
    exact opposite
  · exact fun opposite => ⟨p, q, at_i, far, opposite⟩

theorem passesHalfWay_iff (a b : Point) : Point.PassesHalfWay a b ↔
    ∃ k ≤ (between a b).width, HalfWay (between a b).width (between a b).height k := by
  obtain ⟨far, high⟩ := finish_between a b
  have forth := onward_eq (between a b)
  simp only [halfWay_turned (sideward_eq (between a b))]
  rw [between_steep, isSteep] at far high
  rw [Point.PassesHalfWay, far, high]
  generalize decide (Point.axisDistance b.y a.y > Point.axisDistance b.x a.x) = tall
  constructor
  · rintro ⟨u, w, between, tie⟩
    obtain ⟨k, within, column⟩ := exists_column forth between
    refine ⟨k, within, w - a.minor tall, ?_⟩
    rw [column] at tie
    rcases forth with on | back
    · rw [on] at tie
      linear_combination tie
    · rw [back] at tie
      linear_combination -tie
  · rintro ⟨k, within, v, tie⟩
    refine ⟨a.major tall + (between a b).onward * k, a.minor tall + v, ?_, ?_⟩
    · rcases forth with on | back
      · rw [on]
        omega
      · rw [back]
        omega
    · linear_combination (between a b).onward * tie

end Frame

/-- A line is its own image under the half turn that exchanges its ends if its width has no
more factors of two than its height, and otherwise it passes half-way between two points of
the grid. -/
theorem points_opposite_iff (a b : Point) (apart : a ≠ b) :
    let dx := Point.axisDistance b.x a.x
    let dy := Point.axisDistance b.y a.y
    let D := max dx dy
    let ps := Line.points a b
    let balanced := ∀ i ≤ D, ∃ p q, ps[i]? = some p ∧ ps[D - i]? = some q ∧
      Point.Opposite a b p q
    ps.length = D + 1 ∧ (balanced ↔ Odd (D / Nat.gcd dx dy)) ∧
      (¬ balanced ↔ Point.PassesHalfWay a b) := by
  intro dx dy D ps balanced
  have upright := Frame.upright_between a b
  have course := Frame.course_points a b
  have wide := Frame.width_pos apart
  have width : (Frame.between a b).width = D := Frame.width_between a b
  have height : (Frame.between a b).height = min dx dy := Frame.height_between a b
  have common : Nat.gcd D (min dx dy) = Nat.gcd dx dy := by
    rcases Nat.le_total dx dy with le | le
    · rw [Nat.min_eq_left le, Nat.gcd_comm, show D = dy from Nat.max_eq_right le]
    · rw [Nat.min_eq_right le, show D = dx from Nat.max_eq_left le]
  have ties : balanced ↔ ¬ ∃ k ≤ D, HalfWay D (min dx dy) k := by
    have every := course.balanced_iff upright wide
    rwa [width, height] at every
  refine ⟨course.length.trans (congrArg (· + 1) width), ?_, ?_⟩
  · rw [ties, exists_halfWay_iff (width ▸ wide), common, Nat.not_even_iff_odd]
  · rw [ties, not_not, Frame.passesHalfWay_iff, width, height]

/-- Both segments are tall. The first consists of two that are three high each, and the
second, four high and one wide, is half-way between two points where it is half-way down. -/
theorem points_opposite_iff_spans :
    (⟨1, -2⟩ : Point) ≠ ⟨5, 4⟩ ∧
      (∀ i ≤ 6, ∃ p q, (Line.points ⟨1, -2⟩ ⟨5, 4⟩)[i]? = some p ∧
        (Line.points ⟨1, -2⟩ ⟨5, 4⟩)[6 - i]? = some q ∧ Point.Opposite ⟨1, -2⟩ ⟨5, 4⟩ p q) ∧
      (⟨0, 2⟩ : Point) ≠ ⟨-1, -2⟩ ∧ Point.PassesHalfWay ⟨0, 2⟩ ⟨-1, -2⟩ := by
  have apart : (⟨1, -2⟩ : Point) ≠ ⟨5, 4⟩ := by decide
  have apart' : (⟨0, 2⟩ : Point) ≠ ⟨-1, -2⟩ := by decide
  obtain ⟨-, odd, -⟩ := points_opposite_iff ⟨1, -2⟩ ⟨5, 4⟩ apart
  obtain ⟨-, odd', passes⟩ := points_opposite_iff ⟨0, 2⟩ ⟨-1, -2⟩ apart'
  exact ⟨apart, odd.2 (by decide +kernel), apart', passes.1 (mt odd'.1 (by decide +kernel))⟩

end LinesAndLists
