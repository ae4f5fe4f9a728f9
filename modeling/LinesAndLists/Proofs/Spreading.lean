import LinesAndLists.Proofs.Mirroring
import Mathlib.Data.List.Chain

/-! The shape of a line. Along its wider axis it moves by one from point to point, and now
and then it moves along the other axis as well, always towards its finish. How far it has
come across after a number of points is a rounded multiple of that number, so the moves
across are spread as evenly as whole moves can be. -/
namespace LinesAndLists

namespace Point

/-- The coordinate along the axis that a segment spans further, which is y if it is tall. -/
def major (tall : Bool) (p : Point) : Int := if tall then p.y.toInt else p.x.toInt

def minor (tall : Bool) (p : Point) : Int := if tall then p.x.toInt else p.y.toInt

end Point

/-- A move by one, after which one less is left to the goal. -/
def Approaches (goal u v : Int) : Prop :=
  (v - u).natAbs = 1 ∧ (goal - v).natAbs + 1 = (goal - u).natAbs

/-- Moving from `u` to `v` does not lead back on the way from `start` to `finish`. -/
def Onward (start finish u v : Int) : Prop :=
  (start ≤ finish → u ≤ v) ∧ (finish ≤ start → v ≤ u)

section Ways

variable {way : Int} {u v goal : Nat}

theorem approaches_of_unit (unit : way = 1 ∨ way = -1) (start : Int) (before : u + 1 ≤ goal) :
    Approaches (start + way * goal) (start + way * u) (start + way * (u + 1 : Nat)) := by
  rcases unit with rfl | rfl
  · constructor <;> omega
  · constructor <;> omega

theorem onward_of_unit (unit : way = 1 ∨ way = -1) (start : Int) (le : u ≤ v) (before : v ≤ goal) :
    Onward start (start + way * goal) (start + way * u) (start + way * v) := by
  rcases unit with rfl | rfl
  · constructor <;> omega
  · constructor <;> omega

end Ways

namespace Point

variable {tall : Bool} {a b p q : Point}

theorem near_of_moves (along : Approaches (b.major tall) (p.major tall) (q.major tall))
    (across : q.minor tall = p.minor tall ∨
      Approaches (b.minor tall) (p.minor tall) (q.minor tall)) :
    (q.x.toInt - p.x.toInt).natAbs ≤ 1 ∧ (q.y.toInt - p.y.toInt).natAbs ≤ 1 := by
  cases tall <;>
    simp only [Approaches, major, minor, Bool.false_eq_true, if_true, if_false] at * <;> omega

theorem onward_of_moves
    (onward : Onward (a.major tall) (b.major tall) (p.major tall) (q.major tall) ∧
      Onward (a.minor tall) (b.minor tall) (p.minor tall) (q.minor tall)) :
    Onward a.x.toInt b.x.toInt p.x.toInt q.x.toInt ∧
      Onward a.y.toInt b.y.toInt p.y.toInt q.y.toInt := by
  cases tall with
  | false => exact onward
  | true => exact onward.symm

end Point

/-- How often neighbours in a list differ. -/
def changes : List Int → Nat
  | u :: v :: rest => (if u = v then 0 else 1) + changes (v :: rest)
  | _ => 0

theorem changes_take_one (us : List Int) : changes (us.take 1) = 0 := by
  cases us <;> rfl

theorem changes_take_succ {us : List Int} {i n : Nat} (more : i + 1 < us.length) :
    changes ((us.drop i).take (n + 1 + 1)) =
      (if us[i] = us[i + 1] then 0 else 1) + changes ((us.drop (i + 1)).take (n + 1)) := by
  rw [List.drop_eq_getElem_cons (Nat.lt_of_succ_lt more), List.drop_eq_getElem_cons more]
  rfl

section Nearest

variable {D m i k : Nat}

theorem nearest_width (flat : m ≤ D) : nearest D m D = m := by
  rcases Nat.eq_zero_or_pos D with rfl | wide
  · rw [Nat.le_zero.1 flat]
    rfl
  · rw [nearest, Nat.mul_add_div wide, Nat.div_eq_of_lt (by omega), Nat.add_zero]

theorem nearest_mono (le : i ≤ k) : nearest D m i ≤ nearest D m k :=
  Nat.div_le_div_right (Nat.add_le_add_right (Nat.mul_le_mul_right m le) _)

theorem nearest_spread (wide : 0 < D) (i k : Nat) :
    |(D : Int) * (nearest D m k - nearest D m i) - (k - i) * m| < D := by
  -- A height is at or below the slope raised by a half, and by less than one.
  have off (k : Nat) : (D : Int) * nearest D m k ≤ k * m + ((D - 1) / 2 : Nat) ∧
      k * m + ((D - 1) / 2 : Nat) < (D : Int) * nearest D m k + D := by
    constructor
    · exact_mod_cast Nat.mul_div_le (k * m + (D - 1) / 2) D
    · exact_mod_cast Nat.lt_mul_div_succ (k * m + (D - 1) / 2) wide
  have here := off i
  have there := off k
  rw [Int.mul_sub, Int.sub_mul, abs_lt]
  constructor <;> omega

end Nearest

namespace Frame

variable {f : Frame} {i k : Nat}

/-- How far a line has come across its frame after `i` moves. -/
def crossed (f : Frame) (i : Nat) : Nat :=
  if f.reversed then f.height - nearest f.width f.height (f.width - i)
  else nearest f.width f.height i

def onward (f : Frame) : Int := if f.reversed then -1 else 1

def sideward (f : Frame) : Int := f.onward * if f.y1.toInt < f.y2.toInt then 1 else -1

theorem Upright.height_le (upright : f.Upright) : f.height ≤ f.width := by
  have width := upright.width_eq
  have flat := upright.flat
  rw [upright.slope_value] at width
  simp only [height] at *
  omega

theorem onward_eq (f : Frame) : f.onward = 1 ∨ f.onward = -1 := by
  cases reversed : f.reversed <;> simp [onward, reversed]

theorem sideward_eq (f : Frame) : f.sideward = 1 ∨ f.sideward = -1 := by
  rcases f.onward_eq with on | back
  · simp only [sideward, on]
    split <;> simp
  · simp only [sideward, back]
    split <;> simp

theorem Upright.nearest_le (upright : f.Upright) (within : i ≤ f.width) :
    nearest f.width f.height i ≤ f.height := by
  have most := nearest_mono (D := f.width) (m := f.height) within
  rwa [nearest_width upright.height_le] at most

theorem crossed_mono (le : i ≤ k) : f.crossed i ≤ f.crossed k := by
  simp only [crossed]
  split
  · exact Nat.sub_le_sub_left (nearest_mono (Nat.sub_le_sub_left le _)) _
  · exact nearest_mono le

theorem Upright.crossed_spread (upright : f.Upright) (wide : 0 < f.width) (le : i ≤ k)
    (within : k ≤ f.width) :
    |(f.width : Int) * (f.crossed k - f.crossed i) - (k - i) * f.height| < f.width := by
  cases reversed : f.reversed with
  | false => simpa [crossed, reversed] using nearest_spread wide i k
  | true =>
    have spread := nearest_spread (m := f.height) wide (f.width - k) (f.width - i)
    have first := upright.nearest_le (Nat.sub_le f.width i)
    have last := upright.nearest_le (Nat.sub_le f.width k)
    simp only [crossed, reversed, if_true]
    push_cast [first, last, within, le.trans within] at spread ⊢
    convert spread using 2
    ring

theorem Upright.crossed_succ (upright : f.Upright) (within : i < f.width) :
    f.crossed (i + 1) = f.crossed i ∨ f.crossed (i + 1) = f.crossed i + 1 := by
  have grown := crossed_mono (f := f) (Nat.le_add_right i 1)
  have flat := upright.height_le
  have spread :=
    (abs_lt.1 (upright.crossed_spread (by omega) (Nat.le_add_right i 1) within)).2
  have once : ((i + 1 : Nat) - i : Int) * f.height = f.height := by
    push_cast
    ring
  rw [once] at spread
  -- Two at once would be a full move more than the slope asks for.
  by_contra more
  have twice : (f.width : Int) * 2 ≤ f.width * (f.crossed (i + 1) - f.crossed i) :=
    Int.mul_le_mul_of_nonneg_left (by omega) (Int.natCast_nonneg _)
  omega

theorem major_of_place {p : Point} {x y : Int} (place : p.coordinates = f.place x y) :
    p.major f.steep = x ∧ p.minor f.steep = y := by
  cases steep : f.steep with
  | false =>
    rw [Frame.place, steep, if_neg Bool.false_ne_true] at place
    exact Prod.mk.inj place
  | true =>
    rw [Frame.place, steep, if_pos rfl] at place
    exact (Prod.mk.inj place).symm

theorem getElem?_listed {p : Point} (at_i : f.listed[i]? = some p) :
    i ≤ f.width ∧ p = f.pointOver (if f.reversed then f.width - i else i : Nat) := by
  have within : i ≤ f.width := by
    have bound := (List.getElem?_eq_some_iff.1 at_i).1
    rw [length_listed] at bound
    omega
  have column (k : Nat) (inside : k ≤ f.width) : (f.window 0 0)[k]? = some (f.pointOver k) := by
    rw [window, List.getElem?_map, List.getElem?_range' (by omega)]
    simp
  have length : (f.window 0 0).length = f.width + 1 := by simp [window]
  refine ⟨within, ?_⟩
  cases reversed : f.reversed with
  | false =>
    rw [listed, reversed, if_neg Bool.false_ne_true, column i within] at at_i
    exact (Option.some.inj at_i).symm
  | true =>
    have index : (f.window 0 0).length - 1 - i = f.width - i := by omega
    rw [listed, reversed, if_pos rfl, List.getElem?_reverse (by omega), index,
      column _ (Nat.sub_le _ _)] at at_i
    exact (Option.some.inj at_i).symm

/-- Points on the way from `a` to `b`: each is one further along the frame than the one
before it, and as far across it as `crossed` says. -/
structure Course (f : Frame) (a b : Point) (ps : List Point) : Prop where
  length : ps.length = f.width + 1
  place : ∀ {i : Nat} {p : Point}, ps[i]? = some p →
    p.major f.steep = a.major f.steep + f.onward * i ∧
      p.minor f.steep = a.minor f.steep + f.sideward * f.crossed i
  finish : ps[f.width]? = some b

theorem place_listed {a b p : Point} (frame : f = between a b) (at_i : f.listed[i]? = some p) :
    p.major f.steep = a.major f.steep + f.onward * i ∧
      p.minor f.steep = a.minor f.steep + f.sideward * f.crossed i := by
  have upright : f.Upright := frame ▸ upright_between a b
  have ends := ends_between a b
  rw [← frame] at ends
  obtain ⟨within, column⟩ := getElem?_listed at_i
  have placed (k : Nat) (inside : k ≤ f.width) (here : p = f.pointOver k) :=
    major_of_place (f := f) ((congrArg Point.coordinates here).trans
      ((coordinates_pointOver upright (Int.natCast_nonneg k) (by omega)).trans
        (upright.track_nearest k)))
  cases reversed : f.reversed with
  | false =>
    simp only [reversed, Bool.false_eq_true, if_false] at ends column
    obtain ⟨major, minor⟩ := placed i within column
    obtain ⟨left, low⟩ := major_of_place ends.1.symm
    rw [major, minor, left, low]
    simp [onward, sideward, crossed, reversed]
  | true =>
    simp only [reversed, if_true] at ends column
    obtain ⟨major, minor⟩ := placed (f.width - i) (Nat.sub_le _ _) column
    obtain ⟨right, high⟩ := major_of_place ends.2.symm
    have run := upright.width_eq
    have climb := upright.climb
    have most := upright.nearest_le (Nat.sub_le f.width i)
    rw [upright.slope_value] at run climb
    dsimp only at run climb
    rw [major, minor, right, high]
    simp only [onward, sideward, crossed, reversed, if_true]
    push_cast [within, most]
    constructor
    · linarith
    · -- Seen from the right end, the heights still to come are those not yet lost.
      have fall : f.y1.toInt = f.y2.toInt -
          (if f.y1.toInt < f.y2.toInt then 1 else -1) * (f.height : Int) := by
        rw [height]
        linarith
      linarith

theorem course_points (a b : Point) : (between a b).Course a b (Line.points a b) := by
  have length := length_listed (between a b)
  have finish := getLast_listed a b
  rw [List.getLast?_eq_getElem?, length, Nat.add_sub_cancel] at finish
  rw [Line.points_eq_listed]
  exact ⟨length, place_listed rfl, finish⟩

variable {a b p q : Point} {ps : List Point}

theorem Course.within (course : f.Course a b ps) (at_i : ps[i]? = some p) : i ≤ f.width := by
  have bound := (List.getElem?_eq_some_iff.1 at_i).1
  have length := course.length
  omega

theorem Course.move (course : f.Course a b ps) (upright : f.Upright) (at_i : ps[i]? = some p)
    (next : ps[i + 1]? = some q) :
    Approaches (b.major f.steep) (p.major f.steep) (q.major f.steep) ∧
      (q.minor f.steep = p.minor f.steep ∨
        Approaches (b.minor f.steep) (p.minor f.steep) (q.minor f.steep)) := by
  have within := course.within next
  have last := crossed_mono (f := f) within
  obtain ⟨majorP, minorP⟩ := course.place at_i
  obtain ⟨majorQ, minorQ⟩ := course.place next
  obtain ⟨majorB, minorB⟩ := course.place course.finish
  rw [majorP, majorQ, majorB, minorP, minorQ, minorB]
  refine ⟨approaches_of_unit f.onward_eq _ within, ?_⟩
  rcases upright.crossed_succ within with level | across
  · left
    rw [level]
  · right
    rw [across] at last ⊢
    exact approaches_of_unit f.sideward_eq _ last

theorem Course.moves (course : f.Course a b ps) (le : i ≤ k) (at_i : ps[i]? = some p)
    (at_k : ps[k]? = some q) :
    Onward (a.major f.steep) (b.major f.steep) (p.major f.steep) (q.major f.steep) ∧
      Onward (a.minor f.steep) (b.minor f.steep) (p.minor f.steep) (q.minor f.steep) := by
  have within := course.within at_k
  obtain ⟨majorP, minorP⟩ := course.place at_i
  obtain ⟨majorQ, minorQ⟩ := course.place at_k
  obtain ⟨majorB, minorB⟩ := course.place course.finish
  rw [majorP, majorQ, majorB, minorP, minorQ, minorB]
  exact ⟨onward_of_unit f.onward_eq _ le within,
    onward_of_unit f.sideward_eq _ (crossed_mono le) (crossed_mono within)⟩

theorem Course.apart (course : f.Course a b ps) (lt : i < k) (at_i : ps[i]? = some p)
    (at_k : ps[k]? = some q) : p ≠ q := by
  rintro rfl
  obtain ⟨here, -⟩ := course.place at_i
  obtain ⟨there, -⟩ := course.place at_k
  rcases f.onward_eq with on | back
  · rw [on] at here there
    omega
  · rw [back] at here there
    omega

theorem Course.changes_minor (course : f.Course a b ps) (upright : f.Upright) (n : Nat)
    (within : i + n ≤ f.width) :
    f.crossed i + changes (((ps.map (Point.minor f.steep)).drop i).take (n + 1)) =
      f.crossed (i + n) := by
  have length := course.length
  have minor (j : Nat) (inside : j < (ps.map (Point.minor f.steep)).length) :
      (ps.map (Point.minor f.steep))[j] = a.minor f.steep + f.sideward * f.crossed j := by
    rw [List.length_map] at inside
    rw [List.getElem_map]
    exact (course.place (List.getElem?_eq_getElem inside)).2
  -- By induction on the number of moves: each adds to both counts what `crossed_succ` allows.
  induction n generalizing i with
  | zero => rw [changes_take_one, Nat.add_zero, Nat.add_zero]
  | succ n ih =>
    have later := ih (i := i + 1) (by omega)
    rw [show i + 1 + n = i + (n + 1) by omega] at later
    rw [changes_take_succ (by rw [List.length_map]; omega), minor, minor]
    rcases upright.crossed_succ (show i < f.width by omega) with level | across
    · rw [level] at later ⊢
      rw [if_pos rfl, Nat.zero_add]
      exact later
    · have apart : f.sideward ≠ 0 := by rcases f.sideward_eq with up | down <;> omega
      have differ : a.minor f.steep + f.sideward * f.crossed i ≠
          a.minor f.steep + f.sideward * (f.crossed i + 1 : Nat) := by
        push_cast
        intro same
        apply apart
        linarith
      rw [across, if_neg differ]
      omega

end Frame

/-- The shape of every line. It runs from its start to its finish, one unit along the wider
axis with each move and never back on either axis, and between any two of its points it
moves across as often as the slope asks for, with an error of less than one move. -/
theorem points_spread (a b : Point) :
    let D := max (Point.axisDistance b.x a.x) (Point.axisDistance b.y a.y)
    let m := min (Point.axisDistance b.x a.x) (Point.axisDistance b.y a.y)
    let tall : Bool := Point.axisDistance b.y a.y > Point.axisDistance b.x a.x
    let ps := Line.points a b
    ps.head? = some a ∧ ps.getLast? = some b ∧
      ps.IsChain (fun p q =>
        Approaches (b.major tall) (p.major tall) (q.major tall) ∧
        (q.minor tall = p.minor tall ∨ Approaches (b.minor tall) (p.minor tall) (q.minor tall)) ∧
        (q.x.toInt - p.x.toInt).natAbs ≤ 1 ∧ (q.y.toInt - p.y.toInt).natAbs ≤ 1) ∧
      ps.Pairwise (fun p q => p ≠ q ∧ Onward a.x.toInt b.x.toInt p.x.toInt q.x.toInt ∧
        Onward a.y.toInt b.y.toInt p.y.toInt q.y.toInt) ∧
      (0 < D → ∀ i k, i ≤ k → k < ps.length →
        |(D : Int) * changes (((ps.map (Point.minor tall)).drop i).take (k - i + 1)) -
          (k - i) * m| < D) := by
  intro D m tall ps
  have upright := Frame.upright_between a b
  have course := Frame.course_points a b
  have width : (Frame.between a b).width = D := Frame.width_between a b
  have height : (Frame.between a b).height = m := Frame.height_between a b
  have steep : (Frame.between a b).steep = tall := Frame.between_steep a b
  rw [← steep, ← width, ← height]
  refine ⟨?_, ?_, ?_, ?_, ?_⟩
  · exact (congrArg List.head? (Line.points_eq_listed a b)).trans (Frame.head_listed a b)
  · exact (congrArg List.getLast? (Line.points_eq_listed a b)).trans (Frame.getLast_listed a b)
  · apply List.isChain_iff_getElem.2
    intro i within
    have inside : i < ps.length := Nat.lt_of_succ_lt within
    obtain ⟨along, across⟩ := course.move upright (List.getElem?_eq_getElem inside)
      (List.getElem?_eq_getElem within)
    exact ⟨along, across, Point.near_of_moves along across⟩
  · apply List.pairwise_iff_getElem.2
    intro i k inside within lt
    have at_i := List.getElem?_eq_getElem inside
    have at_k := List.getElem?_eq_getElem within
    exact ⟨course.apart lt at_i at_k, Point.onward_of_moves (course.moves lt.le at_i at_k)⟩
  · intro wide i k le within
    have inside : k ≤ (Frame.between a b).width := by
      have length : ps.length = _ := course.length
      omega
    have counted := course.changes_minor upright (k - i) (i := i) (by omega)
    have spread := upright.crossed_spread wide le inside
    rw [Nat.add_sub_cancel' le] at counted
    rw [← counted] at spread
    push_cast at spread
    rwa [add_sub_cancel_left] at spread

/-- Down a tall line, two of the three moves in the middle go across where the slope asks for
six fifths of a move, so the error is four fifths. -/
theorem points_spread_steep :
    let across := changes ((((Line.points ⟨2, 5⟩ ⟨0, 0⟩).map (Point.minor true)).drop 1).take 4)
    across = 2 ∧ |(5 : Int) * across - (4 - 1) * 2| < 5 :=
  ⟨by decide +kernel,
    (points_spread ⟨2, 5⟩ ⟨0, 0⟩).2.2.2.2 (by decide) 1 4 (by decide) (by decide +kernel)⟩

end LinesAndLists
