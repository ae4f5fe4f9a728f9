import LinesAndLists.Grid.Request
import LinesAndLists.Proofs.Framing
import LinesAndLists.Proofs.Serving
import Mathlib.Data.List.ReduceOption
import Mathlib.Order.Bounds.Basic

/-! Lines in use. A schedule of requests for single points leaves each cursor on the track
of the frame, as many columns from its end as points were taken there, until the last
point is taken; then both cursors stay over it. -/
namespace LinesAndLists

def End.other : End → End
  | .front => .back
  | .back => .front

@[simp] theorem End.other_other (e : End) : e.other.other = e := by cases e <;> rfl

namespace Line

/-- Asks for one point after the other: what came of each request, and the line left. -/
def run (schedule : List End) (l : Line) : List (Option Point) × Line :=
  serve (fun l e => l.popOr e) schedule l

/-- The points that a schedule takes at one end, in the order in which they are taken. -/
def taken (e : End) (schedule : List End) (l : Line) : List Point :=
  (answersTo (fun l e => l.popOr e) e schedule l).reduceOption

def leftEnd (l : Line) : End := if l.reversed then .back else .front

theorem eq_leftEnd_or (l : Line) (e : End) : e = l.leftEnd ∨ e = l.leftEnd.other := by
  cases e <;> simp only [leftEnd] <;> split <;> simp [End.other]

theorem popOr_of_none {l : Line} {e : End} (finished : l.pop e = none) :
    l.popOr e = (none, l) := by
  simp [popOr, finished]

theorem popOr_of_some {l next : Line} {e : End} {p : Point} (popped : l.pop e = some (p, next)) :
    l.popOr e = (some p, next) := by
  simp [popOr, popped]

theorem run_cons (e : End) (schedule : List End) (l : Line) : l.run (e :: schedule) =
    ((l.popOr e).1 :: ((l.popOr e).2.run schedule).1, ((l.popOr e).2.run schedule).2) := rfl

theorem taken_cons (e asked : End) (schedule : List End) (l : Line) :
    l.taken e (asked :: schedule) =
      (if asked = e then (l.popOr asked).1.toList else []) ++
        (l.popOr asked).2.taken e schedule := by
  simp only [taken, answersTo_cons, List.reduceOption_append]
  by_cases same : asked = e
  · simp [same, List.reduceOption_singleton]
  · simp [same]

theorem length_taken (e : End) (schedule : List End) (l : Line) :
    (l.taken e schedule).length + (l.taken e.other schedule).length =
      (l.run schedule).1.reduceOption.length := by
  induction schedule generalizing l with
  | nil => rfl
  | cons asked schedule ih =>
    have later := ih (l.popOr asked).2
    simp only [taken_cons, run_cons, List.length_append]
    cases popped : (l.popOr asked).1 with
    | none => simpa [popped] using later
    | some p =>
      rw [List.reduceOption_cons_of_some, List.length_cons]
      cases e <;> cases asked <;> simp [End.other] at later ⊢ <;> omega

theorem pop_leftEnd (l : Line) : l.pop l.leftEnd = l.popLeft := by
  cases reversed : l.reversed <;> simp [pop, leftEnd, reversed]

theorem pop_rightEnd (l : Line) : l.pop l.leftEnd.other = l.popRight := by
  cases reversed : l.reversed <;> simp [pop, leftEnd, End.other, reversed]

/-- The end of the last request decides nothing: its cursor is not stepped. -/
theorem pop_last {l : Line} (one : l.size = 1) :
    l.popLeft = some (l.pointAt l.left, { l with remaining := 0 }) ∧
      l.popRight = some (l.pointAt l.right, { l with remaining := 0 }) := by
  have single : l.remaining = 1 := UInt64.toNat_inj.1 one
  constructor
  · simp [popLeft, single]
  · simp [popRight, single]

theorem popOr_few {l : Line} (few : l.size ≤ 1) (e : End) :
    (l.popOr e).2.left = l.left ∧ (l.popOr e).2.right = l.right := by
  rcases Nat.le_one_iff_eq_zero_or_eq_one.1 few with zero | one
  · rw [popOr_of_none (pop_eq_none_iff.2 zero)]
    exact ⟨rfl, rfl⟩
  · obtain ⟨left, right⟩ := pop_last one
    rcases l.eq_leftEnd_or e with rfl | rfl
    · rw [popOr_of_some ((pop_leftEnd l).trans left)]
      exact ⟨rfl, rfl⟩
    · rw [popOr_of_some ((pop_rightEnd l).trans right)]
      exact ⟨rfl, rfl⟩

theorem pop_more {l : Line} (more : 1 < l.size) :
    (l.remaining - 1).toNat + 1 = l.size ∧
      l.popLeft = some (l.pointAt l.left,
        { l with left := l.left.advance l.slope, remaining := l.remaining - 1 }) ∧
      l.popRight = some (l.pointAt l.right,
        { l with right := l.right.retreat l.slope, remaining := l.remaining - 1 }) := by
  have unfinished : l.remaining ≠ 0 := by
    rw [Ne, remaining_eq_zero_iff]
    omega
  have fewer := toNat_remaining_sub_one unfinished
  have going : l.remaining - 1 ≠ 0 := by
    rw [Ne, ← UInt64.toNat_inj, UInt64.toNat_zero]
    omega
  refine ⟨fewer.symm, ?_, ?_⟩
  · simp only [popLeft, if_neg unfinished, if_neg going]
  · simp only [popRight, if_neg unfinished, if_neg going]

end Line

theorem Cursor.value_injective {c d : Cursor Int64} (same : c.value = d.value) : c = d := by
  cases c
  cases d
  simpa [value, Int64.toInt_inj] using same

namespace Frame

variable {f : Frame} {l r last : Nat} {line : Line}

/-- A line of a frame from which `l` points were taken at the left and `r` at the right,
the last of them over the column `last`. -/
structure Spent (f : Frame) (l r last : Nat) (line : Line) : Prop where
  steep : line.steep = f.steep
  reversed : line.reversed = f.reversed
  slope : line.slope = f.slope
  size : line.size + l + r = f.width + 1
  left : l + r ≤ f.width → line.left.value = f.track l
  right : l + r ≤ f.width → line.right.value = f.track (f.width - r : Nat)
  column : last ≤ f.width
  met : l + r = f.width + 1 → line.left.value = f.track last ∧ line.right.value = f.track last

theorem Upright.spent_line (upright : f.Upright) : f.Spent 0 0 0 f.line := by
  refine ⟨rfl, rfl, rfl, ?_, ?_, ?_, Nat.zero_le _, ?_⟩
  · simpa [Line.size, line, width] using upright.slopeExact.count
  · intro _
    exact upright.track_zero.symm
  · intro _
    exact upright.track_width.symm
  · intro met
    omega

theorem Spent.popLeft (spent : f.Spent l r last line) (upright : f.Upright)
    (unfinished : l + r ≤ f.width) :
    ∃ next, line.popLeft = some (f.pointOver l, next) ∧ f.Spent (l + 1) r l next := by
  have size := spent.size
  rw [← pointAt_eq_pointOver spent.steep (spent.left unfinished)]
  by_cases one : l + r = f.width
  · have here : f.width - r = l := by omega
    have right := spent.right unfinished
    rw [here] at right
    -- The last point: the other cursor stands over the same column, and neither moves.
    exact ⟨_, (Line.pop_last (by omega)).1, spent.steep, spent.reversed, spent.slope,
      by simp only [Line.size, UInt64.toNat_zero]; omega, by omega, by omega, by omega,
      fun _ => ⟨spent.left unfinished, right⟩⟩
  · obtain ⟨fewer, popped, _⟩ := Line.pop_more (l := line) (by omega)
    refine ⟨_, popped, spent.steep, spent.reversed, spent.slope, ?_, ?_, ?_, by omega, ?_⟩
    · simp only [Line.size] at *
      omega
    · intro _
      rw [spent.slope]
      exact_mod_cast upright.value_advance (by omega) (by omega) (spent.left unfinished)
    · intro _
      exact spent.right unfinished
    · intro met
      omega

theorem Spent.popRight (spent : f.Spent l r last line) (upright : f.Upright)
    (unfinished : l + r ≤ f.width) :
    ∃ next, line.popRight = some (f.pointOver (f.width - r : Nat), next) ∧
      f.Spent l (r + 1) (f.width - r) next := by
  have size := spent.size
  rw [← pointAt_eq_pointOver spent.steep (spent.right unfinished)]
  by_cases one : l + r = f.width
  · have here : f.width - r = l := by omega
    -- The same at this end: the left cursor stands over the column of the last point already.
    have left := spent.left unfinished
    rw [← here] at left
    exact ⟨_, (Line.pop_last (by omega)).2, spent.steep, spent.reversed, spent.slope,
      by simp only [Line.size, UInt64.toNat_zero]; omega, by omega, by omega, by omega,
      fun _ => ⟨left, spent.right unfinished⟩⟩
  · obtain ⟨fewer, _, popped⟩ := Line.pop_more (l := line) (by omega)
    refine ⟨_, popped, spent.steep, spent.reversed, spent.slope, ?_, ?_, ?_, by omega, ?_⟩
    · simp only [Line.size] at *
      omega
    · intro _
      exact spent.left unfinished
    · intro _
      have before : ((f.width - (r + 1) : Nat) : Int) + 1 = (f.width - r : Nat) := by omega
      rw [spent.slope]
      exact upright.value_retreat (by omega) (by omega) (by rw [before]; exact spent.right unfinished)
    · intro met
      omega

/-- All that a request for a point can come to. -/
theorem Spent.pop (spent : f.Spent l r last line) (upright : f.Upright) (e : End) :
    (l + r = f.width + 1 ∧ line.pop e = none) ∨
    (l + r ≤ f.width ∧ e = f.line.leftEnd ∧ ∃ next,
      line.pop e = some (f.pointOver l, next) ∧ f.Spent (l + 1) r l next) ∨
    (l + r ≤ f.width ∧ e = f.line.leftEnd.other ∧ ∃ next,
      line.pop e = some (f.pointOver (f.width - r : Nat), next) ∧
        f.Spent l (r + 1) (f.width - r) next) := by
  have size := spent.size
  have turned : line.leftEnd = f.line.leftEnd := by
    rw [Line.leftEnd, spent.reversed]
    rfl
  by_cases left : l + r ≤ f.width
  · rcases line.eq_leftEnd_or e with rfl | rfl
    · obtain ⟨next, popped, spent⟩ := spent.popLeft upright left
      exact .inr (.inl ⟨left, turned, next, (Line.pop_leftEnd line).trans popped, spent⟩)
    · obtain ⟨next, popped, spent⟩ := spent.popRight upright left
      exact .inr (.inr ⟨left, by rw [turned], next,
        (Line.pop_rightEnd line).trans popped, spent⟩)
  · exact .inl ⟨by omega, Line.pop_eq_none_iff.2 (by omega)⟩

theorem Spent.run (spent : f.Spent l r last line) (upright : f.Upright) (schedule : List End) :
    ∃ last', f.Spent (l + (line.taken f.line.leftEnd schedule).length)
        (r + (line.taken f.line.leftEnd.other schedule).length) last' (line.run schedule).2 ∧
      (line.run schedule).1.reduceOption.getLast?.getD (f.pointOver last) = f.pointOver last' := by
  -- The invariant is `Spent` itself, which moves its counts by one with each point taken.
  induction schedule generalizing l r last line with
  | nil => exact ⟨last, spent, rfl⟩
  | cons e schedule ih =>
    have apart : f.line.leftEnd ≠ f.line.leftEnd.other := by
      cases f.line.leftEnd <;> simp [End.other]
    rcases spent.pop upright e with ⟨_, finished⟩ | ⟨_, rfl, next, popped, nextSpent⟩ |
      ⟨_, rfl, next, popped, nextSpent⟩
    -- A request that comes to nothing leaves the line as it was, and counts at no end.
    · have same := Line.popOr_of_none finished
      simpa [Line.run_cons, Line.taken_cons, same] using ih spent
    · have same := Line.popOr_of_some popped
      obtain ⟨last', later, final⟩ := ih nextSpent
      refine ⟨last', ?_, ?_⟩
      · simpa [Line.run_cons, Line.taken_cons, same, apart, Nat.add_assoc,
          Nat.add_comm 1] using later
      · simpa [Line.run_cons, same, List.reduceOption_cons_of_some, List.getLast?_cons] using final
    · have same := Line.popOr_of_some popped
      obtain ⟨last', later, final⟩ := ih nextSpent
      refine ⟨last', ?_, ?_⟩
      · simpa [Line.run_cons, Line.taken_cons, same, apart.symm, Nat.add_assoc,
          Nat.add_comm 1] using later
      · simpa [Line.run_cons, same, List.reduceOption_cons_of_some, List.getLast?_cons] using final

theorem Spent.answers (spent : f.Spent l r last line) (upright : f.Upright)
    (schedule : List End) (p : Point) (member : p ∈ (line.run schedule).1.reduceOption) :
    ∃ k : Nat, k ≤ f.width ∧ p = f.pointOver k := by
  induction schedule generalizing l r last line with
  | nil => exact absurd member List.not_mem_nil
  | cons e schedule ih =>
    rw [Line.run_cons] at member
    rcases spent.pop upright e with ⟨_, finished⟩ | ⟨within, _, next, popped, nextSpent⟩ |
      ⟨_, _, next, popped, nextSpent⟩
    · rw [Line.popOr_of_none finished, List.reduceOption_cons_of_none] at member
      exact ih spent member
    · rw [Line.popOr_of_some popped, List.reduceOption_cons_of_some] at member
      rcases List.mem_cons.1 member with rfl | later
      · exact ⟨l, by omega, rfl⟩
      · exact ih nextSpent later
    · rw [Line.popOr_of_some popped, List.reduceOption_cons_of_some] at member
      rcases List.mem_cons.1 member with rfl | later
      · exact ⟨f.width - r, by omega, rfl⟩
      · exact ih nextSpent later

/-- The cursor `c` is the one over the column `k`: with as few changes of height as keep
the error from being negative. -/
def Over (f : Frame) (k : Nat) (c : Cursor Int64) : Prop :=
  ∃ j : Nat,
    IsLeast {j : Nat | 0 ≤ f.slope.dx.toInt / 2 - k * f.slope.dy.toInt + j * f.slope.dx.toInt} j ∧
    c.x.toInt = f.x1.toInt + k ∧
    c.y.toInt = f.y1.toInt + f.slope.ystep.toInt * j ∧
    c.error.toInt = f.slope.dx.toInt / 2 - k * f.slope.dy.toInt + j * f.slope.dx.toInt

theorem Upright.over_of_track (upright : f.Upright) {k : Nat} (within : k ≤ f.width)
    {c : Cursor Int64} (on : c.value = f.track k) : f.Over k c := by
  have flat := upright.flat_slope
  have width := upright.width_eq
  have half : (f.slope.dx / 2).toInt = f.slope.dx.toInt / 2 :=
    toInt_half (by simp only [Slope.value] at width; omega)
  have rises := Slope.rise_nonneg flat upright.settled (Int.natCast_nonneg k)
  have settled := upright.track_settled (Int.natCast_nonneg k) (by omega)
  have fields := on
  simp only [track, Cursor.along, line, Cursor.value, Cursor.mk.injEq] at fields
  have error : (f.track k).error = f.slope.value.dx / 2 - k * f.slope.value.dy +
      f.slope.value.rise (f.slope.dx / 2).toInt k * f.slope.value.dx := by
    simp only [track, Cursor.along, line, Cursor.value, half, Slope.value]
  rw [error] at settled
  rw [half] at fields rises settled
  refine ⟨(f.slope.value.rise (f.slope.dx.toInt / 2) k).toNat, ⟨?_, ?_⟩, fields.1, ?_, ?_⟩
  · rw [Set.mem_ofPred_eq, Int.toNat_of_nonneg rises]
    exact settled.1
  -- Without a width there are no changes of height at all, and 0 is the least number.
  · intro j enough
    rw [Set.mem_ofPred_eq] at enough
    rcases (show 0 ≤ f.slope.value.dx by omega).eq_or_lt with narrow | wide
    · rw [Slope.rise_of_dx_eq_zero narrow.symm]
      exact Nat.zero_le _
    · have := Slope.rise_le_of_nonneg wide enough
      omega
  · rw [Int.toNat_of_nonneg rises]
    exact fields.2.1
  · rw [Int.toNat_of_nonneg rises]
    exact fields.2.2

/-- While points are left no cursor has passed the other; afterwards both rest. -/
theorem Spent.onTrack (spent : f.Spent l r last line) :
    ∃ k k' : Nat, k ≤ f.width ∧ k' ≤ f.width ∧
      line.left.value = f.track k ∧ line.right.value = f.track k' := by
  have size := spent.size
  by_cases unfinished : l + r ≤ f.width
  · exact ⟨l, f.width - r, by omega, by omega, spent.left unfinished, spent.right unfinished⟩
  · obtain ⟨left, right⟩ := spent.met (by omega)
    exact ⟨last, last, spent.column, spent.column, left, right⟩

theorem Spent.settled (spent : f.Spent l r last line) (upright : f.Upright) :
    ∀ c ∈ [line.left, line.right], f.slope.value.Settled c.error.toInt := by
  obtain ⟨k, k', within, within', left, right⟩ := spent.onTrack
  intro c member
  rcases List.mem_pair.1 member with rfl | rfl
  · have settled := upright.track_settled (Int.natCast_nonneg k) (by omega)
    rwa [← left] at settled
  · have settled := upright.track_settled (Int.natCast_nonneg k') (by omega)
    rwa [← right] at settled

/-- The state of a line of a frame that answered `answers` to requests, and gave away `l`
points at its left cursor and `r` at its right one. -/
structure Walked (f : Frame) (l r : Nat) (answers : List (Option Point)) (line : Line) :
    Prop where
  within : l + r ≤ f.slope.dx.toInt + 1
  apart : l + r < f.slope.dx.toInt + 1 →
    f.Over l line.left ∧ f.Over (f.slope.dx.toInt - r).toNat line.right ∧
    line.size = f.slope.dx.toInt + 1 - l - r
  -- The cursors meet over the column of the last point, and nothing changes any more.
  met : l + r = f.slope.dx.toInt + 1 →
    line.size = 0 ∧ line.left = line.right ∧
    (∃ k : Nat, k ≤ f.slope.dx.toInt ∧ f.Over k line.left ∧
      answers.reduceOption.getLast? = some (line.pointAt line.left)) ∧
    ∀ e, line.popOr e = (none, line)
  errors : ∀ c ∈ [line.left, line.right], 0 ≤ c.error.toInt ∧
    (0 < f.slope.dx.toInt → c.error.toInt < f.slope.dx.toInt) ∧
    (f.slope.dx.toInt = 0 → c.error.toInt = 0)
  -- A cursor is stepped only where its step can be undone.
  steps : ∀ e, ((line.popOr e).2.left ≠ line.left ∨ (line.popOr e).2.right ≠ line.right) →
    f.slope.dy.toInt ≤ f.slope.dx.toInt ∧
    ∀ c ∈ [line.left, line.right], 0 ≤ c.error.toInt ∧ c.error.toInt < f.slope.dx.toInt

theorem Spent.walked {answers : List (Option Point)} (spent : f.Spent l r last line)
    (upright : f.Upright) (counted : l + r = answers.reduceOption.length)
    (final : answers.reduceOption.getLast?.getD (f.pointOver 0) = f.pointOver last) :
    f.Walked l r answers line := by
  have size := spent.size
  have width : (f.width : Int) = f.slope.dx.toInt := upright.width_eq
  have flat : f.slope.dy.toInt ≤ f.slope.dx.toInt := upright.flat_slope.le_width
  have settled := spent.settled upright
  simp only [Slope.Settled, Slope.value] at settled
  refine ⟨by omega, ?_, ?_, ?_, ?_⟩
  · intro unfinished
    have within : l + r ≤ f.width := by omega
    have column : (f.slope.dx.toInt - r).toNat = f.width - r := by omega
    rw [column]
    exact ⟨upright.over_of_track (by omega) (spent.left within),
      upright.over_of_track (by omega) (spent.right within), by omega⟩
  · intro all
    have column := spent.column
    obtain ⟨left, right⟩ := spent.met (by omega)
    refine ⟨by omega, Cursor.value_injective (left.trans right.symm), ?_, ?_⟩
    · refine ⟨last, by omega, upright.over_of_track column left, ?_⟩
      rw [pointAt_eq_pointOver spent.steep left, ← final]
      cases latest : answers.reduceOption.getLast? with
      | none =>
        rw [List.getLast?_eq_none_iff.1 latest] at counted
        simp only [List.length_nil] at counted
        omega
      | some p => rfl
    · intro e
      exact Line.popOr_of_none (Line.pop_eq_none_iff.2 (by omega))
  · intro c member
    obtain ⟨low, high⟩ := settled c member
    exact ⟨low, by omega, by omega⟩
  · intro e stepped
    have more : 1 < line.size := by
      by_contra few
      obtain ⟨left, right⟩ := Line.popOr_few (by omega : line.size ≤ 1) e
      simp [left, right] at stepped
    refine ⟨flat, fun c member => ?_⟩
    obtain ⟨low, high⟩ := settled c member
    exact ⟨low, by omega⟩

end Frame

/-- The exact state that a schedule of requests for single points leaves. -/
theorem walked_run (a b : Point) (schedule : List End) :
    let start := Line.between a b
    let line := (start.run schedule).2
    (Frame.between a b).Walked (start.taken start.leftEnd schedule).length
        (start.taken start.leftEnd.other schedule).length (start.run schedule).1 line ∧
      line.steep = start.steep ∧ line.reversed = start.reversed ∧ line.slope = start.slope ∧
      start.slope.dx.toInt =
        (max (Point.axisDistance b.x a.x) (Point.axisDistance b.y a.y) : Nat) ∧
      start.slope.dy.toInt =
        (min (Point.axisDistance b.x a.x) (Point.axisDistance b.y a.y) : Nat) := by
  intro start line
  have upright := Frame.upright_between a b
  obtain ⟨last, spent, final⟩ := upright.spent_line.run upright schedule
  simp only [Nat.zero_add] at spent
  obtain ⟨along, across⟩ := Frame.spans_between a b
  have same : start.slope = (Frame.between a b).slope := rfl
  refine ⟨spent.walked upright (start.length_taken start.leftEnd schedule) final,
    spent.steep, spent.reversed, spent.slope, ?_, ?_⟩
  · rw [same, upright.slope_dx, along]
  · rw [same, upright.slope_dy, across]

/-- Taken from both ends, the cursors of a line with three points meet at the second. -/
theorem walked_run_met :
    let line := ((Line.between ⟨2, 1⟩ ⟨0, 0⟩).run [.front, .back, .front]).2
    line.size = 0 ∧ line.left = line.right ∧ ∀ e, line.popOr e = (none, line) := by
  intro line
  obtain ⟨walked, _⟩ := walked_run ⟨2, 1⟩ ⟨0, 0⟩ [.front, .back, .front]
  obtain ⟨empty, same, _, rests⟩ := walked.met (by decide)
  exact ⟨empty, same, rests⟩

end LinesAndLists
