import LinesAndLists.Proofs.Walking
import Mathlib.Data.List.DropRight

/-! A line answers as a double-ended queue that holds the places of a loop over the
columns from left to right. The loop and the queue are written down on their own; the
line never has the list, only the two cursors from which its ends are read. -/
namespace LinesAndLists

/-- The loop: in each column it hands out a place and lowers the error by `dy`; where that
makes the error negative, the height changes and `dx` is added. -/
def sweep (dx dy ystep : Int) : Nat → Int → Int → Int → List (Int × Int)
  | 0, _, _, _ => []
  | columns + 1, x, y, error =>
    let error := error - dy
    (x, y) :: if error < 0 then sweep dx dy ystep columns (x + 1) (y + ystep) (error + dx)
      else sweep dx dy ystep columns (x + 1) y error

/-- The loop between two places. It runs to the right, so the ends may be exchanged first;
then the list is turned back. -/
def sweepBetween (p q : Int × Int) : List (Int × Int) :=
  let l := if p.1 > q.1 then q else p
  let r := if p.1 > q.1 then p else q
  let dx := r.1 - l.1
  let places := sweep dx (r.2 - l.2).natAbs (if l.2 < r.2 then 1 else -1) (dx + 1).toNat
    l.1 l.2 (dx.tdiv 2)
  if p.1 > q.1 then places.reverse else places

/-- The places of a segment by the loop alone, with the axes exchanged if it is steep. -/
def plain (a b : Int × Int) : List (Int × Int) :=
  if (b.2 - a.2).natAbs > (b.1 - a.1).natAbs then
    (sweepBetween a.swap b.swap).map Prod.swap
  else sweepBetween a b

/-- The points that a line has left, as they are popped at its front. -/
def Line.contents (l : Line) : List Point := (l.take .front l.size).1.toList

namespace Queue

variable {α : Type}

def peek : End → List α → Option α
  | .front, q => q.head?
  | .back, q => q.getLast?

def drop : End → Nat → List α → List α
  | .front, n, q => q.drop n
  | .back, n, q => q.rdrop n

def take : End → Nat → List α → List α
  | .front, n, q => q.take n
  | .back, n, q => (q.rtake n).reverse

/-- What a double-ended queue answers. -/
def answer (q : List Point) : Request → Answer × List Point
  | .pop e => (.point (peek e q), drop e 1 q)
  | .nth e n => (.point (peek e (drop e n q)), drop e (n + 1) q)
  | .take e n => (.points (take e n q).toArray, drop e n q)
  | .rest e => (.points (take e q.length q).toArray, [])
  | .count => (.number q.length, [])
  | .last => (.point q.getLast?, [])
  | .size => (.number q.length, q)
  | .bounds => (.bounds q.length q.length, q)

def seen : End → List α → List α
  | .front, q => q
  | .back, q => q.reverse

theorem peek_eq (e : End) (q : List α) : peek e q = (seen e q).head? := by
  cases e with
  | front => rfl
  | back => exact List.getLast?_eq_head?_reverse

theorem seen_drop (e : End) (n : Nat) (q : List α) : seen e (drop e n q) = (seen e q).drop n := by
  cases e with
  | front => rfl
  | back => simp [seen, drop, List.rdrop_eq_reverse_drop_reverse]

theorem take_eq (e : End) (n : Nat) (q : List α) : take e n q = (seen e q).take n := by
  cases e with
  | front => rfl
  | back => simp [take, seen, List.rtake_eq_reverse_take_reverse]

@[simp] theorem length_seen (e : End) (q : List α) : (seen e q).length = q.length := by
  cases e <;> simp [seen]

theorem foldl_latest (q : List α) (acc : Option α) :
    q.foldl (fun _ p => some p) acc = q.getLast?.or acc := by
  induction q generalizing acc with
  | nil => rfl
  | cons p q ih =>
    rw [List.foldl_cons, ih, List.getLast?_cons]
    cases q.getLast? <;> rfl

end Queue

namespace Frame

variable {f : Frame} {l r : Nat} {e : End} {line : Line} {p : Point} {q : List Point}

/-- The points over the columns without `l` of them at the left and `r` at the right. -/
def window (f : Frame) (l r : Nat) : List Point :=
  (List.range' l (f.width + 1 - l - r)).map fun k : Nat => f.pointOver k

theorem window_left (within : l + r ≤ f.width) :
    f.window l r = f.pointOver l :: f.window (l + 1) r := by
  have more : f.width + 1 - l - r = (f.width + 1 - (l + 1) - r) + 1 := by omega
  rw [window, more, List.range'_succ]
  rfl

theorem window_right (within : l + r ≤ f.width) :
    f.window l r = f.window l (r + 1) ++ [f.pointOver (f.width - r : Nat)] := by
  have more : f.width + 1 - l - r = (f.width + 1 - l - (r + 1)) + 1 := by omega
  have last : l + 1 * (f.width + 1 - l - (r + 1)) = f.width - r := by omega
  rw [window, more, List.range'_concat, List.map_append, last]
  rfl

/-- Read from the end `e`, the line has the points `q` left. -/
def Reads (f : Frame) (e : End) (line : Line) (q : List Point) : Prop :=
  ∃ l r last, f.Spent l r last line ∧
    q = if e = f.line.leftEnd then f.window l r else (f.window l r).reverse

theorem Reads.size (reads : f.Reads e line q) : line.size = q.length := by
  obtain ⟨l, r, last, spent, rfl⟩ := reads
  have size := spent.size
  split <;> simp [window] <;> omega

theorem Reads.other (reads : f.Reads e line q) : f.Reads e.other line q.reverse := by
  obtain ⟨l, r, last, spent, rfl⟩ := reads
  refine ⟨l, r, last, spent, ?_⟩
  cases e <;> cases f.line.leftEnd <;> simp [End.other]

theorem Reads.nil (reads : f.Reads e line []) (asked : End) : line.pop asked = none :=
  Line.pop_eq_none_iff.2 reads.size

theorem Reads.cons (upright : f.Upright) (reads : f.Reads e line (p :: q)) :
    ∃ next, line.pop e = some (p, next) ∧ f.Reads e next q := by
  obtain ⟨l, r, last, spent, same⟩ := reads
  rcases spent.pop upright e with ⟨all, _⟩ | ⟨within, rfl, next, popped, nextSpent⟩ |
    ⟨within, rfl, next, popped, nextSpent⟩
  · have finished : f.window l r = [] := by simp [window]; omega
    simp [finished] at same
  · rw [if_pos rfl, window_left within, List.cons.injEq] at same
    exact ⟨next, by rw [popped, same.1], l + 1, r, l, nextSpent, by rw [if_pos rfl, same.2]⟩
  · have apart : f.line.leftEnd.other ≠ f.line.leftEnd := by
      cases f.line.leftEnd <;> simp [End.other]
    rw [if_neg apart, window_right within, List.reverse_append, List.reverse_singleton,
      List.singleton_append, List.cons.injEq] at same
    exact ⟨next, by rw [popped, same.1], l, r + 1, f.width - r, nextSpent,
      by rw [if_neg apart, same.2]⟩

theorem Upright.reads_line (upright : f.Upright) :
    f.Reads f.line.leftEnd f.line (f.window 0 0) :=
  ⟨0, 0, 0, upright.spent_line, by rw [if_pos rfl]⟩

theorem Reads.fold {β : Type} (upright : f.Upright) (reads : f.Reads e line q)
    (g : β → Point → β) (n : Nat) (acc : β) :
    (line.fold e g n acc).1 = (q.take n).foldl g acc ∧
      f.Reads e (line.fold e g n acc).2 (q.drop n) := by
  induction n generalizing acc line q with
  | zero => exact ⟨rfl, reads⟩
  | succ n ih =>
    cases q with
    | nil =>
      rw [Line.fold, reads.nil]
      exact ⟨rfl, reads⟩
    | cons p q =>
      obtain ⟨next, popped, later⟩ := reads.cons upright
      rw [Line.fold, popped]
      exact ih later (g acc p)

theorem Reads.drop (upright : f.Upright) (reads : f.Reads e line q) (n : Nat) :
    f.Reads e (line.drop e n) (q.drop n) := (reads.fold upright _ n ()).2

theorem Reads.take (upright : f.Upright) (reads : f.Reads e line q) (n : Nat) :
    (line.take e n).1 = (q.take n).toArray ∧ f.Reads e (line.take e n).2 (q.drop n) := by
  obtain ⟨taken, later⟩ := reads.fold upright Array.push n #[]
  refine ⟨?_, later⟩
  rw [Line.take, taken, List.foldl_push_eq_append]
  simp

theorem Reads.popOr (upright : f.Upright) (reads : f.Reads e line q) :
    (line.popOr e).1 = q.head? ∧ f.Reads e (line.popOr e).2 (q.drop 1) := by
  cases q with
  | nil =>
    rw [Line.popOr_of_none (reads.nil e)]
    exact ⟨rfl, reads⟩
  | cons p q =>
    obtain ⟨next, popped, later⟩ := reads.cons upright
    rw [Line.popOr_of_some popped]
    exact ⟨rfl, later⟩

def Holds (f : Frame) (line : Line) (q : List Point) : Prop := f.Reads .front line q

theorem Holds.reads (holds : f.Holds line q) (e : End) : f.Reads e line (Queue.seen e q) := by
  cases e with
  | front => exact holds
  | back => exact Reads.other holds

theorem Reads.holds (reads : f.Reads e line (Queue.seen e q)) : f.Holds line q := by
  cases e with
  | front => exact reads
  | back => simpa [Holds, Queue.seen, End.other] using Reads.other reads

/-- One request: the line and the queue answer alike and hold the same points after it. -/
theorem Holds.answer (upright : f.Upright) (holds : f.Holds line q) (request : Request) :
    (line.answer request).1 = (Queue.answer q request).1 ∧
      f.Holds (line.answer request).2 (Queue.answer q request).2 := by
  have size : line.size = q.length := Reads.size holds
  cases request with
  | pop e =>
    obtain ⟨came, later⟩ := (holds.reads e).popOr upright
    rw [← Queue.peek_eq] at came
    rw [← Queue.seen_drop] at later
    exact ⟨congrArg Answer.point came, later.holds⟩
  | nth e n =>
    have dropped := (holds.reads e).drop upright n
    obtain ⟨came, later⟩ := dropped.popOr upright
    rw [← Queue.seen_drop, ← Queue.peek_eq] at came
    rw [List.drop_drop, ← Queue.seen_drop] at later
    exact ⟨congrArg Answer.point came, later.holds⟩
  | take e n =>
    obtain ⟨came, later⟩ := (holds.reads e).take upright n
    rw [← Queue.take_eq] at came
    rw [← Queue.seen_drop] at later
    exact ⟨congrArg Answer.points came, later.holds⟩
  | rest e =>
    obtain ⟨came, later⟩ := (holds.reads e).take upright q.length
    rw [← Queue.take_eq] at came
    rw [List.drop_of_length_le (by simp)] at later
    simp only [Line.answer, Queue.answer, size]
    refine ⟨congrArg Answer.points came, Reads.holds (e := e) ?_⟩
    cases e <;> exact later
  | count =>
    obtain ⟨came, later⟩ := holds.fold upright (fun n _ => n + 1) q.length 0
    rw [List.take_length] at came
    rw [List.drop_length] at later
    simp only [Line.answer, Queue.answer, size]
    refine ⟨congrArg Answer.number (came.trans ?_), later⟩
    rw [List.foldl_add_const]
    simp
  | last =>
    obtain ⟨came, later⟩ := holds.fold upright (fun _ p => some p) q.length none
    rw [List.take_length] at came
    rw [List.drop_length] at later
    simp only [Line.answer, Queue.answer, size]
    refine ⟨congrArg Answer.point (came.trans ?_), later⟩
    rw [Queue.foldl_latest, Option.or_none]
  | size => exact ⟨congrArg Answer.number size, holds⟩
  | bounds => exact ⟨by simp only [Line.answer, Queue.answer, size], holds⟩

theorem Holds.serve (upright : f.Upright) (holds : f.Holds line q) (requests : List Request) :
    (serve Line.answer requests line).1 = (serve Queue.answer requests q).1 ∧
      f.Holds (serve Line.answer requests line).2 (serve Queue.answer requests q).2 := by
  have served := @serve_related _ _ _ _ _ Line.answer Queue.answer id f.Holds
    (fun _ _ request holds => holds.answer upright request) _ _ holds requests
  rwa [List.map_id] at served

/-- What a schedule takes at the two ends and what it leaves, put together again. -/
theorem Holds.taken (upright : f.Upright) (holds : f.Holds line q) (schedule : List End) :
    ∃ left, f.Holds (line.run schedule).2 left ∧
      q = line.taken .front schedule ++ left ++ (line.taken .back schedule).reverse := by
  -- By induction on the schedule: each request moves one entry from the rest to its own end.
  induction schedule generalizing line q with
  | nil => exact ⟨q, holds, (List.append_nil q).symm⟩
  | cons e schedule ih =>
    obtain ⟨came, later⟩ := (holds.reads e).popOr upright
    rw [← Queue.seen_drop] at later
    obtain ⟨left, final, parts⟩ := ih later.holds
    refine ⟨left, final, ?_⟩
    rw [Line.taken_cons, Line.taken_cons, came]
    cases e with
    | front =>
      have whole : q = (Queue.seen .front q).head?.toList ++ Queue.drop .front 1 q := by
        cases q <;> rfl
      rw [parts] at whole
      simpa using whole
    | back =>
      have whole : q = Queue.drop .back 1 q ++ (Queue.seen .back q).head?.toList.reverse := by
        rcases List.eq_nil_or_concat q with rfl | ⟨front, p, rfl⟩
        · rfl
        · simp [Queue.seen, Queue.drop]
      rw [parts] at whole
      simpa using whole

end Frame

namespace Cursor

variable {s : Slope Int} {c : Cursor Int}

theorem sweep_succ (s : Slope Int) (c : Cursor Int) (n : Nat) :
    sweep s.dx s.dy s.ystep (n + 1) c.x c.y c.error =
      (c.x, c.y) :: sweep s.dx s.dy s.ystep n (c.advance s).x (c.advance s).y
        (c.advance s).error := by
  by_cases change : c.error - s.dy < 0
  · rw [advance_of_lt change]
    simp [sweep, change]
  · rw [advance_of_not_lt change]
    simp [sweep, change]

theorem sweep_along (flat : s.Flat) (wide : 0 < s.dx) (n k : Nat) :
    sweep s.dx s.dy s.ystep n (c.along s k).x (c.along s k).y (c.along s k).error =
      (List.range' k n).map fun i : Nat => ((c.along s i).x, (c.along s i).y) := by
  induction n generalizing k with
  | zero => rfl
  | succ n ih =>
    rw [sweep_succ, advance_along flat wide, List.range'_succ, List.map_cons]
    exact congrArg _ (ih (k + 1))

end Cursor

namespace Frame

variable {f : Frame}

theorem Upright.sweep_track (upright : f.Upright) :
    sweep f.slope.value.dx f.slope.value.dy f.slope.value.ystep (f.width + 1) f.x1.toInt
        f.y1.toInt (f.slope.dx / 2).toInt =
      (List.range' 0 (f.width + 1)).map fun k : Nat => ((f.track k).x, (f.track k).y) := by
  have start := upright.track_zero
  -- No step is made on a line without width, and no track is followed.
  by_cases narrow : f.width = 0
  · simp only [narrow, sweep, Nat.zero_add, List.range'_one, List.map_cons, List.map_nil,
      Int.natCast_zero, start]
    split <;> rfl
  · have wide : 0 < f.slope.value.dx := by
      rw [← upright.width_eq]
      omega
    have swept := @Cursor.sweep_along _ f.line.left.value upright.flat_slope wide (f.width + 1) 0
    rw [Int.natCast_zero, Cursor.along_zero upright.settled] at swept
    exact swept

theorem Upright.coordinates_window (upright : f.Upright) :
    (f.window 0 0).map Point.coordinates =
      (List.range' 0 (f.width + 1)).map fun k : Nat => f.place (f.track k).x (f.track k).y := by
  rw [window, List.map_map]
  apply List.map_congr_left
  intro k member
  have within := (List.mem_range'_1.1 member).2
  exact coordinates_pointOver upright (Int.natCast_nonneg k) (by omega)

theorem sweepBetween_coordinates {steep : Bool} {p q : Point}
    (flat : Point.axisDistance q.y p.y ≤ Point.axisDistance q.x p.x) :
    sweepBetween p.coordinates q.coordinates =
      let f := ordered steep p q
      let places := (List.range' 0 (f.width + 1)).map fun k : Nat => ((f.track k).x, (f.track k).y)
      if f.reversed then places.reverse else places := by
  have upright := @upright_ordered steep p q flat
  have swept := upright.sweep_track
  have width := upright.width_eq
  have forward := upright.forward
  rw [upright.slope_value] at swept width
  rw [upright.slopeExact.half] at swept
  dsimp only at swept width ⊢
  rw [← swept]
  have columns : (ordered steep p q).width + 1 =
      ((ordered steep p q).x2.toInt - (ordered steep p q).x1.toInt + 1).toNat := by omega
  -- The loop halves a width that is not negative, so it makes no difference how halves are cut.
  rw [columns, ← Int.tdiv_eq_ediv_of_nonneg (by omega)]
  by_cases back : q.x.toInt < p.x.toInt
  · simp only [ordered_of_lt back, sweepBetween, Point.coordinates, gt_iff_lt, back, if_true,
      Int32.toInt_toInt64]
  · simp only [ordered_of_le (Int.not_lt.1 back), sweepBetween, Point.coordinates, gt_iff_lt,
      back, if_false, Int32.toInt_toInt64, Bool.false_eq_true]

theorem plain_coordinates (a b : Point) : plain a.coordinates b.coordinates =
    if (between a b).reversed then (((between a b).window 0 0).map Point.coordinates).reverse
    else ((between a b).window 0 0).map Point.coordinates := by
  rw [(upright_between a b).coordinates_window]
  by_cases steep : isSteep a b = true
  · have taller : (b.coordinates.2 - a.coordinates.2).natAbs >
        (b.coordinates.1 - a.coordinates.1).natAbs := isSteep_iff.1 steep
    have same : between a b = ordered true a.transpose b.transpose := by
      rw [between_eq_ordered, steep]
      rfl
    have swept := @sweepBetween_coordinates true a.transpose b.transpose taller.le
    rw [plain, if_pos taller, same]
    refine (congrArg (List.map Prod.swap) swept).trans ?_
    simp only [place, ordered_steep, if_true]
    split <;> simp [Function.comp_def]
  · have flatter : ¬ (b.coordinates.2 - a.coordinates.2).natAbs >
        (b.coordinates.1 - a.coordinates.1).natAbs := mt isSteep_iff.2 steep
    have same : between a b = ordered false a b := by
      rw [between_eq_ordered, Bool.eq_false_iff.2 steep]
      rfl
    have swept := @sweepBetween_coordinates false a b (Nat.not_lt.1 flatter)
    rw [plain, if_neg flatter, same, swept]
    simp only [place, ordered_steep, Bool.false_eq_true, if_false]

/-- The points of the frame in the order in which they were asked for. -/
def listed (f : Frame) : List Point :=
  if f.reversed then (f.window 0 0).reverse else f.window 0 0

theorem Upright.holds_line (upright : f.Upright) : f.Holds f.line f.listed := by
  apply Reads.holds (e := f.line.leftEnd)
  have reads := upright.reads_line
  cases reversed : f.reversed <;>
    simpa [Line.leftEnd, line, listed, Queue.seen, reversed] using reads

theorem coordinates_listed (a b : Point) :
    (between a b).listed.map Point.coordinates = plain a.coordinates b.coordinates := by
  rw [plain_coordinates, listed]
  split
  · rw [List.map_reverse]
  · rfl

theorem Holds.contents {line : Line} {q : List Point} (upright : f.Upright)
    (holds : f.Holds line q) : line.contents = q := by
  rw [Line.contents]
  obtain ⟨came, _⟩ := Reads.take upright holds line.size
  rw [came, Reads.size holds, List.take_length]

end Frame

theorem Queue.serve_nil (requests : List Request) : (serve answer requests []).2 = [] := by
  -- Nothing is ever put into a queue.
  induction requests with
  | nil => rfl
  | cons request requests ih =>
    have empty : (answer [] request).2 = [] := by
      cases request with
      | pop e | nth e n | take e n => cases e <;> simp [answer, drop]
      | rest | count | last | size | bounds => rfl
    simpa only [serve, empty] using ih

/-- A line between two points answers requests of every kind, however many and in whatever
order, as a double-ended queue does that holds the places of the plain loop. -/
theorem answers_queue (a b : Point) :
    ∃ S : List Point, S.map Point.coordinates = plain a.coordinates b.coordinates ∧
      (∀ requests, (serve Line.answer requests (Line.between a b)).1 =
        (serve Queue.answer requests S).1) ∧
      (∀ requests more e, (serve Line.answer requests (Line.between a b)).2.size = 0 →
        ((serve Line.answer more (serve Line.answer requests (Line.between a b)).2).2.popOr e).1 =
          none) ∧
      ∀ schedule, S = (Line.between a b).taken .front schedule ++
        ((Line.between a b).run schedule).2.contents ++
        ((Line.between a b).taken .back schedule).reverse := by
  have upright := Frame.upright_between a b
  have holds := upright.holds_line
  rw [← Line.between_eq_line] at holds
  refine ⟨(Frame.between a b).listed, Frame.coordinates_listed a b, ?_, ?_, ?_⟩
  · intro requests
    exact (holds.serve upright requests).1
  · intro requests more e exhausted
    obtain ⟨_, later⟩ := holds.serve upright requests
    have empty := Frame.Reads.size later
    rw [exhausted] at empty
    rw [List.length_eq_zero_iff.1 empty.symm] at later
    obtain ⟨_, final⟩ := later.serve upright more
    rw [Queue.serve_nil] at final
    rw [Line.popOr_of_none (Frame.Reads.nil final e)]
  · intro schedule
    obtain ⟨rest, final, parts⟩ := holds.taken upright schedule
    rw [final.contents upright]
    exact parts

/-- A count uses the line up, and nothing comes of what is asked later. -/
theorem answers_queue_counted :
    ((serve Line.answer [.nth .back 5]
      (serve Line.answer [.count] (Line.between ⟨0, 0⟩ ⟨2, 1⟩)).2).2.popOr .back).1 = none := by
  obtain ⟨S, _, _, exhausted, _⟩ := answers_queue ⟨0, 0⟩ ⟨2, 1⟩
  exact exhausted [.count] [.nth .back 5] .back (by decide)

end LinesAndLists
