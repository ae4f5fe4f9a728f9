import LinesAndLists.Grid.Line

/-! What can be asked of a line. Every request is a fold over the points popped at one
end, so a line answers as a double-ended queue does; a request for more points than
are left takes those that are left. -/
namespace LinesAndLists

namespace Line

/-- Folds over the points popped at one end, at most `limit` of them. -/
def fold {β : Type} (e : End) (f : β → Point → β) : Nat → β → Line → β × Line
  | 0, acc, l => (acc, l)
  | limit + 1, acc, l =>
    match l.pop e with
    | none => (acc, l)
    | some (p, l) => fold e f limit (f acc p) l

def drop (e : End) (n : Nat) (l : Line) : Line := (fold e (fun _ _ => ()) n () l).2

def take (e : End) (n : Nat) (l : Line) : Array Point × Line := fold e Array.push n #[] l

/-- A line that has nothing left stays as it is. -/
def popOr (e : End) (l : Line) : Option Point × Line :=
  match l.pop e with
  | none => (none, l)
  | some (p, l) => (some p, l)

def points (start finish : Point) : List Point :=
  let l := between start finish
  (l.take .front l.size).1.toList

end Line

inductive Request where
  | pop (e : End)
  | nth (e : End) (n : Nat)
  | take (e : End) (n : Nat)
  | rest (e : End)
  | count
  | last
  | size
  | bounds
  deriving DecidableEq, Repr

inductive Answer where
  | point (p : Option Point)
  | points (ps : Array Point)
  | number (n : Nat)
  | bounds (lower upper : Nat)
  deriving DecidableEq, Repr

/-- Counting and finding the last point use up the line, from the front. -/
def Line.answer (l : Line) : Request → Answer × Line
  | .pop e => (l.popOr e).map .point id
  | .nth e n => ((l.drop e n).popOr e).map .point id
  | .take e n => (l.take e n).map .points id
  | .rest e => (l.take e l.size).map .points id
  | .count => (l.fold .front (fun n _ => n + 1) l.size 0).map .number id
  | .last => (l.fold .front (fun _ p => some p) l.size none).map .point id
  | .size => (.number l.size, l)
  -- With sizes of 64 bits the number of points left is always known, so there is an upper
  -- bound in any case.
  | .bounds => (.bounds l.size l.size, l)

end LinesAndLists
