import LinesAndLists.Chain.Rendering
import Mathlib.Algebra.BigOperators.Group.List.Basic
import Mathlib.Algebra.Ring.Int.Defs
import Mathlib.Data.List.Basic

/-! A chain as the sequence of its values. Every question that a chain is asked is answered
from that sequence alone, whether the answer comes from a walk along the links or from a
traversal one step at a time. -/
namespace LinesAndLists.Chain

/-- The index at which a value occurs first, and -1 if it does not occur. -/
def firstIndex (target : Int32) (values : List Int32) : Int :=
  if target ∈ values then values.idxOf target else -1

theorem positionFrom_eq (target : Int32) (i : Nat) (c : Chain) :
    c.positionFrom target i =
      if target ∈ c.toList then some (i + c.toList.idxOf target) else none := by
  induction c generalizing i with
  | empty => simp [positionFrom]
  | link v rest ih =>
    by_cases here : v = target
    · simp [positionFrom, here]
    · have apart : target ≠ v := Ne.symm here
      simp only [positionFrom, if_neg here, ih, toList_link, List.mem_cons, apart, false_or,
        List.idxOf_cons_ne _ here]
      split
      · congr 1
        omega
      · rfl

theorem indexOf_eq (c : Chain) (target : Int32) :
    c.indexOf target = firstIndex target c.toList := by
  simp only [indexOf, position?, positionFrom_eq, firstIndex, Nat.zero_add]
  by_cases member : target ∈ c.toList
  · simp only [if_pos member]
  · simp only [if_neg member]

theorem iterate_eq (n : Nat) (c : Chain) :
    c.iterate n = (List.range n).map (c.toList[·]?) := by
  induction n generalizing c with
  | zero => rfl
  | succ n ih =>
    rw [iterate, ih, List.range_succ_eq_map, List.map_cons, List.map_map]
    cases c <;> simp [next, Function.comp_def]

theorem sum_eq (c : Chain) : c.sum = (c.toList.map Int32.toInt).sum := by
  have step (n : Int) (vs : List Int32) :
      vs.foldl (fun n v => n + v.toInt) n = n + (vs.map Int32.toInt).sum := by
    induction vs generalizing n with
    | nil => simp
    | cons v vs ih => simp [ih, Int.add_assoc]
  rw [sum, fold_eq_foldl, step, Int.zero_add]

end LinesAndLists.Chain
