import LinesAndLists.Log
import LinesAndLists.Numeral

/-! Singly linked lists that grow only at the head. A chain is its links, and a
traversal of it is the part not yet visited, so two traversals of one chain cannot
disturb each other. All walks are loops, so that long chains need no stack. -/
namespace LinesAndLists

inductive Chain where
  | empty
  | link (value : Int32) (rest : Chain)
  deriving DecidableEq, Repr

namespace Chain

def fold {β : Type} (f : β → Int32 → β) : β → Chain → β
  | acc, empty => acc
  | acc, link v rest => fold f (f acc v) rest

def toList (c : Chain) : List Int32 := (c.fold (fun vs v => v :: vs) []).reverse

theorem fold_eq_foldl {β : Type} (f : β → Int32 → β) (acc : β) (c : Chain) :
    c.fold f acc = c.toList.foldl f acc := by
  have reversed (vs : List Int32) (c : Chain) :
      c.fold (fun vs v => v :: vs) vs = c.fold (fun vs v => v :: vs) [] ++ vs := by
    induction c generalizing vs with
    | empty => rfl
    | link v rest ih => rw [fold, ih, fold, ih [v], List.append_assoc]; rfl
  induction c generalizing acc with
  | empty => rfl
  | link v rest ih =>
    rw [fold, ih]
    simp only [toList, fold]
    rw [reversed [v]]
    simp

@[simp] theorem toList_empty : toList empty = [] := rfl

@[simp] theorem toList_link (v : Int32) (rest : Chain) : (link v rest).toList = v :: rest.toList := by
  have h := fold_eq_foldl (fun vs v => v :: vs) [v] rest
  simp only [toList, fold] at h ⊢
  rw [h]
  simp

theorem toList_injective {a b : Chain} (h : a.toList = b.toList) : a = b := by
  induction a generalizing b with
  | empty => cases b with
    | empty => rfl
    | link v rest => simp at h
  | link v rest ih => cases b with
    | empty => simp at h
    | link w other =>
      simp only [toList_link, List.cons.injEq] at h
      rw [h.1, ih h.2]

/-- Each value goes in front of those before it, so the last one becomes the head. -/
def collect (vs : List Int32) : Chain := vs.foldl (fun c v => link v c) empty

@[simp] theorem toList_collect (vs : List Int32) : (collect vs).toList = vs.reverse := by
  have step (c : Chain) : (vs.foldl (fun c v => link v c) c).toList = vs.reverse ++ c.toList := by
    induction vs generalizing c with
    | nil => rfl
    | cons v vs ih => simp [ih]
  simpa [collect] using step empty

/-- The integers from `start` up to but not including `stop`. -/
def range (start stop : Int32) : List Int32 :=
  (List.range (stop.toInt - start.toInt).toNat).map fun k : Nat => Int32.ofInt (start.toInt + k)

def isEmpty : Chain → Bool
  | empty => true
  | link _ _ => false

def length (c : Chain) : Nat := c.fold (fun n _ => n + 1) 0

/-- Words of 32 bits are added without overflow. -/
def sum (c : Chain) : Int := c.fold (fun n v => n + v.toInt) 0

/-- Searches a chain whose head stands at index `i`. -/
def positionFrom (target : Int32) (i : Nat) : Chain → Option Nat
  | empty => none
  | link v rest => if v = target then some i else positionFrom target (i + 1) rest

def position? (c : Chain) (target : Int32) : Option Nat := c.positionFrom target 0

/-- Like `position?`, with -1 where the target does not occur. -/
def indexOf (c : Chain) (target : Int32) : Int :=
  match c.position? target with
  | some i => i
  | none => -1

/-- The next value of a traversal and what is then left of it. At the end a traversal
stays where it is. -/
def next : Chain → Option Int32 × Chain
  | empty => (none, empty)
  | link v rest => (some v, rest)

inductive Side where
  | left
  | right
  deriving DecidableEq, Repr

/-- Advances one of two traversals at each turn. -/
def alternate : List Side → Chain → Chain → List (Option Int32)
  | [], _, _ => []
  | .left :: turns, a, b => a.next.1 :: alternate turns a.next.2 b
  | .right :: turns, a, b => b.next.1 :: alternate turns a b.next.2

def iterate : Nat → Chain → List (Option Int32)
  | 0, _ => []
  | n + 1, c => c.next.1 :: iterate n c.next.2

/-- Putting a value in front of a chain is logged in one of two wordings: as the
construction of a new chain, or as a change of the chain itself. -/
def construction (v : Int32) : Record := ⟨.trace, "construct " ++ Numeral.text v.toInt⟩

def pushing (v : Int32) : Record := ⟨.trace, "push_front " ++ Numeral.text v.toInt⟩

theorem length_eq (c : Chain) : c.length = c.toList.length := by
  have step (n : Nat) : c.toList.foldl (fun n _ => n + 1) n = n + c.toList.length := by
    induction c.toList generalizing n with
    | nil => rfl
    | cons v vs ih => simp [ih]; omega
  rw [length, fold_eq_foldl, step, Nat.zero_add]

theorem isEmpty_eq (c : Chain) : c.isEmpty = c.toList.isEmpty := by
  cases c <;> simp [isEmpty]

end Chain
end LinesAndLists
