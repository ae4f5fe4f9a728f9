import LinesAndLists.Chain.Rendering
import LinesAndLists.Proofs.Sequences
import LinesAndLists.Proofs.Serving
import Mathlib.Logic.Function.Basic

/-! Two traversals of one chain, advanced in any order, while the chain itself is asked anything
in between. A traversal stands as many links behind the head as it was advanced, so what it
answers depends on its own turns alone; and since it only reads the chain, the chain answers as
it did before any traversal began. -/
namespace LinesAndLists.Chain

inductive Question where
  | length
  | isEmpty
  | values
  | sum
  | position (target : Int32)
  | indexOf (target : Int32)
  | display
  | bracketed
  | bracketedLines
  deriving DecidableEq, Repr

inductive Reply where
  | next (v : Option Int32)
  | values (vs : List Int32)
  | place (i : Option Nat)
  | number (n : Int)
  | truth (b : Bool)
  | text (s : String)
  deriving DecidableEq, Repr

def reply (c : Chain) : Question → Reply
  | .length => .number c.length
  | .isEmpty => .truth c.isEmpty
  | .values => .values c.toList
  | .sum => .number c.sum
  | .position target => .place (c.position? target)
  | .indexOf target => .number (c.indexOf target)
  | .display => .text c.display
  | .bracketed => .text c.bracketed
  | .bracketedLines => .text c.bracketedLines

/-- Either one of the traversals is advanced, or the chain is asked. -/
inductive Call where
  | next (side : Side)
  | ask (question : Question)
  deriving DecidableEq, Repr

/-- A chain, and for each of its two traversals the links that are still before it. -/
structure Visit where
  chain : Chain
  rest : Side → Chain

namespace Visit

def start (c : Chain) : Visit := ⟨c, fun _ => c⟩

def answer (s : Visit) : Call → Reply × Visit
  | .next side => (.next (s.rest side).next.1,
      { s with rest := Function.update s.rest side (s.rest side).next.2 })
  | .ask question => (s.chain.reply question, s)

def serve (calls : List Call) (s : Visit) : List Reply × Visit :=
  LinesAndLists.serve answer calls s

/-- What one of the traversals replied, in the order in which it was advanced. -/
def heard (side : Side) (calls : List Call) (s : Visit) : List Reply :=
  answersTo answer (.next side) calls s

theorem serve_cons (call : Call) (calls : List Call) (s : Visit) : s.serve (call :: calls) =
    ((s.answer call).1 :: ((s.answer call).2.serve calls).1, ((s.answer call).2.serve calls).2) :=
  rfl

theorem heard_cons (side : Side) (call : Call) (calls : List Call) (s : Visit) :
    s.heard side (call :: calls) =
      (if call = .next side then [(s.answer call).1] else []) ++
        (s.answer call).2.heard side calls :=
  answersTo_cons answer (.next side) call calls s

theorem chain_answer (s : Visit) (call : Call) : (s.answer call).2.chain = s.chain := by
  cases call <;> rfl

theorem rest_answer (s : Visit) (side : Side) :
    (s.answer (.next side)).2.rest side = (s.rest side).next.2 := Function.update_self ..

theorem rest_answer_of_ne {call : Call} {side : Side} (other : call ≠ .next side) (s : Visit) :
    (s.answer call).2.rest side = s.rest side := by
  cases call with
  | next advanced =>
    have apart : side ≠ advanced := fun same => other (congrArg Call.next same.symm)
    exact Function.update_of_ne apart _ _
  | ask question => rfl

end Visit

def advances (side : Side) (calls : List Call) : Nat := calls.count (.next side)

theorem advances_append_next (side : Side) (calls : List Call) :
    advances side (calls ++ [.next side]) = advances side calls + 1 := by
  simp [advances]

theorem advances_append_of_ne {side : Side} {call : Call} (other : call ≠ .next side)
    (calls : List Call) : advances side (calls ++ [call]) = advances side calls := by
  simp [advances, List.count_append, other]

/-- What is due to a call after the `earlier` ones: a traversal gives the value at its own count
of turns, or nothing behind the last value, and the chain gives its own answer. -/
def due (c : Chain) (earlier : List Call) : Call → Reply
  | .next side => .next c.toList[advances side earlier]?
  | .ask question => c.reply question

theorem next_fst (c : Chain) : c.next.1 = c.toList[0]? := by
  cases c <;> simp [next]

theorem toList_next (c : Chain) : c.next.2.toList = c.toList.tail := by
  cases c <;> simp [next]

/-- After the `earlier` calls each traversal has passed as many links as it was advanced. -/
structure Holds (c : Chain) (earlier : List Call) (s : Visit) : Prop where
  chain : s.chain = c
  rest : ∀ side, (s.rest side).toList = c.toList.drop (advances side earlier)

variable {c : Chain} {earlier : List Call} {s : Visit}

theorem holds_start (c : Chain) : c.Holds [] (.start c) := ⟨rfl, fun _ => rfl⟩

theorem Holds.answer_fst (holds : c.Holds earlier s) (call : Call) :
    (s.answer call).1 = c.due earlier call := by
  cases call with
  | next side => simp [Visit.answer, due, next_fst, holds.rest]
  | ask question => simp [Visit.answer, due, holds.chain]

theorem Holds.answer_snd (holds : c.Holds earlier s) (call : Call) :
    c.Holds (earlier ++ [call]) (s.answer call).2 := by
  refine ⟨(s.chain_answer call).trans holds.chain, fun side => ?_⟩
  by_cases here : call = .next side
  · rw [here, s.rest_answer, toList_next, holds.rest, List.tail_drop, advances_append_next]
  · rw [s.rest_answer_of_ne here, holds.rest, advances_append_of_ne here]

theorem Holds.serve (holds : c.Holds earlier s) (calls : List Call) :
    (s.serve calls).1 = calls.mapIdx (fun k call => c.due (earlier ++ calls.take k) call) ∧
      c.Holds (earlier ++ calls) (s.serve calls).2 := by
  -- The invariant `Holds` is carried on by `answer_snd`, and gives each reply by `answer_fst`.
  induction calls generalizing earlier s with
  | nil => exact ⟨rfl, (List.append_nil earlier).symm ▸ holds⟩
  | cons call calls ih =>
    obtain ⟨replies, final⟩ := ih (holds.answer_snd call)
    simp only [List.append_assoc, List.singleton_append] at replies final
    rw [Visit.serve_cons, List.mapIdx_cons, holds.answer_fst call, replies]
    exact ⟨by simp, final⟩

theorem Holds.heard (holds : c.Holds earlier s) (side : Side) (calls : List Call) :
    s.heard side calls = (List.range (advances side calls)).map fun k =>
      .next c.toList[advances side earlier + k]? := by
  induction calls generalizing earlier s with
  | nil => rfl
  | cons call calls ih =>
    rw [Visit.heard_cons, ih (holds.answer_snd call)]
    by_cases here : call = .next side
    · subst here
      rw [if_pos rfl, holds.answer_fst, advances_append_next]
      simp [advances, due, List.range_succ_eq_map, Function.comp_def, Nat.add_assoc,
        Nat.add_comm 1]
    · rw [if_neg here, advances_append_of_ne here, List.nil_append]
      simp [advances, here]

/-- Without questions, the replies are those of two traversals that take turns. -/
theorem serve_next (turns : List Side) (s : Visit) :
    (s.serve (turns.map .next)).1 =
      (alternate turns (s.rest .left) (s.rest .right)).map .next := by
  induction turns generalizing s with
  | nil => rfl
  | cons side turns ih =>
    rw [List.map_cons, Visit.serve_cons, ih]
    cases side <;> simp [Visit.answer, alternate]

/-- However the calls to two traversals of a chain and to the chain itself are mixed, each
traversal gives the values from head to tail and then nothing, as it would alone, and the chain
answers as it did at the beginning. -/
theorem traversals_independent (c : Chain) :
    (∀ calls : List Call,
      let s := Visit.start c
      (∀ side, s.heard side calls =
        (List.range (calls.count (.next side))).map fun k => .next c.toList[k]?) ∧
      (∀ side, s.heard side calls = (c.iterate (calls.count (.next side))).map .next) ∧
      (s.serve calls).1 = calls.mapIdx (fun k call => c.due (calls.take k) call) ∧
      (s.serve calls).2.chain = c) ∧
    ∀ turns : List Side,
      ((Visit.start c).serve (turns.map .next)).1 = (alternate turns c c).map .next := by
  refine ⟨fun calls => ?_, fun turns => serve_next turns (.start c)⟩
  have heard (side : Side) : (Visit.start c).heard side calls =
      (List.range (calls.count (.next side))).map fun k => .next c.toList[k]? := by
    simpa [advances] using c.holds_start.heard side calls
  obtain ⟨replies, final⟩ := c.holds_start.serve calls
  refine ⟨heard, fun side => ?_, replies, final.chain⟩
  rw [heard, iterate_eq, List.map_map]
  rfl

/-- One traversal goes on past the end while the other has not yet come there. -/
example : alternate [.left, .right, .left, .left] (collect [5, 3]) (collect [5, 3]) =
    [some 3, some 3, some 5, none] := by decide

end LinesAndLists.Chain
