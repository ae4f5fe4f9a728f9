import LinesAndLists.Chain.Store
import LinesAndLists.Proofs.Sequences
import Mathlib.Logic.Function.Basic

/-! Four chains as four plain sequences of integers. What a command does is written down for
the sequences on its own, with the words gone; the chains then follow the sequences through
every run of commands, and a chain that follows a sequence answers every question as the
sequence says. -/
namespace LinesAndLists

/-- From just below `stop` down to `start`; nothing if there is no such integer. -/
def descending (start stop : Int) : List Int :=
  (List.range (stop - start).toNat).map fun k : Nat => stop - 1 - k

abbrev Sequences := Slot → List Int

namespace Sequences

def initial : Sequences := fun _ => []

def apply (m : Sequences) : Command → Sequences
  | .clear slot => Function.update m slot []
  | .construct v source target => fun slot =>
    if slot = target then v.toInt :: m source else if slot = source then [] else m slot
  | .pushFront v slot => Function.update m slot (v.toInt :: m slot)
  | .collect vs slot => Function.update m slot (vs.map Int32.toInt).reverse
  | .collectRange start stop slot => Function.update m slot (descending start.toInt stop.toInt)

def run (m : Sequences) (commands : List Command) : Sequences := commands.foldl apply m

end Sequences

def Command.slots : Command → List Slot
  | .construct _ source target => [source, target]
  | command => [command.target]

namespace Chain

/-- Every question asked of the chain is answered as the sequence says, also by a traversal
that goes on past the end. -/
structure Shows (c : Chain) (values : List Int) : Prop where
  toList : c.toList.map Int32.toInt = values
  iterate : ∀ n, (c.iterate n).map (Option.map Int32.toInt) = (List.range n).map (values[·]?)
  length : c.length = values.length
  isEmpty : c.isEmpty = true ↔ values = []
  sum : c.sum = values.sum
  display : c.display = " -> ".intercalate (values.map Numeral.text)
  bracketed : c.bracketed = "[" ++ ", ".intercalate (values.map Numeral.text) ++ "]"
  bracketedLines : c.bracketedLines = if values = [] then "[]" else
    "[\n" ++ String.join (values.map fun n => "    " ++ Numeral.text n ++ ",\n") ++ "]"

theorem shows_toList (c : Chain) : c.Shows (c.toList.map Int32.toInt) where
  toList := rfl
  iterate n := by simp [iterate_eq, Function.comp_def]
  length := by simp [length_eq]
  isEmpty := by simp [isEmpty_eq]
  sum := sum_eq c
  display := by simp [display_eq_intercalate, numerals, arrow, Function.comp_def]
  bracketed := by simp [bracketed, Text.bracketed, numerals, Function.comp_def]
  bracketedLines := by
    simp [bracketedLines, Text.bracketedLines, Text.indented, numerals, Function.comp_def]

theorem toInt_range (start stop : Int32) :
    (range start stop).map Int32.toInt =
      (List.range (stop.toInt - start.toInt).toNat).map fun k : Nat => start.toInt + k := by
  rw [range, List.map_map]
  apply List.map_congr_left
  intro k within
  have below := List.mem_range.1 within
  have low := start.le_toInt
  have high := stop.toInt_lt
  exact Int32.toInt_ofInt_of_le (by omega) (by omega)

@[simp] theorem reverse_range (start stop : Int32) :
    ((range start stop).map Int32.toInt).reverse = descending start.toInt stop.toInt := by
  rw [toInt_range, descending]
  -- Place by place: counting from below and turning round is counting from above.
  apply List.ext_getElem
  · simp
  · intro k _ within
    have below : k < (stop.toInt - start.toInt).toNat := by simpa using within
    simp only [List.getElem_reverse, List.getElem_map, List.getElem_range, List.length_map,
      List.length_range]
    omega

end Chain

namespace Store

variable {s t : Store} {command : Command} {slot : Slot}

def run (s : Store) (commands : List Command) : Store := commands.foldl apply s

def sequences (s : Store) : Sequences := fun slot => (s.get slot).toList.map Int32.toInt

theorem sequences_initial : initial.sequences = Sequences.initial := by
  funext slot
  simp [sequences, Sequences.initial]

theorem sequences_put (s : Store) (slot : Slot) (c : Chain) :
    (s.put slot c).sequences = Function.update s.sequences slot (c.toList.map Int32.toInt) := by
  funext other
  by_cases same : other = slot
  · simp [sequences, same]
  · simp [sequences, same, Ne.symm same]

theorem sequences_injective (same : s.sequences = t.sequences) : s = t := by
  have words : Function.Injective (List.map Int32.toInt) :=
    List.map_injective_iff.2 fun _ _ => Int32.toInt_inj.1
  have chains (slot : Slot) : s.get slot = t.get slot :=
    Chain.toList_injective (words (congrFun same slot))
  cases s
  cases t
  congr 1
  exact Vector.ext fun i within => chains ⟨i, within⟩

theorem sequences_apply (s : Store) (command : Command) :
    (s.apply command).sequences = s.sequences.apply command := by
  cases command with
  | clear slot => simp [apply, sequences_put, Sequences.apply]
  | construct v source target =>
    funext slot
    simp only [apply, sequences_put, Sequences.apply, Function.update_apply, Chain.toList_link,
      Chain.toList_empty, List.map_cons, List.map_nil]
    rfl
  | pushFront v slot => simp [apply, sequences_put, Sequences.apply, sequences]
  | collect vs slot => simp [apply, sequences_put, Sequences.apply]
  | collectRange start stop slot => simp [apply, sequences_put, Sequences.apply]

theorem sequences_run (s : Store) (commands : List Command) :
    (s.run commands).sequences = s.sequences.run commands := by
  induction commands generalizing s with
  | nil => rfl
  | cons command commands ih =>
    calc ((s.apply command).run commands).sequences
        = (s.apply command).sequences.run commands := ih _
      _ = (s.sequences.apply command).run commands := by rw [sequences_apply]

/-- A command leaves alone the slots that it does not name. -/
theorem get_apply_of_not_mem (s : Store) (unnamed : slot ∉ command.slots) :
    (s.apply command).get slot = s.get slot := by
  cases command with
  | construct v source target =>
    have apart : source ≠ slot ∧ target ≠ slot := by
      simpa [Command.slots, eq_comm] using unnamed
    rw [apply, get_put_other apart.2, get_put_other apart.1]
  | _ => exact get_put_other fun same => unnamed (by simp [Command.slots, Command.target, same])

end Store

namespace Sequences

theorem run_pushes (m : Sequences) (vs : List Int32) (slot : Slot) :
    m.run (vs.map (.pushFront · slot)) =
      Function.update m slot ((vs.map Int32.toInt).reverse ++ m slot) := by
  induction vs generalizing m with
  | nil => simp [run]
  | cons v vs ih => simpa [run, apply] using ih (m.apply (.pushFront v slot))

theorem apply_construct_same (m : Sequences) (v : Int32) (slot : Slot) :
    m.apply (.construct v slot slot) = m.apply (.pushFront v slot) := by
  funext other
  by_cases same : other = slot
  · simp [apply, same]
  · simp [apply, same]

theorem run_constructs (m : Sequences) (vs : List Int32) (slot : Slot) :
    m.run (vs.map (.construct · slot slot)) = m.run (vs.map (.pushFront · slot)) := by
  simp only [run, List.foldl_map, apply_construct_same]

theorem run_clear_pushes (m : Sequences) (vs : List Int32) (slot : Slot) :
    m.run (.clear slot :: vs.map (.pushFront · slot)) = m.apply (.collect vs slot) := by
  have pushed := run_pushes (m.apply (.clear slot)) vs slot
  simpa [run, apply] using pushed

end Sequences

namespace Store

/-- One value after another, or all of them at once. -/
theorem run_clear_pushes (s : Store) (vs : List Int32) (slot : Slot) :
    s.run (.clear slot :: vs.map (.pushFront · slot)) = s.apply (.collect vs slot) := by
  apply sequences_injective
  rw [sequences_run, sequences_apply, Sequences.run_clear_pushes]

theorem run_clear_constructs (s : Store) (vs : List Int32) (slot : Slot) :
    s.run (.clear slot :: vs.map (.construct · slot slot)) = s.apply (.collect vs slot) := by
  have constructed := Sequences.run_constructs (s.sequences.apply (.clear slot)) vs slot
  apply sequences_injective
  rw [sequences_run, sequences_apply, ← Sequences.run_clear_pushes]
  exact constructed

/-- Whatever commands have been run on empty chains, each chain shows the sequence that the
commands give; a command changes only the chains it names; and a chain is the same whether its
values were constructed or pushed one by one, or collected. -/
theorem run_follows_sequences (commands : List Command) :
    let s := initial.run commands
    (∀ slot, (s.get slot).Shows (Sequences.initial.run commands slot)) ∧
      (∀ command, ∀ slot ∉ command.slots, (s.apply command).get slot = s.get slot) ∧
      ∀ vs slot,
        s.run (.clear slot :: vs.map (.construct · slot slot)) = s.apply (.collect vs slot) ∧
        s.run (.clear slot :: vs.map (.pushFront · slot)) = s.apply (.collect vs slot) := by
  intro s
  refine ⟨fun slot => ?_, fun command slot => s.get_apply_of_not_mem, fun vs slot => ?_⟩
  · have sequences : s.sequences = Sequences.initial.run commands := by
      rw [sequences_run, sequences_initial]
    exact congrFun sequences slot ▸ (s.get slot).shows_toList
  · exact ⟨s.run_clear_constructs vs slot, s.run_clear_pushes vs slot⟩

/-- A chain is moved between slots and then changed where it went; the slot it came from stays
empty. -/
theorem run_follows_sequences_moved :
    let s := initial.run [.collect [3, 5] 1, .construct 7 1 2]
    (s.get 2).Shows [7, 5, 3] ∧ 1 ∉ (Command.pushFront 9 2).slots ∧
      (s.apply (.pushFront 9 2)).get 1 = s.get 1 := by
  intro s
  have follows := run_follows_sequences [.collect [3, 5] 1, .construct 7 1 2]
  have unnamed : 1 ∉ (Command.pushFront 9 2).slots := by decide
  exact ⟨follows.1 2, unnamed, follows.2.1 (.pushFront 9 2) 1 unnamed⟩

end Store
end LinesAndLists
