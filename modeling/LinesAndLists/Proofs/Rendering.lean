import LinesAndLists.Chain.Rendering
import LinesAndLists.Proofs.Filling
import LinesAndLists.Proofs.Spelling

/-! The written forms of a chain. The line form is written piece by piece, but a sink keeps of
it what it would keep of one text. Every form can be taken apart again: its separator begins
with a character that is in no numeral, although the arrow contains a minus sign. -/
namespace LinesAndLists

namespace Text

/-- The parts of a text between the occurrences of a separator, which is not empty. They are
looked for from left to right; the first `n` characters belong to the one found last. -/
def parts (separator : List Char) : Nat → List Char → List (List Char)
  | _, [] => [[]]
  | n + 1, _ :: cs => parts separator n cs
  | 0, c :: cs =>
    if separator.isPrefixOf (c :: cs) then [] :: parts separator (separator.length - 1) cs
    else (parts separator 0 cs).modifyHead (c :: ·)

def split (separator text : String) : List String :=
  (parts separator.toList 0 text.toList).map String.ofList

/-- The texts that were joined by a separator. Of no texts at all nothing is left to split. -/
def items (separator text : String) : List String :=
  if text = "" then [] else split separator text

def Clear (c : Char) (texts : List String) : Prop := ∀ t ∈ texts, t ≠ "" ∧ c ∉ t.toList

section

variable {c first : Char} {others part : List Char} {separator : String}
  {texts texts' : List String}

theorem parts_skip (separator skipped text : List Char) :
    parts separator skipped.length (skipped ++ text) = parts separator 0 text := by
  induction skipped with
  | nil => rfl
  | cons c cs ih => exact ih

theorem parts_cons (apart : first ≠ c) (cs : List Char) :
    parts (first :: others) 0 (c :: cs) = (parts (first :: others) 0 cs).modifyHead (c :: ·) := by
  rw [parts, if_neg]
  simp [apart]

theorem parts_of_not_mem (clean : first ∉ part) : parts (first :: others) 0 part = [part] := by
  induction part with
  | nil => rfl
  | cons c cs ih =>
    rw [List.mem_cons, not_or] at clean
    rw [parts_cons clean.1, ih clean.2]
    rfl

/-- A separator ends the part before it, and nothing of that part comes behind it. -/
theorem parts_append (clean : first ∉ part) (text : List Char) :
    parts (first :: others) 0 (part ++ (first :: others ++ text)) =
      part :: parts (first :: others) 0 text := by
  induction part with
  | nil =>
    rw [List.nil_append, List.cons_append, parts, if_pos (by simp)]
    exact congrArg _ (parts_skip _ others text)
  | cons c cs ih =>
    rw [List.mem_cons, not_or] at clean
    rw [List.cons_append, parts_cons clean.1, ih clean.2]
    rfl

theorem parts_intercalate {texts : List (List Char)} (nonempty : texts ≠ [])
    (clean : ∀ t ∈ texts, first ∉ t) :
    parts (first :: others) 0 ((first :: others).intercalate texts) = texts := by
  induction texts with
  | nil => contradiction
  | cons t texts ih =>
    obtain ⟨here, later⟩ := List.forall_mem_cons.1 clean
    cases texts with
    | nil => rw [List.intercalate_singleton, parts_of_not_mem here]
    | cons u texts =>
      rw [List.intercalate_cons_cons, List.append_assoc, parts_append here,
        ih (List.cons_ne_nil u texts) later]

theorem intercalate_eq_empty_iff (clear : Clear first texts) :
    separator.intercalate texts = "" ↔ texts = [] := by
  cases texts with
  | nil => simp
  | cons t texts =>
    have nonempty : t ≠ "" := (clear t List.mem_cons_self).1
    cases texts with
    | nil => simpa using nonempty
    | cons u texts => simp [nonempty]

theorem items_intercalate (begins : separator.toList = first :: others)
    (clear : Clear first texts) : items separator (separator.intercalate texts) = texts := by
  by_cases empty : texts = []
  · rw [empty, String.intercalate_nil]
    rfl
  · have nonempty := mt (@intercalate_eq_empty_iff first separator texts clear).1 empty
    have clean : ∀ t ∈ texts.map String.toList, first ∉ t :=
      List.forall_mem_map.2 fun t member => (clear t member).2
    rw [items, if_neg nonempty, split, String.toList_intercalate, begins,
      parts_intercalate (by simpa using empty) clean, List.map_map]
    simp [Function.comp_def]

/-- A minus sign is not taken for the beginning of an arrow. -/
example : items " -> " "-1 -> 23 -> -4" = ["-1", "23", "-4"] := by decide

theorem intercalate_injective (begins : separator.toList = first :: others)
    (clear : Clear first texts) (clear' : Clear first texts')
    (same : separator.intercalate texts = separator.intercalate texts') : texts = texts' := by
  rw [← items_intercalate begins clear, same, items_intercalate begins clear']

theorem bracketed_injective (clear : Clear ',' texts) (clear' : Clear ',' texts')
    (same : bracketed texts = bracketed texts') : texts = texts' := by
  have inside : ", ".intercalate texts = ", ".intercalate texts' := by
    simpa [bracketed] using same
  exact intercalate_injective rfl clear clear' inside

theorem indented_cons (t : String) (texts : List String) :
    indented (t :: texts) = "    " ++ t ++ ",\n" ++ indented texts := by
  simp [indented]

/-- Between two parts stand the end of a line and the indentation of the next. -/
theorem indented_eq (t : String) (texts : List String) :
    indented (t :: texts) = "    " ++ ",\n    ".intercalate (t :: texts) ++ ",\n" := by
  have separator : ",\n    " = ",\n" ++ "    " := rfl
  induction texts generalizing t with
  | nil => simp [indented]
  | cons u texts ih =>
    rw [indented_cons, ih u, String.intercalate_cons_cons, separator]
    simp only [String.append_assoc]

theorem bracketedLines_cons_ne (t : String) (texts : List String) :
    bracketedLines (t :: texts) ≠ bracketedLines [] := by
  intro same
  have characters := congrArg String.toList same
  simp [bracketedLines] at characters

theorem bracketedLines_injective (clear : Clear ',' texts) (clear' : Clear ',' texts')
    (same : bracketedLines texts = bracketedLines texts') : texts = texts' := by
  cases texts with
  | nil =>
    cases texts' with
    | nil => rfl
    | cons u texts' => exact absurd same.symm (bracketedLines_cons_ne u texts')
  | cons t texts =>
    cases texts' with
    | nil => exact absurd same (bracketedLines_cons_ne t texts)
    | cons u texts' =>
      have inside : ",\n    ".intercalate (t :: texts) = ",\n    ".intercalate (u :: texts') := by
        simpa [bracketedLines, indented_eq] using same
      exact intercalate_injective rfl clear clear' inside

end

end Text

namespace Numeral

theorem write_ne_nil (n : Int) : write n ≠ [] := by
  rw [write]
  split
  · exact List.cons_ne_nil _ _
  · exact digits_ne_nil _

theorem text_injective {m n : Int} (same : text m = text n) : m = n := by
  have denotes := denotes_iff.1 (denotes_write m)
  rw [String.ofList_injective same] at denotes
  exact denotes.2.trans (denotes_iff.1 (denotes_write n)).2.symm

end Numeral

namespace Chain

/-- What is written of a chain as a line: nothing at all if it is empty. -/
def line (c : Chain) : String := if c.toList = [] then "" else c.display ++ "\n"

/-- Printing a chain comes to one write of its line, whatever the sink holds already. -/
theorem print_eq_write (c : Chain) : c.print Sink.write = Sink.write c.line := by
  cases c with
  | empty => exact Sink.write_empty.symm
  | link v rest =>
    have joined : String.join ((link v rest).pieces ++ ["\n"]) = (link v rest).line := by
      simp [line, display]
    rw [← joined]
    exact Sink.forM_write _

/-- A chain printed into a sink of any capacity, or of none. As many bytes of its line are kept
as there is room for, wherever in the line the room ends; printing fails if those are not all.
Nothing is written of the empty chain, and that always fits. -/
theorem print_fills (c : Chain) (capacity : Option Nat) (refuses : Bool) :
    let line := if c.toList = [] then "" else c.display ++ "\n"
    let sink : Sink := { capacity, refusesFlush := refuses }
    let filled : Sink := { sink with written := Sink.kept capacity line }
    (c.print Sink.write sink =
        if Sink.Admits capacity line.utf8ByteSize then .ok () filled else .error .full filled) ∧
      Fault.full.message = "failed to write whole buffer" := by
  intro line sink filled
  rw [print_eq_write]
  exact ⟨Sink.write_first rfl line, rfl⟩

theorem toList_eq_of_numerals {a b : Chain} (same : a.numerals = b.numerals) :
    a.toList = b.toList :=
  List.map_injective_iff.2 (fun _ _ alike => Int32.toInt_inj.1 (Numeral.text_injective alike)) same

theorem clear_numerals {mark : Char} (other : Numeral.isMark mark = false) (c : Chain) :
    Text.Clear mark c.numerals := by
  refine List.forall_mem_map.2 fun v _ => ⟨fun empty => ?_, fun member => ?_⟩
  · have bare := congrArg String.toList empty
    rw [Numeral.text, String.toList_ofList] at bare
    exact Numeral.write_ne_nil v.toInt bare
  · rw [Numeral.text, String.toList_ofList] at member
    have isMark := Numeral.isMark_of_mem_denotes (Numeral.denotes_write v.toInt) member
    rw [other] at isMark
    contradiction

theorem items_display (c : Chain) : Text.items arrow c.display = c.numerals := by
  rw [display_eq_intercalate]
  exact Text.items_intercalate rfl (clear_numerals (by decide : Numeral.isMark ' ' = false) c)

/-- No written form loses anything of a chain. Its line form falls apart at the arrows into the
numerals of its values, in their order, and is empty for the empty chain alone; and chains are
written alike in any one of the three forms only if they hold the same values. -/
theorem renderings_lose_nothing :
    (∀ c : Chain, (if c.display = "" then [] else Text.split " -> " c.display) =
        c.toList.map fun v => Numeral.text v.toInt) ∧
      (∀ c : Chain, c.display = "" ↔ c.toList = []) ∧
      ∀ a b : Chain, (a.display = b.display ↔ a.toList = b.toList) ∧
        (a.bracketed = b.bracketed ↔ a.toList = b.toList) ∧
        (a.bracketedLines = b.bracketedLines ↔ a.toList = b.toList) := by
  have commas := @clear_numerals ',' (by decide)
  refine ⟨items_display, fun c => ?_, fun a b => ⟨⟨fun same => ?_, fun values => ?_⟩,
    ⟨fun same => ?_, fun values => ?_⟩, ⟨fun same => ?_, fun values => ?_⟩⟩⟩
  · have empty := @Text.intercalate_eq_empty_iff ',' arrow c.numerals (commas c)
    rw [display_eq_intercalate, empty, numerals, List.map_eq_nil_iff]
  · have parts := congrArg (Text.items arrow) same
    rw [items_display, items_display] at parts
    exact toList_eq_of_numerals parts
  · rw [toList_injective values]
  · exact toList_eq_of_numerals (Text.bracketed_injective (commas a) (commas b) same)
  · rw [toList_injective values]
  · exact toList_eq_of_numerals (Text.bracketedLines_injective (commas a) (commas b) same)
  · rw [toList_injective values]

end Chain
end LinesAndLists
