import LinesAndLists.Programs.ListProgram
import LinesAndLists.Proofs.Rendering
import LinesAndLists.Proofs.Sequences

/-! What the list program writes into a sink of any capacity: three texts, one behind the
other, each for a purpose of its own. The text in which the sink becomes full says what the
program was doing when it failed. -/
namespace LinesAndLists

open Session

variable {write : String → EStateM Fault Sink Unit} {flush : EStateM Fault Sink Unit}

theorem Chain.print_through (c : Chain) :
    c.print ((through write flush).write .printList) = onSink .printList (c.print write) := by
  unfold Chain.print
  split
  · rfl
  · exact writeAll_through write flush .printList _

namespace ListProgram

theorem build_through (values : List Int32) (c : Chain) (s : Session) :
    build (through write flush) values c s =
      .ok (values.foldl (fun c v => .link v c) c)
        { s with records := s.records ++ (values.map Chain.construction).toArray } := by
  -- A construction does nothing but leave a record, so the sink is the same throughout.
  induction values generalizing c s with
  | nil => simp [build, pure, EStateM.pure]
  | cons v values ih =>
    rw [build, log_bind, ih]
    simp

def lengthLine (a : Arguments) : String := "Length: " ++ Numeral.text a.values.length ++ "\n"

def numerals (a : Arguments) : List String := a.values.reverse.map fun v => Numeral.text v.toInt

def valuesLine (a : Arguments) : String :=
  if a.values = [] then "" else " -> ".intercalate (numerals a) ++ "\n"

def indexLine (a : Arguments) : String :=
  "idx " ++ Numeral.text a.target.toInt ++ ": " ++
    Numeral.text (Chain.firstIndex a.target a.values.reverse) ++ "\n"

def output (a : Arguments) : String := lengthLine a ++ valuesLine a ++ indexLine a

def records (a : Arguments) : List Record :=
  (a.values.map fun v => ⟨.trace, "construct " ++ Numeral.text v.toInt⟩) ++
    [⟨.debug, "built [" ++ ", ".intercalate (numerals a) ++ "]"⟩]

theorem numerals_collect (a : Arguments) : (Chain.collect a.values).numerals = numerals a := by
  simp only [Chain.numerals, Chain.toList_collect, numerals]

theorem line_collect (a : Arguments) : (Chain.collect a.values).line = valuesLine a := by
  simp only [Chain.line, Chain.display_eq_intercalate, numerals_collect, Chain.toList_collect,
    List.reverse_eq_nil_iff, valuesLine, Chain.arrow]

def report (io : Channel (EStateM Failure Session)) (a : Arguments) :
    EStateM Failure Session Unit := do
  let c := Chain.collect a.values
  io.writeAll .writeLength ["Length: ", Numeral.text c.length, "\n"]
  c.print (io.write .printList)
  io.writeAll .writeIndex
    ["idx ", Numeral.text a.target.toInt, ": ", Numeral.text (c.indexOf a.target), "\n"]

theorem bracketed_collect (a : Arguments) :
    "built " ++ (Chain.collect a.values).bracketed =
      "built [" ++ ", ".intercalate (numerals a) ++ "]" := by
  have opening : "built " ++ "[" = "built [" := rfl
  simp only [Chain.bracketed, numerals_collect, Text.bracketed, ← opening, String.append_assoc]

theorem run_logged (write : String → EStateM Fault Sink Unit) (flush : EStateM Fault Sink Unit)
    (a : Arguments) (sink : Sink) :
    run (through write flush) a { sink } =
      report (through write flush) a { sink, records := (records a).toArray } := by
  have built : build (through write flush) a.values .empty { sink } = .ok (Chain.collect a.values)
      { sink, records := (a.values.map Chain.construction).toArray } := by
    simpa [Chain.collect] using build_through a.values .empty { sink }
  rw [run, bind_of_ok built, log_bind, List.push_toArray, bracketed_collect]
  rfl

theorem report_eq (a : Arguments) (flush : EStateM Fault Sink Unit) :
    report (through Sink.write flush) a = (do
      onSink .writeLength (Sink.write (lengthLine a))
      onSink .printList (Sink.write (valuesLine a))
      onSink .writeIndex (Sink.write (indexLine a))) := by
  have length := @writeAll_eq (lengthLine a) flush .writeLength
    ["Length: ", Numeral.text (Chain.collect a.values).length, "\n"]
    (by simp [Chain.length_eq, lengthLine, String.append_assoc])
  have index := @writeAll_eq (indexLine a) flush .writeIndex
    ["idx ", Numeral.text a.target.toInt, ": ",
      Numeral.text ((Chain.collect a.values).indexOf a.target), "\n"]
    (by simp [Chain.indexOf_eq, indexLine, String.append_assoc])
  simp only [report, length, index, Chain.print_through, Chain.print_eq_write, line_collect]

/-- The run over a sink with nothing in it. The first text that does not fit ends it, and
what is kept is the beginning of all the output all the same. -/
theorem run_through (a : Arguments) {sink : Sink} (empty : sink.written = .empty)
    (flush : EStateM Fault Sink Unit) :
    let s : Session := { sink := sink.holding (output a), records := (records a).toArray }
    run (through Sink.write flush) a { sink } =
      if s.Admits (lengthLine a) then
        if s.Admits (lengthLine a ++ valuesLine a) then
          if s.Admits (output a) then .ok () s else .error ⟨.writeIndex, .full⟩ s
        else .error ⟨.printList, .full⟩ s
      else .error ⟨.writeLength, .full⟩ s := by
  intro s
  let begun : Session := { sink, records := (records a).toArray }
  have begin : begun.holding "" = begun := holding_empty empty
  -- Each text names those still to come, so that a failure in any of them leaves the same sink.
  have first := @onSink_write_bind begun .writeLength "" (lengthLine a) begun.admits_empty
  rw [begin, String.empty_append] at first
  rw [run_logged, report_eq, first _ (valuesLine a ++ indexLine a), ← String.append_assoc]
  refine ite_congr rfl (fun length : begun.Admits (lengthLine a) => ?_) fun _ => rfl
  rw [onSink_write_bind length _ (indexLine a)]
  refine ite_congr rfl (fun values : begun.Admits (lengthLine a ++ valuesLine a) => ?_) fun _ => rfl
  have last := @onSink_write_bind begun .writeIndex _ (indexLine a) values pure ""
  rwa [bind_pure, String.append_empty] at last

theorem quiet_report (a : Arguments) : Quiet (report (through write flush) a) :=
  (quiet_all write flush _).bind fun _ =>
    (Chain.print_through _ ▸ quiet_onSink _).bind fun _ => quiet_all write flush _

/-- The program under a sink of any capacity, or of none. It writes three texts, of which as
many bytes are kept as there is room for; if those are not all, it fails in the text in which
the room ends. It never flushes. The log is the same over every sink. -/
theorem run_writes_report (a : Arguments) (capacity : Option Nat) (refuses : Bool) :
    let A := (lengthLine a).utf8ByteSize
    let B := (valuesLine a).utf8ByteSize
    let C := (indexLine a).utf8ByteSize
    let fits := Sink.Admits capacity
    let cause := "failed to write whole buffer"
    let sink : Sink := { capacity, refusesFlush := refuses }
    outcome (run channel a { sink }) =
        { written := Sink.kept capacity (lengthLine a ++ valuesLine a ++ indexLine a)
          records := records a
          failure :=
            if ¬ fits A then some ("failed to write length", cause)
            else if ¬ fits (A + B) then some ("failed to print list", cause)
            else if ¬ fits (A + B + C) then some ("failed to write index", cause)
            else none } ∧
      (∀ flush, run (through Sink.write flush) a { sink } = run channel a { sink }) ∧
      ∀ write flush sink, (outcome (run (through write flush) a { sink })).records = records a := by
  intro A B C fits cause sink
  have came := @run_through a sink rfl
  refine ⟨?_, ?_, ?_⟩
  · let s : Session := { sink := sink.holding (output a), records := (records a).toArray }
    have first : s.Admits (lengthLine a) ↔ fits A := Iff.rfl
    have second : s.Admits (lengthLine a ++ valuesLine a) ↔ fits (A + B) := by
      rw [Session.Admits, String.utf8ByteSize_append]
      rfl
    have third : s.Admits (output a) ↔ fits (A + B + C) := by
      rw [Session.Admits, output, String.utf8ByteSize_append, String.utf8ByteSize_append]
      rfl
    have ran := came Sink.flush
    simp only [s, first, second, third] at ran
    rw [channel_eq_through, ran]
    by_cases length : fits A
    · by_cases values : fits (A + B)
      · by_cases index : fits (A + B + C)
        · simp only [length, values, index, not_true, if_true, if_false]
          rfl
        · simp only [length, values, index, not_true, not_false_eq_true, if_true, if_false]
          rfl
      · simp only [length, values, not_true, not_false_eq_true, if_true, if_false]
        rfl
    · simp only [length, not_false_eq_true, if_true, if_false]
      rfl
  · intro flush
    rw [channel_eq_through]
    exact (came flush).trans (came Sink.flush).symm
  · intro write flush sink
    have kept := @quiet_report write flush a { sink, records := (records a).toArray }
    rw [run_logged, records_outcome, kept]

end ListProgram
end LinesAndLists
