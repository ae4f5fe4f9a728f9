import LinesAndLists.Programs.LineProgram
import LinesAndLists.Proofs.Filling
import LinesAndLists.Proofs.Mirroring
import LinesAndLists.Proofs.Spelling

/-! What the line program writes into a sink of any capacity. The points are popped one at a
time and each is written in several pieces, but what is kept is the beginning of one text,
which has a line for each point. Output is flushed once, behind all of it. -/
namespace LinesAndLists

namespace Text

theorem lines_cons (text : String) (texts : List String) :
    lines (text :: texts) = text ++ "\n" ++ lines texts := by
  simp [lines]

theorem count_newline_lines {texts : List String} (unbroken : ∀ t ∈ texts, '\n' ∉ t.toList) :
    (lines texts).toList.count '\n' = texts.length := by
  induction texts with
  | nil => simp [lines]
  | cons text texts ih =>
    obtain ⟨first, others⟩ := List.forall_mem_cons.1 unbroken
    have absent : text.toList.count '\n' = 0 := List.count_eq_zero.2 first
    simp [lines_cons, absent, ih others]

end Text

theorem Numeral.newline_not_mem_write (n : Int) : '\n' ∉ Numeral.write n := fun member =>
  absurd (isMark_of_mem_denotes (denotes_write n) member) (by decide)

theorem Point.newline_not_mem_display (p : Point) : '\n' ∉ p.display.toList := by
  simp [toList_display, Numeral.newline_not_mem_write]

namespace LineProgram

open Session

variable {f : Frame} {line : Line} {q : List Point}

/-- The points that a line holds are written as lines, in the order of the queue. -/
theorem writePoints_eq (upright : f.Upright) (holds : f.Holds line q)
    (flush : EStateM Fault Sink Unit) :
    writePoints (through Sink.write flush) q.length line =
      onSink .writePoint (Sink.write (Text.lines (q.map Point.display))) := by
  -- By induction on the queue, whose length is the limit: each turn pops its first entry.
  induction q generalizing line with
  | nil => exact (congrArg (onSink .writePoint) Sink.write_empty).symm
  | cons p q ih =>
    obtain ⟨next, popped, later⟩ := Frame.Reads.cons upright holds
    have joined : String.join (p.pieces ++ ["\n"]) = p.display ++ "\n" := by
      simp [Point.display]
    simp only [List.length_cons, writePoints, popped, writeAll_eq flush .writePoint joined, ih later]
    rw [← onSink_bind, Sink.write_append, List.map_cons, Text.lines_cons]

theorem quiet_writePoints (write : String → EStateM Fault Sink Unit)
    (flush : EStateM Fault Sink Unit) (limit : Nat) (line : Line) :
    Quiet (writePoints (through write flush) limit line) := by
  induction limit generalizing line with
  | zero => exact quiet_pure ()
  | succ limit ih =>
    rw [writePoints]
    split
    · exact quiet_pure ()
    · exact (quiet_all write flush _).bind fun _ => ih _

/-- The output of the program: a line for each point of the segment. -/
def output (a : Arguments) : String :=
  Text.lines ((Line.points a.start a.finish).map Point.display)

def records (a : Arguments) : List Record :=
  [Line.creation a.start a.finish,
   ⟨.debug, "rasterizing " ++ Numeral.text ((output a).toList.count '\n') ++ " points"⟩]

theorem size_between (a : Arguments) :
    (Line.between a.start a.finish).size = (output a).toList.count '\n' := by
  have size := Frame.Reads.size (Frame.upright_between a.start a.finish).holds_line
  have lines := @Text.count_newline_lines ((Line.points a.start a.finish).map Point.display)
    (List.forall_mem_map.2 fun p _ => p.newline_not_mem_display)
  rw [Line.points_eq_listed, List.length_map] at lines
  rw [output, Line.points_eq_listed, lines]
  exact size

theorem run_logged (write : String → EStateM Fault Sink Unit) (flush : EStateM Fault Sink Unit)
    (a : Arguments) (sink : Sink) :
    let l := Line.between a.start a.finish
    run (through write flush) a { sink } =
      (writePoints (through write flush) l.size l >>= fun _ => onSink .flushOutput flush)
        { sink, records := (records a).toArray } := by
  simp only [run, log_bind, records, ← size_between]
  rfl

theorem run_through (a : Arguments) {sink : Sink} (empty : sink.written = .empty)
    (flush : EStateM Fault Sink Unit) :
    let s : Session := { sink := sink.holding (output a), records := (records a).toArray }
    run (through Sink.write flush) a { sink } =
      if s.Admits (output a) then onSink .flushOutput flush s
      else .error ⟨.writePoint, .full⟩ s := by
  intro s
  have holds := (Frame.upright_between a.start a.finish).holds_line
  have written := writePoints_eq (Frame.upright_between a.start a.finish) holds flush
  rw [← Frame.Reads.size holds, ← Line.between_eq_line, ← Line.points_eq_listed] at written
  let begun : Session := { sink, records := (records a).toArray }
  have begin : begun.holding "" = begun := holding_empty empty
  have came := @onSink_write_bind begun .writePoint "" (output a) begun.admits_empty
    (fun _ => onSink .flushOutput flush) ""
  rw [begin, String.empty_append, String.append_empty] at came
  have ran := run_logged Sink.write flush a sink
  dsimp only at ran
  rw [written] at ran
  exact ran.trans came

/-- The program under a sink of any capacity, or of none, whose flush fails or not. It writes
a line for each point, as many bytes of them as there is room for. If they are not all, it
fails and flushes nothing, whatever flushing would do; otherwise it is the flush that
decides. The log is the same over every sink. -/
theorem run_writes_points (a : Arguments) (capacity : Option Nat) (refuses : Bool) :
    let fits := Sink.Admits capacity (output a).utf8ByteSize
    let sink : Sink := { capacity, refusesFlush := refuses }
    let s : Session :=
      { sink := { sink with written := Sink.kept capacity (output a) }
        records := (records a).toArray }
    outcome (run channel a { sink }) =
        { written := Sink.kept capacity (output a)
          records := records a
          failure :=
            if ¬ fits then some ("failed to write point", "failed to write whole buffer")
            else if refuses then some ("failed to flush output", "flush refused")
            else none } ∧
      (∀ flush, run (through Sink.write flush) a { sink } =
        if fits then onSink .flushOutput flush s else .error ⟨.writePoint, .full⟩ s) ∧
      ∀ write flush sink, (outcome (run (through write flush) a { sink })).records = records a := by
  intro fits sink s
  have flushed := @run_through a sink rfl
  refine ⟨?_, flushed, ?_⟩
  · have came := flushed Sink.flush
    rw [channel_eq_through]
    by_cases enough : fits
    · rw [came.trans (if_pos enough)]
      simp only [enough, not_true, if_false]
      cases refuses <;> rfl
    · rw [came.trans (if_neg enough)]
      simp only [enough, not_false_eq_true, if_true]
      rfl
  · intro write flush sink
    have quiet := (quiet_writePoints write flush (Line.between a.start a.finish).size
      (Line.between a.start a.finish)).bind fun _ => @quiet_onSink .flushOutput flush
    have kept := quiet { sink, records := (records a).toArray }
    rw [run_logged, records_outcome, kept]

end LineProgram
end LinesAndLists
