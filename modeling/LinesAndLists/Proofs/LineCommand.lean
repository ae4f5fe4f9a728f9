import LinesAndLists.Programs.Execution
import LinesAndLists.Proofs.LinePrinting
import LinesAndLists.Proofs.Settling

/-! The line program from its command line to its output and back. The points that it prints
are read again from the lines of its output, and the display form of a point is also one of
the arguments that it takes. An argument that is no point is found out before anything is
printed. -/
namespace LinesAndLists

theorem Text.splitOn_lines {texts : List String} (unbroken : ∀ t ∈ texts, '\n' ∉ t.toList) :
    (lines texts).toList.splitOn '\n' = texts.map String.toList ++ [[]] := by
  have joined : (lines texts).toList = ['\n'].intercalate (texts.map String.toList ++ [[]]) := by
    clear unbroken
    induction texts with
    | nil => simp [lines]
    | cons text texts ih =>
      have more : texts.map String.toList ++ [[]] ≠ [] := by simp
      obtain ⟨next, rest, others⟩ := List.exists_cons_of_ne_nil more
      simp [lines_cons, ih, others]
  rw [joined, List.splitOn_intercalate]
  · rw [List.forall_mem_append, List.forall_mem_map]
    exact ⟨unbroken, by simp⟩
  · simp

namespace LineProgram

open CommandLine

variable {parser : Parser} {texts : List String} {ps : List Point} {p q : Point}
  {text first second : String} {cause : Point.ReadError}

theorem readPoint_of_read (read : Point.read text = .ok p) : readPoint text = .ok p := by
  rw [readPoint, read]
  rfl

theorem readPoint_of_not_read (bad : Point.read text = .error cause) :
    readPoint text = .error (.point cause) := by
  rw [readPoint, bad]
  rfl

theorem plainOrNegative_display (p : Point) : PlainOrNegative p.display := by
  have written := plainOrNegative_write p.x.toInt (',' :: ' ' :: Numeral.write p.y.toInt)
  rwa [← Point.toList_display, String.ofList_toList] at written

def defaultPoint (parameter : Parameter) : Point :=
  if parameter = startParameter then ⟨0, 1⟩ else ⟨6, 4⟩

theorem arguments_of_scan (follows : parser.Follows signature) (few : ps.length ≤ 2)
    (scanned : parser.scan signature texts = .ok ⟨ps, []⟩) :
    arguments parser texts = .ok ⟨ps.getD 0 ⟨0, 1⟩, ps.getD 1 ⟨6, 4⟩⟩ := by
  have start : readPoint "0,1" = .ok ⟨0, 1⟩ := by decide +kernel
  have finish : readPoint "6,4" = .ok ⟨6, 4⟩ := by decide +kernel
  have completed := @Parser.Follows.complete _ _ _ follows ⟨ps, []⟩ (fun p => [defaultPoint p])
    fun parameter member => by
      have declared : parameter ∈ [startParameter, finishParameter] :=
        List.mem_of_mem_drop (by simpa [signature, Places.missing, Signature.absent] using member)
      rcases List.mem_pair.1 declared with rfl | rfl
      · exact congrArg (fun read => [read]) start
      · exact congrArg (fun read => [read]) finish
  have filled : ps ++ (signature.places.missing ps.length).flatMap (fun p => [defaultPoint p]) =
      [ps.getD 0 ⟨0, 1⟩, ps.getD 1 ⟨6, 4⟩] := by
    match ps, few with
    | [], _ => rfl
    | [_], _ => rfl
    | [_, _], _ => rfl
  have parsed : parser.parse signature texts =
      .ok ⟨[ps.getD 0 ⟨0, 1⟩, ps.getD 1 ⟨6, 4⟩], []⟩ := by
    rw [Parser.parse, scanned]
    refine completed.trans ?_
    rw [filled]
    rfl
  rw [arguments, parsed]
  rfl

theorem arguments_of_lists (follows : parser.Follows signature)
    (lists : Lists Point.display ps texts) (few : ps.length ≤ 2) :
    arguments parser texts = .ok ⟨ps.getD 0 ⟨0, 1⟩, ps.getD 1 ⟨6, 4⟩⟩ := by
  have read (p : Point) : signature.read p.display = .ok p := readPoint_of_read (Point.read_display p)
  have room : signature.places.HasRoom (0 + ps.length) := by simpa [signature, Places.HasRoom] using few
  exact arguments_of_scan follows few
    (follows.scan_lists plainOrNegative_display read lists follows.nothing List.not_mem_nil room)

theorem execute_of_arguments {a : Arguments} (understood : arguments parser texts = .ok a) :
    Program.line.executeWith parser texts = ⟨0, output a, ""⟩ := by
  let s : Session := { sink := ({} : Sink).holding (output a), records := (records a).toArray }
  have all : s.Admits (output a) := Session.admits_of_unlimited rfl _
  have ran : run Session.channel a {} = .ok () s :=
    (@run_through a {} rfl Sink.flush).trans (if_pos all)
  have started : Program.line.startWith parser texts = .ok (.line a) := by
    rw [Program.startWith, understood]
    rfl
  rw [Program.execute_of_run started ran, Sink.text_holding rfl]

/-- The lines of the output are those of the points, and each is read as its point. -/
theorem read_output (a : Arguments) : ∃ pieces,
    (output a).toList.splitOn '\n' = pieces ++ [[]] ∧
      pieces.map (fun cs => Point.read (String.ofList cs)) =
        (Line.points a.start a.finish).map .ok := by
  refine ⟨((Line.points a.start a.finish).map Point.display).map String.toList,
    Text.splitOn_lines (List.forall_mem_map.2 fun p _ => p.newline_not_mem_display), ?_⟩
  simp [Function.comp_def, Point.read_display]

theorem output_ne_empty (a : Arguments) : output a ≠ "" := by
  intro empty
  obtain ⟨pieces, cut, read⟩ := read_output a
  have nothing : pieces = [] := by
    rw [empty] at cut
    simpa using cut.symm
  have points : Line.points a.start a.finish = [] := by
    rw [nothing] at read
    simpa using read.symm
  have length := Frame.length_listed (Frame.between a.start a.finish)
  rw [← Line.points_eq_listed, points] at length
  exact Nat.succ_ne_zero _ length.symm

theorem hasRoom_two : signature.places.HasRoom 2 := Nat.le_refl 2

theorem arguments_pair (follows : parser.Follows signature) (plain : PlainOrNegative first)
    (plain' : PlainOrNegative second) (read : Point.read first = .ok p)
    (read' : Point.read second = .ok q) : arguments parser [first, second] = .ok ⟨p, q⟩ := by
  have values : [first, second].map signature.read = [p, q].map .ok := by
    simp [signature, readPoint_of_read read, readPoint_of_read read']
  have admits : ∀ t ∈ [first, second], signature.Admits t :=
    List.forall_mem_cons.2 ⟨plain, List.forall_mem_singleton.2 plain'⟩
  have scanned : parser.scan signature [first, second] = .ok ⟨[p, q], []⟩ := by
    refine follows.scan_values follows.nothing ?_ (.inr admits) values
    exact hasRoom_two
  exact @arguments_of_scan _ _ [p, q] follows (Nat.le_refl 2) scanned

theorem start_refuses (follows : parser.Follows signature) (plain : PlainOrNegative first)
    (plain' : PlainOrNegative second)
    (unreadable : ¬ ∃ p q, Point.read first = .ok p ∧ Point.read second = .ok q) :
    ∃ parameter text cause, (parameter, text) ∈ [("[FROM]", first), ("[TO]", second)] ∧
      Point.read text = .error cause ∧
      Program.line.startWith parser [first, second] =
        .error (.invalidValue parameter text (.point cause)) := by
  have stopped {reason : Stop} (scanned : parser.scan signature [first, second] = .error reason) :
      Program.line.startWith parser [first, second] = .error reason := by
    rw [Program.startWith, arguments, Parser.parse, scanned]
    rfl
  cases read : Point.read first with
  | error cause =>
    have refused := @Parser.Follows.refuse _ _ _ follows [] [second] _ first _ _
      follows.nothing rfl hasRoom_two plain (List.forall_mem_singleton.2 plain')
      (readPoint_of_not_read read)
    exact ⟨"[FROM]", first, cause, List.mem_cons_self, read, stopped refused⟩
  | ok p =>
    cases read' : Point.read second with
    | error cause =>
      have begun := follows.value follows.nothing (Nat.le_succ 1) plain (readPoint_of_read read)
      have refused := @Parser.Follows.refuse _ _ _ follows [first] [] _ second _ _
        begun rfl hasRoom_two plain' (List.forall_mem_nil _) (readPoint_of_not_read read')
      exact ⟨"[TO]", second, cause, List.mem_cons_of_mem _ List.mem_cons_self, read',
        stopped refused⟩
    | ok q => exact absurd ⟨p, q, read, read'⟩ unreadable

/-- The program prints the points of a segment so that reading its lines gives them back,
and succeeds without any complaint; the ends of the segment may be given in their display
form, and those that are not given have default values. Of any two arguments that are no
options it prints something if they are points. If not, it says which is the first of them
that is no point and why, and prints nothing. All this holds with any parser that keeps to
the rules. -/
theorem execute_reads_back (parser : Parser) (follows : parser.Follows signature)
    (faults : parser.TellsFaults) :
    (∀ (ps : List Point) (texts : List String), Lists Point.display ps texts → ps.length ≤ 2 →
      let e := Program.line.executeWith parser texts
      e.exit = 0 ∧ e.stderr = "" ∧ ∃ pieces, e.stdout.toList.splitOn '\n' = pieces ++ [[]] ∧
        pieces.map (fun cs => Point.read (String.ofList cs)) =
          (Line.points (ps.getD 0 ⟨0, 1⟩) (ps.getD 1 ⟨6, 4⟩)).map .ok) ∧
      ∀ first second, PlainOrNegative first → PlainOrNegative second →
        let e := Program.line.executeWith parser [first, second]
        let readable := ∃ p q, Point.read first = .ok p ∧ Point.read second = .ok q
        (e.stdout ≠ "" ↔ readable) ∧
          (¬ readable → e.exit = 2 ∧ e.stdout = "" ∧ ∃ parameter text cause,
            (parameter, text) ∈ [("[FROM]", first), ("[TO]", second)] ∧
            Point.read text = .error cause ∧
            Program.line.startWith parser [first, second] =
              .error (.invalidValue parameter text (.point cause))) := by
  refine ⟨?_, ?_⟩
  · intro ps texts lists few
    dsimp only
    rw [execute_of_arguments (arguments_of_lists follows lists few)]
    refine ⟨rfl, rfl, ?_⟩
    dsimp only
    exact read_output _
  · intro first second plain plain'
    dsimp only
    by_cases readable : ∃ p q, Point.read first = .ok p ∧ Point.read second = .ok q
    · obtain ⟨p, q, read, read'⟩ := readable
      rw [execute_of_arguments (arguments_pair follows plain plain' read read')]
      dsimp only
      exact ⟨iff_of_true (output_ne_empty ⟨p, q⟩) ⟨p, q, read, read'⟩,
        fun unreadable => absurd ⟨p, q, read, read'⟩ unreadable⟩
    · obtain ⟨parameter, text, cause, which, bad, stopped⟩ :=
        start_refuses follows plain plain' readable
      obtain ⟨exit, stdout⟩ := faults Program.line.usage
        (.invalidValue parameter text (.point cause)) (by simp) (by simp)
      rw [Program.execute_of_stop stopped]
      exact ⟨iff_of_false (fun printed => printed stdout) readable,
        fun _ => ⟨exit, stdout, parameter, text, cause, which, bad, stopped⟩⟩

theorem standard_follows : Parser.standard.Follows signature :=
  Parser.standard_follows _ (List.forall_mem_nil _)

/-- One end is given behind the two hyphens, and the other is left out. The second argument
of a pair begins with a minus sign, and is no point. -/
theorem execute_reads_back_defaults :
    Parser.standard.Follows signature ∧ Parser.standard.TellsFaults ∧
    Lists Point.display [⟨-2, 0⟩] ["--", "-2, 0"] ∧
      (∃ pieces, (Program.line.execute ["--", "-2, 0"]).stdout.toList.splitOn '\n' =
          pieces ++ [[]] ∧
        pieces.map (fun cs => Point.read (String.ofList cs)) =
          (Line.points ⟨-2, 0⟩ ⟨6, 4⟩).map .ok) ∧
      PlainOrNegative "3,4" ∧ PlainOrNegative "-2;0" ∧
      (Program.line.execute ["3,4", "-2;0"]).exit = 2 := by
  have faults := Parser.standard_tellsFaults
  obtain ⟨given, pair⟩ := execute_reads_back .standard standard_follows faults
  have lists : Lists Point.display [⟨-2, 0⟩] ["--", "-2, 0"] := by
    have display : (⟨-2, 0⟩ : Point).display = "-2, 0" := by decide +kernel
    have escaped : Lists Point.display [⟨-2, 0⟩] ["--", (⟨-2, 0⟩ : Point).display] :=
      .escaped [] [(⟨-2, 0⟩ : Point)]
    rwa [display] at escaped
  have plain : PlainOrNegative "3,4" := by decide
  have plain' : PlainOrNegative "-2;0" := by decide
  have bad : Point.read "-2;0" = .error (.missingSeparator "-2;0") := by decide +kernel
  have unreadable : ¬ ∃ p q, Point.read "3,4" = .ok p ∧ Point.read "-2;0" = .ok q := by
    rintro ⟨_, _, _, read⟩
    rw [bad] at read
    contradiction
  have printed := (given [⟨-2, 0⟩] ["--", "-2, 0"] lists (by decide)).2.2
  have refused := ((pair "3,4" "-2;0" plain plain').2 unreadable).1
  simp only [List.getD_cons_zero, List.getD_cons_succ, List.getD_nil] at printed
  exact ⟨standard_follows, faults, lists, printed, plain, plain', refused⟩

end LineProgram
end LinesAndLists
