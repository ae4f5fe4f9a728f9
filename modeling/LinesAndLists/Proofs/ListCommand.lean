import LinesAndLists.Programs.Execution
import LinesAndLists.Proofs.ListPrinting
import LinesAndLists.Proofs.Settling

/-! The list program from its command line to its output. The values are gathered from both
sides of the option, so neither its place nor its form makes a difference to what is
printed; a value that is negative is not taken for an option, and neither is a target. -/
namespace LinesAndLists.ListProgram

open CommandLine

inductive Form where
  | attached
  | apart
  deriving DecidableEq, Repr

def Form.write : Form → Int32 → List String
  | .attached, target => ["--find=" ++ numeral target]
  | .apart, target => ["--find", numeral target]

/-- Command lines that give the values in order and, if there is one, the target. The
option may stand at any place. Two hyphens may stand at any place behind it, or at any place
at all if there is no option. -/
inductive Gives : List Int32 → Option Int32 → List String → Prop where
  | values {values : List Int32} {texts : List String} (lists : Lists numeral values texts) :
    Gives values none texts
  | option (before : List Int32) (form : Form) (target : Int32) {after : List Int32}
    {texts : List String} (lists : Lists numeral after texts) :
    Gives (before ++ after) (some target) (before.map numeral ++ form.write target ++ texts)

variable {parser : Parser} {m : Matches Int32} {values : List Int32} {target : Option Int32}
  {before texts : List String}

theorem admits_numeral (parser : Parser) (v : Int32) : (signature parser).Admits (numeral v) :=
  plainOrNumeral_text v.toInt

theorem scan_form (follows : parser.Follows (signature parser)) (numerals : parser.ReadsNumerals)
    (form : Form) (target : Int32) (scanned : parser.scan (signature parser) before = .ok m)
    (unescaped : "--" ∉ before) (unset : m.options.lookup "find" = none) :
    parser.scan (signature parser) (before ++ form.write target) = .ok (m.set "find" target) := by
  cases form with
  | attached => exact follows.attached scanned unescaped rfl unset (numerals target)
  | apart =>
    exact follows.apart scanned unescaped rfl unset (plainOrNumeral_text target.toInt)
      (numerals target)

theorem escape_not_mem_write (form : Form) (target : Int32) : "--" ∉ form.write target := by
  cases form with
  | attached =>
    have longer : "--find=" ++ numeral target ≠ "--" := fun same => by
      simpa using congrArg String.toList same
    simpa [Form.write] using longer.symm
  | apart =>
    have number := (admits_numeral .standard target).ne_escape
    simpa [Form.write] using number.symm

theorem scan_gives (follows : parser.Follows (signature parser)) (numerals : parser.ReadsNumerals)
    (gives : Gives values target texts) :
    parser.scan (signature parser) texts =
      .ok ⟨values, target.toList.map fun v => ("find", v)⟩ := by
  have admits := admits_numeral parser
  cases gives with
  | values lists =>
    exact follows.scan_lists admits numerals lists follows.nothing List.not_mem_nil trivial
  | option before form target lists =>
    have begun := follows.scan_lists admits numerals (.plain before) follows.nothing
      List.not_mem_nil trivial
    have apart := escape_not_mem_map admits before
    have found := scan_form follows numerals form target begun apart rfl
    have later : "--" ∉ before.map numeral ++ form.write target := by
      rw [List.mem_append, not_or]
      exact ⟨apart, escape_not_mem_write form target⟩
    exact follows.scan_lists admits numerals lists found later trivial

def defaultValues (parameter : Parameter) : List Int32 :=
  if parameter = valuesParameter then [3, 5, 4, 2] else [5]

theorem read_defaults (numerals : parser.ReadsNumerals) {parameter : Parameter}
    (declared : parameter = valuesParameter ∨ parameter = findParameter) :
    parameter.defaults.map parser.readInteger = (defaultValues parameter).map .ok := by
  have read (vs : List Int32) : (vs.map numeral).map parser.readInteger = vs.map .ok := by
    rw [List.map_map]
    exact List.map_congr_left fun v _ => numerals v
  rcases declared with rfl | rfl
  · exact read [3, 5, 4, 2]
  · exact read [5]

theorem arguments_of_gives (follows : parser.Follows (signature parser))
    (numerals : parser.ReadsNumerals) (gives : Gives values target texts) :
    arguments parser texts =
      .ok ⟨if values = [] then [3, 5, 4, 2] else values, target.getD 5⟩ := by
  let given : Matches Int32 := ⟨values, target.toList.map fun v => ("find", v)⟩
  have completed := @Parser.Follows.complete _ _ _ follows given defaultValues fun p member => by
    refine read_defaults numerals ((List.mem_append.1 member).imp (fun missing => ?_) fun absent => ?_)
    · simp only [signature, Places.missing] at missing
      split at missing <;> simp_all
    · obtain ⟨option, kept, rfl⟩ := List.mem_map.1 absent
      have declared := List.mem_of_mem_filter kept
      rw [List.mem_singleton.1 declared]
  have filled : values ++ ((signature parser).places.missing values.length).flatMap defaultValues =
      if values = [] then [3, 5, 4, 2] else values := by
    cases values <;> simp [signature, Places.missing, defaultValues]
  have parsed : parser.parse (signature parser) texts =
      .ok ⟨if values = [] then [3, 5, 4, 2] else values, [("find", target.getD 5)]⟩ := by
    rw [Parser.parse, scan_gives follows numerals gives]
    refine completed.trans ?_
    rw [filled]
    cases target <;> rfl
  rw [arguments, parsed]
  rfl

theorem execute_of_arguments {a : Arguments} (understood : arguments parser texts = .ok a) :
    Program.list.executeWith parser texts = ⟨0, output a, ""⟩ := by
  let s : Session := { sink := ({} : Sink).holding (output a), records := (records a).toArray }
  have all (text : String) : s.Admits text := Session.admits_of_unlimited rfl text
  have ran : run Session.channel a {} = .ok () s := by
    apply (@run_through a {} rfl Sink.flush).trans
    exact (if_pos (all _)).trans ((if_pos (all _)).trans (if_pos (all _)))
  have started : Program.list.startWith parser texts = .ok (.list a) := by
    rw [Program.startWith, understood]
    rfl
  rw [Program.execute_of_run started ran, Sink.text_holding rfl]

/-- The program prints the length, the values from the last to the first, and the first index
of the target among these, and succeeds without any complaint; and so it does for every
command line that gives the values and the target, with any parser that keeps to the rules.
Without values it takes four of its own, and without a target it looks for 5. -/
theorem execute_prints_report (parser : Parser) (follows : parser.Follows (signature parser))
    (numerals : parser.ReadsNumerals) (values : List Int32) (target : Option Int32)
    (texts : List String) (gives : Gives values target texts) :
    let a : Arguments := ⟨if values = [] then [3, 5, 4, 2] else values, target.getD 5⟩
    Program.list.executeWith parser texts =
      ⟨0, lengthLine a ++ valuesLine a ++ indexLine a, ""⟩ :=
  execute_of_arguments (arguments_of_gives follows numerals gives)

theorem standard_follows : Parser.standard.Follows (signature .standard) := by
  refine Parser.standard_follows _ fun option member => ?_
  rw [List.mem_singleton.1 member]
  constructor <;> decide

/-- Negative numbers on both sides of the option, and as its value. -/
theorem execute_prints_report_negative :
    Parser.standard.Follows (signature .standard) ∧ Parser.standard.ReadsNumerals ∧
      Gives [-7, 1, -2] (some (-2)) ["-7", "1", "--find", "-2", "--", "-2"] ∧
      Program.list.execute ["-7", "1", "--find", "-2", "--", "-2"] =
        ⟨0, "Length: 3\n-2 -> 1 -> -7\nidx -2: 0\n", ""⟩ := by
  have gives := Gives.option [-7, 1] .apart (-2) (.escaped [] [-2])
  have texts : [-7, 1].map numeral ++ Form.apart.write (-2) ++
      (([] : List Int32).map numeral ++ "--" :: [-2].map numeral) =
        ["-7", "1", "--find", "-2", "--", "-2"] := by decide +kernel
  rw [texts] at gives
  have numerals := Parser.standard_readsNumerals
  have printed := execute_prints_report .standard standard_follows numerals _ _ _ gives
  refine ⟨standard_follows, numerals, gives, printed.trans ?_⟩
  decide +kernel

end LinesAndLists.ListProgram
