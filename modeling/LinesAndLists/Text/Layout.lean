/-! Layouts for showing a value with its parts: a record of labelled fields and a
bracketed sequence, each on one line or with one part a line. The parts arrive
already written, so a layout knows nothing of what it shows. -/
namespace LinesAndLists.Text

/-- Every line is ended, also the last. -/
def lines (texts : List String) : String := String.join (texts.map (· ++ "\n"))

def truth (b : Bool) : String := if b then "true" else "false"

def labelled (name : String) (fields : List (String × String)) : String :=
  name ++ " \x7b " ++ ", ".intercalate (fields.map fun field => field.1 ++ ": " ++ field.2) ++ " \x7d"

def indented (parts : List String) : String :=
  String.join (parts.map fun part => "    " ++ part ++ ",\n")

def labelledLines (name : String) (fields : List (String × String)) : String :=
  name ++ " \x7b\n" ++ indented (fields.map fun field => field.1 ++ ": " ++ field.2) ++ "\x7d"

def bracketed (items : List String) : String :=
  "[" ++ ", ".intercalate items ++ "]"

/-- An empty sequence keeps its brackets on one line. -/
def bracketedLines (items : List String) : String :=
  if items.isEmpty then "[]" else "[\n" ++ indented items ++ "]"

end LinesAndLists.Text
