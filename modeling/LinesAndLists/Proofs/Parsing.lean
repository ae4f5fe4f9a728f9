import LinesAndLists.CommandLine.Parser
import LinesAndLists.Proofs.Spelling

/-! What is relied on of a parser of command lines, whatever it does otherwise. Its rules are
about one argument behind others that are understood already; from them follows what comes of a
whole command line that lists values, wherever the two hyphens stand that end the options. -/
namespace LinesAndLists.CommandLine

/-- If the text begins with a hyphen, a digit comes next. -/
def PlainOrNegative (text : String) : Prop :=
  text.toList.head? = some '-' → text.toList[1]?.any Char.isDigit = true

instance (text : String) : Decidable (PlainOrNegative text) :=
  inferInstanceAs (Decidable (_ → _))

/-- If the text begins with a hyphen, digits come next and nothing else. -/
def PlainOrNumeral (text : String) : Prop :=
  ∀ rest, text.toList = '-' :: rest → Numeral.Digits rest

/-- Texts that are values and no options. -/
def Signature.Admits {α : Type} (g : Signature α) (text : String) : Prop :=
  if g.takesHyphens then PlainOrNegative text else PlainOrNumeral text

/-- So many values may stand outside options. -/
def Places.HasRoom : Places → Nat → Prop
  | .each parameters, count => count ≤ parameters.length
  | .many _, _ => True

/-- The rules for the arguments of a signature. Arguments are understood in order: each rule
says what one of them adds to what those before it gave. -/
structure Parser.Follows {α : Type} (parser : Parser) (g : Signature α) : Prop where
  nothing : parser.scan g [] = .ok {}
  value : ∀ {before : List String} {m : Matches α} {text : String} {v : α},
    parser.scan g before = .ok m → g.places.HasRoom (m.values.length + 1) →
    g.Admits text → g.read text = .ok v →
    parser.scan g (before ++ [text]) = .ok (m.add v)
  escape : ∀ {before : List String} {m : Matches α},
    parser.scan g before = .ok m → "--" ∉ before →
    parser.scan g (before ++ ["--"]) = .ok m
  -- Behind two hyphens everything is a value.
  trailing : ∀ {before : List String} {m : Matches α} {text : String} {v : α},
    parser.scan g before = .ok m → "--" ∈ before → g.places.HasRoom (m.values.length + 1) →
    g.read text = .ok v →
    parser.scan g (before ++ [text]) = .ok (m.add v)
  -- The value of an option may be negative, too.
  apart : ∀ {before : List String} {m : Matches α} {name text : String} {v : α},
    parser.scan g before = .ok m → "--" ∉ before → (g.options.lookup name).isSome →
    m.options.lookup name = none → PlainOrNumeral text → g.read text = .ok v →
    parser.scan g (before ++ ["--" ++ name, text]) = .ok (m.set name v)
  attached : ∀ {before : List String} {m : Matches α} {name text : String} {v : α},
    parser.scan g before = .ok m → "--" ∉ before → (g.options.lookup name).isSome →
    m.options.lookup name = none → g.read text = .ok v →
    parser.scan g (before ++ ["--" ++ name ++ "=" ++ text]) = .ok (m.set name v)
  -- The first value that cannot be read is at fault, whichever values come behind it.
  refuse : ∀ {before after : List String} {m : Matches α} {text : String} {parameter : Parameter}
      {reason : Reason},
    parser.scan g before = .ok m → g.places.next? m.values.length = some parameter →
    g.places.HasRoom (m.values.length + 1 + after.length) →
    g.Admits text → (∀ t ∈ after, g.Admits t) → g.read text = .error reason →
    parser.scan g (before ++ text :: after) =
      .error (.invalidValue parameter.label text reason)
  -- A parameter without a value on the command line has its defaults.
  complete : ∀ {m : Matches α} {defaults : Parameter → List α},
    (∀ p ∈ g.places.missing m.values.length ++ (g.absent m).map Prod.snd,
      p.defaults.map g.read = (defaults p).map .ok) →
    parser.complete g m =
      .ok ⟨m.values ++ (g.places.missing m.values.length).flatMap defaults,
        m.options ++ (g.absent m).flatMap fun option => (defaults option.2).map (option.1, ·)⟩

def Parser.ReadsNumerals (parser : Parser) : Prop :=
  ∀ v : Int32, parser.readInteger (Numeral.text v.toInt) = .ok v

/-- A fault, unlike what the user asked for, is told on the standard error alone. -/
def Parser.TellsFaults (parser : Parser) : Prop :=
  ∀ usage reason, reason ≠ .help → reason ≠ .version →
    (parser.report usage reason).exit = 2 ∧ (parser.report usage reason).stdout = ""

/-- Command lines that list the values in order. Two hyphens may stand at one place among
them. -/
inductive Lists {α : Type} (spell : α → String) : List α → List String → Prop where
  | plain (values : List α) : Lists spell values (values.map spell)
  | escaped (before after : List α) :
    Lists spell (before ++ after) (before.map spell ++ "--" :: after.map spell)

variable {α : Type} {parser : Parser} {g : Signature α} {m : Matches α} {count small : Nat}
  {text : String} {before texts : List String} {values : List α}

theorem plainOrNegative_write (n : Int) (rest : List Char) :
    PlainOrNegative (String.ofList (Numeral.write n ++ rest)) := by
  have all := fun c => @Numeral.isDigit_of_mem_digits n.natAbs c
  obtain ⟨d, ds, digits⟩ := List.exists_cons_of_ne_nil (Numeral.digits_ne_nil n.natAbs)
  have digit : d.isDigit = true := all d (digits ▸ List.mem_cons_self)
  rw [PlainOrNegative, String.toList_ofList, Numeral.write, digits]
  split
  · intro _
    simpa using digit
  · intro hyphen
    have same : d = '-' := by simpa using hyphen
    rw [same] at digit
    exact absurd digit (by decide)

theorem plainOrNumeral_text (n : Int) : PlainOrNumeral (Numeral.text n) := by
  intro rest text
  have denotes := Numeral.denotes_write n
  rw [Numeral.text, String.toList_ofList] at text
  rw [text] at denotes
  exact (Numeral.denotes_iff.1 denotes).1

theorem PlainOrNumeral.plainOrNegative (plain : PlainOrNumeral text) : PlainOrNegative text := by
  intro hyphen
  obtain ⟨rest, cs⟩ := List.head?_eq_some_iff.1 hyphen
  obtain ⟨nonempty, digits⟩ := plain rest cs
  obtain ⟨d, ds, rfl⟩ := List.exists_cons_of_ne_nil nonempty
  rw [cs]
  simpa using digits d List.mem_cons_self

theorem Signature.Admits.plainOrNegative (admits : g.Admits text) : PlainOrNegative text := by
  unfold Signature.Admits at admits
  split at admits
  · exact admits
  · exact admits.plainOrNegative

theorem Signature.Admits.ne_escape (admits : g.Admits text) : text ≠ "--" := by
  rintro rfl
  exact absurd admits.plainOrNegative (by decide)

theorem escape_not_mem_map {spell : α → String} (admits : ∀ v, g.Admits (spell v))
    (values : List α) : "--" ∉ values.map spell := by
  intro member
  obtain ⟨v, _, escape⟩ := List.mem_map.1 member
  exact (admits v).ne_escape escape

theorem Places.HasRoom.mono {places : Places} (room : places.HasRoom count) (le : small ≤ count) :
    places.HasRoom small := by
  cases places with
  | each parameters => exact Nat.le_trans le room
  | many parameter => trivial

theorem Parser.Follows.scan_values (follows : parser.Follows g) (scanned : parser.scan g before = .ok m)
    (room : g.places.HasRoom (m.values.length + texts.length))
    (taken : "--" ∈ before ∨ ∀ t ∈ texts, g.Admits t)
    (read : texts.map g.read = values.map .ok) :
    parser.scan g (before ++ texts) = .ok { m with values := m.values ++ values } := by
  induction texts generalizing before m values with
  | nil =>
    rw [List.map_eq_nil_iff.1 read.symm, List.append_nil, List.append_nil]
    exact scanned
  | cons text texts ih =>
    obtain ⟨v, vs, rfl, first, others⟩ := List.map_eq_cons_iff.1 read.symm
    rw [List.length_cons] at room
    have one : g.places.HasRoom (m.values.length + 1) := room.mono (by omega)
    have next : parser.scan g (before ++ [text]) = .ok (m.add v) := by
      rcases taken with escaped | admits
      · exact follows.trailing scanned escaped one first.symm
      · exact follows.value scanned one (admits text List.mem_cons_self) first.symm
    have later : g.places.HasRoom ((m.add v).values.length + texts.length) := by
      refine room.mono (Nat.le_of_eq ?_)
      simp [Matches.add]
      omega
    have rest : "--" ∈ before ++ [text] ∨ ∀ t ∈ texts, g.Admits t :=
      taken.imp (List.mem_append_left _) fun admits t member =>
        admits t (List.mem_cons_of_mem text member)
    have all := ih next later rest others.symm
    simpa [Matches.add] using all

/-- A command line that lists values that can be read gives these values. -/
theorem Parser.Follows.scan_lists (follows : parser.Follows g) {spell : α → String}
    (admits : ∀ v, g.Admits (spell v)) (read : ∀ v, g.read (spell v) = .ok v)
    (lists : Lists spell values texts) (scanned : parser.scan g before = .ok m)
    (unescaped : "--" ∉ before) (room : g.places.HasRoom (m.values.length + values.length)) :
    parser.scan g (before ++ texts) = .ok { m with values := m.values ++ values } := by
  have reads (vs : List α) : (vs.map spell).map g.read = vs.map .ok := by
    simp [Function.comp_def, read]
  have admitted (vs : List α) : ∀ t ∈ vs.map spell, g.Admits t :=
    List.forall_mem_map.2 fun v _ => admits v
  cases lists with
  | plain =>
    exact follows.scan_values scanned (by rwa [List.length_map]) (.inr (admitted values)) (reads values)
  | escaped first last =>
    rw [List.length_append] at room
    have begun := follows.scan_values scanned (room.mono (by simp)) (.inr (admitted first)) (reads first)
    have apart : "--" ∉ before ++ first.map spell := by
      rw [List.mem_append, not_or]
      exact ⟨unescaped, escape_not_mem_map admits first⟩
    have escaped := follows.escape begun apart
    have all := follows.scan_values escaped (by simpa [Nat.add_assoc] using room)
      (.inl (List.mem_append_right _ List.mem_cons_self)) (reads last)
    simpa using all

end LinesAndLists.CommandLine
