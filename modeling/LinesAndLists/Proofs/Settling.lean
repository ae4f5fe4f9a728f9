import LinesAndLists.CommandLine.Standard
import LinesAndLists.Proofs.Parsing
import Mathlib.Data.List.Forall2

/-! The standard parser keeps to the rules. It looks at the arguments from left to right and does
not look back, so arguments that it understood make no difference to those behind them, but
for what they gave and whether the two hyphens stand among them. -/
namespace LinesAndLists.CommandLine

variable {α : Type} {g : Signature α} {m m' : Matches α} {used : Nat} {text : String}
  {before texts : List String} {item : Given} {items : List Item} {reason : Stop}
  {fault : Reason} {v : α}

/-- A text that is `PlainOrNegative` is no option, whatever else may be wrong with it. -/
theorem PlainOrNegative.word (plain : PlainOrNegative text) :
    Word.ofText text = .plain ∨ ∃ first others, first.isDigit = true ∧
      text.toList = '-' :: first :: others ∧ Word.ofText text = .short first others := by
  unfold PlainOrNegative at plain
  rw [Word.ofText]
  match cs : text.toList with
  | [] => exact .inl rfl
  | '-' :: [] =>
    rw [cs] at plain
    exact absurd (plain rfl) (by decide)
  | '-' :: first :: others =>
    rw [cs] at plain
    have digit : first.isDigit = true := by simpa using plain rfl
    have apart : first ≠ '-' := by
      rintro rfl
      exact absurd digit (by decide)
    refine .inr ⟨first, others, digit, rfl, ?_⟩
    unfold Word.ofChars
    split <;> simp_all
  | c :: cs =>
    unfold Word.ofChars
    split <;> simp_all

theorem isUnsigned_of_digits {cs : List Char} (digits : Numeral.Digits cs) :
    isUnsigned cs = true := by
  obtain ⟨nonempty, all⟩ := digits
  obtain ⟨d, ds, rfl⟩ := List.exists_cons_of_ne_nil nonempty
  obtain ⟨digit, others⟩ := List.forall_mem_cons.1 all
  have bare : ds.dropWhile Char.isDigit = [] := List.dropWhile_eq_nil_iff.2 others
  simp only [isUnsigned, digit, bare, isExponent, Bool.and_self]

theorem PlainOrNumeral.word (plain : PlainOrNumeral text) : Word.ofText text = .plain ∨
    ∃ first others, Word.ofText text = .short first others ∧
      isUnsigned (first :: others) = true := by
  rcases plain.plainOrNegative.word with word | ⟨first, others, -, cs, word⟩
  · exact .inl word
  · exact .inr ⟨first, others, word, isUnsigned_of_digits (plain _ cs)⟩

theorem PlainOrNumeral.isOptionValue (plain : PlainOrNumeral text) : isOptionValue text = true := by
  unfold CommandLine.isOptionValue
  rcases plain.word with word | ⟨first, others, word, unsigned⟩
  · rw [word]
  · rw [word]
    exact unsigned

theorem Signature.Admits.word (admits : g.Admits text) : Word.ofText text = .plain ∨
    ∃ first others, Word.ofText text = .short first others ∧ g.admits first others = true := by
  unfold Signature.Admits at admits
  by_cases takes : g.takesHyphens
  · rw [if_pos takes] at admits
    rcases admits.word with word | ⟨first, others, digit, -, word⟩
    · exact .inl word
    · have number : isLetter first = false := by
        simp only [isLetter, Bool.or_eq_false_iff, decide_eq_false_iff_not]
        constructor <;> rintro rfl <;> exact absurd digit (by decide)
      exact .inr ⟨first, others, word, by simp [Signature.admits, takes, number]⟩
  · rw [if_neg takes] at admits
    rcases admits.word with word | ⟨first, others, word, unsigned⟩
    · exact .inl word
    · exact .inr ⟨first, others, word, by simpa [Signature.admits, takes] using unsigned⟩

theorem word_eq_escape_iff : Word.ofText text = .escape ↔ text = "--" := by
  constructor
  · intro word
    have cs : text.toList = ['-', '-'] := by
      rw [Word.ofText] at word
      unfold Word.ofChars at word
      split at word <;> simp_all [Word.ofName]
      split at word <;> simp_all
    exact String.toList_inj.1 cs
  · rintro rfl
    decide

theorem overtaking_eq_some (came : overtaking item items = some reason) :
    ∃ rest, items = .stop reason :: rest := by
  unfold overtaking at came
  split at came
  · rename_i next rest
    have same : next = reason := by
      split at came
      · contradiction
      · split at came <;> simp_all
    exact ⟨rest, by rw [same]⟩
  · contradiction

theorem overtaking_values (texts others : List String) (items : List Item) :
    overtaking (.values texts) items = overtaking (.values others) items := by
  cases items with
  | nil => rfl
  | cons next items => cases next <;> rfl

namespace Signature

theorem settle_given (taken : g.take m item = .ok m') :
    g.settle m (.given item :: items) = g.settle m' items := by
  rw [settle]
  cases came : overtaking item items with
  | none => simp only [taken]
  | some reason =>
    obtain ⟨rest, rfl⟩ := overtaking_eq_some came
    rfl

theorem take_of_settle {last : Matches α} (settled : g.settle m (.given item :: items) = .ok last) :
    ∃ next, g.take m item = .ok next ∧ g.settle next items = .ok last := by
  rw [settle] at settled
  split at settled
  · contradiction
  · split at settled
    · contradiction
    · rename_i next taken
      exact ⟨next, taken, settled⟩

/-- A value in front of what follows, whether or not it is put together with that. -/
theorem settle_place (taken : g.takeValue m text = .ok m') (items : List Item) :
    g.settle m (g.place text items) = g.settle m' items := by
  have alone : g.take m (.values [text]) = .ok m' := by
    simp [take, taken, bind, Except.bind, pure, Except.pure]
  unfold Signature.place
  split
  · rename_i texts items
    -- Values in a row are either looked into together or one by one, with the same outcome.
    split
    · have both : g.take m (.values (text :: texts)) = g.take m' (.values texts) := by
        simp [take, taken, bind, Except.bind]
      rw [settle, settle, both, overtaking_values (text :: texts) texts]
    · exact settle_given alone
  · exact settle_given alone

theorem takeValue_of_settle {last : Matches α} (settled : g.settle m (g.place text items) = .ok last) :
    ∃ next, g.takeValue m text = .ok next ∧ g.settle next items = .ok last := by
  have head : ∃ texts rest, g.place text items = .given (.values (text :: texts)) :: rest := by
    unfold Signature.place
    split
    · split
      · exact ⟨_, _, rfl⟩
      · exact ⟨_, _, rfl⟩
    · exact ⟨_, _, rfl⟩
  obtain ⟨texts, rest, placed⟩ := head
  have settled' := settled
  rw [placed] at settled'
  obtain ⟨next, taken, _⟩ := take_of_settle settled'
  cases came : g.takeValue m text with
  | error reason => simp [take, came, bind, Except.bind] at taken
  | ok next => exact ⟨next, rfl, (settle_place came items).symm.trans settled⟩

theorem readFor_of_read (parameter : Parameter) (read : g.read text = .ok v) :
    g.readFor parameter text = .ok v := by
  rw [readFor, read]
  rfl

theorem readFor_of_not_read (parameter : Parameter) (bad : g.read text = .error fault) :
    g.readFor parameter text = .error (.invalidValue parameter.label text fault) := by
  rw [readFor, bad]
  rfl

theorem takeValue_of_read (free : g.isFree m.values.length = true) (read : g.read text = .ok v) :
    g.takeValue m text = .ok (m.add v) := by
  obtain ⟨parameter, next⟩ := Option.isSome_iff_exists.1 free
  simp only [takeValue, next, readFor_of_read parameter read]
  rfl

theorem takeValue_of_not_read {parameter : Parameter}
    (next : g.places.next? m.values.length = some parameter) (bad : g.read text = .error fault) :
    g.takeValue m text = .error (.invalidValue parameter.label text fault) := by
  simp only [takeValue, next, readFor_of_not_read parameter bad]
  rfl

theorem length_of_takeValue (taken : g.takeValue m text = .ok m') :
    m'.values.length = m.values.length + 1 := by
  cases next : g.places.next? m.values.length with
  | none => simp [takeValue, next] at taken
  | some parameter =>
    cases read : g.read text with
    | error fault =>
      rw [takeValue_of_not_read next read] at taken
      contradiction
    | ok v =>
      have free : g.isFree m.values.length = true := by simp [isFree, next]
      rw [takeValue_of_read free read, Except.ok.injEq] at taken
      simp [← taken, Matches.add]

theorem take_option {name : String} (parameter : Parameter) (attached : Bool)
    (unset : m.options.lookup name = none) (read : g.read text = .ok v) :
    g.take m (.option name parameter (some text) attached) = .ok (m.set name v) := by
  simp only [take, unset, Option.isSome_none, Bool.false_eq_true, if_false,
    readFor_of_read parameter read]
  rfl

theorem values_of_take_option {name : String} {parameter : Parameter} {attached : Bool}
    (taken : g.take m (.option name parameter (some text) attached) = .ok m') :
    m'.values = m.values := by
  simp only [take] at taken
  split at taken
  · contradiction
  · cases read : g.read text with
    | error fault =>
      rw [readFor_of_not_read parameter read] at taken
      contradiction
    | ok v =>
      rw [readFor_of_read parameter read] at taken
      cases taken
      rfl

theorem trailing_append {last : Matches α} (more : List String)
    (settled : g.settle m (g.trailing m.values.length texts) = .ok last) :
    g.settle m (g.trailing m.values.length (texts ++ more)) =
      g.settle last (g.trailing last.values.length more) := by
  induction texts generalizing m with
  | nil =>
    cases settled
    rfl
  | cons text texts ih =>
    rw [trailing] at settled
    split at settled
    · rename_i free
      obtain ⟨next, taken, rest⟩ := takeValue_of_settle settled
      rw [← length_of_takeValue taken] at rest
      rw [List.cons_append, trailing, if_pos free, settle_place taken, ← length_of_takeValue taken]
      exact ih rest
    · contradiction

/-- The items of the arguments that come next, once some were understood. -/
def resume (g : Signature α) (before : List String) (used : Nat) (texts : List String) :
    List Item :=
  if "--" ∈ before then g.trailing used texts else g.recognise used texts

theorem resume_append {spelling : List String} (unescaped : "--" ∉ spelling)
    (before more : List String) :
    g.resume (spelling ++ before) used more = g.resume before used more := by
  simp [resume, unescaped]

theorem recognise_escape : g.recognise used ("--" :: texts) = g.trailing used texts := by
  have word : Word.ofText "--" = .escape := by decide
  simp only [recognise, word]

theorem ne_escape_of_word {word : Word} (word_eq : Word.ofText text = word)
    (other : word ≠ .escape) : text ≠ "--" := by
  intro escape
  rw [word_eq_escape_iff.2 escape] at word_eq
  exact other word_eq.symm

theorem recognise_append_of_place {last : Matches α} {more : List String} (apart : text ≠ "--")
    (value : ∀ rest, g.recognise m.values.length (text :: rest) =
      g.place text (g.recognise (m.values.length + 1) rest))
    (ih : ∀ next : Matches α, next.values.length = m.values.length + 1 →
      g.settle next (g.recognise (m.values.length + 1) texts) = .ok last →
      g.settle next (g.recognise (m.values.length + 1) (texts ++ more)) =
        g.settle last (g.resume texts last.values.length more))
    (settled : g.settle m (g.place text (g.recognise (m.values.length + 1) texts)) = .ok last) :
    g.settle m (g.recognise m.values.length (text :: texts ++ more)) =
      g.settle last (g.resume (text :: texts) last.values.length more) := by
  obtain ⟨next, taken, rest⟩ := takeValue_of_settle settled
  have unescaped : "--" ∉ [text] := mt List.mem_singleton.1 apart.symm
  rw [List.cons_append, value, settle_place taken, ← List.singleton_append, resume_append unescaped]
  exact ih next (length_of_takeValue taken) rest

theorem recognise_append_of_option {last : Matches α} {more spelling : List String}
    {name value : String} {parameter : Parameter} {attached : Bool} (unescaped : "--" ∉ spelling)
    (option : ∀ rest, g.recognise m.values.length (spelling ++ rest) =
      .given (.option name parameter (some value) attached) :: g.recognise m.values.length rest)
    (ih : ∀ next : Matches α, next.values.length = m.values.length →
      g.settle next (g.recognise m.values.length texts) = .ok last →
      g.settle next (g.recognise m.values.length (texts ++ more)) =
        g.settle last (g.resume texts last.values.length more))
    (settled : g.settle m (.given (.option name parameter (some value) attached) ::
      g.recognise m.values.length texts) = .ok last) :
    g.settle m (g.recognise m.values.length (spelling ++ texts ++ more)) =
      g.settle last (g.resume (spelling ++ texts) last.values.length more) := by
  obtain ⟨next, taken, rest⟩ := take_of_settle settled
  have same : next.values.length = m.values.length := by rw [values_of_take_option taken]
  rw [List.append_assoc, option, settle_given taken, resume_append unescaped]
  exact ih next same rest

/-- Arguments that were understood are passed over, with what they gave. -/
theorem recognise_append {last : Matches α} (more : List String)
    (settled : g.settle m (g.recognise m.values.length texts) = .ok last) :
    g.settle m (g.recognise m.values.length (texts ++ more)) =
      g.settle last (g.resume texts last.values.length more) := by
  generalize counted : m.values.length = used at settled ⊢
  -- The cases that end in a stop cannot have been settled. In the others one argument, or an
  -- option with the argument behind it, is passed over and the rest is left to the hypothesis.
  fun_induction g.recognise used texts generalizing m with
  | case1 used =>
    cases settled
    rw [counted]
    simp [resume]
  | case2 used text texts word =>
    subst counted
    obtain rfl := word_eq_escape_iff.1 word
    rw [List.cons_append, recognise_escape, trailing_append more settled]
    simp [resume]
  | case3 used text texts word free ih =>
    subst counted
    refine recognise_append_of_place (ne_escape_of_word word (by simp)) (fun rest => ?_)
      (fun next grown => ih grown) settled
    simp only [recognise, word, free, if_true]
  | case5 used text texts first others word admitted ih =>
    subst counted
    refine recognise_append_of_place (ne_escape_of_word word (by simp)) (fun rest => ?_)
      (fun next grown => ih grown) settled
    simp only [recognise, word, admitted, if_true]
  | case9 used text name builtin parameter known value texts word ih =>
    subst counted
    have unescaped : "--" ∉ [text] :=
      mt List.mem_singleton.1 (ne_escape_of_word word (by simp)).symm
    refine recognise_append_of_option unescaped (fun rest => ?_) (fun next same => ih same) settled
    simp only [List.singleton_append, recognise, word, builtin, known]
    rfl
  | case10 used text name builtin parameter known word =>
    obtain ⟨next, taken, rest⟩ := take_of_settle settled
    contradiction
  | case11 used text name builtin parameter known value texts isValue word ih =>
    subst counted
    have apart := ne_escape_of_word word (by simp)
    have apart' : value ≠ "--" := by
      rintro rfl
      exact absurd isValue (by decide)
    have unescaped : "--" ∉ [text, value] := by simp [apart.symm, apart'.symm]
    refine recognise_append_of_option unescaped (fun rest => ?_) (fun next same => ih same) settled
    rw [List.cons_append, List.singleton_append, recognise]
    simp only [word, builtin, known, isValue, if_true]
    rfl
  | case12 used text name builtin parameter known value texts isValue word =>
    obtain ⟨next, taken, rest⟩ := take_of_settle settled
    contradiction
  | case13 used text texts name value word builtin unknown admitted ih =>
    subst counted
    refine recognise_append_of_place (ne_escape_of_word word (by simp)) (fun rest => ?_)
      (fun next grown => ih grown) settled
    simp only [recognise, word, builtin, unknown, admitted, if_true]
    rfl
  | case4 | case6 | case7 | case8 | case14 => contradiction

@[simp] theorem resume_nil (g : Signature α) (before : List String) (used : Nat) :
    g.resume before used [] = [] := by
  unfold resume
  split <;> rfl

theorem resume_of_not_mem (unescaped : "--" ∉ before) (used : Nat) (texts : List String) :
    g.resume before used texts = g.recognise used texts := if_neg unescaped

theorem recognise_value (free : g.isFree used = true) (admits : g.Admits text)
    (texts : List String) :
    g.recognise used (text :: texts) = g.place text (g.recognise (used + 1) texts) := by
  rcases admits.word with word | ⟨first, others, word, admitted⟩
  · simp only [recognise, word, free, if_true]
  · simp only [recognise, word, free, admitted, Bool.and_self, if_true]

theorem resume_value (free : g.isFree used = true) (taken : "--" ∈ before ∨ g.Admits text)
    (texts : List String) :
    g.resume before used (text :: texts) = g.place text (g.resume before (used + 1) texts) := by
  by_cases escaped : "--" ∈ before
  · simp only [resume, escaped, if_true, trailing, free]
  · rw [resume_of_not_mem escaped, resume_of_not_mem escaped]
    exact recognise_value free (taken.resolve_left escaped) texts

theorem isFree_of_hasRoom (room : g.places.HasRoom (used + 1)) : g.isFree used = true := by
  unfold isFree Places.next?
  cases places : g.places with
  | each parameters =>
    rw [places] at room
    simpa [Places.HasRoom, Nat.succ_le_iff] using room
  | many parameter => rfl

def Calm (items : List Item) : Prop := ∀ reason, .stop reason ∉ items

theorem overtaking_of_calm (calm : Calm items) (item : Given) : overtaking item items = none := by
  cases came : overtaking item items with
  | none => rfl
  | some reason =>
    obtain ⟨rest, rfl⟩ := overtaking_eq_some came
    exact absurd List.mem_cons_self (calm reason)

theorem calm_place (calm : Calm items) (text : String) : Calm (g.place text items) := by
  intro reason
  have before := calm reason
  unfold Signature.place
  split
  · split <;> simp_all
  · simp_all

theorem calm_resume (room : g.places.HasRoom (used + texts.length))
    (admits : ∀ t ∈ texts, g.Admits t) (before : List String) :
    Calm (g.resume before used texts) := by
  induction texts generalizing used with
  | nil => simp [Calm]
  | cons text texts ih =>
    obtain ⟨here, later⟩ := List.forall_mem_cons.1 admits
    rw [List.length_cons, Nat.add_comm texts.length, ← Nat.add_assoc] at room
    have free := isFree_of_hasRoom (room.mono (Nat.le_add_right _ _))
    rw [resume_value free (.inr here)]
    exact calm_place (ih room later) text

theorem settle_place_refused (bad : g.takeValue m text = .error reason) (calm : Calm items) :
    g.settle m (g.place text items) = .error reason := by
  have refused (texts : List String) : g.take m (.values (text :: texts)) = .error reason := by
    simp [take, bad, bind, Except.bind]
  -- A stop further on might come before the refusal; that is why there must be none.
  unfold Signature.place
  split
  · rename_i texts items
    have rest : Calm items := fun other member => calm other (List.mem_cons_of_mem _ member)
    split
    · simp only [settle, overtaking_of_calm rest, refused]
    · simp only [settle, overtaking_of_calm calm, refused]
  · simp only [settle, overtaking_of_calm calm, refused]

end Signature

theorem Word.ofText_long {name : String} (nonempty : name ≠ "") :
    Word.ofText ("--" ++ name) = .ofName name.toList := by
  obtain ⟨c, cs, same⟩ := List.exists_cons_of_ne_nil (mt String.toList_eq_nil_iff.1 nonempty)
  rw [Word.ofText, String.toList_append, same]
  rfl

/-- A name that an option can have: nothing stands for it already, and it has an end. -/
structure IsOptionName (name : String) : Prop where
  nonempty : name ≠ ""
  help : name ≠ "help"
  version : name ≠ "version"
  closed : '=' ∉ name.toList

namespace Signature

theorem recognise_apart {name value : String} {parameter : Parameter}
    (valid : IsOptionName name) (known : g.options.lookup name = some parameter)
    (plain : PlainOrNumeral value) (texts : List String) :
    g.recognise used (("--" ++ name) :: value :: texts) =
      .given (.option name parameter (some value) false) :: g.recognise used texts := by
  have word : Word.ofText ("--" ++ name) = .long name none := by
    rw [Word.ofText_long valid.nonempty, Word.ofName, Text.cut?_eq_none_iff.2 valid.closed,
      String.ofList_toList]
  rw [recognise]
  simp [word, valid.help, valid.version, known, plain.isOptionValue]

theorem recognise_attached {name value : String} {parameter : Parameter}
    (valid : IsOptionName name) (known : g.options.lookup name = some parameter)
    (texts : List String) :
    g.recognise used (("--" ++ name ++ "=" ++ value) :: texts) =
      .given (.option name parameter (some value) true) :: g.recognise used texts := by
  have word : Word.ofText ("--" ++ name ++ "=" ++ value) = .long name (some value) := by
    have nonempty : name ++ "=" ++ value ≠ "" := by simp
    have cs : (name ++ "=" ++ value).toList = name.toList ++ '=' :: value.toList := by simp
    have together : "--" ++ name ++ "=" ++ value = "--" ++ (name ++ "=" ++ value) := by
      simp only [String.append_assoc]
    rw [together, Word.ofText_long nonempty, cs, Word.ofName, Text.cut?_append _ valid.closed]
    simp only [String.ofList_toList]
  rw [recognise]
  simp [word, valid.help, valid.version, known]

end Signature

section

variable {β γ : Type} {f : β → Except Stop γ} {xs : List β} {ys : List γ}

theorem mapM_of_forall₂ (each : List.Forall₂ (fun x y => f x = .ok y) xs ys) :
    xs.mapM f = .ok ys := by
  induction each with
  | nil => rfl
  | cons first _ ih => simp [List.mapM_cons, first, ih, bind, Except.bind, pure, Except.pure]

theorem mapM_of_forall {result : β → γ} (all : ∀ x ∈ xs, f x = .ok (result x)) :
    xs.mapM f = .ok (xs.map result) :=
  mapM_of_forall₂ (List.forall₂_map_right_iff.2 (List.forall₂_same.2 all))

end

theorem Signature.readDefaults_eq {parameter : Parameter} {values : List α}
    (read : parameter.defaults.map g.read = values.map .ok) :
    g.readDefaults parameter = .ok values := by
  have each : List.Forall₂ Eq (parameter.defaults.map g.read) (values.map .ok) :=
    List.forall₂_eq_eq_eq ▸ read
  rw [List.forall₂_map_left_iff, List.forall₂_map_right_iff] at each
  exact mapM_of_forall₂ (each.imp fun _ _ => readFor_of_read parameter)

theorem isOptionName_of_known {name : String} (valid : ∀ option ∈ g.options, IsOptionName option.1)
    (known : (g.options.lookup name).isSome) : IsOptionName name := by
  obtain ⟨option, member, same⟩ := List.lookup_isSome_iff.1 known
  exact eq_of_beq same ▸ valid option member

namespace Parser

theorem standard_scan_append (scanned : standard.scan g before = .ok m) (more : List String) :
    standard.scan g (before ++ more) = g.settle m (g.resume before m.values.length more) :=
  Signature.recognise_append more scanned

theorem standard_scan_value (scanned : standard.scan g before = .ok m)
    (room : g.places.HasRoom (m.values.length + 1)) (taken : "--" ∈ before ∨ g.Admits text)
    (read : g.read text = .ok v) : standard.scan g (before ++ [text]) = .ok (m.add v) := by
  have free := Signature.isFree_of_hasRoom room
  rw [standard_scan_append scanned, Signature.resume_value free taken,
    Signature.settle_place (Signature.takeValue_of_read free read), Signature.resume_nil]
  rfl

theorem standard_scan_option {spelling : List String} {name : String} {parameter : Parameter}
    {attached : Bool} (scanned : standard.scan g before = .ok m) (unescaped : "--" ∉ before)
    (unset : m.options.lookup name = none) (read : g.read text = .ok v)
    (option : g.recognise m.values.length spelling =
      [.given (.option name parameter (some text) attached)]) :
    standard.scan g (before ++ spelling) = .ok (m.set name v) := by
  rw [standard_scan_append scanned, Signature.resume_of_not_mem unescaped, option,
    Signature.settle_given (Signature.take_option parameter attached unset read)]
  rfl

/-- The standard parser keeps to the rules for every signature whose options have names that
are their own. -/
theorem standard_follows (g : Signature α) (valid : ∀ option ∈ g.options, IsOptionName option.1) :
    standard.Follows g where
  nothing := rfl
  value scanned room admits read := standard_scan_value scanned room (.inr admits) read
  escape scanned unescaped := by
    rw [standard_scan_append scanned, Signature.resume_of_not_mem unescaped,
      Signature.recognise_escape]
    rfl
  trailing scanned escaped room read := standard_scan_value scanned room (.inl escaped) read
  apart scanned unescaped known unset plain read := by
    obtain ⟨parameter, found⟩ := Option.isSome_iff_exists.1 known
    exact standard_scan_option scanned unescaped unset read
      (Signature.recognise_apart (isOptionName_of_known valid known) found plain [])
  attached scanned unescaped known unset read := by
    obtain ⟨parameter, found⟩ := Option.isSome_iff_exists.1 known
    exact standard_scan_option scanned unescaped unset read
      (Signature.recognise_attached (isOptionName_of_known valid known) found [])
  refuse scanned next room admits later bad := by
    have free := Signature.isFree_of_hasRoom (room.mono (Nat.le_add_right _ _))
    rw [standard_scan_append scanned, Signature.resume_value free (.inr admits)]
    exact Signature.settle_place_refused (Signature.takeValue_of_not_read next bad)
      (Signature.calm_resume room later _)
  complete {m defaults} read := by
    have values : (g.places.missing m.values.length).mapM g.readDefaults =
        .ok ((g.places.missing m.values.length).map defaults) :=
      mapM_of_forall fun p member =>
        Signature.readDefaults_eq (read p (List.mem_append_left _ member))
    have options : (g.absent m).mapM g.readOptionDefaults =
        .ok ((g.absent m).map fun option => (defaults option.2).map (option.1, ·)) := by
      refine mapM_of_forall fun option member => ?_
      have known := read option.2 (List.mem_append_right _ (List.mem_map_of_mem member))
      simp only [Signature.readOptionDefaults, Signature.readDefaults_eq known]
      rfl
    simp only [standard, Signature.complete, values, options, List.flatMap_def]
    rfl

theorem standard_readsNumerals : standard.ReadsNumerals := by
  intro v
  have within := Numeral.word32_holds v
  have wide : Numeral.Range.word64.Holds v.toInt := by
    simp only [Numeral.Range.Holds, Numeral.Range.word32, Numeral.Range.word64] at within ⊢
    omega
  have came : Numeral.read .word64 (Numeral.text v.toInt).toList = .ok v.toInt := by
    rw [Numeral.text, String.toList_ofList]
    exact Numeral.read_of_denotes (by decide) (Numeral.denotes_write v.toInt) wide
  simp only [standard, CommandLine.readInteger, came, within, if_true, Int32.ofInt_toInt]

theorem standard_tellsFaults : standard.TellsFaults := by
  intro usage reason notHelp notVersion
  cases reason with
  | help | version => contradiction
  | _ => exact ⟨rfl, rfl⟩

end Parser
end LinesAndLists.CommandLine
