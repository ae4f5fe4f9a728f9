import LinesAndLists.Output

/-! A sink that fills up. What is written piece by piece is kept as if it were one text: the
bytes that there is room for, from the first on. The piece that does not fit ends the
writing, and nothing that would have come behind it makes a difference to what is kept. -/
namespace LinesAndLists

namespace Sink

variable {capacity : Option Nat} {text : String} {s : Sink}

def Admits (capacity : Option Nat) (size : Nat) : Prop := ∀ limit ∈ capacity, size ≤ limit

instance (capacity : Option Nat) (size : Nat) : Decidable (Admits capacity size) :=
  inferInstanceAs (Decidable (∀ limit ∈ capacity, size ≤ limit))

/-- The bytes of a text that there is room for. -/
def kept (capacity : Option Nat) (text : String) : ByteArray :=
  match capacity with
  | none => text.toUTF8
  | some limit => text.toUTF8.extract 0 (min limit text.utf8ByteSize)

def holding (s : Sink) (text : String) : Sink := { s with written := kept s.capacity text }

@[simp] theorem admits_none (size : Nat) : Admits none size := by simp [Admits]

@[simp] theorem admits_some {limit size : Nat} : Admits (some limit) size ↔ size ≤ limit := by
  simp [Admits]

theorem kept_some (limit : Nat) (text : String) :
    kept (some limit) text = text.toUTF8.extract 0 limit := by
  have whole := @ByteArray.extract_extract text.toUTF8 0 text.toUTF8.size 0 limit
  rw [ByteArray.extract_zero_size] at whole
  simpa [kept] using whole.symm

theorem kept_of_admits (admits : Admits capacity text.utf8ByteSize) :
    kept capacity text = text.toUTF8 := by
  cases capacity with
  | none => rfl
  | some limit =>
    have all : min limit text.utf8ByteSize = text.toUTF8.size :=
      Nat.min_eq_right (admits_some.1 admits)
    simp only [kept, all, ByteArray.extract_zero_size]

theorem kept_append_of_not_admits (full : ¬ Admits capacity text.utf8ByteSize) (more : String) :
    kept capacity (text ++ more) = kept capacity text := by
  cases capacity with
  | none => simp at full
  | some limit =>
    have spent : limit - text.utf8ByteSize = 0 :=
      Nat.sub_eq_zero_of_le (Nat.le_of_not_le fun within => full (admits_some.2 within))
    simp [kept_some, ByteArray.extract_append, spent]

theorem holding_append_of_not_admits (full : ¬ Admits s.capacity text.utf8ByteSize)
    (more : String) : s.holding (text ++ more) = s.holding text := by
  simp only [holding, kept_append_of_not_admits full]

theorem holding_empty (empty : s.written = .empty) : s.holding "" = s := by
  have nothing : kept s.capacity "" = .empty := by
    cases capacity : s.capacity <;> simp [kept]
  simp only [holding, nothing, ← empty]

theorem extract_of_le {room : Nat} (fits : text.utf8ByteSize ≤ room) :
    text.toByteArray.extract 0 room = text.toByteArray :=
  (kept_some room text).symm.trans (kept_of_admits (admits_some.2 fits))

theorem write_empty : write "" = pure () := by
  funext s
  obtain ⟨capacity, refusesFlush, written⟩ := s
  cases capacity with
  | none => simp [write, room, pure, EStateM.pure]
  | some limit =>
    have nothing := @extract_of_le "" (limit - written.size) (Nat.zero_le _)
    rw [String.toByteArray_empty] at nothing
    simp [write, room, pure, EStateM.pure, nothing]

/-- One text behind another is kept as both are kept together. If the first does not fit, there
is no room left for the second. -/
theorem write_append (first second : String) :
    (write first >>= fun _ => write second) = write (first ++ second) := by
  funext s
  obtain ⟨capacity, refusesFlush, written⟩ := s
  cases capacity with
  | none => simp [write, room, bind, EStateM.bind, ByteArray.append_assoc]
  | some limit =>
    -- Whether the first text fits decides if the second is written at all.
    by_cases fits : first.utf8ByteSize ≤ limit - written.size
    · have whole := extract_of_le fits
      have left : limit - (written.size + first.utf8ByteSize) =
          limit - written.size - first.utf8ByteSize := by omega
      have both : second.utf8ByteSize ≤ limit - written.size - first.utf8ByteSize ↔
          first.utf8ByteSize + second.utf8ByteSize ≤ limit - written.size := by omega
      simp [write, room, bind, EStateM.bind, ByteArray.extract_append, ByteArray.append_assoc,
        fits, whole, left, both]
    · have spent : limit - written.size - first.utf8ByteSize = 0 := by omega
      have full : ¬ first.utf8ByteSize + second.utf8ByteSize ≤ limit - written.size := by omega
      simp [write, room, bind, EStateM.bind, ByteArray.extract_append, fits, spent, full]

theorem forM_write (pieces : List String) : pieces.forM write = write (String.join pieces) := by
  induction pieces with
  | nil => exact write_empty.symm
  | cons piece pieces ih =>
    rw [String.join_cons, ← write_append, ← ih]
    rfl

theorem write_first (empty : s.written = .empty) (text : String) :
    write text s =
      if Admits s.capacity text.utf8ByteSize then .ok () (s.holding text)
      else .error .full (s.holding text) := by
  obtain ⟨capacity, refusesFlush, written⟩ := s
  dsimp only at empty
  subst empty
  cases capacity with
  | none => simp [write, room, holding, kept]
  | some limit => simp [write, room, holding, kept_some]

theorem write_holding (admits : Admits s.capacity text.utf8ByteSize) (more : String) :
    write more (s.holding text) =
      if Admits s.capacity (text ++ more).utf8ByteSize then .ok () (s.holding (text ++ more))
      else .error .full (s.holding (text ++ more)) := by
  -- What is held already might as well be written first, into a sink with nothing in it.
  let fresh : Sink := { s with written := .empty }
  have first : write text fresh = .ok () (s.holding text) :=
    (write_first rfl text).trans (if_pos admits)
  have both : (write text >>= fun _ => write more) fresh = write more (s.holding text) := by
    simp only [bind, EStateM.bind, first]
  rw [← both, write_append]
  exact write_first rfl (text ++ more)

theorem text_holding (unlimited : s.capacity = none) (text : String) :
    (s.holding text).text = text := by
  have bytes : (s.holding text).written = text.toByteArray := by
    simp [holding, unlimited, kept]
  rw [Sink.text, bytes, String.fromUTF8?, dif_pos text.isValidUTF8]
  rfl

end Sink

/-- What is seen of a run from outside: the bytes that came to be written, the log, and, if
it failed, what it was doing and why that failed. -/
structure Outcome where
  written : ByteArray
  records : List Record
  failure : Option (String × String)

namespace Session

def left {α : Type} : EStateM.Result Failure Session α → Session
  | .ok _ s => s
  | .error _ s => s

def outcome (result : EStateM.Result Failure Session Unit) : Outcome where
  written := (left result).sink.written
  records := (left result).records.toList
  failure :=
    match result with
    | .ok _ _ => none
    | .error failure _ => some (failure.activity.failure, failure.cause.message)

/-- The channel that ends in a sink with any way to write and to flush. -/
def through (write : String → EStateM Fault Sink Unit) (flush : EStateM Fault Sink Unit) :
    Channel (EStateM Failure Session) where
  write activity text := onSink activity (write text)
  flush activity := onSink activity flush
  log record := fun s => .ok () { s with records := s.records.push record }

theorem channel_eq_through : channel = through Sink.write Sink.flush := rfl

section

variable {write : String → EStateM Fault Sink Unit} {flush : EStateM Fault Sink Unit} {α β : Type}

theorem bind_of_ok {x : EStateM Failure Session α} {s s' : Session} {a : α}
    (came : x s = .ok a s') (next : α → EStateM Failure Session β) :
    (x >>= next) s = next a s' := by
  simp only [Bind.bind, EStateM.bind, came]

theorem log_bind (record : Record) (next : Unit → EStateM Failure Session α) (s : Session) :
    ((through write flush).log record >>= next) s =
      next () { s with records := s.records.push record } := rfl

theorem records_outcome (result : EStateM.Result Failure Session Unit) :
    (outcome result).records = (left result).records.toList := rfl

end

def holding (s : Session) (text : String) : Session := { s with sink := s.sink.holding text }

def Admits (s : Session) (text : String) : Prop := Sink.Admits s.sink.capacity text.utf8ByteSize

instance (s : Session) (text : String) : Decidable (s.Admits text) :=
  inferInstanceAs (Decidable (Sink.Admits _ _))

/-- The action adds nothing to the log, whatever comes of it. -/
def Quiet {α : Type} (action : EStateM Failure Session α) : Prop :=
  ∀ s, (left (action s)).records = s.records

section

variable {s : Session} {activity : Activity} {text more : String}

theorem admits_empty (s : Session) : s.Admits "" := fun _ _ => Nat.zero_le _

theorem admits_of_unlimited (unlimited : s.sink.capacity = none) (text : String) :
    s.Admits text := by
  simp [Admits, unlimited]

theorem holding_empty (empty : s.sink.written = .empty) : s.holding "" = s := by
  simp only [holding, Sink.holding_empty empty]

theorem holding_append_of_not_admits (full : ¬ s.Admits text) (more : String) :
    s.holding (text ++ more) = s.holding text := by
  simp only [holding, Sink.holding_append_of_not_admits full]

/-- What comes next starts behind what was written. If that did not fit, nothing comes next,
and what is kept is what would be kept of it with any text behind it. -/
theorem onSink_write_bind (before : s.Admits text)
    (next : Unit → EStateM Failure Session Unit) (rest : String) :
    (onSink activity (Sink.write more) >>= next) (s.holding text) =
      if s.Admits (text ++ more) then next () (s.holding (text ++ more))
      else .error ⟨activity, .full⟩ (s.holding (text ++ more ++ rest)) := by
  have came := Sink.write_holding before more
  by_cases fits : s.Admits (text ++ more)
  · rw [if_pos fits]
    have written : onSink activity (Sink.write more) (s.holding text) =
        .ok () (s.holding (text ++ more)) := by
      simp only [onSink, holding, came.trans (if_pos fits)]
    exact bind_of_ok written next
  · have written : onSink activity (Sink.write more) (s.holding text) =
        .error ⟨activity, .full⟩ (s.holding (text ++ more)) := by
      simp only [onSink, holding, came.trans (if_neg fits)]
    rw [if_neg fits]
    simp only [Bind.bind, EStateM.bind, written, holding_append_of_not_admits fits]

theorem onSink_bind (activity : Activity) (x y : EStateM Fault Sink Unit) :
    onSink activity (x >>= fun _ => y) = (onSink activity x >>= fun _ => onSink activity y) := by
  funext s
  simp only [onSink, Bind.bind, EStateM.bind]
  cases x s.sink <;> rfl

theorem onSink_forM (activity : Activity) (action : String → EStateM Fault Sink Unit)
    (texts : List String) :
    (texts.forM fun text => onSink activity (action text)) =
      onSink activity (texts.forM action) := by
  induction texts with
  | nil => rfl
  | cons text texts ih =>
    have both := onSink_bind activity (action text) (texts.forM action)
    rw [← ih] at both
    exact both.symm

theorem writeAll_through (write : String → EStateM Fault Sink Unit)
    (flush : EStateM Fault Sink Unit) (activity : Activity) (pieces : List String) :
    (through write flush).writeAll activity pieces = onSink activity (pieces.forM write) :=
  onSink_forM activity write pieces

theorem writeAll_eq (flush : EStateM Fault Sink Unit) (activity : Activity) {pieces : List String}
    (joined : String.join pieces = text) :
    (through Sink.write flush).writeAll activity pieces = onSink activity (Sink.write text) := by
  rw [writeAll_through, Sink.forM_write, joined]

end

section

variable {activity : Activity} {α β : Type}

theorem quiet_pure (a : α) : Quiet (pure a) := fun _ => rfl

theorem quiet_onSink (action : EStateM Fault Sink Unit) : Quiet (onSink activity action) := by
  intro s
  simp only [onSink]
  cases action s.sink <;> rfl

theorem Quiet.bind {x : EStateM Failure Session α} {next : α → EStateM Failure Session β}
    (first : Quiet x) (second : ∀ a, Quiet (next a)) : Quiet (x >>= next) := by
  intro s
  have quiet := first s
  simp only [Bind.bind, EStateM.bind]
  cases came : x s with
  | ok a s' =>
    rw [came] at quiet
    exact (second a s').trans quiet
  | error failure s' =>
    rw [came] at quiet
    exact quiet

theorem quiet_all (write : String → EStateM Fault Sink Unit) (flush : EStateM Fault Sink Unit)
    (pieces : List String) : Quiet ((through write flush).writeAll activity pieces) := by
  rw [writeAll_through]
  exact quiet_onSink _

end

end Session
end LinesAndLists
