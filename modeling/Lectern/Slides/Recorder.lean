import Lectern.Slides.Reader

/-!
# Recording a rehearsal

On a page without a lecture the author rehearses: while a take is running, every step forward says
how long the slide was shown.  The running totals are the times at which the slides give way to
their successors.  A step back takes the latest total away, and says in its take how long the author
stayed, as a negative number.

* `Recorder`      the reader with the totals, the running take and the closed ones;
* `Export`        what is handed out once every slide has a total and a take is closed;
* `next`, `previous`, `toggle`   the steps, each at a clock reading.
-/

namespace Lectern.Slides
open Quantity

/-- A running take. -/
structure Take (τ : Type) where
  /-- The clock at the last step, or at the start of the take. -/
  lapStart : τ
  dwells : List τ := []

structure Recorder (τ : Type) where
  reader : Reader τ
  /-- When slide `i` gave way to the next one, undefined if nobody recorded it. -/
  times : List τ := []
  /-- The running total. -/
  shift : τ
  take : Option (Take τ) := none
  /-- The closed takes. -/
  takes : List (List τ) := []
  /-- Somebody takes what is handed out. -/
  hasSink : Bool := true

structure Export (τ : Type) where
  times : List τ
  takes : List (List τ)

/-- A step: its answer, or the number that could not be handed out; the recorder after it; and what
was handed out. -/
structure Step (τ α : Type) where
  answer : Except τ α
  after : Recorder τ
  sent : Option (Export τ) := none

variable {τ : Type} [Quantity τ]

/-- The first number that has no written form: an infinity, or an undefined dwell. -/
def Export.unwritable? (e : Export τ) : Option τ :=
  (e.times.find? fun t => !isUndefined t && !isFinite t).orElse fun _ =>
    e.takes.flatten.find? fun t => !isFinite t

/-- The times as they are written down: nothing for a slide without one. -/
def Export.cells (e : Export τ) : List (Option τ) :=
  e.times.map fun t => if isUndefined t then none else some t

namespace Recorder

def start (reader : Reader τ) (hasSink : Bool) : Recorder τ := { reader, shift := zero, hasSink }

def isRecording (r : Recorder τ) : Bool := r.take.isSome

/-- Every slide has an entry. -/
def isComplete (r : Recorder τ) : Bool := r.times.length = r.reader.count

/-- What there is to hand out, if anything. -/
def export? (r : Recorder τ) : Option (Export τ) :=
  if r.takes.isEmpty || !r.isComplete then none else some ⟨r.times, r.takes⟩

/-- What there is to hand out, which must have a written form. -/
def written (r : Recorder τ) : Except τ (Option (Export τ)) :=
  match r.export? with
  | none => .ok none
  | some e =>
    match e.unwritable? with
    | some t => .error t
    | none => .ok (some e)

/-- Hands out what there is. -/
def flush (r : Recorder τ) : Step τ (Option (Export τ)) :=
  match r.written with
  | .error t => ⟨.error t, r, none⟩
  | .ok e => ⟨.ok e, r, if r.hasSink then e else none⟩

/-- The recorder after a move of the reader, and whether it was accepted. -/
def navigate (r : Recorder τ) (move : Option (Reader τ)) : Bool × Recorder τ :=
  match move with
  | some reader => (true, { r with reader })
  | none => (false, r)

/-- The take with one more step at this clock reading, which lasted `dwell`. -/
def Take.push (now dwell : τ) (t : Take τ) : Take τ := ⟨now, t.dwells ++ [dwell]⟩

/-- The recorder with one more entry: the running total while a take is running. -/
def pushTime (now : τ) (r : Recorder τ) : Recorder τ :=
  match r.take with
  | some t =>
    let dwell := sub now t.lapStart
    let shift := add r.shift dwell
    { r with shift, times := r.times ++ [shift], take := some (Take.push now dwell t) }
  | none => { r with times := r.times ++ [undefined] }

/-- A step forward. -/
def next (now : τ) (r : Recorder τ) : Step τ Bool :=
  let move (r : Recorder τ) (sent : Option (Export τ)) : Step τ Bool :=
    let (answer, r) := r.navigate r.reader.next?
    ⟨.ok answer, r, sent⟩
  if r.times.length < r.reader.count then
    let grown := r.pushTime now
    if r.isRecording then move grown none
    else
      match grown.flush with
      | ⟨.error t, grown, _⟩ => ⟨.error t, grown, none⟩
      | ⟨.ok _, grown, sent⟩ => move grown sent
  else move r none

/-- The total that is left: the last entry that is defined. -/
def lastTotal (times : List τ) : τ := (times.reverse.find? fun t => !isUndefined t).getD zero

/-- The recorder without its latest entry. -/
def dropTime (r : Recorder τ) : Recorder τ :=
  match r.times.getLast? with
  | none => r
  | some t =>
    let times := r.times.dropLast
    { r with times, shift := if isUndefined t then r.shift else lastTotal times }

/-- A step back. -/
def previous (now : τ) (r : Recorder τ) : Step τ Bool :=
  let r := match r.take with
    | some t => { r with take := some (Take.push now (neg (sub now t.lapStart)) t) }
    | none => r
  let r := r.dropTime
  let (answer, r) := r.navigate r.reader.previous?
  ⟨.ok answer, r, none⟩

/-- Starts a take, or closes the running one; whether one is running then. -/
def toggle (now : τ) (r : Recorder τ) : Step τ Bool :=
  match r.take with
  | none => ⟨.ok true, { r with take := some { lapStart := now } }, none⟩
  | some t =>
    match { r with takes := r.takes ++ [t.dwells], take := none }.flush with
    | ⟨.error e, r, _⟩ => ⟨.error e, r, none⟩
    | ⟨.ok _, r, sent⟩ => ⟨.ok false, r, sent⟩

def view (r : Recorder τ) : View :=
  { r.reader.view with recording := r.isRecording, complete := r.isComplete }

/-- What is reported of a step. -/
def notes (before : Recorder τ) {α : Type} (s : Step τ α) : List (Note τ) :=
  let sent := if s.sent.isSome then [.exported] else []
  let completed :=
    if before.isRecording && s.after.isRecording && before.times.length < s.after.times.length
        && s.after.isComplete then [.everySlideTimed] else []
  let closed := match before.take, s.after.take with
    | some t, none => [.takeClosed s.after.takes.length t.dwells.length]
    | none, some _ => [.recording]
    | _, _ => []
  completed ++ closed ++ sent ++ before.reader.moveNotes s.after.reader

end Recorder
end Lectern.Slides
