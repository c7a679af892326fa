import Lectern.Text.Basic

/-!
# The journal

What a run reports besides its result: a list of messages, oldest first.  A message is a warning or
a note with a level; a reader who listens at verbosity `v` sees every warning and the notes of level
`v` and below.  `Logged ε α` is a run that writes messages and ends in a result or an error, the
messages written before the error being kept.
-/

namespace Lectern

inductive Message where
  | note (level : Nat) (text : Text)
  | warning (text : Text)
  deriving DecidableEq

/-- The message is shown at this verbosity. -/
def Message.isShown (verbosity : Int) : Message → Bool
  | .note level _ => verbosity ≥ level
  | .warning _ => true

/-- The line shown for a message. -/
def Message.line : Message → Text
  | .note _ t => "DEBUG: ".toList ++ t
  | .warning t => "WARNING: ".toList ++ t

/-- The lines shown at a verbosity; without one nobody listens. -/
def shownLines (verbosity : Option Int) (ms : List Message) : List Text :=
  match verbosity with
  | none => []
  | some v => (ms.filter (·.isShown v)).map Message.line

abbrev Logged (ε α : Type) := ExceptT ε (StateM (List Message)) α

namespace Logged

def write {ε : Type} (m : Message) : Logged ε Unit := modify (· ++ [m])

def note {ε : Type} (level : Nat) (text : Text) : Logged ε Unit := write (.note level text)

def warn {ε : Type} (text : Text) : Logged ε Unit := write (.warning text)

/-- The result and the messages of a run. -/
def outcome {ε α : Type} (run : Logged ε α) : Except ε α × List Message := StateT.run run []

/-- A run with its error put into other terms. -/
def mapError {ε ε' α : Type} (f : ε → ε') (run : Logged ε α) : Logged ε' α :=
  fun ms => match run ms with
    | (.ok a, ms) => (.ok a, ms)
    | (.error e, ms) => (.error (f e), ms)

/-- A run whose error is a result. -/
def attempt {ε ε' α : Type} (run : Logged ε α) : Logged ε' (Except ε α) :=
  fun ms =>
    let (result, ms) := run ms
    (.ok result, ms)

end Logged
end Lectern
