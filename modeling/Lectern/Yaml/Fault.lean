import Lectern.Text.Digit
import Lectern.Text.Quoted
import Lectern.Yaml.Calendar

/-!
# Faults in configuration text

Most texts that are no configuration are simply `malformed`.  The other faults lie in a single
scalar, and are reported with what is wrong in it.
-/

namespace Lectern.Yaml
open Text

inductive Fault where
  | malformed
  /-- An escape for a code point beyond the last one. -/
  | codePoint (n : Nat)
  | digits (e : TooManyDigits)
  /-- A text that is no whole number in its base. -/
  | wholeNumber (base : Nat) (t : Text)
  | decimal (t : Text)
  /-- A number without a character. -/
  | noCharacters
  /-- A word that is neither true nor false. -/
  | truth (t : Text)
  | calendar (e : CalendarFault)
  /-- A text that is no date. -/
  | noStamp
  /-- A mapping where a date stands. -/
  | noText
  deriving DecidableEq

/-- The word for a fault in reports; `none` if the text as a whole is at fault. -/
def Fault.label? : Fault → Option String
  | .malformed => none
  | .codePoint n => if n < 0x80000000 then some "ValueError" else some "OverflowError"
  | .digits _ | .wholeNumber _ _ | .decimal _ | .calendar _ => some "ValueError"
  | .noCharacters => some "IndexError"
  | .truth _ => some "KeyError"
  | .noStamp => some "AttributeError"
  | .noText => some "TypeError"

def Fault.message : Fault → String
  | .malformed => ""
  | .codePoint n =>
    if n < 0x80000000 then "chr() arg not in range(0x110000)"
    else "Python int too large to convert to C int"
  | .digits e => e.message
  | .wholeNumber base t =>
    s!"invalid literal for int() with base {base}: " ++ String.ofList ((quoted t).take 200)
  | .decimal t => "could not convert string to float: " ++ String.ofList (quoted t)
  | .noCharacters => "string index out of range"
  | .truth t => String.ofList (quoted t)
  | .calendar e => e.message
  | .noStamp => "'NoneType' object has no attribute 'groupdict'"
  | .noText => "expected string or bytes-like object, got 'list'"

end Lectern.Yaml
