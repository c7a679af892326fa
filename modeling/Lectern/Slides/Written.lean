import Lectern.Decimal.Written
import Lectern.Journal
import Lectern.Slides.Recorder

/-!
# Slides in words

The messages of the notes that a page reports, and the text of what a rehearsal hands out: two
lists, indented, each number with the fewest digits that read back, and `null` where a slide has no
time.
-/

namespace Lectern.Slides
open Text

/-- Numbers in a text that may be handed out. -/
def written (x : Float) : Text := Decimal.write ⟨"nan", "inf"⟩ x

/-- A position with two places. -/
def position (x : Float) : Text := Decimal.writeFixed ⟨"nan", "inf"⟩ 2 x

/-- The message of a note; exports go to a file of the given name. -/
def Note.message (exportName : Text) : Note Float → Message
  | .rejected index count =>
    .note 3 s!"Rejected jump to slide {index + 1} of {count}".toList
  | .moved source target => .note 3 s!"Slide {source + 1} -> {target + 1}".toList
  | .lectureAt p index =>
    .note 3 ("Lecture at ".toList ++ position p ++ s!"s: slide {index + 1}".toList)
  | .userSeek p index =>
    .note 3 ("User seek to ".toList ++ position p ++ s!"s: slide {index + 1}".toList)
  | .everySlideTimed => .note 2 "Every slide has a timestamp"
  | .takeClosed number steps => .note 2 s!"Closed take {number} ({steps} steps)".toList
  | .recording => .note 2 "Recording"
  | .exported => .note 2 ("Exported ".toList ++ exportName)

/-- A list, one item a line, `depth` levels deep. -/
def writeList (depth : Nat) (items : List Text) : Text :=
  if items.isEmpty then "[]"
  else
    let indent (n : Nat) : Text := '\n' :: List.replicate (4 * n) ' '
    ['['] ++ indent (depth + 1) ++ join (',' :: indent (depth + 1)) items ++ indent depth ++ [']']

def Export.write (e : Export Float) : Text :=
  let time (t : Option Float) : Text := t.elim "null" written
  "\x7b\n    \"times\": ".toList ++ writeList 1 (e.cells.map time)
    ++ ",\n    \"timeline\": ".toList
    ++ writeList 1 (e.takes.map fun t => writeList 2 (t.map written)) ++ "\n\x7d".toList

/-- What is said of a number that cannot be handed out. -/
def unwritableMessage (x : Float) : Text :=
  "Out of range float values are not JSON compliant: ".toList ++ written x

end Lectern.Slides
