import Lectern.Text.Basic

/-!
# A place in configuration text

A cursor is the text still to read with the place it stands at: the characters passed, the line and
the column.  A byte order mark takes up no column.  Line ends are one character each.

* `step`, `advance`, `skipWhile`   the cursor further on;
* `readBreak`                      passes over a line end, and says what it stands for;
* `skipFiller`                     passes over what separates: blanks, comments and line ends.
-/

namespace Lectern.Yaml
open Text

def isBreak (c : Char) : Bool := "\n\r\x85\u2028\u2029".toList.contains c

def isGap (c : Char) : Bool := c = ' ' || c = '\t'

/-- Nothing stands here, or a character that separates. -/
def endsHere (t : Text) : Bool := t.head?.all fun c => isGap c || isBreak c

/-- Nothing stands here, or a blank or a line end, but no tabulator. -/
def endsWord (t : Text) : Bool := t.head?.all fun c => c = ' ' || isBreak c

def endsLine (t : Text) : Bool := t.head?.all isBreak

structure Cursor where
  rest : Text
  index : Nat := 0
  line : Nat := 0
  column : Nat := 0

namespace Cursor

def step (c : Cursor) : Cursor :=
  match c.rest with
  | [] => c
  | d :: t =>
    if isBreak d then ⟨t, c.index + 1, c.line + 1, 0⟩
    else ⟨t, c.index + 1, c.line, if d = '\ufeff' then c.column else c.column + 1⟩

def advance : Nat → Cursor → Cursor
  | 0, c => c
  | n + 1, c => advance n c.step

def skipWhile (p : Char → Bool) (c : Cursor) : Cursor := c.advance (c.rest.takeWhile p).length

def isAtEnd (c : Cursor) : Bool := c.rest.isEmpty

def next? (c : Cursor) : Option Char := c.rest.head?

/-- The cursor stands at this character. -/
def isAt (d : Char) (c : Cursor) : Bool := c.next? = some d

/-- The cursor stands at a line end. -/
def isAtBreak (c : Cursor) : Bool := c.next?.any isBreak

/-- Passes over a line end: the character it stands for. -/
def readBreak (c : Cursor) : Text × Cursor :=
  match c.rest with
  | d :: _ =>
    if isBreak d then ([if d = '\u2028' || d = '\u2029' then d else '\n'], c.step) else ([], c)
  | [] => ([], c)

/-- A mark between documents stands here, if this is the beginning of a line. -/
def isMark (c : Cursor) : Bool :=
  (startsWith "---" c.rest || startsWith "..." c.rest) && endsHere (c.rest.drop 3)

/-- Passes over a comment. -/
def skipComment (c : Cursor) : Cursor :=
  if c.isAt '#' then c.skipWhile fun d => !isBreak d else c

/-- Passes over blanks and comments and the line ends behind them; the second answer says that a
line ended. -/
def skipFiller : Nat → Bool → Cursor → Bool × Cursor
  | 0, broke, c => (broke, c)
  | fuel + 1, broke, c =>
    let c := (c.skipWhile (· = ' ')).skipComment
    if c.isAtBreak then skipFiller fuel true c.step else (broke, c)

end Cursor
end Lectern.Yaml
