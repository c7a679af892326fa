import Lectern.Text.Basic

/-!
# Lines with their indentation

A line of the notes is seen from a column: from the start of the page, or from behind the marks of
the quotes it stands in.  `shift` characters of its text are indentation or marks already read,
`indent` is the column of its content seen from there, and `base` the column where the view starts,
which decides how wide a tab is.

* `Line.ofText`    a line seen from the start of the page;
* `Line.content`   the text after the indentation;
* `Line.cut`       the text with columns of indentation taken off;
* `linesOf`        the lines of a page, where blanks after the last line end are no line;
* `joinLines`      consecutive lines, cut and put together.
-/

namespace Lectern.Markdown

def isSpace (c : Char) : Bool := c = ' ' || c = '\t'

/-- The column after a character at column `col`. -/
def columnAfter (col : Nat) (c : Char) : Nat := if c = '\t' then col + 4 - col % 4 else col + 1

structure Line where
  text : Text
  shift : Nat
  indent : Int
  base : Nat
  ended : Bool

namespace Line

/-- What stands where there is no line. -/
def blank : Line := ⟨[], 0, 0, 0, false⟩

def ofText (text : Text) (ended : Bool) : Line :=
  let lead := text.takeWhile isSpace
  ⟨text, lead.length, (lead.foldl columnAfter 0 : Nat), 0, ended⟩

def content (l : Line) : Text := l.text.drop l.shift

def isEmpty (l : Line) : Bool := l.content.isEmpty

/-- The page ends before the line has a character, which happens behind the mark of a quote. -/
def isCutOff (l : Line) : Bool := l.isEmpty && !l.ended

/-- Walks over indentation up to column `goal`; `taken` counts the characters passed. -/
def cutAux (base shift : Nat) (goal : Int) : Nat → Nat → Text → Nat × Text
  | col, _, [] => (col, [])
  | col, taken, c :: t =>
    if goal ≤ col then (col, c :: t)
    else if c = '\t' then cutAux base shift goal (col + (4 - (col + base) % 4)) (taken + 1) t
    else if c = ' ' ∨ taken < shift then cutAux base shift goal (col + 1) (taken + 1) t
    else (col, c :: t)

/-- The text without `goal` columns of indentation; what a tab has too much becomes spaces. -/
def cut (l : Line) (goal : Int) : Text :=
  let (col, t) := cutAux l.base l.shift goal 0 0 l.text
  List.replicate ((col : Int) - goal).toNat ' ' ++ t

end Line

/-- The lines of a page; `acc` is the line begun, in reverse. -/
def linesOfAux : Text → Text → List Line
  | acc, [] => if acc.all isSpace then [] else [Line.ofText acc.reverse false]
  | acc, c :: t =>
    if c = '\n' then Line.ofText acc.reverse true :: linesOfAux [] t else linesOfAux (c :: acc) t

def linesOf (t : Text) : List Line := linesOfAux [] t

abbrev Lines := Array Line

def Lines.at (ls : Lines) (i : Nat) : Line := (ls[i]?).getD Line.blank

/-- The lines from `first` on, `count` of them, cut and put together; the last one keeps its line
end if `keepEnd`. -/
def joinLines (ls : Lines) (goal : Int) (keepEnd : Bool) : Nat → Nat → Text
  | _, 0 => []
  | first, count + 1 =>
    let l := ls.at first
    let ending : Text := if l.ended && (keepEnd || count > 0) then ['\n'] else []
    l.cut goal ++ ending ++ joinLines ls goal keepEnd (first + 1) count

end Lectern.Markdown
