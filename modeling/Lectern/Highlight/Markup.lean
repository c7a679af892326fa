import Lectern.Highlight.Lexer
import Lectern.Html.Written

/-!
# Coloured code as markup

Each piece of a line stands in a span of its role's class, neighbours of one class together, and no
span reaches over the end of a line.
-/

namespace Lectern.Highlight
open Text

/-- The languages that code can be coloured in. -/
inductive Language where
  /-- The notes' own markup. -/
  | notes
  /-- Text without any roles. -/
  | plain
  deriving DecidableEq

def Language.ofName? (name : Text) : Option Language :=
  if lower name = "orf".toList || lower name = "orfalius".toList then some .notes
  else if lower name = "text".toList then some .plain
  else none

def Language.pieces (t : Text) : Language → List Piece
  | .notes => Piece.ofText t
  | .plain => [⟨.plain, prepare t⟩]

/-- The class of a role's spans; plain text stands in none. -/
def Role.className : Role → Text
  | .comment => "c"
  | .marker => "kd"
  | .title => "s"
  | .lineEnd => "w"
  | .heading => "gh"
  | .plain => ""
  | .sigil => "nd"
  | .inclusion => "nb"
  | .key => "nt"
  | .formula => "l"
  | .argument => "na"

def opener (className : Text) : Text :=
  if className.isEmpty then [] else "<span class=\"".toList ++ className ++ "\">".toList

def closer (className : Text) : Text := if className.isEmpty then [] else "</span>"

/-- The line being written: its markup so far, and the class that is open; `none` at its start. -/
abbrev OpenLine := Option (Text × Text)

/-- The open line with a part put behind. -/
def OpenLine.put (line : OpenLine) (className part : Text) : OpenLine :=
  if part.isEmpty then line
  else
    match line with
    | none => some (opener className ++ part, className)
    | some (t, c) =>
      if c = className then some (t ++ part, c)
      else some (t ++ closer c ++ opener className ++ part, className)

/-- The markup of a line at its end. -/
def OpenLine.ended : OpenLine → Text
  | none => ['\n']
  | some (t, c) => t ++ closer c ++ ['\n']

/-- Writes the parts of a piece, each but the last ending its line. -/
def writeParts (className : Text) : OpenLine → List Text → Text × OpenLine
  | line, [] => ([], line)
  | line, [part] => ([], line.put className part)
  | line, part :: parts =>
    let (t, last) := writeParts className none parts
    ((line.put className part).ended ++ t, last)

def writePieces : OpenLine → List Piece → Text
  | none, [] => []
  | some line, [] => OpenLine.ended (some line)
  | line, p :: ps =>
    let (t, line) :=
      writeParts p.role.className line (splitOn ['\n'] (Html.escape p.text))
    t ++ writePieces line ps

/-- The markup of code in a language. -/
def Language.markup (language : Language) (t : Text) : Text := writePieces none (language.pieces t)

end Lectern.Highlight
