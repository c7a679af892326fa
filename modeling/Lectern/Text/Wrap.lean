import Lectern.Text.Word

/-!
# Lines of a limited width

A text is cut into pieces, between which a line may end: runs of blanks, dashes between two words,
and words, which a hyphen between letters parts as well.  Lines are filled with pieces from the front;
blanks at the ends of a line are dropped, and a piece that is wider than a line is cut.

* `pieces`   the pieces of a text;
* `wrap`     its lines.
-/

namespace Lectern.Text

def isWrapBlank (c : Char) : Bool := " \t\n\x0b\x0c\r".toList.contains c

/-- A character behind which dashes may end a word. -/
def isWordSign (c : Char) : Bool := isWordChar c || "!\"'&.,?".toList.contains c

def isWordLetter (c : Char) : Bool := isWordChar c && !isDigit c

/-- Dashes between two words begin here; the text before them is given backwards. -/
def dashes? (before t : Text) : Option Text :=
  let run := t.takeWhile (· = '-')
  if before.head?.any isWordSign && run.length ≥ 2 && (t.drop run.length).head?.any isWordChar then
    some run
  else none

/-- A hyphen that comes next parts a word. -/
def isParting (before rest : Text) : Bool :=
  let behindTwo := match before with
    | a :: b :: _ => isWordLetter a && isWordLetter b
    | _ => false
  let behindOne := match before with
    | a :: '-' :: b :: _ => isWordSign a && isWordLetter b
    | _ => false
  (behindTwo || behindOne) && match rest with
    | a :: '-' :: b :: _ => isWordLetter a && isWordLetter b
    | a :: b :: _ => isWordLetter a && isWordLetter b
    | _ => false

/-- A word of which some characters have been read, and the rest behind it. -/
def wordFrom (partsHyphens : Bool) (before : Text) : Text → Text × Text
  | [] => ([], [])
  | c :: t =>
    if isWrapBlank c then ([], c :: t)
    else if partsHyphens && c = '-' && isParting before t then ([c], t)
    else if partsHyphens && (dashes? before (c :: t)).isSome then ([], c :: t)
    else
      let (w, rest) := wordFrom partsHyphens (c :: before) t
      (c :: w, rest)

/-- The pieces of a text; the text before it is given backwards, and the first argument bounds their
number. -/
def piecesFrom (partsHyphens : Bool) : Nat → Text → Text → List Text
  | 0, _, _ => []
  | _, _, [] => []
  | fuel + 1, before, c :: t =>
    if isWrapBlank c then
      let run := (c :: t).takeWhile isWrapBlank
      run :: piecesFrom partsHyphens fuel (run.reverse ++ before) ((c :: t).drop run.length)
    else
      match (if partsHyphens then dashes? before (c :: t) else none) with
      | some run =>
        run :: piecesFrom partsHyphens fuel (run.reverse ++ before) ((c :: t).drop run.length)
      | none =>
        let (w, rest) := wordFrom partsHyphens (c :: before) t
        (c :: w) :: piecesFrom partsHyphens fuel (w.reverse ++ c :: before) rest

/-- The pieces of a text, between which a line may end. -/
def pieces (partsHyphens : Bool) (t : Text) : List Text :=
  piecesFrom partsHyphens t.length [] t

/-- Pieces that fit into a line, and the others. -/
def fill : (room : Nat) → List Text → List Text × List Text
  | _, [] => ([], [])
  | room, p :: ps =>
    if p.length ≤ room then
      let (line, rest) := fill (room - p.length) ps
      (p :: line, rest)
    else ([], p :: ps)

/-- How much of a piece that is too wide goes into what is left of a line: up to the last hyphen
behind something else, if there is one. -/
def cutLength (partsHyphens : Bool) (room : Nat) (p : Text) : Nat :=
  let kept := p.take room
  let behind := kept.reverse.takeWhile (· ≠ '-')
  let hyphen := kept.length - behind.length - 1
  if partsHyphens && p.length > room && behind.length < kept.length && hyphen > 0
      && (p.take hyphen).any (· ≠ '-') then hyphen + 1
  else room

/-- The lines that pieces fill; the first argument bounds their number. -/
def wrapPieces (width : Nat) (cutsWords partsHyphens : Bool) : Nat → (isFirst : Bool) → List Text →
    List Text
  | 0, _, _ => []
  | _, _, [] => []
  | fuel + 1, isFirst, p :: ps =>
    let all := if !isFirst && isAllBlank p then ps else p :: ps
    let (line, rest) := fill width all
    let (line, rest) := match rest with
      | q :: qs =>
        if q.length > width then
          if cutsWords then
            let n := cutLength partsHyphens (width - line.flatten.length) q
            (line ++ [q.take n], q.drop n :: qs)
          else if line.isEmpty then ([q], qs)
          else (line, rest)
        else (line, rest)
      | [] => (line, rest)
    let line := match line.reverse with
      | q :: qs => if isAllBlank q then qs.reverse else line
      | [] => line
    let rest := wrapPieces width cutsWords partsHyphens fuel (isFirst && line.isEmpty) rest
    if line.isEmpty then rest else line.flatten :: rest

/-- The lines of a text, none wider than `width`. -/
def wrap (width : Nat) (cutsWords partsHyphens : Bool) (t : Text) : List Text :=
  wrapPieces width cutsWords partsHyphens (2 * t.length + 2) true (pieces partsHyphens t)

end Lectern.Text
