import Lectern.Text.Basic

/-!
# Blanks, words and lines

A blank is a white-space character of any script or one of the four information separators.  The
spaces and line ends of a narrower class are what running text is trimmed of.

* `isBlank`, `isSpacing`   the two classes, as ranges of code points;
* `strip`, `trim`          a text without blanks, or without spaces, at its two ends;
* `words`        the maximal runs of characters that are not blank;
* `lines`        the pieces between line ends, where form feeds, separators and the two paragraph
                 signs end a line as well as a line feed does.
-/

namespace Lectern.Text

/-- Membership of a code point in a list of closed ranges. -/
def inRanges (ranges : List (Nat × Nat)) (n : Nat) : Bool :=
  ranges.any fun r => r.1 ≤ n && n ≤ r.2

def blankRanges : List (Nat × Nat) :=
  [(0x9, 0xd), (0x1c, 0x20), (0x85, 0x85), (0xa0, 0xa0), (0x1680, 0x1680), (0x2000, 0x200a),
    (0x2028, 0x2029), (0x202f, 0x202f), (0x205f, 0x205f), (0x3000, 0x3000)]

def isBlank (c : Char) : Bool := inRanges blankRanges c.toNat

theorem isBlank_of_isWhitespace {c : Char} (h : c.isWhitespace = true) : isBlank c = true := by
  simp only [Char.isWhitespace, Bool.or_eq_true, decide_eq_true_eq] at h
  rcases h with ((rfl | rfl) | rfl) | rfl <;> decide

/-- Space separators of any script, tabs and the line ends of a plain text. -/
def isSpacing (c : Char) : Bool :=
  inRanges [(0x9, 0xd), (0x20, 0x20), (0xa0, 0xa0), (0x1680, 0x1680), (0x2000, 0x200a),
    (0x202f, 0x202f), (0x205f, 0x205f), (0x3000, 0x3000)] c.toNat

def stripLeft (t : Text) : Text := t.dropWhile isBlank

def stripRight (t : Text) : Text := (t.reverse.dropWhile isBlank).reverse

def strip (t : Text) : Text := stripRight (stripLeft t)

def trim (t : Text) : Text := ((t.dropWhile isSpacing).reverse.dropWhile isSpacing).reverse

/-- `t` holds nothing but blanks. -/
def isAllBlank (t : Text) : Bool := t.all isBlank

/-- The words of a text that the characters of a class part; `acc` is the word begun, in reverse. -/
def wordsAux (parts : Char → Bool) : Text → Text → List Text
  | acc, [] => if acc.isEmpty then [] else [acc.reverse]
  | acc, c :: t =>
    if parts c then
      (if acc.isEmpty then wordsAux parts [] t else acc.reverse :: wordsAux parts [] t)
    else wordsAux parts (c :: acc) t

def words (t : Text) : List Text := wordsAux isBlank [] t

/-- The maximal runs of characters other than spaces and line ends. -/
def spacedWords (t : Text) : List Text := wordsAux isSpacing [] t

/-- The characters that end a line. -/
def isLineEnd (c : Char) : Bool :=
  inRanges [(0xa, 0xd), (0x1c, 0x1e), (0x85, 0x85), (0x2028, 0x2029)] c.toNat

/-- The lines of a text; `acc` is the line begun, in reverse.  A carriage return and the line feed
after it end one line together, and no line begins after the last line end. -/
def linesAux : Text → Text → List Text
  | acc, [] => if acc.isEmpty then [] else [acc.reverse]
  | acc, '\r' :: '\n' :: t => acc.reverse :: linesAux [] t
  | acc, c :: t => if isLineEnd c then acc.reverse :: linesAux [] t else linesAux (c :: acc) t

def lines (t : Text) : List Text := linesAux [] t

end Lectern.Text
