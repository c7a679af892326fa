import Lectern.Markdown.Inline.Token
import Lectern.Markdown.Link
import Lectern.Text.Punctuation

/-!
# Reading running text

A cursor reads the characters of a piece of text from `pos` up to `stop`, the window.  `pending` are
the plain characters read and not yet made a token, last one first.  Runs of delimiters are noted
with the token they became; those of a span are set apart when the span ends.

* `Cursor.push`, `Cursor.openSpan`, `Cursor.closeSpan`   writing tokens;
* `Delimiter`      one delimiter, and whether it may open or close;
* `runAt`          the run of a delimiter at a position and what it may do.
-/

namespace Lectern.Markdown
open Text

structure Delimiter where
  mark : Char
  /-- The length of the run, or zero where it does not matter. -/
  length : Nat
  token : Nat
  partner : Option Nat
  opens : Bool
  closes : Bool

structure Cursor where
  src : Array Char
  definitions : List Definition
  pos : Nat
  stop : Nat
  depth : Nat
  pending : Text
  tokens : Array Token
  delimiters : Array Delimiter
  /-- The delimiters of the spans around the current one. -/
  outer : List (Array Delimiter)
  /-- The delimiters of the spans that have ended. -/
  ended : List (Array Delimiter)
  /-- Where a token that starts at a position is known to end. -/
  known : List (Nat × Nat)
  /-- For each length, where backquotes of that length were last seen. -/
  backquotes : List (Nat × Nat)
  backquotesSeen : Bool

namespace Cursor

def start (definitions : List Definition) (t : Text) : Cursor :=
  let src := t.toArray
  ⟨src, definitions, 0, src.size, 0, [], #[], #[], [], [], [], [], false⟩

def char? (c : Cursor) (i : Nat) : Option Char := c.src[i]?

/-- The character at the cursor. -/
def head? (c : Cursor) : Option Char := c.char? c.pos

/-- The characters from `i` up to `j`. -/
def slice (c : Cursor) (i j : Nat) : Text := (c.src.extract i j).toList

/-- The characters from `i` to the end of the window. -/
def window (c : Cursor) (i : Nat) : Text := c.slice i c.stop

/-- The characters from `i` to the end of the text. -/
def beyond (c : Cursor) (i : Nat) : Text := c.slice i c.src.size

/-- The character before `i`; before the first one the last counts. -/
def before? (c : Cursor) (i : Nat) : Option Char :=
  if i = 0 then c.src[c.src.size - 1]? else c.src[i - 1]?

def moveTo (c : Cursor) (i : Nat) : Cursor := { c with pos := i }

/-- Plain characters. -/
def say (c : Cursor) (t : Text) : Cursor := { c with pending := t.reverse ++ c.pending }

/-- Makes a token of the plain characters, if there are any. -/
def flush (c : Cursor) : Cursor :=
  if c.pending.isEmpty then c
  else { c with pending := [], tokens := c.tokens.push (.text c.pending.reverse) }

def push (c : Cursor) (t : Token) : Cursor :=
  let c := c.flush
  { c with tokens := c.tokens.push t }

def openSpan (c : Cursor) (s : Span) : Cursor :=
  let c := c.push (.opening s)
  { c with depth := c.depth + 1, outer := c.delimiters :: c.outer, delimiters := #[] }

def closeSpan (c : Cursor) (s : Span) : Cursor :=
  let c := c.push (.closing s)
  { c with
    depth := c.depth - 1
    ended := c.delimiters :: c.ended
    delimiters := c.outer.headD #[]
    outer := c.outer.tail }

/-- A delimiter with a token of its own. -/
def pushDelimiter (c : Cursor) (t : Text) (mark : Char) (length : Nat) (opens closes : Bool) :
    Cursor :=
  let c := c.push (.text t)
  { c with delimiters := c.delimiters.push ⟨mark, length, c.tokens.size - 1, none, opens, closes⟩ }

end Cursor

/-! ## runs of delimiters -/

/-- How many characters from `i` on, and before `stop`, are `mark`. -/
def runLength (src : Array Char) (mark : Char) (stop : Nat) : Nat → Nat → Nat
  | 0, _ => 0
  | fuel + 1, i =>
    if i < stop ∧ src[i]? = some mark then runLength src mark stop fuel (i + 1) + 1 else 0

structure DelimiterRun where
  length : Nat
  opens : Bool
  closes : Bool

/-- The run at the cursor.  It may open where it leans on the text after it, and close where it leans
on the text before it; `splitsWords` allows both inside a word. -/
def runAt (c : Cursor) (mark : Char) (splitsWords : Bool) : DelimiterRun :=
  let length := runLength c.src mark c.stop (c.stop - c.pos) c.pos
  let last := if c.pos = 0 then ' ' else (c.char? (c.pos - 1)).getD ' '
  let after := c.pos + length
  let next := if after < c.stop then (c.char? after).getD ' ' else ' '
  let leansLeft := !(isSpacing next || (isPunctuation next && !(isSpacing last || isPunctuation last)))
  let leansRight := !(isSpacing last || (isPunctuation last && !(isSpacing next || isPunctuation next)))
  ⟨length, leansLeft && (splitsWords || !leansRight || isPunctuation last),
    leansRight && (splitsWords || !leansLeft || isPunctuation next)⟩

/-- A rule tries to read a token at the cursor.  When `dry` it writes nothing and only moves on.  It
tells whether it has read one. -/
abbrev InlineRule := Bool → Cursor → Bool × Cursor

end Lectern.Markdown
