import Lectern.Text.Digit
import Lectern.Yaml.Cursor
import Lectern.Yaml.Fault

/-!
# Scalars

Plain and quoted scalars may run over several lines: one line end between two words is a blank, and
of several the first says nothing.  Block scalars are taken as they are written, or folded in the
same way.

* `readPlain`    a scalar without quotes;
* `readQuoted`   one in quotes;
* `readBlock`    one below a bar, or below the sign that folds it.
-/

namespace Lectern.Yaml
open Text

/-- The text between two words of which `ended` and then `others` are the line ends. -/
def folded (ended others : Text) : Text :=
  if ended ≠ ['\n'] then ended ++ others
  else if others.isEmpty then [' ']
  else others

/-! ## Plain scalars -/

/-- The characters of a plain scalar up to the next blank, or up to what ends it. -/
def plainRun (inFlow : Bool) : Text → Text
  | [] => []
  | c :: t =>
    if isGap c || isBreak c then []
    else if c = ':' && (endsHere t || inFlow && t.head?.any (",[]\x7b\x7d".toList.contains ·)) then []
    else if inFlow && ",?[]\x7b\x7d".toList.contains c then []
    else c :: plainRun inFlow t

/-- A plain scalar may begin here. -/
def mayBePlain (inFlow : Bool) : Text → Bool
  | [] => false
  | c :: t =>
    !(isGap c || isBreak c || "-?:,[]\x7b\x7d#&*!|>'\"%@`".toList.contains c)
      || !endsHere t && (c = '-' || !inFlow && (c = '?' || c = ':'))

/-- What stands between two words of a plain scalar. -/
structure Gap where
  /-- Nothing, if the scalar ends here. -/
  text : Text
  broke : Bool
  after : Cursor

/-- The line ends behind the first one of a gap, blanks being passed over; none where a mark between
documents follows. -/
def readBreaks : Nat → Text → Cursor → Option Text × Cursor
  | 0, done, c => (some done, c)
  | fuel + 1, done, c =>
    let c := c.skipWhile (· = ' ')
    if c.isAtBreak then
      let (ended, c) := c.readBreak
      if c.isMark then (none, c) else readBreaks fuel (done ++ ended) c
    else (some done, c)

def readGap (c : Cursor) : Gap :=
  let spaces := c.rest.takeWhile (· = ' ')
  let c := c.advance spaces.length
  if c.isAtBreak then
    let (ended, c) := c.readBreak
    if c.isMark then ⟨[], true, c⟩
    else match readBreaks (c.rest.length + 1) [] c with
      | (none, c) => ⟨[], true, c⟩
      | (some others, c) => ⟨folded ended others, true, c⟩
  else ⟨spaces, false, c⟩

/-- A plain scalar as it was read. -/
structure Plain where
  text : Text
  /-- A line ended behind its last word. -/
  broke : Bool
  after : Cursor

/-- Reads on with the text `done` and the gap behind it; outside of flow every further line must
reach the column `indent`. -/
def readPlainFrom (inFlow : Bool) (indent : Int) : Nat → Text → Gap → Plain
  | 0, done, gap => ⟨done, gap.broke, gap.after⟩
  | fuel + 1, done, gap =>
    let c := gap.after
    let run := if c.isAt '#' then [] else plainRun inFlow c.rest
    if run.isEmpty then ⟨done, gap.broke, c⟩
    else
      let done := done ++ gap.text ++ run
      let next := readGap (c.advance run.length)
      if next.text.isEmpty || !inFlow && (next.after.column : Int) < indent then
        ⟨done, next.broke, next.after⟩
      else readPlainFrom inFlow indent fuel done next

def readPlain (inFlow : Bool) (indent : Int) (c : Cursor) : Plain :=
  readPlainFrom inFlow indent (c.rest.length + 1) [] ⟨[], false, c⟩

/-! ## Quoted scalars -/

/-- Escapes of one letter. -/
def letterEscapes : List (Char × Nat) :=
  [('0', 0), ('a', 7), ('b', 8), ('t', 9), ('\t', 9), ('n', 10), ('v', 11), ('f', 12), ('r', 13),
    ('e', 27), (' ', 32), ('"', 34), ('\\', 92), ('/', 47), ('N', 0x85), ('_', 0xa0), ('L', 0x2028),
    ('P', 0x2029)]

/-- Escapes that hold a code point in this many digits. -/
def codeEscapes : List (Char × Nat) := [('x', 2), ('u', 4), ('U', 8)]

/-- The character of a code point; the halves of a pair have none. -/
def charOf (n : Nat) : Char := if 0xd800 ≤ n && n < 0xe000 then '\ufffd' else Char.ofNat n

/-- The character an escape stands for and the number of characters after the backslash. -/
def readEscape (t : Text) : Except Fault (Char × Nat) :=
  match t with
  | [] => .error .malformed
  | c :: t =>
    match letterEscapes.lookup c, codeEscapes.lookup c with
    | some n, _ => .ok (Char.ofNat n, 1)
    | none, none => .error .malformed
    | none, some width =>
      let ds := t.take width
      if ds.length < width || !ds.all fun d => (hexDigit? d).isSome then .error .malformed
      else if ofHex ds > 0x10ffff then .error (.codePoint (ofHex ds))
      else .ok (charOf (ofHex ds), width + 1)

/-- The line ends behind the first one inside quotes, blanks being passed over.  No mark between
documents may follow a line end. -/
def readQuotedBreaks : Nat → Text → Cursor → Except Fault (Text × Cursor)
  | 0, _, _ => .error .malformed
  | fuel + 1, done, c =>
    if c.isMark then .error .malformed
    else
      let c := c.skipWhile isGap
      if c.isAtBreak then
        let (ended, c) := c.readBreak
        readQuotedBreaks fuel (done ++ ended) c
      else .ok (done, c)

/-- The content of a quoted scalar from the character after its first quote on. -/
def readQuoted (quote : Char) : Nat → Text → Cursor → Except Fault (Text × Cursor)
  | 0, _, _ => .error .malformed
  | fuel + 1, done, c =>
    match c.rest with
    | [] => .error .malformed
    | d :: t =>
      if d = quote then
        if quote = '\'' && t.head? = some '\'' then readQuoted quote fuel (done ++ [d]) (c.advance 2)
        else .ok (done, c.step)
      else if d = '\\' && quote = '"' then
        if t.head?.any isBreak then do
          let (breaks, c) ← readQuotedBreaks fuel [] c.step.step
          readQuoted quote fuel (done ++ breaks) c
        else do
          let (e, n) ← readEscape t
          readQuoted quote fuel (done ++ [e]) (c.advance (n + 1))
      else if isGap d || isBreak d then
        let gap := c.rest.takeWhile isGap
        let behind := c.advance gap.length
        if behind.isAtBreak then do
          let (ended, c) := behind.readBreak
          let (others, c) ← readQuotedBreaks fuel [] c
          readQuoted quote fuel (done ++ folded ended others) c
        else readQuoted quote fuel (done ++ gap) behind
      else readQuoted quote fuel (done ++ [d]) c.step

/-! ## Block scalars -/

/-- What becomes of the line ends behind a block scalar. -/
inductive Chomp where
  | strip | clip | keep
  deriving DecidableEq

def Chomp.ofSign? (c : Char) : Option Chomp :=
  if c = '+' then some .keep else if c = '-' then some .strip else none

/-- The marks behind the sign of a block scalar: what becomes of its last line ends, and how far it
is indented. -/
def readHeader (c : Cursor) : Chomp × Option Nat × Cursor :=
  let digit? (d : Char) : Option Nat := if d.isDigit then some (d.toNat - 48) else none
  match c.rest with
  | d :: t =>
    match Chomp.ofSign? d, digit? d with
    | some k, _ => match t.head?.bind digit? with
      | some n => (k, some n, c.advance 2)
      | none => (k, none, c.advance 1)
    | none, some n => match t.head?.bind Chomp.ofSign? with
      | some k => (k, some n, c.advance 2)
      | none => (.clip, some n, c.advance 1)
    | none, none => (.clip, none, c)
  | [] => (.clip, none, c)

/-- Passes over the rest of a line that holds nothing but a comment. -/
def endLine (c : Cursor) : Except Fault Cursor :=
  let c := (c.skipWhile (· = ' ')).skipComment
  if endsLine c.rest then .ok c.readBreak.2 else .error .malformed

/-- Passes over the indentation of a line. -/
def skipIndent (indent : Nat) (c : Cursor) : Cursor :=
  c.advance (min (c.rest.takeWhile (· = ' ')).length (indent - c.column))

/-- Passes over empty lines and the indentation of the next one: the line ends met. -/
def readEmptyLines (indent : Nat) : Nat → Text → Cursor → Text × Cursor
  | 0, done, c => (done, c)
  | fuel + 1, done, c =>
    let c := skipIndent indent c
    if c.isAtBreak then
      let (ended, c) := c.readBreak
      readEmptyLines indent fuel (done ++ ended) c
    else (done, c)

/-- Passes over empty lines: the line ends met, the greatest column, and where text begins. -/
def findIndent : Nat → Text → Nat → Cursor → Text × Nat × Cursor
  | 0, done, widest, c => (done, widest, c)
  | fuel + 1, done, widest, c =>
    let spaces := (c.rest.takeWhile (· = ' ')).length
    let c := c.advance spaces
    let widest := if spaces = 0 then widest else max widest c.column
    if c.isAtBreak then
      let (ended, c) := c.readBreak
      findIndent fuel (done ++ ended) widest c
    else (done, widest, c)

/-- The lines of a block scalar.  `breaks` are the line ends before the next one, and `ended` is the
end of the last one. -/
def readLines (fold : Bool) (chomp : Chomp) (indent : Nat) :
    Nat → Text → Text → Text → Cursor → Text × Cursor
  | 0, done, _, _, c => (done, c)
  | fuel + 1, done, ended, breaks, c =>
    if c.column = indent && !c.isAtEnd then
      let startsFull := !c.next?.any isGap
      let line := c.rest.takeWhile fun d => !isBreak d
      let done := done ++ breaks ++ line
      let (ended, c) := (c.advance line.length).readBreak
      let (breaks, c) := readEmptyLines indent fuel [] c
      if c.column = indent && !c.isAtEnd then
        let joint : Text :=
          if fold && ended = ['\n'] && startsFull && !c.next?.any isGap then
            (if breaks.isEmpty then [' '] else [])
          else ended
        readLines fold chomp indent fuel (done ++ joint) ended breaks c
      else finish done ended breaks c
    else finish done ended breaks c
where
  finish (done ended breaks : Text) (c : Cursor) : Text × Cursor :=
    match chomp with
    | .strip => (done, c)
    | .clip => (done ++ ended, c)
    | .keep => (done ++ ended ++ breaks, c)

/-- A block scalar from the character after its sign on, inside a collection at the column
`parent`. -/
def readBlock (fold : Bool) (parent : Int) (c : Cursor) : Except Fault (Text × Cursor) := do
  let (chomp, width, c) := readHeader c
  if width = some 0 || !endsWord c.rest then throw .malformed
  let c ← endLine c
  let least := (max (parent + 1) 1).toNat
  let fuel := c.rest.length + 1
  match width with
  | some w =>
    let indent := least + w - 1
    let (breaks, c) := readEmptyLines indent fuel [] c
    return readLines fold chomp indent fuel [] [] breaks c
  | none =>
    let (breaks, widest, c) := findIndent fuel [] 0 c
    return readLines fold chomp (max least widest) fuel [] [] breaks c

end Lectern.Yaml
