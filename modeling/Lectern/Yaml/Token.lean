import Lectern.Text.Utf8
import Lectern.Yaml.Scalar

/-!
# The tokens of configuration text

Tokens are cut off the text one after the other.  Whether a scalar is a key is known only at the
colon behind it, so a token that may begin a key waits in a queue until the colon is seen, or until
none can come: a key stands on one line and is not too long.  Columns are turned into tokens that
open and close collections.

* `Token`           what the text is made of;
* `Scanner`         the cursor, the queue, the open columns and the keys that may still be;
* `Scanner.fetch`   cuts off the next token;
* `Scanner.fill`    cuts off tokens until the first one in the queue is settled.
-/

namespace Lectern.Yaml
open Text

/-- What a line before a document declares. -/
inductive Declaration where
  | version (major : Nat)
  /-- A short form for the beginning of tags. -/
  | handle (name full : Text)
  | other
  deriving DecidableEq

inductive Token where
  | declaration (d : Declaration)
  | documentStart
  | documentEnd
  | finish
  | listStart
  | mapStart
  | blockEnd
  | openList
  | closeList
  | openMap
  | closeMap
  | comma
  | dash
  | key
  | value
  | reference (name : Text)
  | name (name : Text)
  /-- A tag: the short form it begins with, and what follows. -/
  | tag (handle? : Option Text) (rest : Text)
  | scalar (t : Text) (isPlain : Bool)
  deriving DecidableEq

/-! ## Names and tags -/

def isNameChar (c : Char) : Bool := isLetterOrDigit c || c = '-' || c = '_'

/-- A name that is not empty. -/
def readName (c : Cursor) : Except Fault (Text × Cursor) :=
  let name := c.rest.takeWhile isNameChar
  if name.isEmpty then .error .malformed else .ok (name, c.advance name.length)

/-- The name of a node, from the sign before it on. -/
def readNodeName (c : Cursor) : Except Fault (Text × Cursor) := do
  let (name, c) ← readName c.step
  if endsHere c.rest || c.next?.any ("?:,]\x7d%@`".toList.contains ·) then return (name, c)
  else throw .malformed

def isTagChar (c : Char) : Bool :=
  isLetterOrDigit c || "-;/?:@&=+$,_.!~*'()[]".toList.contains c

/-- The bytes written with percent signs, and the characters they take up. -/
def readPercent : Nat → Text → Except Fault (Bytes × Nat)
  | 0, _ => .ok ([], 0)
  | fuel + 1, t =>
    match t with
    | '%' :: t =>
      let ds := t.take 2
      if ds.length < 2 || !ds.all fun d => (hexDigit? d).isSome then .error .malformed
      else do
        let (bs, n) ← readPercent fuel (t.drop 2)
        return ((ofHex ds).toUInt8 :: bs, n + 3)
    | _ => .ok ([], 0)

/-- The characters of a tag, from `done` on. -/
def readTagChars : Nat → Text → Cursor → Except Fault (Text × Cursor)
  | 0, done, c => .ok (done, c)
  | fuel + 1, done, c =>
    match c.next? with
    | none => .ok (done, c)
    | some d =>
      if d = '%' then do
        let (bs, n) ← readPercent c.rest.length c.rest
        match decode bs with
        | .ok t => readTagChars fuel (done ++ t) (c.advance n)
        | .error _ => throw .malformed
      else if isTagChar d then readTagChars fuel (done ++ [d]) c.step
      else .ok (done, c)

/-- What a tag says behind its short form; it is not empty. -/
def readTagRest (c : Cursor) : Except Fault (Text × Cursor) := do
  let (t, after) ← readTagChars (c.rest.length + 1) [] c
  if after.index = c.index then throw .malformed else return (t, after)

/-- The short form a tag begins with: an exclamation mark, and a name with another one behind it. -/
def readHandle (c : Cursor) : Except Fault (Text × Cursor) :=
  match c.rest with
  | '!' :: t =>
    if t.head? = some ' ' then .ok (['!'], c.step)
    else
      let name := t.takeWhile isNameChar
      if (t.drop name.length).head? = some '!' then
        .ok ('!' :: name ++ ['!'], c.advance (name.length + 2))
      else .error .malformed
  | _ => .error .malformed

/-- A tag, from its exclamation mark on. -/
def readTag (c : Cursor) : Except Fault (Token × Cursor) := do
  let ended (handle? : Option Text) (rest : Text) (c : Cursor) : Except Fault (Token × Cursor) :=
    if endsWord c.rest then .ok (.tag handle? rest, c) else .error .malformed
  let t := c.rest.drop 1
  if t.head? = some '<' then
    let (rest, c) ← readTagRest (c.advance 2)
    if c.isAt '>' then ended none rest c.step else throw .malformed
  else if endsHere t then ended none ['!'] c.step
  else if (t.takeWhile fun d => !(d = ' ' || isBreak d)).contains '!' then
    let (handle, c) ← readHandle c
    let (rest, c) ← readTagRest c
    ended (some handle) rest c
  else
    let (rest, c) ← readTagRest c.step
    ended (some ['!']) rest c

/-! ## Declarations -/

/-- A part of a version. -/
def readVersionPart (c : Cursor) : Except Fault (Nat × Cursor) :=
  let ds := c.rest.takeWhile Char.isDigit
  if ds.isEmpty then .error .malformed
  else match readNatural ds with
    | .error e => .error (.digits e)
    | .ok n => .ok (n, c.advance ds.length)

def readVersion (c : Cursor) : Except Fault (Declaration × Cursor) := do
  let (major, c) ← readVersionPart (c.skipWhile (· = ' '))
  if !c.isAt '.' then throw .malformed
  let (_, c) ← readVersionPart c.step
  if endsWord c.rest then return (.version major, c) else throw .malformed

def readShortForm (c : Cursor) : Except Fault (Declaration × Cursor) := do
  let (handle, c) ← readHandle (c.skipWhile (· = ' '))
  if !c.isAt ' ' then throw .malformed
  let (full, c) ← readTagRest (c.skipWhile (· = ' '))
  if endsWord c.rest then return (.handle handle full, c) else throw .malformed

/-- A declaration, from its percent sign to the end of its line. -/
def readDeclaration (c : Cursor) : Except Fault (Declaration × Cursor) := do
  let (name, c) ← readName c.step
  if !endsWord c.rest then throw .malformed
  let (d, c) ←
    if name = "YAML".toList then readVersion c
    else if name = "TAG".toList then readShortForm c
    else pure (.other, c.skipWhile fun d => !isBreak d)
  return (d, ← endLine c)

/-! ## The scanner -/

/-- A place where a key may have begun: the number of its first token, and where it stands.  One
that begins its line in an open mapping must be a key. -/
structure Candidate where
  token : Nat
  isRequired : Bool
  index : Nat
  line : Nat
  column : Nat

structure Scanner where
  cursor : Cursor
  /-- The length of the whole text. -/
  size : Nat
  /-- The tokens that were cut off and not yet taken, and how many were taken. -/
  queue : List Token := []
  taken : Nat := 0
  isDone : Bool := false
  /-- How many brackets are open. -/
  depth : Nat := 0
  /-- The column of the innermost collection, and those of the collections around it. -/
  indent : Int := -1
  indents : List Int := []
  /-- A key may begin here. -/
  mayBeKey : Bool := true
  /-- The candidates, one for a depth at most. -/
  candidates : List (Nat × Candidate) := []

namespace Scanner

/-- The greatest number of characters between the beginning of a key and its colon. -/
def keyLimit : Nat := 1024

def inFlow (s : Scanner) : Bool := s.depth > 0

def emit (s : Scanner) (t : Token) : Scanner := { s with queue := s.queue ++ [t] }

/-- Gives up the candidates that can be no keys any more. -/
def dropStale (s : Scanner) : Except Fault Scanner :=
  let isStale (k : Candidate) : Bool :=
    k.line ≠ s.cursor.line || s.cursor.index - k.index > keyLimit
  if s.candidates.any fun e => isStale e.2 && e.2.isRequired then .error .malformed
  else .ok { s with candidates := s.candidates.filter fun e => !isStale e.2 }

/-- Gives up the candidate of this depth. -/
def dropCandidate (s : Scanner) : Except Fault Scanner :=
  if (s.candidates.lookup s.depth).any (·.isRequired) then .error .malformed
  else .ok { s with candidates := s.candidates.filter fun e => e.1 ≠ s.depth }

/-- Remembers that a key may begin with the next token. -/
def addCandidate (s : Scanner) : Except Fault Scanner :=
  if s.mayBeKey then do
    let c := s.cursor
    let k : Candidate := {
      token := s.taken + s.queue.length, isRequired := !s.inFlow && s.indent = c.column
      index := c.index, line := c.line, column := c.column }
    let s ← s.dropCandidate
    return { s with candidates := (s.depth, k) :: s.candidates }
  else .ok s

/-- Closes the collections that stand further right than a column; the list holds the columns
around the innermost one. -/
def closeTo (column : Int) : List Int → Scanner → Scanner
  | [], s => s
  | outer :: indents, s =>
    if s.indent > column then
      closeTo column indents { s.emit .blockEnd with indent := outer, indents }
    else s

/-- Closes collections, unless brackets are open. -/
def unwind (column : Int) (s : Scanner) : Scanner :=
  if s.inFlow then s else closeTo column s.indents s

/-- Opens a collection at a column that is further right; the token that says so is put at a place
of the queue. -/
def openAt (column place : Nat) (t : Token) (s : Scanner) : Scanner :=
  if s.indent < column then
    { s with
      indents := s.indent :: s.indents, indent := column
      queue := s.queue.insertIdx place t }
  else s

/-- Ends the text. -/
def fetchEnd (s : Scanner) : Except Fault Scanner := do
  let s ← (s.unwind (-1)).dropCandidate
  return { s.emit .finish with mayBeKey := false, candidates := [], isDone := true }

def fetchDeclaration (s : Scanner) : Except Fault Scanner := do
  let s ← (s.unwind (-1)).dropCandidate
  let (d, c) ← readDeclaration s.cursor
  return { s.emit (.declaration d) with mayBeKey := false, cursor := c }

/-- A mark between documents. -/
def fetchMark (t : Token) (s : Scanner) : Except Fault Scanner := do
  let s ← (s.unwind (-1)).dropCandidate
  return { s.emit t with mayBeKey := false, cursor := s.cursor.advance 3 }

def fetchOpening (t : Token) (s : Scanner) : Except Fault Scanner := do
  let s ← s.addCandidate
  return { s.emit t with depth := s.depth + 1, mayBeKey := true, cursor := s.cursor.step }

def fetchClosing (t : Token) (s : Scanner) : Except Fault Scanner := do
  if s.depth = 0 then throw .malformed
  let s ← s.dropCandidate
  return { s.emit t with depth := s.depth - 1, mayBeKey := false, cursor := s.cursor.step }

def fetchComma (s : Scanner) : Except Fault Scanner := do
  let s ← s.dropCandidate
  return { s.emit .comma with mayBeKey := true, cursor := s.cursor.step }

/-- Opens a collection where its first sign stands, which must be where a key may begin. -/
def openHere (t : Token) (s : Scanner) : Except Fault Scanner :=
  if s.inFlow then .ok s
  else if !s.mayBeKey then .error .malformed
  else .ok (s.openAt s.cursor.column s.queue.length t)

def fetchDash (s : Scanner) : Except Fault Scanner := do
  let s ← (← s.openHere .listStart).dropCandidate
  return { s.emit .dash with mayBeKey := true, cursor := s.cursor.step }

def fetchQuestion (s : Scanner) : Except Fault Scanner := do
  let s ← (← s.openHere .mapStart).dropCandidate
  return { s.emit .key with mayBeKey := !s.inFlow, cursor := s.cursor.step }

/-- A colon: the candidate of this depth is a key after all, or a question mark came before. -/
def fetchColon (s : Scanner) : Except Fault Scanner := do
  let s ← match s.candidates.lookup s.depth with
    | some k =>
      let place := k.token - s.taken
      let s := { s with
        candidates := s.candidates.filter fun e => e.1 ≠ s.depth
        queue := s.queue.insertIdx place .key, mayBeKey := false }
      pure (if s.inFlow then s else s.openAt k.column place .mapStart)
    | none => do
      let s ← (← s.openHere .mapStart).dropCandidate
      pure { s with mayBeKey := !s.inFlow }
  return { s.emit .value with cursor := s.cursor.step }

/-- What may begin a key: a name, a reference, a tag, or a scalar in quotes. -/
def fetchLeaf (read : Cursor → Except Fault (Token × Cursor)) (s : Scanner) :
    Except Fault Scanner := do
  let s ← s.addCandidate
  let (t, c) ← read s.cursor
  return { s.emit t with mayBeKey := false, cursor := c }

def fetchPlain (s : Scanner) : Except Fault Scanner := do
  let s ← s.addCandidate
  let p := readPlain s.inFlow (s.indent + 1) s.cursor
  return { s.emit (.scalar p.text true) with mayBeKey := p.broke, cursor := p.after }

def fetchBlock (fold : Bool) (s : Scanner) : Except Fault Scanner := do
  let s ← s.dropCandidate
  let (t, c) ← readBlock fold s.indent s.cursor.step
  return { s.emit (.scalar t false) with mayBeKey := true, cursor := c }

/-- Passes over what separates tokens. -/
def skipFiller (s : Scanner) : Scanner :=
  let c := s.cursor
  let c := if c.index = 0 && c.isAt '\ufeff' then c.step else c
  let (broke, c) := c.skipFiller (c.rest.length + 1) false
  { s with cursor := c, mayBeKey := s.mayBeKey || broke && !s.inFlow }

/-- A reader of a leaf, if one begins with this character. -/
def leafReader? (d : Char) : Option (Cursor → Except Fault (Token × Cursor)) :=
  let quoted (c : Cursor) : Except Fault (Token × Cursor) := do
    let (t, c) ← readQuoted d c.rest.length [] c.step
    return (.scalar t false, c)
  if d = '*' then some fun c => (readNodeName c).map fun (n, c) => (.reference n, c)
  else if d = '&' then some fun c => (readNodeName c).map fun (n, c) => (.name n, c)
  else if d = '!' then some readTag
  else if d = '\'' || d = '"' then some quoted
  else none

/-- Cuts off the next token. -/
def fetch (s : Scanner) : Except Fault Scanner := do
  let s ← s.skipFiller.dropStale
  let c := s.cursor
  let s := s.unwind c.column
  match c.rest with
  | [] => s.fetchEnd
  | d :: t =>
    if d = '%' && c.column = 0 then s.fetchDeclaration
    else if d = '-' && c.column = 0 && c.isMark then s.fetchMark .documentStart
    else if d = '.' && c.column = 0 && c.isMark then s.fetchMark .documentEnd
    else if d = '[' then s.fetchOpening .openList
    else if d = '\x7b' then s.fetchOpening .openMap
    else if d = ']' then s.fetchClosing .closeList
    else if d = '\x7d' then s.fetchClosing .closeMap
    else if d = ',' then s.fetchComma
    else if d = '-' && endsHere t then s.fetchDash
    else if d = '?' && (s.inFlow || endsHere t) then s.fetchQuestion
    else if d = ':' && (s.inFlow || endsHere t) then s.fetchColon
    else if d = '|' && !s.inFlow then s.fetchBlock false
    else if d = '>' && !s.inFlow then s.fetchBlock true
    else match leafReader? d with
      | some read => s.fetchLeaf read
      | none => if mayBePlain s.inFlow c.rest then s.fetchPlain else .error .malformed

/-- The first token of the queue may still get a token before it. -/
def isOpen (s : Scanner) : Bool :=
  s.candidates.any (·.2.token = s.taken) && s.candidates.all (s.taken ≤ ·.2.token)

/-- Cuts off tokens until the first one is settled. -/
def fill : Nat → Scanner → Except Fault Scanner
  | 0, _ => .error .malformed
  | fuel + 1, s =>
    if s.isDone then .ok s
    else if s.queue.isEmpty then do fill fuel (← s.fetch)
    else do
      let s ← s.dropStale
      if s.isOpen then fill fuel (← s.fetch) else return s

end Scanner
end Lectern.Yaml
