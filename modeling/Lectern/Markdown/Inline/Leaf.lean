import Lectern.Markdown.Escape
import Lectern.Markdown.Inline.Cursor
import Lectern.Markdown.Tag

/-!
# Tokens without text of their own inside

The rules that read plain characters, line breaks, formulas, escapes, code, runs of delimiters, keys,
addresses in angle brackets, markup and character references.  Each is a function of the cursor and
needs no other rule.
-/

namespace Lectern.Markdown
open Text

/-- The characters at which plain text may end. -/
def isTerminator (c : Char) : Bool := "\n!#$%&*+-:<=>@[\\]^_`\x7b\x7d~".toList.contains c

/-- The first position from `i` on with a character that satisfies `p`. -/
def positionOf? (p : Char → Bool) (src : Array Char) (i : Nat) : Option Nat :=
  ((src.extract i src.size).findIdx? p).map (· + i)

/-- Plain characters up to the next terminator of the whole text, or to the end of the window. -/
def plainRule : InlineRule := fun dry c =>
  let stop := (positionOf? isTerminator c.src c.pos).getD c.stop
  if stop = c.pos then (false, c)
  else (true, ((if dry then c else c.say (c.slice c.pos stop)).moveTo stop))

/-- The first position from `i` on, before `stop`, that holds no space. -/
def skipSpaces (src : Array Char) (stop : Nat) : Nat → Nat → Nat
  | 0, i => i
  | fuel + 1, i =>
    if i < stop ∧ (src[i]?.any fun d => d = ' ' || d = '\t') then skipSpaces src stop fuel (i + 1)
    else i

/-- The position after a line end at `i` and the spaces that follow it. -/
def afterBreak (c : Cursor) (i : Nat) : Nat := skipSpaces c.src c.stop (c.stop - (i + 1)) (i + 1)

/-- A line end; two spaces before it break the line. -/
def sayBreak (dry : Bool) (c : Cursor) : Cursor :=
  if dry then c
  else match c.pending with
    | ' ' :: ' ' :: r => ({ c with pending := r.dropWhile (· = ' ') }).push .hardBreak
    | ' ' :: r => ({ c with pending := r }).push .softBreak
    | _ => c.push .softBreak

def lineBreakRule : InlineRule := fun dry c =>
  if c.head? ≠ some '\n' then (false, c)
  else (true, (sayBreak dry c).moveTo (afterBreak c c.pos))

/-! ## formulas -/

/-- An odd number of backslashes stands before position `i`; the first argument bounds the count.
Before the first character the last one counts. -/
def isEscapedAt (c : Cursor) : Nat → Nat → Bool → Bool
  | 0, _, odd => odd
  | fuel + 1, i, odd =>
    if c.before? i = some '\\' then
      if i = 0 then !odd else isEscapedAt c fuel (i - 1) (!odd)
    else odd

def isEscaped (c : Cursor) (i : Nat) : Bool := isEscapedAt c (i + 1) i false

/-- The first dollar sign from `i` on that no backslash escapes. -/
def closingDollar? (c : Cursor) : Nat → Nat → Option Nat
  | 0, _ => none
  | fuel + 1, i =>
    match positionOf? (· = '$') c.src i with
    | none => none
    | some k => if isEscaped c k then closingDollar? c fuel (k + 1) else some k

/-- A formula between dollar signs.  No space stands inside next to a sign, and no digit outside. -/
def formulaRule : InlineRule := fun dry c =>
  let next := c.char? (c.pos + 1)
  if c.head? ≠ some '$' ∨ next.all isSpacing ∨ (c.before? c.pos).any isDigitSign
    ∨ isEscaped c c.pos then (false, c)
  else match closingDollar? c c.src.size (c.pos + 1) with
    | none => (false, c)
    | some stop =>
      if (c.char? (stop - 1)).all isSpacing ∨ (c.char? (stop + 1)).any isDigitSign
        ∨ stop = c.pos + 1 then (false, c)
      else
        let t := c.slice (c.pos + 1) stop
        (true, (if dry then c else c.push (.math t)).moveTo (stop + 1))

/-! ## escapes, code and references -/

/-- A backslash and the character it makes literal; before a line end it breaks the line. -/
def escapeRule : InlineRule := fun dry c =>
  if c.head? ≠ some '\\' ∨ c.pos + 1 ≥ c.stop then (false, c)
  else match c.char? (c.pos + 1) with
    | none => (false, c)
    | some '\n' => (true, (if dry then c else c.push .hardBreak).moveTo (afterBreak c (c.pos + 1)))
    | some d =>
      let t := if isEscapable d then [d] else ['\\', d]
      (true, (if dry then c else c.push (.literal t)).moveTo (c.pos + 2))

/-- The text between backquotes: line ends become spaces, and one space at either end is left out
where something else stands between them. -/
def codeContent (t : Text) : Text :=
  let t := t.map fun d => if d = '\n' then ' ' else d
  if t.head? = some ' ' ∧ t.getLast? = some ' ' ∧ strip t ≠ [] then (t.drop 1).dropLast else t

/-- The run of `length` backquotes from `i` on that closes code inside the window, and the runs of
other lengths seen on the way. -/
def closingBackquotes? (c : Cursor) (length : Nat) :
    Nat → Nat → List (Nat × Nat) → Option Nat × List (Nat × Nat)
  | 0, _, seen => (none, seen)
  | fuel + 1, i, seen =>
    match positionOf? (· = '`') c.src i with
    | none => (none, seen)
    | some k =>
      let n := 1 + runLength c.src '`' c.stop (c.stop - (k + 1)) (k + 1)
      if k ≥ c.stop then (none, seen)
      else if n = length then (some k, seen)
      else closingBackquotes? c length fuel (k + n) ((n, k) :: seen)

def spanCodeRule : InlineRule := fun dry c =>
  if c.head? ≠ some '`' then (false, c)
  else
    let length := 1 + runLength c.src '`' c.stop (c.stop - (c.pos + 1)) (c.pos + 1)
    let start := c.pos + length
    let plain (c : Cursor) : Cursor :=
      (if dry then c else c.say (List.replicate length '`')).moveTo start
    if c.backquotesSeen && (c.backquotes.lookup length).getD 0 ≤ c.pos then (true, plain c)
    else
      match closingBackquotes? c length c.src.size start c.backquotes with
      | (some k, seen) =>
        let c := { c with backquotes := seen }
        (true, (if dry then c else c.push (.code (codeContent (c.slice start k)))).moveTo
          (k + length))
      | (none, seen) => (true, plain { c with backquotes := seen, backquotesSeen := true })

/-- A character reference in running text: its characters and its length. -/
def runningReference? (t : Text) : Option (Text × Nat) :=
  match t with
  | '&' :: '#' :: r =>
    let body := r.takeWhile (· ≠ ';')
    if body.length < r.length then
      (referenceNumber? 7 6 body).map fun n =>
        ([if isTextCode n then Char.ofNat n else Char.ofNat 0xfffd], body.length + 3)
    else none
  | '&' :: r =>
    let body := r.takeWhile isLetterOrDigit
    if (r.drop body.length).head? = some ';' ∧ 2 ≤ body.length ∧ body.length ≤ 32
      ∧ body.head?.any isLetter then
      (Entity.named? body).map fun cs => (cs, body.length + 2)
    else none
  | _ => none

def referenceRule : InlineRule := fun dry c =>
  if c.head? ≠ some '&' ∨ c.pos + 1 ≥ c.stop then (false, c)
  else match runningReference? (c.beyond c.pos) with
    | none => (false, c)
    | some (t, n) => (true, (if dry then c else c.push (.literal t)).moveTo (c.pos + n))

/-! ## runs of delimiters -/

/-- Tildes in pairs; an odd one is plain. -/
def strikeRule : InlineRule := fun dry c =>
  if dry ∨ c.head? ≠ some '~' then (false, c)
  else
    let run := runAt c '~' true
    if run.length < 2 then (false, c)
    else
      let c' := if run.length % 2 = 1 then c.push (.text ['~']) else c
      let c' := (List.range (run.length / 2)).foldl
        (fun c _ => c.pushDelimiter ['~', '~'] '~' 0 run.opens run.closes) c'
      (true, c'.moveTo (c.pos + run.length))

/-- Stars and underscores, each with a token of its own. -/
def emphasisRule : InlineRule := fun dry c =>
  match c.head? with
  | some m =>
    if dry ∨ ¬(m = '_' ∨ m = '*') then (false, c)
    else
      let run := runAt c m (m = '*')
      let c' := (List.range run.length).foldl
        (fun c _ => c.pushDelimiter [m] m run.length run.opens run.closes) c
      (true, c'.moveTo (c.pos + run.length))
  | none => (false, c)

/-! ## keys -/

/-- The name of a key between double brackets and the position after them.  A key is named by
something in one line that holds no opening bracket. -/
def keyAt? (c : Cursor) : Option (Text × Nat) :=
  match c.beyond c.pos with
  | '[' :: '[' :: r =>
    match indexOf? [']', ']'] r with
    | some n =>
      let name := r.take n
      if strip name = [] ∨ name.contains '\n' ∨ name.contains '[' then none
      else some (name, c.pos + n + 4)
    | none => none
  | _ => none

def keyRule : InlineRule := fun dry c =>
  match keyAt? c with
  | none => (false, c)
  | some (name, stop) =>
    (true, (if dry then c else ((c.openSpan .key).push (.text name)).closeSpan .key).moveTo stop)

/-! ## addresses and markup in angle brackets -/

/-- The text is an address with a scheme. -/
def isSchemeAddress (t : Text) : Bool :=
  let isMark (c : Char) : Bool := isLetterOrDigit c || c = '+' || c = '.' || c = '-'
  let scheme := t.takeWhile isMark
  let rest := t.drop scheme.length
  let body := rest.drop 1
  let body := if body.getLast? = some '\n' then body.dropLast else body
  scheme.head?.any isLetter && 2 ≤ scheme.length && scheme.length ≤ 32 && rest.head? = some ':'
    && body.all fun c => c.toNat > 0x20 && c ≠ '<' && c ≠ '>'

def isMailboxChar (c : Char) : Bool :=
  isLetterOrDigit c || ".!#$%&'*+/=?^_`\x7b|\x7d~-".toList.contains c

def isMailLabel (l : Text) : Bool :=
  1 ≤ l.length && l.length ≤ 63 && l.head?.any isLetterOrDigit && l.getLast?.any isLetterOrDigit
    && l.all fun c => isLetterOrDigit c || c = '-'

/-- The text is the address of a mailbox. -/
def isMailAddress (t : Text) : Bool :=
  let t := if t.getLast? = some '\n' then t.dropLast else t
  let mailbox := t.takeWhile isMailboxChar
  let rest := t.drop mailbox.length
  !mailbox.isEmpty && rest.head? = some '@' && (splitOn ['.'] (rest.drop 1)).all isMailLabel

/-- The text between an angle bracket at the cursor and the next one, if that closes it. -/
def bracketedAt? (c : Cursor) : Option Text :=
  match c.window c.pos with
  | '<' :: r =>
    let t := r.takeWhile fun d => d ≠ '<' && d ≠ '>'
    if (r.drop t.length).head? = some '>' then some t else none
  | _ => none

def autolinkRule : InlineRule := fun dry c =>
  match bracketedAt? c with
  | none => (false, c)
  | some t =>
    let target? : Option Text :=
      if isSchemeAddress t then some t
      else if isMailAddress t then some ("mailto:".toList ++ t)
      else none
    match target?.map normalAddress with
    | none => (false, c)
    | some address =>
      if !isSafeAddress address then (false, c)
      else
        let s := Span.link address [] true
        (true, (if dry then c else ((c.openSpan s).push (.text (shownAddress t))).closeSpan s).moveTo
          (c.pos + t.length + 2))

def tagRule : InlineRule := fun dry c =>
  let second := c.char? (c.pos + 1)
  if c.head? ≠ some '<' ∨ c.pos + 2 ≥ c.stop
    ∨ ¬(second.any fun d => d = '!' || d = '?' || d = '/' || isLetter d) then (false, c)
  else match rawMarkup? (c.beyond c.pos) with
    | none => (false, c)
    | some (t, _) => (true, (if dry then c else c.push (.markup t)).moveTo (c.pos + t.length))

end Lectern.Markdown
