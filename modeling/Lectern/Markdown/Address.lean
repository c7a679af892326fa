import Lectern.Markdown.Escape
import Lectern.Text.Case
import Lectern.Text.Percent

/-!
# Addresses

The address of a link is taken apart into scheme, credentials, host, port, path, query and fragment,
and put together again, so that a host with letters beyond ASCII can be written in the letters a
host name may have.

* `Address.ofText`, `Address.toText`   taking apart and putting together;
* `punycode`, `unpunycode?`            one label of a host name;
* `normalAddress`                      the address as it stands in a link;
* `shownAddress`                       the address as it is shown to a reader;
* `isSafeAddress`                      addresses that run no script.
-/

namespace Lectern.Markdown
open Text

structure Address where
  scheme : Text := []
  slashes : Bool := false
  credentials : Text := []
  host : Text := []
  port : Text := []
  path : Text := []
  query : Text := []
  fragment : Text := []

/-- The scheme with its colon and what follows it. -/
def splitScheme (t : Text) : Text × Text :=
  let isMark (c : Char) : Bool := isLetterOrDigit c || c = '.' || c = '+' || c = '-'
  let name := t.takeWhile isMark
  match t.dropWhile isMark with
  | ':' :: r => if name.isEmpty then ([], t) else (name ++ [':'], r)
  | _ => ([], t)

/-- Schemes whose addresses have two slashes before a host. -/
def isSlashedScheme (s : Text) : Bool :=
  ["http:", "https:", "ftp:", "gopher:", "file:"].any (·.toList = s)

def isHostEnd (c : Char) : Bool := c = '/' || c = '?' || c = '#'

/-- Characters that no host name holds. -/
def isForeignToHost (c : Char) : Bool :=
  "%/?;#'\x7b\x7d|\\^`<>\" \r\n\t".toList.contains c

/-- Cuts a text before its last at sign that stands before the end of the host. -/
def splitCredentials (t : Text) : Text × Text :=
  let bound := (t.takeWhile fun c => !isHostEnd c).length
  let part := t.take bound
  let after := (part.reverse.takeWhile (· ≠ '@')).length
  if after < part.length then (part.take (part.length - after - 1), t.drop (part.length - after))
  else ([], t)

/-- Cuts a colon and the digits after it off the end of a host. -/
def splitPort (host : Text) : Text × Text :=
  let digits := (host.reverse.takeWhile Char.isDigit).reverse
  let stem := host.take (host.length - digits.length)
  if stem.getLast? = some ':' then (stem.dropLast, digits) else (host, [])

def isHostChar (c : Char) : Bool := isLetterOrDigit c || c = '+' || c = '_' || c = '-'

/-- A part of a host name as it may stand, letters beyond ASCII counting as letters. -/
def isHostPart (p : Text) : Bool :=
  p.length ≤ 63 && p.all fun c => isHostChar c || c.toNat > 127

/-- The parts of a host name up to the first that may not stand, and what of it belongs to the path
instead. -/
def splitHostParts : List Text → List Text × Option Text
  | [] => ([], none)
  | p :: ps =>
    if isHostPart p then
      let (good, rest) := splitHostParts ps
      (p :: good, rest)
    else
      let start := (p.takeWhile isHostChar).take 63
      ([start], some (Text.join ['.'] (p.drop start.length :: ps)))

/-- The host at the start of a text and the rest of it. -/
def takeHost (a : Address) (t : Text) : Address × Text :=
  let (credentials, t) := splitCredentials t
  let len := (t.takeWhile fun c => !isForeignToHost c).length
  let len := if len > 0 ∧ (t.take len).getLast? = some ':' then len - 1 else len
  let (host, port) := splitPort (t.take len)
  let rest := t.drop len
  let bracketed := host.head? = some '[' ∧ host.getLast? = some ']'
  let (host, rest) :=
    if bracketed then (host, rest)
    else
      let (parts, moved) := splitHostParts (splitOn ['.'] host)
      (Text.join ['.'] parts, (moved.getD []) ++ rest)
  let host := if host.length > 255 then [] else host
  let host := if bracketed then (host.drop 1).dropLast else host
  ({ a with credentials, host, port }, rest)

namespace Address

def ofText (t : Text) : Address :=
  let (scheme, t) := splitScheme (strip t)
  let runsScript : Bool := scheme = "javascript:".toList
  let doubled := startsWith ['/', '/'] t
  let slashes := doubled && !runsScript
  let t := if slashes then t.drop 2 else t
  let a : Address := { scheme, slashes }
  let (a, t) :=
    if !runsScript && (doubled || (!scheme.isEmpty && !isSlashedScheme scheme)) then takeHost a t
    else (a, t)
  let fragment := t.dropWhile (· ≠ '#')
  let t := t.takeWhile (· ≠ '#')
  { a with path := t.takeWhile (· ≠ '?'), query := t.dropWhile (· ≠ '?'), fragment }

/-- The address put together from its parts, each changed by `f`.  A host that holds a colon stands in
brackets, to which nothing is done. -/
def toTextWith (f : Text → Text) (a : Address) : Text :=
  f (a.scheme ++ (if a.slashes then ['/', '/'] else [])
      ++ (if a.credentials.isEmpty then [] else a.credentials ++ ['@']))
    ++ (if a.host.contains ':' then '[' :: f a.host ++ [']'] else f a.host)
    ++ f ((if a.port.isEmpty then [] else ':' :: a.port) ++ a.path ++ a.query ++ a.fragment)

def toText (a : Address) : Text := a.toTextWith id

end Address

/-! ## host names beyond ASCII -/

/-- A digit of a host label in base 36: the letters first, then the ten digits. -/
def labelDigit (n : Nat) : Char :=
  if n < 26 then Char.ofNat (97 + n) else Char.ofNat (22 + n)

/-- How many digits less than the base a place may show before the number ends. -/
def labelThreshold (place bias : Nat) : Nat := min 26 (max 1 (36 * place - bias))

/-- The bias after a number: `first` tells the first one, `points` counts the characters so far. -/
def adaptBias (delta points : Nat) (first : Bool) : Nat :=
  let delta := if first then delta / 700 else delta / 2
  go 20 (delta + delta / points) 0
where
  go : Nat → Nat → Nat → Nat
    | 0, delta, steps => 36 * steps + 36 * delta / (delta + 38)
    | fuel + 1, delta, steps =>
      if delta > 455 then go fuel (delta / 35) (steps + 1)
      else 36 * steps + 36 * delta / (delta + 38)

/-- A number in digits of varying weight. -/
def labelNumber (bias : Nat) : Nat → Nat → Nat → Text
  | 0, _, n => [labelDigit n]
  | fuel + 1, place, n =>
    let t := labelThreshold place bias
    if n < t then [labelDigit n]
    else labelDigit (t + (n - t) % (36 - t)) :: labelNumber bias fuel (place + 1) ((n - t) / (36 - t))

/-- Writes the insertions of the code point `code` into a label, the state being the number since
the last insertion, the count of characters written, the bias and whether none was inserted yet. -/
def labelInsertions (code basic : Nat) : List Nat → Nat × Nat × Nat → Text × Nat × Nat × Nat
  | [], s => ([], s)
  | c :: cs, (delta, written, bias) =>
    if c < code then labelInsertions code basic cs (delta + 1, written, bias)
    else if c = code then
      let digits := labelNumber bias 40 1 delta
      let bias := adaptBias delta (written + 1) (written = basic)
      let (rest, s) := labelInsertions code basic cs (0, written + 1, bias)
      (digits ++ rest, s)
    else labelInsertions code basic cs (delta, written, bias)

/-- Writes the insertions code point by code point; the list holds the ones to come in rising
order. -/
def labelCodes (codes : List Nat) (basic : Nat) : List Nat → Nat → Nat × Nat × Nat → Text
  | [], _, _ => []
  | code :: rest, last, (delta, written, bias) =>
    let delta := delta + (code - last) * (written + 1)
    let (digits, delta, written, bias) :=
      labelInsertions code basic codes (delta, written, bias)
    digits ++ labelCodes codes basic rest (code + 1) (delta + 1, written, bias)

/-- A label of a host name in ASCII: its ASCII characters, then where the others stand. -/
def punycode (label : Text) : Text :=
  let plain := label.filter (·.toNat < 0x80)
  let codes := label.map Char.toNat
  let foreign := ((codes.filter (· ≥ 0x80)).mergeSort (· ≤ ·)).eraseDups
  plain ++ (if plain.isEmpty then [] else ['-'])
    ++ labelCodes codes plain.length foreign 0x80 (0, plain.length, 72)

def labelDigit? (c : Char) : Option Nat :=
  if 'a' ≤ c ∧ c ≤ 'z' then some (c.toNat - 97)
  else if 'A' ≤ c ∧ c ≤ 'Z' then some (c.toNat - 65)
  else if '0' ≤ c ∧ c ≤ '9' then some (c.toNat - 22)
  else none

/-- Reads a number in digits of varying weight. -/
def readLabelNumber? (bias : Nat) : Nat → Nat → Nat → Text → Option (Nat × Text)
  | _, _, _, [] => none
  | place, weight, sum, c :: t =>
    match labelDigit? c with
    | none => none
    | some d =>
      let threshold := labelThreshold place bias
      let sum := sum + d * weight
      if d < threshold then some (sum, t)
      else readLabelNumber? bias (place + 1) (weight * (36 - threshold)) sum t

/-- Inserts the characters that a label speaks of into `done`; the first argument bounds their
number, and `first` tells that none has been inserted yet. -/
def readInsertions? : Nat → Bool → Text → Nat → Nat → Nat → Text → Option Text
  | 0, _, _, _, _, _, done => some done
  | fuel + 1, first, t, code, position, bias, done =>
    if t.isEmpty then some done
    else match readLabelNumber? bias 1 1 0 t with
      | none => none
      | some (delta, t) =>
        let size := done.length + 1
        let position' := position + delta
        let code := code + position' / size
        let place := position' % size
        if code > 0x10ffff then none
        else
          readInsertions? fuel false t code (place + 1) (adaptBias delta size first)
            (done.take place ++ Char.ofNat code :: done.drop place)

/-- The label that ASCII characters stand for. -/
def unpunycode? (t : Text) : Option Text :=
  let tail := (t.reverse.takeWhile (· ≠ '-')).reverse
  let stem := (t.take (t.length - tail.length)).dropLast
  if t.any (·.toNat ≥ 0x80) then none
  else readInsertions? (tail.length + 1) true tail 0x80 0 72 stem

/-- The labels of a host name, which a full stop of any script parts. -/
def labelsOfHost (host : Text) : List Text :=
  let isDot (c : Char) : Bool := c = '.' || c.toNat = 0x3002 || c.toNat = 0xff0e || c.toNat = 0xff61
  splitOn ['.'] (host.map fun c => if isDot c then '.' else c)

def asciiLabel (label : Text) : Text :=
  if label.any (·.toNat > 0x7e) then "xn--".toList ++ punycode label else label

/-- A host name in ASCII. -/
def asciiHost (host : Text) : Text := Text.join ['.'] ((labelsOfHost host).map asciiLabel)

def shownLabel? (label : Text) : Option Text :=
  match stripPrefix? "xn--".toList label with
  | some t => unpunycode? (t.map Char.toLower)
  | none => some label

/-- A host name in the letters it stands for; it stays as it is if one of its labels stands for
nothing. -/
def shownHost (host : Text) : Text :=
  (((labelsOfHost host).mapM shownLabel?).map (Text.join ['.'])).getD host

/-- Schemes whose host names are encoded, and no scheme at all. -/
def encodesHost (a : Address) : Bool :=
  !a.host.isEmpty
    && (a.scheme.isEmpty || ["http:", "https:", "mailto:"].any (·.toList = a.scheme))

/-! ## the forms of an address -/

/-- The address as it stands in a link. -/
def normalAddress (t : Text) : Text :=
  let a := Address.ofText t
  let a := if encodesHost a then { a with host := asciiHost a.host } else a
  a.toTextWith percentEncodeKeeping

/-- An escape of a character that would be read otherwise without it stays an escape. -/
def keepsEscape (n : Nat) : Bool := ";/?:@&=+$,#%".toList.any (·.toNat = n)

/-- The text of a run of escaped bytes, every faulty byte shown as a replacement character; the
first argument counts the bytes still to pass over. -/
def shownBytes : Nat → Bytes → Text
  | _, [] => []
  | skip + 1, _ :: bs => shownBytes skip bs
  | 0, b :: bs =>
    if keepsEscape b.toNat then percentByte b ++ shownBytes 0 bs
    else match decodeStep b bs with
      | .char c more => c :: shownBytes more bs
      | .fault length _ => List.replicate length (Char.ofNat 0xfffd) ++ shownBytes (length - 1) bs

/-- Reads the escapes of a text; `acc` is the run of bytes begun, in reverse, and the first argument
counts the digits of an escape still to pass over. -/
def shownEscapes : Nat → Bytes → Text → Text
  | _, acc, [] => shownBytes 0 acc.reverse
  | skip + 1, acc, _ :: t => shownEscapes skip acc t
  | 0, acc, c :: t =>
    match c, t with
    | '%', a :: b :: _ =>
      match hexDigit? a, hexDigit? b with
      | some x, some y => shownEscapes 2 ((16 * x + y).toUInt8 :: acc) t
      | _, _ => shownBytes 0 acc.reverse ++ c :: shownEscapes 0 [] t
    | _, _ => shownBytes 0 acc.reverse ++ c :: shownEscapes 0 [] t

/-- The address as it is shown to a reader. -/
def shownAddress (t : Text) : Text :=
  let a := Address.ofText t
  let a := if encodesHost a then { a with host := shownHost a.host } else a
  shownEscapes 0 [] a.toText

/-- The address runs no script and opens no file; images may be written out in it. -/
def isSafeAddress (t : Text) : Bool :=
  let t := (strip t).map Char.toLower
  let begins (s : String) : Bool := startsWith s.toList t
  if ["vbscript:", "javascript:", "file:", "data:"].any begins then
    ["data:image/gif;", "data:image/png;", "data:image/jpeg;", "data:image/webp;"].any begins
  else true

end Lectern.Markdown
