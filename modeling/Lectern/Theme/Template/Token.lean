import Lectern.Text.Blank
import Lectern.Text.Digit
import Lectern.Text.Word
import Lectern.Theme.Template.Fault

/-!
# The tokens of a template

A template is text with gaps: two braces hold what is written, a brace and a percent sign what is
done, and a brace and a number sign what is said to no one.  A minus sign inside a brace takes the
blanks away on its side.  What stands between `raw` and `endraw` is text.

* `Token`      what a template is made of;
* `tokens`     the tokens of a text, the last of which says how it ends.
-/

namespace Lectern.Theme.Template
open Text

inductive Token where
  | text (t : Text)
  | openOutput
  | closeOutput
  | openBlock
  | closeBlock
  | name (t : Text)
  | quoted (t : Text)
  | whole (n : Nat)
  /-- A number with a point or an exponent, as it is written. -/
  | decimal (t : Text)
  | sign (s : String)
  | finish
  /-- No token can be read here. -/
  | fault (e : ReadFault)
  deriving DecidableEq

/-- What a token is called in messages. -/
def Token.describe : Token → Text
  | .text _ => "template data / text"
  | .openOutput => "begin of print statement"
  | .closeOutput => "end of print statement"
  | .openBlock => "begin of statement block"
  | .closeBlock => "end of statement block"
  | .name t => t
  | .quoted _ => "string"
  | .whole _ => "integer"
  | .decimal _ => "float"
  | .sign s => s.toList
  | .finish | .fault _ => "end of template"

/-- The token is this name. -/
def Token.isName (w : String) (t : Token) : Bool := t = .name w.toList

/-! ## Numbers -/

/-- A run of digits with single underscores between them; the rest, if there is such a run. -/
def digitRun? (isFirst isLater : Char → Bool) : Text → Option (Text × Text)
  | [] => none
  | c :: t =>
    if isFirst c then some (go (t.length + 1) [c] t) else none
where
  go : Nat → Text → Text → Text × Text
    | 0, done, t => (done, t)
    | fuel + 1, done, t =>
      match t with
      | '_' :: c :: r => if isLater c then go fuel (done ++ [c]) r else (done, t)
      | c :: r => if isLater c then go fuel (done ++ [c]) r else (done, t)
      | [] => (done, [])

def digits? (t : Text) : Option (Text × Text) := digitRun? isDigit isDigit t

/-- An exponent, as it is written. -/
def exponent? : Text → Option (Text × Text)
  | e :: t =>
    if e = 'e' || e = 'E' then
      let (mark, t) := match t with
        | '+' :: t => (['e', '+'], t)
        | '-' :: t => (['e', '-'], t)
        | t => (['e'], t)
      (digits? t).map fun (ds, t) => (mark ++ ds, t)
    else none
  | [] => none

/-- A number with a point or an exponent. -/
def decimal? (t : Text) : Option (Text × Text) :=
  (digits? t).bind fun (whole, t) =>
    let fraction? := match t with
      | '.' :: t => digits? t
      | _ => none
    match fraction? with
    | some (ds, t) =>
      let number := whole ++ '.' :: ds
      match exponent? t with
      | some (e, t) => some (number ++ e, t)
      | none => some (number, t)
    | none => (exponent? t).map fun (e, t) => (whole ++ e, t)

/-- The digits of a number in another base behind its mark. -/
def based? (mark : Char) (base : Nat) (t : Text) : Option (Nat × Text) :=
  match t with
  | '0' :: c :: t =>
    if c.toLower = mark then
      let isDigit (c : Char) : Bool := (hexDigit? c).any (· < base)
      let t := match t with
        | '_' :: t => t
        | t => t
      (digitRun? isDigit isDigit t).map fun (ds, t) =>
        (ds.foldl (fun n c => base * n + (hexDigit? c).getD 0) 0, t)
    else none
  | _ => none

/-- A whole number. -/
def whole? (t : Text) : Option (Except ReadFault Nat × Text) :=
  match (based? 'b' 2 t).orElse fun _ => (based? 'o' 8 t).orElse fun _ => based? 'x' 16 t with
  | some (n, t) => some (.ok n, t)
  | none =>
    match t with
    | '0' :: _ => (digitRun? (· = '0') (· = '0') t).map fun (_, t) => (.ok 0, t)
    | _ => (digitRun? (fun c => '1' ≤ c && c ≤ '9') isDigit t).map fun (ds, t) =>
      ((readNatural ds).mapError .digits, t)

/-! ## Quoted texts -/

/-- The text up to the closing quote, as it is written, and what follows the quote. -/
def untilQuote? (quote : Char) : Text → Option (Text × Text)
  | [] => none
  | '\\' :: c :: t => (untilQuote? quote t).map fun (s, rest) => ('\\' :: c :: s, rest)
  | c :: t =>
    if c = quote then some ([], t)
    else if c = '\\' then none
    else (untilQuote? quote t).map fun (s, rest) => (c :: s, rest)

/-- A character beyond ASCII as an escape. -/
def asEscape (c : Char) : Text :=
  if c.toNat < 0x80 then [c]
  else if c.toNat < 0x100 then '\\' :: 'x' :: hex 2 c.toNat
  else if c.toNat < 0x10000 then '\\' :: 'u' :: hex 4 c.toNat
  else '\\' :: 'U' :: hex 8 c.toNat

/-- Escapes of one letter. -/
def letterEscapes : List (Char × Nat) :=
  [('\\', 92), ('\'', 39), ('"', 34), ('a', 7), ('b', 8), ('f', 12), ('n', 10), ('r', 13), ('t', 9),
    ('v', 11)]

/-- Escapes of a code point: their letter, their digits, and what is said of fewer digits. -/
def codeEscapes : List (Char × Nat × String) :=
  [('x', 2, "truncated \\xXX escape"), ('u', 4, "truncated \\uXXXX escape"),
    ('U', 8, "truncated \\UXXXXXXXX escape")]

/-- The character of a code point; the halves of a pair have none. -/
def charOf (n : Nat) : Char := if 0xd800 ≤ n && n < 0xe000 then '\ufffd' else Char.ofNat n

/-- A text with its escapes resolved.  A backslash before any other character stays. -/
def unescape : Nat → Text → Except ReadFault Text
  | 0, t => .ok t
  | fuel + 1, t =>
    match t with
    | [] => .ok []
    | '\\' :: c :: t =>
      match letterEscapes.lookup c, codeEscapes.lookup c with
      | some n, _ => (unescape fuel t).map (Char.ofNat n :: ·)
      | none, some (width, message) =>
        let ds := t.take width
        if ds.length < width || !ds.all fun d => (hexDigit? d).isSome then
          .error (.form message.toList)
        else if ofHex ds > 0x10ffff then .error (.form "illegal Unicode character")
        else (unescape fuel (t.drop width)).map (charOf (ofHex ds) :: ·)
      | none, none =>
        let octal := ((c :: t).take 3).takeWhile fun d => '0' ≤ d && d ≤ '7'
        if c = '\n' then unescape fuel t
        else if c = 'N' then
          .error (.form (if t.head? = some '\x7b' && t.contains '\x7d' then
            "unknown Unicode character name" else "malformed \\N character escape"))
        else if !octal.isEmpty then
          let n := octal.foldl (fun n d => 8 * n + (d.toNat - 48)) 0
          (unescape fuel ((c :: t).drop octal.length)).map (Char.ofNat n :: ·)
        else (unescape fuel t).map fun s => '\\' :: c :: s
    | c :: t => (unescape fuel t).map (c :: ·)

/-- The text between quotes. -/
def quotedText (written : Text) : Except ReadFault Text :=
  let plain := written.flatMap asEscape
  unescape (plain.length + 1) plain

/-! ## Gaps -/

/-- The signs of a gap, the longer of two with the same beginning first. -/
def signs : List String :=
  ["//", "**", "==", "!=", ">=", "<=", "+", "-", "/", "*", "%", "~", "[", "]", "(", ")", "\x7b", "\x7d",
    ">", "<", "=", ".", ":", "|", ",", ";"]

/-- What follows the closing brace of a gap, where it closes here: `close` is its first
character. -/
def closing? (close : Char) (t : Text) : Option Text :=
  match t with
  | '-' :: rest => (stripPrefix? [close, '\x7d'] rest).map fun r => r.dropWhile isBlank
  | '+' :: rest => if close = '\x7d' then none else stripPrefix? [close, '\x7d'] rest
  | t => stripPrefix? [close, '\x7d'] t

/-- The text before the first opening brace of a gap, the character after that brace and what
follows. -/
def splitAtGap : Text → Text × Option (Char × Text)
  | '\x7b' :: c :: t =>
    if c = '\x7b' || c = '%' || c = '#' then ([], some (c, t))
    else
      let (before, gap) := splitAtGap (c :: t)
      ('\x7b' :: before, gap)
  | c :: t =>
    let (before, gap) := splitAtGap t
    (c :: before, gap)
  | [] => ([], none)

/-- The sign that may stand after an opening brace: whether it takes blanks away, and the rest. -/
def readSign : Text → Bool × Text
  | '-' :: t => (true, t)
  | '+' :: t => (false, t)
  | t => (false, t)

/-- What follows a comment. -/
def afterComment? : Text → Option Text
  | [] => none
  | c :: t => match closing? '#' (c :: t) with
    | some rest => some rest
    | none => afterComment? t

/-- What follows the beginning of a raw part, where one begins here. -/
def afterRaw? (t : Text) : Option Text :=
  (stripPrefix? "raw" (t.dropWhile isBlank)).bind fun rest =>
    let rest := rest.dropWhile isBlank
    if rest.head? = some '+' then none else closing? '%' rest

/-- Where a raw part ends here: whether the blanks before its end are taken away, and the rest. -/
def rawEnd? (t : Text) : Option (Bool × Text) :=
  (stripPrefix? ['\x7b', '%'] t).bind fun rest =>
    let (strips, rest) := readSign rest
    (stripPrefix? "endraw" (rest.dropWhile isBlank)).bind fun rest =>
      (closing? '%' (rest.dropWhile isBlank)).map (strips, ·)

/-- The text of a raw part and what follows it. -/
def rawPart? : Text → Option (Text × Bool × Text)
  | [] => none
  | c :: t =>
    match rawEnd? (c :: t) with
    | some (strips, rest) => some ([], strips, rest)
    | none => (rawPart? t).map fun (s, strips, rest) => (c :: s, strips, rest)

/-- The bracket that closes one, if the sign opens one. -/
def closer? (s : String) : Option String :=
  match s with
  | "(" => some ")"
  | "[" => some "]"
  | "\x7b" => some "\x7d"
  | _ => none

/-- The closers still to come behind a sign. -/
def balance (closers : List String) (s : String) : Except ReadFault (List String) :=
  match closer? s with
  | some c => .ok (c :: closers)
  | none =>
    if s == ")" || s == "]" || s == "\x7d" then
      match closers with
      | [] => .error (.form ("unexpected '".toList ++ s.toList ++ ['\'']))
      | c :: rest =>
        if c == s then .ok rest
        else .error (.form ("unexpected '".toList ++ s.toList ++ "', expected '".toList ++ c.toList
          ++ ['\'']))
    else .ok closers

/-- A word of a gap and what follows it; `behindPoint` says that a point comes before. -/
def readWord (behindPoint : Bool) (t : Text) : Option (Except ReadFault Token × Text) :=
  let decimal? := if behindPoint then none else decimal? t
  match decimal?, whole? t with
  | some (ds, t), _ => some (.ok (.decimal (plain ds)), t)
  | none, some (n, t) => some (n.map .whole, t)
  | none, none =>
    match t with
    | [] => none
    | c :: r =>
      if isNamePart c then
        let (name, t) := (c :: r).span isNamePart
        some (if isName name then .ok (.name name)
          else .error (.form "Invalid character in identifier"), t)
      else if c = '\'' || c = '"' then
        (untilQuote? c r).map fun (written, t) => ((quotedText written).map .quoted, t)
      else
        (signs.find? fun s => startsWith s.toList (c :: r)).map fun s =>
          (.ok (.sign s), (c :: r).drop s.length)
where
  isNamePart (c : Char) : Bool := isWordChar c || isNameChar c
  plain (ds : Text) : Text := ds.map fun c => match digit? c with
    | some d => Nat.digitChar d
    | none => c

/-- Where the reader stands: in the text, or in a gap that ends with this character before its
brace. -/
inductive Place where
  | text
  | gap (close : Char)
  deriving DecidableEq

/-- The token of a text that is not empty. -/
def textToken (t : Text) : List Token := if t.isEmpty then [] else [.text t]

/-- The tokens of a text of which `size` characters were there in all; `closers` are the brackets
still to be closed, and `behindPoint` says that the last token was a point. -/
def tokensFrom (size : Nat) : Nat → Place → (closers : List String) → (behindPoint : Bool) → Text →
    List Token
  | 0, _, _, _, _ => [.finish]
  | fuel + 1, .text, closers, _, t =>
    let (before, gap) := splitAtGap t
    match gap with
    | none => textToken before ++ [.finish]
    | some (kind, inside) =>
      let (strips, inside) := readSign inside
      let before := textToken (if strips then stripRight before else before)
      if kind = '#' then
        match afterComment? inside with
        | some rest => before ++ tokensFrom size fuel .text closers false rest
        | none =>
          before ++ [if inside.isEmpty then .finish else .fault (.form "Missing end of comment tag")]
      else if kind = '%' then
        match afterRaw? inside with
        | some rest =>
          match rawPart? rest with
          | some (raw, strips, rest) =>
            before ++ textToken (if strips then stripRight raw else raw)
              ++ tokensFrom size fuel .text closers false rest
          | none =>
            before ++ [if rest.isEmpty then .finish
              else .fault (.form "Missing end of raw directive")]
        | none => before ++ .openBlock :: tokensFrom size fuel (.gap '%') closers false inside
      else before ++ .openOutput :: tokensFrom size fuel (.gap '\x7d') closers false inside
  | fuel + 1, .gap close, closers, behindPoint, t =>
    match if closers.isEmpty then closing? close t else none with
    | some rest =>
      (if close = '%' then .closeBlock else .closeOutput) :: tokensFrom size fuel .text [] false rest
    | none =>
      match t with
      | [] => [.finish]
      | c :: r =>
        if isBlank c then tokensFrom size fuel (.gap close) closers false r
        else
          match readWord behindPoint t with
          | none =>
            [.fault (.form ("unexpected char ".toList ++ Text.quoted [c] ++ " at ".toList
              ++ ofNat (size - t.length)))]
          | some (.error e, _) => [.fault e]
          | some (.ok (.sign s), rest) =>
            match balance closers s with
            | .error e => [.fault e]
            | .ok closers =>
              .sign s :: tokensFrom size fuel (.gap close) closers (s == ".") rest
          | some (.ok token, rest) => token :: tokensFrom size fuel (.gap close) closers false rest

/-- The tokens of a text. -/
def tokens (t : Text) : List Token :=
  tokensFrom t.length (t.length + 1) .text [] false t

end Lectern.Theme.Template
