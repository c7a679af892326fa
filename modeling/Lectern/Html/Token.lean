import Lectern.Html.Node
import Lectern.Text.Case
import Lectern.Text.Entity
import Lectern.Text.Quoted

/-!
# Tokens of markup

`scan` cuts a text into opening and closing tags, notes and the text between them, with the
character references read.  Markup that is never finished is text.  Nothing else is refused than a
bracketed section without a known keyword and a decimal reference of too many digits.

* `Token`            one piece;
* `readTag?`         an opening tag with its attributes;
* `readReference`    a character reference;
* `readSection`      a bracketed section;
* `scan`             all pieces of a text.
-/

namespace Lectern.Html
open Text

inductive Token where
  | text (content : Text)
  /-- An opening tag; `closed` if a slash ends it. -/
  | opening (name : Text) (attributes : List (Text × Text)) (closed : Bool)
  | closing (name : Text)
  | note (kind : NoteKind) (content : Text)
  deriving DecidableEq

/-- Why a text is no markup. -/
inductive Rejection where
  /-- A bracketed section begins with a word that is no keyword. -/
  | unknownSection (keyword : Text)
  /-- A bracketed section begins without a word; `head` is the text from its start on. -/
  | unnamedSection (head : Text)
  /-- A character reference is no number that can be read. -/
  | number (e : TooManyDigits)
  deriving DecidableEq

/-- The words for a bracketed section that is refused. -/
def sectionMessage (cause : Text) : Text :=
  "The markup you provided was rejected by the parser. ".toList
    ++ "Trying a different parser or a different encoding may help.".toList
    ++ "\n\nOriginal exception(s) from parser:\n AssertionError: ".toList ++ cause

def Rejection.message : Rejection → Text
  | .unknownSection keyword =>
    sectionMessage
      ("unknown status keyword ".toList ++ quoted keyword ++ " in marked section".toList)
  | .unnamedSection head => sectionMessage ("expected name token at ".toList ++ quoted (head.take 20))
  | .number e => e.message.toList

/-! ## Opening tags -/

def isTagNameChar (c : Char) : Bool := !"\t\n\r\x0c />\x00".toList.contains c

def isAttributeNameChar (c : Char) : Bool := !(isBlank c || "/=>".toList.contains c)

/-- A character that may stand before the name of an attribute. -/
def endsPiece (c : Char) : Bool := isBlank c || "'\"/".toList.contains c

/-- Passes over blanks and slashes, but not over a slash that closes the tag. -/
def skipFiller : Text → Text
  | '/' :: '>' :: t => '/' :: '>' :: t
  | c :: t => if isBlank c || c = '/' then skipFiller t else c :: t
  | [] => []

/-- A value without quotes and what follows it. -/
def bareValue (t : Text) : Text × Text := t.span fun c => !(isBlank c || c = '>')

/-- The value after the name of an attribute, the last character read and what follows.  A quote
that is never closed begins no value: the blank before it, or the equals sign, ends the empty one. -/
def readValue? (t : Text) : Option (Text × Char × Text) :=
  let (signs, r) := (t.dropWhile isBlank).span (· = '=')
  let (gap, body) := r.span isBlank
  if signs.isEmpty then none
  else
    match body with
    | q :: inner =>
      if q = '"' || q = '\'' then
        match indexOf? [q] inner with
        | some i => some (inner.take i, q, inner.drop (i + 1))
        | none =>
          match gap.getLast? with
          | some b => some ([], '=', b :: body)
          | none =>
            if signs.length = 1 then none
            else
              let (v, rest) := bareValue body
              some ('=' :: v, (v.getLast?).getD '=', rest)
      else
        let (v, rest) := bareValue body
        some (v, (v.getLast?).getD '=', rest)
    | [] => some ([], '=', [])

/-- The attributes from here on, their values as they are written, and what follows them; `before` is
the character before. -/
def readAttributes : Nat → Char → Text → List (Text × Text) × Text
  | 0, _, t => ([], t)
  | _, _, [] => ([], [])
  | fuel + 1, before, c :: t =>
    if !endsPiece before || isBlank c || c = '/' || c = '>' then ([], c :: t)
    else
      let (tail, rest) := t.span isAttributeNameChar
      let name := c :: tail
      let (value, last, rest) :=
        (readValue? rest).getD ([], (name.getLast?).getD c, rest)
      let next := skipFiller rest
      let (more, rest) :=
        readAttributes fuel (if next.length < rest.length then ' ' else last) next
      ((lower name, value) :: more, rest)

/-- What the text from an opening angle bracket and a letter on is. -/
inductive TagReading where
  | tag (token : Token) (rest : Text)
  /-- No tag: the text up to `rest` stands for itself. -/
  | stray (rest : Text)
  | unfinished

/-- Reads a tag from the character after its angle bracket on.  The references in values are read even
where what follows them shows that it is no tag. -/
def readTag (t : Text) : Except TooManyDigits TagReading :=
  let (name, after) := t.span isTagNameChar
  let (filler, body) := after.span fun c => isBlank c || c = '/'
  match body with
  | '>' :: rest => .ok (.tag (.opening (lower name) [] (filler.getLast? = some '/')) rest)
  | _ =>
    let before := (filler.getLast?.or name.getLast?).getD ' '
    let (written, rest) := readAttributes (body.length + 1) before body
    let finish (reading : List (Text × Text) → TagReading) : Except TooManyDigits TagReading :=
      (written.mapM fun (a : Text × Text) => (unescape a.2).map (a.1, ·)).map reading
    match rest with
    | '>' :: rest => finish fun attributes => .tag (.opening (lower name) attributes false) rest
    | '/' :: '>' :: rest => finish fun attributes => .tag (.opening (lower name) attributes true) rest
    | [] => .ok .unfinished
    | c :: _ =>
      if isLetter c || c = '=' || c = '/' then .ok .unfinished else finish fun _ => .stray rest

/-! ## Character references -/

/-- The character that a number below 256 stands for in old documents, any other by its code
point. -/
def numberedChar (n : Nat) : Text :=
  if n = 0 then Entity.replacement
  else if 0x80 ≤ n && n < 0xa0 then [Char.ofNat (Entity.westernCodes.getD (n - 0x80) n)]
  else if (0xd800 ≤ n && n < 0xe000) || n > 0x10ffff then Entity.replacement
  else [Char.ofNat n]

/-- What the text after an ampersand says. -/
inductive Reference where
  | means (text rest : Text)
  /-- A number sign that begins no number. -/
  | strayNumber
  /-- A name or a number that the end of the text cuts off. -/
  | unfinished
  | stray

def dropSemicolon : Text → Text
  | ';' :: t => t
  | t => t

/-- A number ends before a character that is no hexadecimal digit, whatever its base. -/
def readNumber (value : Text → Except TooManyDigits Nat) (digits rest : Text) :
    Except TooManyDigits Reference :=
  match digits, rest with
  | _ :: _, c :: _ =>
    if (hexDigit? c).isSome then .ok .strayNumber
    else (value digits).map fun n => .means (numberedChar n) (dropSemicolon rest)
  | _, _ => .ok .strayNumber

/-- The longest run of name characters that a sign which is neither letter nor digit follows. -/
def readName (t : Text) : Reference :=
  let (run, rest) := t.span fun c => isLetterOrDigit c || c = '-' || c = '.'
  let finished (name rest : Text) : Reference :=
    .means ((Entity.named? name).getD ('&' :: name)) (dropSemicolon rest)
  match rest with
  | _ :: _ => finished run rest
  | [] =>
    let alnum := run.reverse.takeWhile isLetterOrDigit
    let n := run.length - alnum.length
    if n ≤ 1 then .unfinished else finished (run.take (n - 1)) (run.drop (n - 1))

def readReference : Text → Except TooManyDigits Reference
  | '#' :: 'x' :: t | '#' :: 'X' :: t =>
    let (digits, rest) := t.span fun c => (hexDigit? c).isSome
    readNumber (fun ds => .ok (ofHex ds)) digits rest
  | '#' :: t =>
    let (digits, rest) := t.span Char.isDigit
    readNumber readNatural digits rest
  | c :: t => .ok (if isLetter c then readName (c :: t) else .stray)
  | [] => .ok .unfinished

/-! ## Closing tags, notes and sections -/

/-- What stands before and after the first occurrence of a character. -/
def cutAt? (c : Char) (t : Text) : Option (Text × Text) :=
  (indexOf? [c] t).map fun i => (t.take i, t.drop (i + 1))

/-- Reads from the character after `</` on. -/
def readClosing? (t : Text) : Option (List Token × Text) :=
  (cutAt? '>' t).map fun (inside, rest) =>
    match inside.dropWhile isBlank with
    | c :: _ =>
      let (name, after) := (inside.dropWhile isBlank).span fun c =>
        isLetterOrDigit c || "-.:_".toList.contains c
      if isLetter c && isAllBlank after then ([.closing (lower name)], rest)
      else
        match inside with
        | d :: _ =>
          if isLetter d then ([.closing (lower (inside.takeWhile isTagNameChar))], rest)
          else ([.note .comment inside], rest)
        | [] => ([], rest)
    | [] => if inside.isEmpty then ([], rest) else ([.note .comment inside], rest)

/-- What stands before and after an end that is written as the given marks, blanks between them
allowed after the first. -/
def cutAtMarks? (first : Text) (others : List Char) : Text → Option (Text × Text)
  | [] => none
  | c :: t =>
    let after := (stripPrefix? first (c :: t)).bind fun rest =>
      others.foldlM (fun r m => match r.dropWhile isBlank with
        | d :: r => if d = m then some r else none
        | [] => none) rest
    match after with
    | some rest => some ([], rest)
    | none => (cutAtMarks? first others t).map fun (a, b) => (c :: a, b)

/-- A comment from the character after its opening on. -/
def readComment? (t : Text) : Option (List Token × Text) :=
  (cutAtMarks? "--" ['>'] t).map fun (inside, rest) => ([.note .comment inside], rest)

def sectionKeywords : List String := ["temp", "cdata", "ignore", "include", "rcdata"]

def officeKeywords : List String := ["if", "else", "endif"]

/-- A bracketed section from the character after `<![` on. -/
def readSection (t : Text) : Except Rejection (Option (List Token × Text)) :=
  match t with
  | [] => .ok none
  | c :: _ =>
    if !isLetter c then .error (.unnamedSection ("<![".toList ++ t))
    else
      let (word, after) := t.span fun c => isLetterOrDigit c || "-_.".toList.contains c
      let (gap, rest) := after.span isBlank
      let isOneOf (names : List String) := names.any fun n => n.toList = lower word
      let token (inside : Text) : Token :=
        if (lower (inside.take 6)) = "cdata[".toList then .note .literal (inside.drop 6)
        else .note .declaration inside
      if rest.isEmpty then .ok none
      else if isOneOf sectionKeywords then
        .ok ((cutAtMarks? "]" [']', '>'] t).map fun (inside, rest) => ([token inside], rest))
      else if isOneOf officeKeywords then
        .ok ((cutAtMarks? "]" ['>'] t).map fun (inside, rest) => ([token inside], rest))
      else .error (.unknownSection (word ++ gap))

/-- A declaration or a comment from the character after `<!` on. -/
def readDeclaration (t : Text) : Except Rejection (Option (List Token × Text)) :=
  match t with
  | '-' :: '-' :: t => .ok (readComment? t)
  | '[' :: t => readSection t
  | t =>
    .ok ((cutAt? '>' t).map fun (inside, rest) =>
      if lower (inside.take 7) = "doctype".toList then ([.note .doctype (inside.drop 8)], rest)
      else ([.note .comment inside], rest))

/-- The content of a script or style sheet, up to the tag that closes it, and what follows that. -/
def verbatim? (name : Text) : Text → Option (Text × Text)
  | [] => none
  | c :: t =>
    let after := (stripPrefix? "</" (c :: t)).bind fun r =>
      let (word, rest) := (r.dropWhile isBlank).span isLetter
      match rest.dropWhile isBlank with
      | '>' :: rest => if word.map Char.toLower = name then some rest else none
      | _ => none
    match after with
    | some rest => some ([], rest)
    | none => (verbatim? name t).map fun (a, b) => (c :: a, b)

/-! ## The scanner -/

/-- The part of unfinished markup that is text: up to its next angle bracket. -/
def unfinishedPart (t : Text) : Text × Text :=
  match t with
  | [] => ([], [])
  | c :: r =>
    match indexOf? ['>'] r with
    | some i => (c :: r.take (i + 1), r.drop (i + 1))
    | none =>
      match indexOf? ['<'] r with
      | some i => (c :: r.take i, r.drop i)
      | none => ([c], r)

def isVerbatimName (name : Text) : Bool := name = "script".toList || name = "style".toList

/-- The markup at an opening angle bracket, from the character after it on; `none` where it is
unfinished. -/
def readMarkup (t : Text) : Except Rejection (Option (List Token × Text)) :=
  match t with
  | [] => .ok none
  | '/' :: t => .ok (readClosing? t)
  | '!' :: t => readDeclaration t
  | '?' :: t => .ok ((cutAt? '>' t).map fun (inside, rest) => ([.note .instruction inside], rest))
  | c :: _ =>
    if isLetter c then do
      match ← (readTag t).mapError .number with
      | .tag (.opening name attributes false) rest =>
        if isVerbatimName name then
          match verbatim? name rest with
          | some (inside, rest) =>
            .ok (some ([.opening name attributes false, .text inside, .closing name], rest))
          | none => .ok (some ([.opening name attributes false], []))
        else .ok (some ([.opening name attributes false], rest))
      | .tag token rest => .ok (some ([token], rest))
      | .stray rest => .ok (some ([.text ('<' :: t.take (t.length - rest.length))], rest))
      | .unfinished => .ok none
    else .ok (some ([.text ['<']], t))

/-- The tokens of a text.  The first argument bounds their number; `ending` says that unfinished
markup has been met, from which on a number sign without a number makes the rest text. -/
def scanAux : Nat → Bool → Text → Except Rejection (List Token)
  | 0, _, _ => .ok []
  | _, _, [] => .ok []
  | fuel + 1, ending, c :: t =>
    if c = '<' then do
      match ← readMarkup t with
      | some (tokens, rest) => return tokens ++ (← scanAux fuel ending rest)
      | none =>
        let (part, rest) := unfinishedPart (c :: t)
        return .text part :: (← scanAux fuel true rest)
    else if c = '&' then do
      match ← (readReference t).mapError .number with
      | .means text rest => return .text text :: (← scanAux fuel ending rest)
      | .strayNumber =>
        if !t.contains ';' then return [.text (c :: t)]
        else if ending then return [.text (c :: t)]
        else return .text ['&', '#'] :: (← scanAux fuel true (t.drop 1))
      | .unfinished => return [.text (if t.length = 1 then t else c :: t)]
      | .stray => return .text ['&'] :: (← scanAux fuel ending t)
    else do
      let (run, rest) := t.span fun d => d ≠ '<' && d ≠ '&'
      return .text (c :: run) :: (← scanAux fuel ending rest)

def scan (t : Text) : Except Rejection (List Token) := scanAux (t.length + 1) false t

end Lectern.Html
