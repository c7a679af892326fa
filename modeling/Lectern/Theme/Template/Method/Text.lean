import Lectern.Theme.Template.Filter.Phrase
import Lectern.Theme.Template.Method.Given
import Lectern.Theme.Template.Pattern

/-!
# What texts do

`applyTextMethod` is the value of a method of a text.  What a text that is markup gives is markup
again, and what is put into it is escaped.

* `letterMethod?`   texts with their letters changed, and what kind of characters a text has;
* `searchMethod`    where and how often another text occurs, between two positions;
* `widthMethod`     a text brought to a width;
* `partsMethod`     a text cut into parts;
* `exchangeMethod`  a text with parts of it taken away or exchanged.
-/

namespace Lectern.Theme.Template
open Text Value

/-- Text of the same kind. -/
def likeText (isMarkup : Bool) (t : Text) : Value := if isMarkup then .markup t else .text t

/-! ## Letters -/

/-- All characters of a text that is not empty are of a kind. -/
def isAllOf (p : Char → Bool) (t : Text) : Bool := !t.isEmpty && t.all p

/-- A text with its letters changed, or whether a text is of some kind. -/
def letterMethod? (isMarkup : Bool) (t : Text) (name : String) : Option Value :=
  let like (t : Text) : Option Value := some (likeText isMarkup t)
  let holds (b : Bool) : Option Value := some (.bool b)
  match name with
  | "capitalize" => like (capitalize t)
  | "casefold" => like (smallFoldCase t)
  | "lower" => like (lower t)
  | "swapcase" => like (swapCase t)
  | "title" => like (titleCase t)
  | "upper" => like (upper t)
  | "isalnum" => holds (isAllOf isLetterOrNumeral t)
  | "isalpha" => holds (isAllOf isLetterOfAnyScript t)
  | "isascii" => holds (t.all fun c => c.toNat < 0x80)
  | "isdecimal" => holds (isAllOf isDigit t)
  | "isdigit" => holds (isAllOf isDigitSign t)
  | "isidentifier" => holds (isName t)
  | "islower" => holds (t.any isSmall && !t.any isCapital)
  | "isnumeric" => holds (isAllOf hasNumber t)
  | "isprintable" => holds (t.all isPrintable)
  | "isspace" => holds (isAllOf isBlank t)
  | "istitle" => holds (isTitle t)
  | "isupper" => holds (t.any isCapital && !t.any isSmall)
  | _ => none

/-! ## Searching -/

/-- A position that an argument tells, counted from the end where it is negative. -/
def positionFrom (length default : Nat) : Option Value → Result Nat
  | none | some .nothing => .ok default
  | some v =>
    match v.int? with
    | some i => .ok (if i < 0 then i + length else i).toNat
    | none => misfit "slice indices must be integers or None or have an __index__ method"

/-- The part of a text that is searched, and where it begins; there is none where it would end before
it begins. -/
def searched (t : Text) (start stop : Option Value) : Result (Option (Nat × Text)) := do
  let i ← positionFrom t.length 0 start
  let j := min t.length (← positionFrom t.length t.length stop)
  return if i ≤ j then some (i, slice t i j) else none

/-- What is told of a text by searching it for others. -/
def searchMethod (t : Text) (name : String) (c : Call) : Result Value := do
  checkCount .taking "" name 1 3 c
  let part ← searched t c.values[1]? c.values[2]?
  let found (where_ : Text → Text → Option Nat) : Result (Option Int) := do
    let s ← needText (c.at 0)
    return part.bind fun (i, u) => (where_ s u).map fun j => (i + j : Nat)
  let place (where_ : Text → Text → Option Nat) : Result Value := do
    match ← found where_ with
    | some i => return .int i
    | none => throw (.value "substring not found")
  let stands (holds : Text → Text → Bool) : Result Value := do
    let isThere (s : Text) : Bool := part.any fun e => holds s e.2
    match c.at 0 with
    | .tuple vs =>
      return .bool (← vs.anyM fun v =>
        match v.text? with
        | some s => .ok (isThere s)
        | none => misfit ("tuple for " ++ name ++ " must only contain str, not " ++ v.kindName))
    | v =>
      match v.text? with
      | some s => return .bool (isThere s)
      | none =>
        misfit (name ++ " first arg must be str or a tuple of str, not " ++ v.kindName)
  match name with
  | "find" => return .int ((← found indexOf?).getD (-1))
  | "rfind" => return .int ((← found lastIndexOf?).getD (-1))
  | "index" => place indexOf?
  | "rindex" => place lastIndexOf?
  | "startswith" => stands startsWith
  | "endswith" => stands endsWith
  | _ => do
    let s ← needText (c.at 0)
    return .int ((part.map fun e => occurrences s e.2).getD 0)

/-! ## Widths -/

/-- The character that fills a line. -/
def fillOf (isMarkup : Bool) : Option Value → Result Char
  | none => .ok ' '
  | some v => do
    let t ← if isMarkup then v.output true
      else match v.text? with
        | some t => pure t
        | none => misfit ("The fill character must be a unicode character, not " ++ v.kindName)
    match t with
    | [c] => return c
    | _ => misfit "The fill character must be exactly one character long"

/-- A text brought to a width. -/
def widthMethod (isMarkup : Bool) (t : Text) (name : String) (c : Call) : Result Value := do
  if name == "zfill" then
    checkCount .exactly "str" name 1 1 c
    return likeText isMarkup (zeroFill (← needInt (c.at 0)).toNat t)
  checkCount .expected "str" name 1 2 c
  let width := (← needInt (c.at 0)).toNat
  let fill ← fillOf isMarkup c.values[1]?
  let space := List.replicate (width - t.length) fill
  return likeText isMarkup (match name with
    | "ljust" => t ++ space
    | "rjust" => space ++ t
    | _ => center width fill t)

/-! ## Parts -/

/-- The lines of a text with what ends them; `acc` is the line begun, in reverse. -/
def linesWithEnds : (acc : Text) → Text → List Text
  | acc, [] => if acc.isEmpty then [] else [acc.reverse]
  | acc, '\r' :: '\n' :: t => ('\n' :: '\r' :: acc).reverse :: linesWithEnds [] t
  | acc, c :: t =>
    if isLineEnd c then (c :: acc).reverse :: linesWithEnds [] t else linesWithEnds (c :: acc) t

/-- The parts of a text between separators, or its words. -/
def splitText (fromBack : Bool) (t : Text) (separator limit : Option Value) : Result (List Text) := do
  let most := match ← limit.mapM needInt with
    | none => t.length + 1
    | some n => if n < 0 then t.length + 1 else n.toNat
  match separator with
  | none | some .nothing => return (if fromBack then wordsBack else wordsFront) most t
  | some v =>
    let some s := v.text? | misfit ("must be str or None, not " ++ v.kindName)
    if s.isEmpty then throw (.value "empty separator")
    return (if fromBack then splitBack else splitFront) s most t

/-- A text before a separator, the separator, and the text behind it. -/
def partitionText (fromBack : Bool) (t s : Text) : List Text :=
  match (if fromBack then lastIndexOf? else indexOf?) s t with
  | some i => [t.take i, s, t.drop (i + s.length)]
  | none => if fromBack then [[], [], t] else [t, [], []]

/-- A text cut into parts. -/
def partsMethod (isMarkup : Bool) (t : Text) (name : String) (c : Call) : Result Value := do
  let like := likeText isMarkup
  match name with
  | "split" | "rsplit" => do
    let given ← byPosition name ["sep", "maxsplit"] c
    let parts ← splitText (name == "rsplit") t (given[0]?).join (given[1]?).join
    return .list (parts.map like)
  | "splitlines" => do
    let given ← byPosition name ["keepends"] c
    let keeps ← needInt ((given[0]?).join.getD (Value.bool false))
    return .list ((if keeps ≠ 0 then linesWithEnds [] t else lines t).map like)
  | _ => do
    checkCount .exactly "str" name 1 1 c
    let s ← needText (c.at 0)
    if s.isEmpty then throw (.value "empty separator")
    return .tuple ((partitionText (name == "rpartition") t s).map like)

/-! ## Exchanging -/

/-- What is taken away at the ends of a text: blanks, or the characters of an argument. -/
def isEdge (argument : Option Value) (c : Char) : Bool :=
  match argument.bind text? with
  | some cs => cs.contains c
  | none => isBlank c

/-- Values put together with a text between them. -/
def joinMethod (isMarkup : Bool) (t : Text) (v : Value) : Result Value := do
  v.check
  let .ok vs := v.items | misfit "can only join an iterable"
  let parts ← vs.zipIdx.mapM fun (v, i) =>
    if isMarkup then v.output true
    else match v.text? with
      | some s => .ok s
      | none => misfit (s!"sequence item {i}: expected str instance, " ++ v.kindName ++ " found")
  return likeText isMarkup (join t parts)

/-- A text with parts of it taken away or exchanged. -/
def exchangeMethod (isMarkup : Bool) (t : Text) (name : String) (c : Call) : Result Value := do
  let like := likeText isMarkup
  match name with
  | "replace" => do
    checkCount .expected "str" name 2 3 c
    let old ← needText (c.at 0) "replace() argument 1 "
    let new ← if isMarkup then (c.at 1).output true
      else needText (c.at 1) "replace() argument 2 "
    let count ← (c.values[2]?).mapM needInt
    return like (replaceText old new count t)
  | "removeprefix" => do
    checkCount .exactly "str" name 1 1 c
    let s ← needText (c.at 0) "removeprefix() argument "
    return like ((stripPrefix? s t).getD t)
  | "removesuffix" => do
    checkCount .exactly "str" name 1 1 c
    let s ← needText (c.at 0) "removesuffix() argument "
    return like (if endsWith s t then t.take (t.length - s.length) else t)
  | "expandtabs" => do
    let given ← byPosition name ["tabsize"] c
    let size ← needInt ((given[0]?).join.getD (Value.int 8))
    return like (expandTabs size.toNat 0 t)
  | _ => do
    checkCount .expected "str" name 0 1 c
    let edge := c.values[0]?
    match edge with
    | none | some .nothing => pure ()
    | some v => if v.text?.isNone then misfit (name ++ " arg must be None or str")
    return like (stripEnds (isEdge edge) (name != "rstrip") (name != "lstrip") t)

/-! ## Methods of markup -/

/-- The methods that markup has of its own, with their parameters. -/
def markupSignatures : List (String × List String × List String) :=
  [("capitalize", [], []), ("casefold", [], []), ("lower", [], []), ("swapcase", [], []),
    ("title", [], []), ("upper", [], []), ("replace", ["old", "new"], ["count"]),
    ("ljust", ["width"], ["fillchar"]), ("rjust", ["width"], ["fillchar"]),
    ("center", ["width"], ["fillchar"]), ("zfill", ["width"], []),
    ("strip", [], ["chars"]), ("lstrip", [], ["chars"]), ("rstrip", [], ["chars"]),
    ("expandtabs", [], ["tabsize"]), ("removeprefix", ["prefix"], []),
    ("removesuffix", ["suffix"], []), ("partition", ["sep"], []), ("rpartition", ["sep"], []),
    ("split", [], ["sep", "maxsplit"]), ("rsplit", [], ["sep", "maxsplit"]),
    ("splitlines", [], ["keepends"]), ("join", ["iterable"], [])]

/-- The arguments of a method of markup, all of them by position. -/
def markupCall (name : String) (c : Call) : Result Call :=
  match markupSignatures.lookup name with
  | none => .ok c
  | some (required, optional) => do
    let bound ← (Signature.with ("Markup." ++ name) required optional).bind c
    let given := (required ++ optional).reverse.dropWhile fun p => (bound.get? p).isNone
    return { values := given.reverse.map bound.get }

/-- The value of a method of a text. -/
def applyTextMethod (isMarkup : Bool) (t : Text) (name : String) (c : Call) : Result Value := do
  let c ← if isMarkup then markupCall name c else pure c
  match letterMethod? isMarkup t name with
  | some v => do
    checkCount .exactly "str" name 0 0 c
    return v
  | none =>
    let isOneOf (names : List String) : Bool := names.contains name
    if name == "format" then return likeText isMarkup (← formatPattern isMarkup t c)
    else if name == "join" then do
      checkCount .exactly "str" name 1 1 c
      joinMethod isMarkup t (c.at 0)
    else if isOneOf ["count", "endswith", "find", "index", "rfind", "rindex", "startswith"] then
      searchMethod t name c
    else if isOneOf ["center", "ljust", "rjust", "zfill"] then widthMethod isMarkup t name c
    else if isOneOf ["partition", "rpartition", "rsplit", "split", "splitlines"] then
      partsMethod isMarkup t name c
    else exchangeMethod isMarkup t name c

end Lectern.Theme.Template
