import Lectern.Text.Case
import Lectern.Yaml.Fault
import Lectern.Yaml.Value

/-!
# What the words of configuration text stand for

Every node of a configuration has a tag.  A word without quotes gets its tag from its looks; what
the tag makes of the word may still fail.

* `Tag.ofName`     the tag of a full name;
* `Tag.ofWord`     the tag of a word;
* `readTruth`, `readWhole`, `readDecimal`, `readStamp`, `readBytes`   the value of a text by its tag.
-/

namespace Lectern.Yaml
open Text

inductive Tag where
  | null
  | bool
  | int
  | float
  | stamp
  | text
  | bytes
  | list
  | map
  | set
  | pairs
  /-- The sign that takes entries over from other mappings. -/
  | merge
  /-- The sign whose value stands for the whole mapping. -/
  | value
  | unknown
  deriving DecidableEq

/-- Values of the tag have parts, so none of them can be a key. -/
def Tag.isCollection : Tag → Bool
  | .list | .map | .set | .pairs => true
  | _ => false

/-- The beginning of the names of all tags that are known. -/
def Tag.space : Text := "tag:yaml.org,2002:"

/-- The tag of a full name. -/
def Tag.ofName (name : Text) : Tag :=
  match (stripPrefix? Tag.space name).map String.ofList with
  | some "null" => .null
  | some "bool" => .bool
  | some "int" => .int
  | some "float" => .float
  | some "timestamp" => .stamp
  | some "str" => .text
  | some "binary" => .bytes
  | some "seq" => .list
  | some "map" => .map
  | some "set" => .set
  | some "omap" | some "pairs" => .pairs
  | some "merge" => .merge
  | some "value" => .value
  | _ => .unknown

/-! ## Looks -/

def isDigits (t : Text) : Bool := !t.isEmpty && t.all Char.isDigit

def isDigitsWith (t : Text) : Bool := t.all fun c => c.isDigit || c = '_'

/-- The sign of a number, and the rest. -/
def splitSign : Text → Bool × Text
  | '-' :: t => (true, t)
  | '+' :: t => (false, t)
  | t => (false, t)

/-- A digit first, then digits and underscores. -/
def isCount (t : Text) : Bool := (t.head?.any Char.isDigit) && isDigitsWith t

/-- The later parts of a number in base sixty: one or two digits, below sixty. -/
def isSixtieth (t : Text) : Bool :=
  match t with
  | [d] => d.isDigit
  | [c, d] => '0' ≤ c && c ≤ '5' && d.isDigit
  | _ => false

/-- A whole number: binary, octal, decimal, hexadecimal or in base sixty. -/
def isWholeWord (t : Text) : Bool :=
  match (splitSign t).2 with
  | '0' :: 'b' :: ds => !ds.isEmpty && ds.all fun c => c = '0' || c = '1' || c = '_'
  | '0' :: 'x' :: ds => !ds.isEmpty && ds.all fun c => (hexDigit? c).isSome || c = '_'
  | '0' :: ds => ds.all fun c => ('0' ≤ c && c ≤ '7') || c = '_'
  | t =>
    match splitOn [':'] t with
    | first :: rest => isCount first && rest.all isSixtieth
    | [] => false

/-- An exponent: nothing, or the letter, a sign and digits. -/
def isExponent (t : Text) : Bool :=
  match t with
  | [] => true
  | e :: s :: ds => (e = 'e' || e = 'E') && (s = '+' || s = '-') && isDigits ds
  | _ => false

/-- What stands behind the point of a number. -/
def isFraction (t : Text) : Bool := isExponent (t.dropWhile fun c => c.isDigit || c = '_')

/-- A number with a point, an infinity, or the undefined number.  A sign before the point needs a
digit between. -/
def isDecimalWord (t : Text) : Bool :=
  let body := (splitSign t).2
  match splitOn ['.'] body with
  | [whole, fraction] =>
    if whole.isEmpty then
      ["inf", "Inf", "INF"].any (·.toList = fraction)
        || body = t && (["nan", "NaN", "NAN"].any (·.toList = fraction)
          || fraction.head?.any Char.isDigit && isFraction fraction)
    else if isCount whole then isFraction fraction
    else
      match splitOn [':'] whole with
      | first :: rest => isCount first && rest.all isSixtieth && isDigitsWith fraction
      | [] => false
  | _ => false

def truthWords : List String :=
  ["yes", "Yes", "YES", "true", "True", "TRUE", "on", "On", "ON", "no", "No", "NO", "false", "False",
    "FALSE", "off", "Off", "OFF"]

def nullWords : List String := ["~", "null", "Null", "NULL"]

/-- A text without the line end at its end. -/
def withoutLineEnd (t : Text) : Text := if t.getLast? = some '\n' then t.dropLast else t

/-- The tag of a word without quotes.  A line end behind the word is not looked at. -/
def Tag.ofWord (t : Text) : Tag :=
  let w := withoutLineEnd t
  let isOneOf (ws : List String) := ws.any (·.toList = w)
  if t = [] then .null
  else if isOneOf truthWords then .bool
  else if isDecimalWord w then .float
  else if isWholeWord w then .int
  else if w = ['<', '<'] then .merge
  else if isOneOf nullWords then .null
  else if isStampWord w then .stamp
  else if w = ['='] then .value
  else if w = ['!'] || w = ['&'] || w = ['*'] then .unknown
  else .text

/-! ## Values -/

def withoutUnderscores (t : Text) : Text := t.filter (· ≠ '_')

/-- The value of a word for truth in any case. -/
def readTruth (t : Text) : Except Fault Value :=
  let w := String.ofList (lower t)
  if w == "yes" || w == "true" || w == "on" then .ok (.bool true)
  else if w == "no" || w == "false" || w == "off" then .ok (.bool false)
  else .error (.truth (lower t))

/-- The digits behind the mark of a base, where they have one. -/
def dropBase (base : Nat) (t : Text) : Text :=
  let mark? : Option Char :=
    if base = 2 then some 'b' else if base = 8 then some 'o' else if base = 16 then some 'x' else none
  match t with
  | '0' :: c :: ds => if mark? = some c.toLower then ds else t
  | t => t

/-- A whole number in a base, with a sign and with blanks around it.  In base ten the digits may be
too many. -/
def readInBase (base : Nat) (t : Text) : Except Fault Int :=
  let inner := ((t.dropWhile Decimal.isMargin).reverse.dropWhile Decimal.isMargin).reverse
  let (negative, body) := splitSign (Decimal.plainDigits inner)
  let ds := dropBase base body
  if ds.isEmpty || !ds.all fun c => (hexDigit? c).any (· < base) then .error (.wholeNumber base t)
  else if base = 10 && ds.length > digitLimit then .error (.digits ⟨ds.length⟩)
  else
    let n := ds.foldl (fun n c => base * n + (hexDigit? c).getD 0) 0
    .ok (if negative then -(n : Int) else n)

/-- The value of a whole number. -/
def readWhole (t : Text) : Except Fault Value := do
  let t := withoutUnderscores t
  if t.isEmpty then throw .noCharacters
  let (negative, body) := splitSign t
  let signed (i : Int) : Value := .int (if negative then -i else i)
  match body with
  | [] => throw .noCharacters
  | ['0'] => return .int 0
  | '0' :: 'b' :: ds => return signed (← readInBase 2 ds)
  | '0' :: 'x' :: ds => return signed (← readInBase 16 ds)
  | '0' :: _ => return signed (← readInBase 8 body)
  | _ =>
    let parts ← (splitOn [':'] body).mapM (readInBase 10)
    return signed (parts.foldl (fun n p => 60 * n + p) 0)

/-- The number a text stands for. -/
def readFloat (t : Text) : Except Fault Float :=
  match Decimal.read? t with
  | some r => .ok r.toFloat
  | none => .error (.decimal t)

/-- The value of a number with a point.  The parts of one in base sixty are added up from the
last. -/
def readDecimal (t : Text) : Except Fault Value := do
  let t := lower (withoutUnderscores t)
  if t.isEmpty then throw .noCharacters
  let (negative, body) := splitSign t
  let signed (x : Float) : Value := .float (if negative then -x else x)
  if body = ".inf".toList then return signed (1.0 / 0.0)
  else if body = ".nan".toList then return .float (0.0 / 0.0)
  else
    let parts ← (splitOn [':'] body).mapM readFloat
    if parts.length = 1 then return signed (parts.getD 0 0)
    else
      let (sum, _) := parts.reverse.foldl (fun (sum, base) x => (sum + x * base, base * 60.0))
        ((0.0 : Float), (1.0 : Float))
      return signed sum

/-- The date or the moment of a text. -/
def readStamp (t : Text) : Except Fault Value :=
  match Stamp.read? (withoutLineEnd t) with
  | none => .error .noStamp
  | some s =>
    match s.time? with
    | none => (s.date.check.mapError .calendar).map .date
    | some time => ((Stamp.moment s.date time).mapError .calendar).map .moment

/-- The number a sign of base sixty-four stands for. -/
def sign64? (c : Char) : Option Nat :=
  if 'A' ≤ c && c ≤ 'Z' then some (c.toNat - 65)
  else if 'a' ≤ c && c ≤ 'z' then some (c.toNat - 71)
  else if '0' ≤ c && c ≤ '9' then some (c.toNat + 4)
  else if c = '+' then some 62
  else if c = '/' then some 63
  else none

/-- Bytes from signs of base sixty-four.  `place` is the number of signs since the last full group,
`kept` the bits that are left of them, and `pads` the number of signs of equality since the last
sign; other characters say nothing. -/
def bytesOf64? (place kept pads : Nat) : Text → Option Bytes
  | [] => if place = 0 then some [] else none
  | c :: t =>
    if c = '=' then
      if place ≥ 2 && place + pads + 1 ≥ 4 then some []
      else bytesOf64? place kept (if place ≥ 2 then pads + 1 else pads) t
    else match sign64? c with
      | none => bytesOf64? place kept pads t
      | some n =>
        let bits := kept * 64 + n
        if place = 0 then bytesOf64? 1 n 0 t
        else if place = 1 then (bytesOf64? 2 (bits % 16) 0 t).map ((bits / 16).toUInt8 :: ·)
        else if place = 2 then (bytesOf64? 3 (bits % 4) 0 t).map ((bits / 4).toUInt8 :: ·)
        else (bytesOf64? 0 0 0 t).map (bits.toUInt8 :: ·)

/-- The bytes of a text in base sixty-four. -/
def readBytes (t : Text) : Except Fault Value :=
  if t.any fun c => c.toNat ≥ 0x80 then .error .malformed
  else match bytesOf64? 0 0 0 t with
    | some bs => .ok (.bytes bs)
    | none => .error .malformed

/-- The value of a text by its tag; only the tags of scalars have one. -/
def readScalar (tag : Tag) (t : Text) : Except Fault Value :=
  match tag with
  | .null => .ok .null
  | .bool => readTruth t
  | .int => readWhole t
  | .float => readDecimal t
  | .stamp => readStamp t
  | .text => .ok (.text t)
  | .bytes => readBytes t
  | _ => .error .malformed

end Lectern.Yaml
