import Lectern.Text.Digit
import Lectern.Theme.Template.Value.Operation

/-!
# What is done with a number

* `toInt`, `toFloat`   the number that a value or a text stands for;
* `roundTo`            a number with so many places;
* `sizeText`           a count of bytes in the greatest unit that it reaches.
-/

namespace Lectern.Theme.Template
open Text Value

/-- The value of a digit or a letter in a number of any base. -/
def digitIn? (base : Nat) (c : Char) : Option Nat :=
  let v? := match digit? c with
    | some d => some d
    | none =>
      if 'a' ≤ c.toLower ∧ c.toLower ≤ 'z' then some (c.toLower.toNat - 87) else none
  v?.filter (· < base)

/-- Digits with single underscores between them. -/
def digitsIn? (base : Nat) : (n : Nat) → (mayPart : Bool) → Text → Option Nat
  | n, behindDigit, [] => if behindDigit then some n else none
  | n, behindDigit, c :: t =>
    if c = '_' then if behindDigit then digitsIn? base n false t else none
    else match digitIn? base c with
      | some d => digitsIn? base (base * n + d) true t
      | none => none

/-- The signs that begin numbers of some bases. -/
def baseSigns : List (Nat × Text) :=
  [(16, "0x"), (16, "0X"), (8, "0o"), (8, "0O"), (2, "0b"), (2, "0B")]

/-- The base of a number and its digits.  Where any base will do, a number without a sign for its base
is decimal, and only zero begins with a zero. -/
def baseAndDigits (base : Nat) (t : Text) : Option (Nat × Text) :=
  let signed? := baseSigns.findSome? fun (b, sign) =>
    if base = b || base = 0 then (stripPrefix? sign t).map (b, ·) else none
  match signed? with
  | some (b, '_' :: t) => some (b, t)
  | some (b, t) => some (b, t)
  | none =>
    if base ≠ 0 then some (base, t)
    else if t.head? = some '0' && !t.all (fun c => c = '0' || c = '_') then none
    else some (10, t)

/-- The whole number that a text stands for. -/
def readInt? (base : Nat) (t : Text) : Option Int :=
  let (negative, t) := match strip t with
    | '-' :: t => (true, t)
    | '+' :: t => (false, t)
    | t => (false, t)
  (baseAndDigits base t).bind fun (base, t) =>
    (digitsIn? base 0 false t).map fun n => if negative then -(n : Int) else n

/-- The whole number of a value, or another value where it has none. -/
def toInt (default : Value) (base : Nat) (v : Value) : Result Value := do
  v.check
  let ofFloat (x : Float) : Value := ((wholePart? x).map Value.int).getD default
  match v, v.int?, v.text? with
  | .float x, _, _ => return ofFloat x
  | _, some i, _ => return .int i
  | _, none, some t =>
    match (if t.length ≤ digitLimit then readInt? base t else none), Decimal.read? t with
    | some i, _ => return .int i
    | none, some r => return ofFloat r.toFloat
    | none, none => return default
  | _, none, none => return default

def toFloat (default : Value) (v : Value) : Result Value := do
  v.check
  match v.float?, v.text? with
  | some x, _ => return .float x
  | none, some t => return match Decimal.read? t with
    | some r => .float r.toFloat
    | none => default
  | none, none => return default

/-- A whole number in units of a power of ten, a half going to the even neighbour. -/
def roundTens (places : Nat) (i : Int) : Int :=
  let unit := Nat.pow 10 places
  let size := Decimal.roundHalfEven i.natAbs unit * unit
  if i < 0 then -(size : Int) else size

/-- A double in units of a power of ten, a half going to the even neighbour; the sign stays. -/
def roundedTens (places : Nat) (x : Float) : Float :=
  match Decimal.Binary.ofBits? x.toBits with
  | none => x
  | some b =>
    let unit := Nat.pow 10 places
    let size := Decimal.roundHalfEven (b.mantissa * Nat.pow 2 b.exponent.toNat)
      (unit * Nat.pow 2 (-b.exponent).toNat) * unit
    if b.negative then -(Float.ofNat size) else Float.ofNat size

/-- A number with so many places. -/
def roundTo (places : Int) (method : Text) (v : Value) : Result Value := do
  let isKnown := ["common", "ceil", "floor"].any fun n => n.toList = method
  if !isKnown then
    throw (.arguments "method must be common, ceil or floor")
  v.check
  let isCommon := method = "common".toList
  match v.int?, v.float? with
  | some i, some x =>
    if isCommon then return .int (if places < 0 then roundTens places.natAbs i else i)
    else return .float (edge x)
  | _, some x =>
    if !isCommon then
      if x.isNaN then throw (.value "cannot convert float NaN to integer")
      if x.isInf then throw (.overflow "cannot convert float infinity to integer")
      return .float (edge x)
    else if x.isNaN || x.isInf then return v
    else if places < 0 then return .float (roundedTens places.natAbs x)
    else
      let t := Decimal.writeFixed numberWords places.toNat x
      return .float (((Decimal.read? t).map Decimal.Reading.toFloat).getD x)
  | _, none =>
    if isCommon then misfit ("type " ++ v.kindName ++ " doesn't define __round__ method")
    else
      let product ← multiply v (if places < 0 then .float 0.1 else .int 1)
      misfit ("must be real number, not " ++ product.kindName)
where
  /-- The next whole number of units, which has no sign if it is zero. -/
  edge (x : Float) : Float :=
    let scale := Float.pow 10.0 (Float.ofInt places)
    let whole := if method = "ceil".toList then (x * scale).ceil else (x * scale).floor
    (if whole == 0.0 then 0.0 else whole) / scale

def sizeUnits (isBinary : Bool) : List String :=
  if isBinary then ["KiB", "MiB", "GiB", "TiB", "PiB", "EiB", "ZiB", "YiB"]
  else ["kB", "MB", "GB", "TB", "PB", "EB", "ZB", "YB"]

/-- A count of bytes in the first of some units that it does not go beyond, or the last one; `limit` is
where the first unit ends. -/
def inUnits (base limit : Nat) (bytes : Float) : List String → Text
  | [] => []
  | u :: us =>
    let end_ := Float.ofNat limit
    if us.isEmpty || bytes < end_ then
      Decimal.writeFixed numberWords 1 (Float.ofNat base * bytes / end_) ++ ' ' :: u.toList
    else inUnits base (limit * base) bytes us

/-- A count of bytes in the greatest unit that it reaches. -/
def sizeText (isBinary : Bool) (v : Value) : Result Text := do
  v.check
  let bytes ← match v.float?, v.text? with
    | some x, _ => pure x
    | none, some t =>
      match Decimal.read? t with
      | some r => pure r.toFloat
      | none => throw (.value ("could not convert string to float: ".toList ++ quoted t))
    | none, none =>
      misfit ("float() argument must be a string or a real number, not '" ++ v.kindName ++ "'")
  let base := if isBinary then 1024 else 1000
  if bytes == 1.0 then return "1 Byte".toList
  else if bytes < Float.ofNat base then return ofInt ((wholePart? bytes).getD 0) ++ " Bytes".toList
  else return inUnits base (base * base) bytes (sizeUnits isBinary)

end Lectern.Theme.Template
