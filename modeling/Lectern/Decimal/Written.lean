import Lectern.Decimal.Shortest
import Lectern.Text.Digit

/-!
# Numbers in text

* `write`       a double with the fewest digits that read back, positional while the point stands
                between four places before and sixteen places after the first digit;
* `writeFixed`  a double with a fixed count of places;
* `writeScientific`, `writeRounded`   a double with a fixed count of digits, with an exponent, or
                with one only where the number is very great or very small;
* `read?`       the number a text stands for: digits of any script with underscores between them,
                an optional fraction and exponent, or a word for infinity or the undefined number.
-/

namespace Lectern.Decimal
open Text

/-- The words for the numbers that have no digits. -/
structure Words where
  undefined : Text
  infinity : Text

/-- Digits with a point after the first `point` of them, zeros filled in on either side. -/
def positional (digits : Text) (point : Int) : Text :=
  let n : Int := digits.length
  if point ≤ 0 then ['0', '.'] ++ List.replicate (-point).toNat '0' ++ digits
  else if point ≥ n then digits ++ List.replicate (point - n).toNat '0' ++ ['.', '0']
  else digits.take point.toNat ++ ['.'] ++ digits.drop point.toNat

/-- One digit, the others as a fraction, and an exponent of at least two digits with its sign. -/
def exponential (digits : Text) (point : Int) : Text :=
  let e := point - 1
  let size := Nat.toDigits 10 e.natAbs
  digits.take 1 ++ (if digits.length > 1 then '.' :: digits.drop 1 else [])
    ++ ['e', if e < 0 then '-' else '+'] ++ List.replicate (2 - size.length) '0' ++ size

def writeMagnitude (b : Binary) : Text :=
  if b.mantissa = 0 then ['0', '.', '0']
  else
    let d := shortest b
    let digits := Nat.toDigits 10 d.count
    let point := d.place + digits.length
    if -4 < point ∧ point ≤ 16 then positional digits point else exponential digits point

/-- A double in a form for finite ones, or in words. -/
def writeWith (ws : Words) (magnitude : Binary → Text) (x : Float) : Text :=
  match Binary.ofBits? x.toBits with
  | some b => (if b.negative then ['-'] else []) ++ magnitude b
  | none => if x.isNaN then ws.undefined else (if x < 0 then ['-'] else []) ++ ws.infinity

/-- A double in the fewest digits. -/
def write (ws : Words) : Float → Text := writeWith ws writeMagnitude

/-- A double with `places` digits after the point. -/
def writeFixed (ws : Words) (places : Nat) : Float → Text :=
  writeWith ws fun b =>
    let digits := Nat.toDigits 10 (roundedPlaces places b)
    let padded := List.replicate (places + 1 - digits.length) '0' ++ digits
    let whole := padded.length - places
    padded.take whole ++ (if places = 0 then [] else '.' :: padded.drop whole)

/-- The digits of a number rounded to `n` of them, and how many of them stand before the point. -/
def significant (n : Nat) (b : Binary) : Text × Int :=
  if b.mantissa = 0 then (List.replicate n '0', 1)
  else
    let d := roundedDigits n b
    let digits := Nat.toDigits 10 d.count
    (digits, d.place + digits.length)

/-- A double with one digit before the point, `places` behind it, and an exponent. -/
def writeScientific (ws : Words) (places : Nat) : Float → Text :=
  writeWith ws fun b =>
    let (digits, point) := significant (places + 1) b
    exponential digits point

/-- A double with at most `n` digits; zeros at the end of a fraction are not written. -/
def writeRounded (ws : Words) (n : Nat) : Float → Text :=
  writeWith ws fun b =>
    let n := max 1 n
    let (digits, point) := significant n b
    let kept := (digits.reverse.dropWhile (· = '0')).reverse
    let kept := if kept.isEmpty then ['0'] else kept
    if point ≤ -4 ∨ point > n then exponential kept point
    else if point ≤ 0 then ['0', '.'] ++ List.replicate (-point).toNat '0' ++ kept
    else if point ≥ kept.length then kept ++ List.replicate (point - kept.length).toNat '0'
    else kept.take point.toNat ++ ['.'] ++ kept.drop point.toNat

/-- A number as read: `digits * 10 ^ exponent`, an infinity, or the undefined number. -/
inductive Reading where
  | finite (negative : Bool) (digits : Nat) (exponent : Int)
  | infinite (negative : Bool)
  | undefined

/-- The nearest double.  Numbers beyond the greatest exponent or below the least need no
arithmetic. -/
def Reading.toFloat : Reading → Float
  | .undefined => 0.0 / 0.0
  | .infinite negative => if negative then -(1.0 / 0.0) else 1.0 / 0.0
  | .finite negative digits exponent =>
    let size : Int := (Nat.toDigits 10 digits).length
    let magnitude :=
      if digits = 0 ∨ size + exponent < -330 then 0.0
      else if size + exponent > 330 then 1.0 / 0.0
      else Float.ofScientific digits (exponent < 0) exponent.natAbs
    if negative then -magnitude else magnitude

/-- A text with every digit written in ASCII. -/
def plainDigits (t : Text) : Text :=
  t.map fun c => match digit? c with
    | some d => Nat.digitChar d
    | none => c

/-- Underscores taken out, each of which stands between two digits; `before` is the character
last seen. -/
def dropUnderscores? : Option Char → Text → Option Text
  | before, [] => if before = some '_' then none else some []
  | before, c :: t =>
    if c = '_' then
      if before.any Char.isDigit then dropUnderscores? (some c) t else none
    else if before = some '_' ∧ !c.isDigit then none
    else (dropUnderscores? (some c) t).map (c :: ·)

/-- The exponent part, which is empty or `e`, an optional sign and digits. -/
def readExponent? (t : Text) : Option Int :=
  match t with
  | [] => some 0
  | e :: r =>
    if e.toLower ≠ 'e' then none
    else
      let (negative, ds) := match r with
        | '-' :: ds => (true, ds)
        | '+' :: ds => (false, ds)
        | ds => (false, ds)
      if ds.isEmpty ∨ !ds.all Char.isDigit then none
      else some (if negative then -(natural ds : Int) else natural ds)

/-- A number without its sign. -/
def readMagnitude? (negative : Bool) (t : Text) : Option Reading :=
  let whole := t.takeWhile Char.isDigit
  let rest := t.dropWhile Char.isDigit
  let (fraction, tail) := match rest with
    | '.' :: r => (r.takeWhile Char.isDigit, r.dropWhile Char.isDigit)
    | r => ([], r)
  if whole.isEmpty && fraction.isEmpty then
    let word := t.map Char.toLower
    if word = "inf".toList ∨ word = "infinity".toList then some (.infinite negative)
    else if word = "nan".toList then some .undefined
    else none
  else
    (readExponent? tail).map fun e =>
      .finite negative (natural (whole ++ fraction)) (e - fraction.length)

/-- Blanks that may stand around a number: all but the four separators of data. -/
def isMargin (c : Char) : Bool := isBlank c && !(0x1c ≤ c.toNat && c.toNat ≤ 0x1f)

/-- A text without the blanks that may stand around a number. -/
def withoutMargins (t : Text) : Text :=
  ((t.dropWhile isMargin).reverse.dropWhile isMargin).reverse

/-- The number a text stands for. -/
def read? (t : Text) : Option Reading :=
  match dropUnderscores? none (plainDigits (withoutMargins t)) with
  | some ('-' :: r) => readMagnitude? true r
  | some ('+' :: r) => readMagnitude? false r
  | some r => readMagnitude? false r
  | none => none

end Lectern.Decimal
