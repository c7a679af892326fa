/-!
# Binary fractions in decimal digits

A finite double is `m * 2 ^ q`.  Here such a number is read off its bits and brought to decimal
digits in exact whole-number arithmetic:

* `Binary.ofBits?`   sign, `m` and `q` of a double;
* `Grid`             the number, the ends of the interval of reals that round to it, and their
                     common denominator;
* `shortest`         the fewest digits that read back, the nearest ones of that many;
* `roundedPlaces`    the value with a fixed count of places, a half going to the even neighbour;
* `roundedDigits`    the value with a fixed count of digits, rounded in the same way.
-/

namespace Lectern.Decimal

/-- A finite double: `mantissa * 2 ^ exponent`, negated when `negative`. -/
structure Binary where
  negative : Bool
  mantissa : Nat
  exponent : Int

/-- The parts of a double given by its bits; none for infinities and the undefined number. -/
def Binary.ofBits? (bits : UInt64) : Option Binary :=
  let n := bits.toNat
  let negative := n / Nat.pow 2 63 == 1
  let biased : Nat := n / Nat.pow 2 52 % Nat.pow 2 11
  let fraction : Nat := n % Nat.pow 2 52
  if biased = 0x7ff then none
  else if biased = 0 then some ⟨negative, fraction, -1074⟩
  else some ⟨negative, Nat.pow 2 52 + fraction, (biased : Int) - 1075⟩

/-- A number and the ends of its rounding interval over one denominator; the ends belong to the
interval when `closed`. -/
structure Grid where
  low : Nat
  value : Nat
  high : Nat
  denominator : Nat
  closed : Bool

def Grid.ofBinary (b : Binary) : Grid :=
  let below := if b.mantissa = Nat.pow 2 52 ∧ b.exponent > -1074 then 1 else 2
  let scale := Nat.pow 2 (b.exponent - 2).toNat
  ⟨(4 * b.mantissa - below) * scale, 4 * b.mantissa * scale, (4 * b.mantissa + 2) * scale,
    Nat.pow 2 (2 - b.exponent).toNat, b.mantissa % 2 = 0⟩

/-- The number `count * 10 ^ place` lies in the interval. -/
def Grid.holds (g : Grid) (count : Nat) (place : Int) : Bool :=
  let x := count * Nat.pow 10 place.toNat * g.denominator
  let scale := Nat.pow 10 (-place).toNat
  if g.closed then g.low * scale ≤ x && x ≤ g.high * scale
  else g.low * scale < x && x < g.high * scale

/-- The number of steps of size `10 ^ place` that fit into the value, and the numbers whose ratio is
what is left of a step. -/
def Grid.steps (g : Grid) (place : Int) : Nat × Nat × Nat :=
  let num := g.value * Nat.pow 10 (-place).toNat
  let den := g.denominator * Nat.pow 10 place.toNat
  (num / den, num % den, den)

/-- Where the point stands: the value is below `10 ^ point` and not below `10 ^ (point - 1)`.  The
first argument bounds the search below one. -/
def Grid.pointBelow : Nat → Nat → Nat → Nat → Int
  | 0, _, _, j => -(j : Int)
  | fuel + 1, value, denominator, j =>
    if value * 10 ≥ denominator then -(j : Int)
    else Grid.pointBelow fuel (value * 10) denominator (j + 1)

def Grid.point (g : Grid) : Int :=
  if g.value ≥ g.denominator then (Nat.toDigits 10 (g.value / g.denominator)).length
  else Grid.pointBelow 400 g.value g.denominator 0

/-- The digits of a positive number and the place of the last one. -/
structure Digits where
  count : Nat
  place : Int

/-- Drops zeros at the end; the first argument bounds their number. -/
def Digits.trimmed : Nat → Digits → Digits
  | 0, d => d
  | fuel + 1, d =>
    if d.count ≠ 0 ∧ d.count % 10 = 0 then Digits.trimmed fuel ⟨d.count / 10, d.place + 1⟩ else d

/-- The nearest of the two grid numbers around the value, if one of them lies in the interval. -/
def Grid.hit? (g : Grid) (place : Int) : Option Nat :=
  let (below, left, step) := g.steps place
  match g.holds below place, g.holds (below + 1) place with
  | true, true =>
    some (if 2 * left < step ∨ (2 * left = step ∧ below % 2 = 0) then below else below + 1)
  | true, false => some below
  | false, true => some (below + 1)
  | false, false => none

/-- The first of the grids with `n`, `n + 1`, … digits that has a number in the interval. -/
def Grid.search (g : Grid) (point : Int) : Nat → Nat → Digits
  | 0, n => ⟨(g.steps (point - n)).1, point - n⟩
  | fuel + 1, n =>
    match g.hit? (point - n) with
    | some count => ⟨count, point - n⟩
    | none => g.search point fuel (n + 1)

/-- The fewest digits that read back as the number, which is not zero. -/
def shortest (b : Binary) : Digits :=
  let g := Grid.ofBinary b
  (g.search g.point 17 1).trimmed 400

/-- The whole number nearest to `num / den`, a half going to the even neighbour. -/
def roundHalfEven (num den : Nat) : Nat :=
  let n := num / den
  let twice := 2 * (num % den)
  if twice < den ∨ (twice = den ∧ n % 2 = 0) then n else n + 1

/-- The value in units of `10 ^ -places`, rounded. -/
def roundedPlaces (places : Nat) (b : Binary) : Nat :=
  roundHalfEven (b.mantissa * Nat.pow 2 b.exponent.toNat * Nat.pow 10 places)
    (Nat.pow 2 (-b.exponent).toNat)

/-- The value, which is not zero, rounded to `n` digits. -/
def roundedDigits (n : Nat) (b : Binary) : Digits :=
  let g := Grid.ofBinary b
  let place := g.point - n
  let count := roundHalfEven (g.value * Nat.pow 10 (-place).toNat)
    (g.denominator * Nat.pow 10 place.toNat)
  if count = Nat.pow 10 n then ⟨Nat.pow 10 (n - 1), place + 1⟩ else ⟨count, place⟩

end Lectern.Decimal
