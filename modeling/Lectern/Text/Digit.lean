import Lectern.Text.Blank

/-!
# Digits

`digitZeros` lists the zero of each run of ten decimal digits of any script; `digit?` is the value of
a digit.  `natural` reads a run of digits as a number, and `readNatural` does so unless the run is
too long.  `hexDigit` writes a number below sixteen, `hexDigit?` reads a hexadecimal digit of either
case, and `hex` writes a number with at least a given count of digits.
-/

namespace Lectern.Text

/-- The code points of the digits zero. -/
def digitZeros : List Nat :=
  [
    0x30, 0x660, 0x6f0, 0x7c0, 0x966, 0x9e6, 0xa66, 0xae6, 0xb66,
    0xbe6, 0xc66, 0xce6, 0xd66, 0xde6, 0xe50, 0xed0, 0xf20, 0x1040,
    0x1090, 0x17e0, 0x1810, 0x1946, 0x19d0, 0x1a80, 0x1a90, 0x1b50, 0x1bb0,
    0x1c40, 0x1c50, 0xa620, 0xa8d0, 0xa900, 0xa9d0, 0xa9f0, 0xaa50, 0xabf0,
    0xff10, 0x104a0, 0x10d30, 0x11066, 0x110f0, 0x11136, 0x111d0, 0x112f0, 0x11450,
    0x114d0, 0x11650, 0x116c0, 0x11730, 0x118e0, 0x11950, 0x11c50, 0x11d50, 0x11da0,
    0x16a60, 0x16ac0, 0x16b50, 0x1d7ce, 0x1d7d8, 0x1d7e2, 0x1d7ec, 0x1d7f6, 0x1e140,
    0x1e2f0, 0x1e950, 0x1fbf0]

/-- The value of a decimal digit of any script. -/
def digit? (c : Char) : Option Nat :=
  (digitZeros.find? fun z => z ≤ c.toNat && c.toNat < z + 10).map (c.toNat - ·)

def isDigit (c : Char) : Bool := (digit? c).isSome

/-- Signs that show a single digit without being one in a number: raised, lowered and enclosed
ones. -/
def digitSignRanges : List (Nat × Nat) :=
  [
    (0xb2, 0xb3), (0xb9, 0xb9), (0x1369, 0x1371), (0x19da, 0x19da), (0x2070, 0x2070), (0x2074, 0x2079),
    (0x2080, 0x2089), (0x2460, 0x2468), (0x2474, 0x247c), (0x2488, 0x2490), (0x24ea, 0x24ea), (0x24f5, 0x24fd),
    (0x24ff, 0x24ff), (0x2776, 0x277e), (0x2780, 0x2788), (0x278a, 0x2792), (0x10a40, 0x10a43), (0x10e60, 0x10e68),
    (0x11052, 0x1105a), (0x1f100, 0x1f10a)]

/-- A digit or a sign that shows one. -/
def isDigitSign (c : Char) : Bool := isDigit c || inRanges digitSignRanges c.toNat

/-- The number a run of digits stands for. -/
def natural (t : Text) : Nat := t.foldl (fun n c => 10 * n + (digit? c).getD 0) 0

/-- A number with more digits than are read. -/
structure TooManyDigits where
  count : Nat
  deriving DecidableEq

def digitLimit : Nat := 4300

def TooManyDigits.message (e : TooManyDigits) : String :=
  s!"Exceeds the limit (4300 digits) for integer string conversion: value has {e.count} digits; "
    ++ "use sys.set_int_max_str_digits() to increase the limit"

/-- The number a run of digits stands for, if they are not too many. -/
def readNatural (t : Text) : Except TooManyDigits Nat :=
  if t.length > digitLimit then .error ⟨t.length⟩ else .ok (natural t)

/-! ## hexadecimal -/

def hexDigit (n : Nat) : Char := Nat.digitChar (n % 16)

/-- The value of a hexadecimal digit in either case. -/
def hexDigit? (c : Char) : Option Nat :=
  if '0' ≤ c ∧ c ≤ '9' then some (c.toNat - 48)
  else if 'a' ≤ c ∧ c ≤ 'f' then some (c.toNat - 87)
  else if 'A' ≤ c ∧ c ≤ 'F' then some (c.toNat - 55)
  else none

theorem hexDigit?_hexDigit {n : Nat} (h : n < 16) : hexDigit? (hexDigit n) = some n := by
  have : ∀ m : Fin 16, hexDigit? (hexDigit m.val) = some m.val := by decide
  exact this ⟨n, h⟩

/-- `n` in hexadecimal with at least `width` digits. -/
def hex (width n : Nat) : Text :=
  let digits := Nat.toDigits 16 n
  List.replicate (width - digits.length) '0' ++ digits

/-- The number that hexadecimal digits stand for. -/
def ofHex (t : Text) : Nat := t.foldl (fun n c => 16 * n + (hexDigit? c).getD 0) 0

end Lectern.Text
