import Std.Data.HashMap
import Lectern.Text.Digit
import Lectern.Text.Entity.Table

/-!
# Character references

`named?` gives the characters a name stands for, `numbered` those of a number, and `unescape` reads
every reference of a text, with or without its semicolon: of a run that is no name as a whole the
longest beginning that may stand bare counts.  A text with a decimal number of too many digits is not
read.
-/

namespace Lectern.Text.Entity

/-- The code points of one entry of the table. -/
def codePoints (t : Text) : Text :=
  (splitOn ['-'] t).map fun h => Char.ofNat (ofHex h)

/-- The entries of the table by name. -/
def names : Std.HashMap String Text :=
  (nameTable.flatMap fun line => words line.toList).foldl (fun m entry =>
    m.insert (String.ofList (entry.takeWhile (· ≠ '=')))
      (codePoints ((entry.dropWhile (· ≠ '=')).drop 1))) ∅

def bareNames : Std.HashMap String Unit :=
  (bareNameTable.flatMap fun line => words line.toList).foldl (fun m n => m.insert (String.ofList n) ()) ∅

/-- The characters that a name stands for, the name without its semicolon. -/
def named? (name : Text) : Option Text :=
  if name = ['a', 'm', 'p'] then some ['&']
  else if name = ['l', 't'] then some ['<']
  else if name = ['g', 't'] then some ['>']
  else if name = ['q', 'u', 'o', 't'] then some ['"']
  else names[String.ofList name]?

/-- The name may stand without a semicolon. -/
def isBareName (name : Text) : Bool := bareNames.contains (String.ofList name)

/-- Code points that stand for no character and give nothing. -/
def isVoidCode (n : Nat) : Bool :=
  inRanges [(0x1, 0x8), (0xb, 0xb), (0xe, 0x1f), (0x7f, 0x9f), (0xfdd0, 0xfdef)] n
    || n % 0x10000 ≥ 0xfffe

/-- The characters that the codes 0x80 to 0x9f stand for in old documents. -/
def westernCodes : List Nat :=
  [0x20ac, 0x81, 0x201a, 0x192, 0x201e, 0x2026, 0x2020, 0x2021, 0x2c6, 0x2030, 0x160, 0x2039,
    0x152, 0x8d, 0x17d, 0x8f, 0x90, 0x2018, 0x2019, 0x201c, 0x201d, 0x2022, 0x2013, 0x2014, 0x2dc,
    0x2122, 0x161, 0x203a, 0x153, 0x9d, 0x17e, 0x178]

def replacement : Text := [Char.ofNat 0xfffd]

/-- The characters that a number stands for. -/
def numbered (n : Nat) : Text :=
  if n = 0 then replacement
  else if n = 0xd then ['\r']
  else if 0x80 ≤ n && n < 0xa0 then [Char.ofNat (westernCodes.getD (n - 0x80) n)]
  else if (0xd800 ≤ n && n < 0xe000) || n > 0x10ffff then replacement
  else if isVoidCode n then []
  else [Char.ofNat n]

/-- The longest beginning of `name` that may stand bare, tried from `n` characters downwards, and
what stands after it. -/
def longestBare (name : Text) : Nat → Option Text
  | 0 => none
  | n + 1 =>
    if n + 1 < 2 then none
    else if isBareName (name.take (n + 1)) then
      (named? (name.take (n + 1))).map (· ++ name.drop (n + 1))
    else longestBare name n

/-- The text for a reference that has been cut out without its ampersand. -/
def resolve (ref : Text) : Except TooManyDigits Text :=
  let closed := ref.getLast? = some ';'
  let body := if closed then ref.dropLast else ref
  match body with
  | '#' :: 'x' :: ds => .ok (numbered (ofHex ds))
  | '#' :: 'X' :: ds => .ok (numbered (ofHex ds))
  | '#' :: ds => (readNatural ds).map numbered
  | _ =>
    match (if closed || isBareName body then named? body else none) with
    | some cs => .ok cs
    | none => .ok ((longestBare ref (ref.length - 1)).getD ('&' :: ref))

def isReferenceChar (c : Char) : Bool := !"\t\n\x0c <&#;".toList.contains c

/-- A semicolon if one comes next. -/
def semicolon (t : Text) : Text := if t.head? = some ';' then [';'] else []

/-- The reference, without its ampersand, that the text after an ampersand begins with. -/
def reference? (t : Text) : Option Text :=
  let closedBy (mark digits : Text) : Option Text :=
    if digits.isEmpty then none
    else some (mark ++ digits ++ semicolon (t.drop (mark.length + digits.length)))
  match t with
  | '#' :: 'x' :: r => closedBy ['#', 'x'] (r.takeWhile fun c => (hexDigit? c).isSome)
  | '#' :: 'X' :: r => closedBy ['#', 'X'] (r.takeWhile fun c => (hexDigit? c).isSome)
  | '#' :: r => closedBy ['#'] (r.takeWhile Char.isDigit)
  | t => closedBy [] ((t.takeWhile isReferenceChar).take 32)

/-- Reads references; the first argument counts the characters of one still to pass over. -/
def unescapeAux : Nat → Text → Except TooManyDigits Text
  | _, [] => .ok []
  | skip + 1, _ :: t => unescapeAux skip t
  | 0, c :: t =>
    if c = '&' then
      match reference? t with
      | some ref => do
        let cs ← resolve ref
        return cs ++ (← unescapeAux ref.length t)
      | none => (unescapeAux 0 t).map (c :: ·)
    else (unescapeAux 0 t).map (c :: ·)

end Lectern.Text.Entity

namespace Lectern.Text

/-- A text with its character references read. -/
def unescape (t : Text) : Except TooManyDigits Text := Entity.unescapeAux 0 t

end Lectern.Text
