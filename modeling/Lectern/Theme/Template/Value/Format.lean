import Lectern.Text.Digit
import Lectern.Theme.Template.Value.Order

/-!
# Formats

A format is a text with marks, each of which stands for one value.  A mark is a percent sign, the
name of an entry in parentheses, flags, a width, a count of places and a letter for the form.

* `Mark`        how one value is written;
* `Supply`      the values that are still to be written;
* `format`      the text of a format for given values.
-/

namespace Lectern.Theme.Template.Value
open Text

/-- How one value is written: its flags, the least width and the places of a number. -/
structure Mark where
  toLeft : Bool := false
  showsPlus : Bool := false
  showsGap : Bool := false
  isAlternate : Bool := false
  fillsZeros : Bool := false
  width : Nat := 0
  places : Option Nat := none

/-- A number with its sign and what stands before its digits, brought to the width. -/
def Mark.pad (m : Mark) (sign before digits : Text) : Text :=
  let gap := m.width - (sign.length + before.length + digits.length)
  if m.toLeft then sign ++ before ++ digits ++ List.replicate gap ' '
  else if m.fillsZeros then sign ++ before ++ List.replicate gap '0' ++ digits
  else List.replicate gap ' ' ++ sign ++ before ++ digits

def Mark.sign (m : Mark) (negative : Bool) : Text :=
  if negative then ['-'] else if m.showsPlus then ['+'] else if m.showsGap then [' '] else []

/-- A text cut at the places, and brought to the width. -/
def Mark.writeText (m : Mark) (t : Text) : Text :=
  { m with fillsZeros := false }.pad [] []
    (match m.places with
      | some n => t.take n
      | none => t)

/-- A whole number in digits of a base. -/
def Mark.writeInt (m : Mark) (base : Nat) (before : Text) (i : Int) : Text :=
  let digits := Nat.toDigits base i.natAbs
  let digits := List.replicate (m.places.getD 0 - digits.length) '0' ++ digits
  m.pad (m.sign (i < 0)) (if m.isAlternate then before else []) digits

/-- A number with a fraction, in the form that a letter stands for. -/
def Mark.writeFloat (m : Mark) (kind : Char) (x : Float) : Text :=
  let places := m.places.getD 6
  let t :=
    if kind = 'f' then Decimal.writeFixed numberWords places x
    else if kind = 'e' then Decimal.writeScientific numberWords places x
    else Decimal.writeRounded numberWords places x
  match t with
  | '-' :: t => m.pad (m.sign true) [] t
  | t => m.pad (m.sign false) [] t

/-- The whole number that a value is written as. -/
def wholeFor (kind : Char) (v : Value) : Result Int :=
  match v, v.int? with
  | _, some i => .ok i
  | .float x, none =>
    if x.isNaN then .error (.value "cannot convert float NaN to integer")
    else match wholePart? x with
      | some i => .ok i
      | none => .error (.overflow "cannot convert float infinity to integer")
  | v, none =>
    misfit ("%" ++ String.singleton kind ++ " format: a real number is required, not " ++ v.kindName)

/-- A value in the form of a letter; the letter stands at position `i` of the format. -/
def Mark.write (m : Mark) (escapes : Bool) (i : Nat) (kind : Char) (v : Value) : Result Text := do
  let kept (t : Text) : Text := if escapes then escape t else t
  let based (base : Nat) (before : Text) : Result Text :=
    match v.int? with
    | some n => .ok (m.writeInt base before n)
    | none =>
      misfit ("%" ++ String.singleton kind ++ " format: an integer is required, not " ++ v.kindName)
  if kind = 's' then return m.writeText (← v.output escapes)
  v.check
  if kind = 'r' then return m.writeText (kept (← v.written))
  else if kind = 'a' then
    return m.writeText (kept ((← v.written).flatMap fun c => if c.toNat < 0x80 then [c] else codeOf c))
  else if kind = 'd' || kind = 'i' || kind = 'u' then
    return m.writeInt 10 [] (← wholeFor kind v)
  else if kind = 'x' then based 16 ['0', 'x']
  else if kind = 'X' then return (← based 16 ['0', 'x']).map Char.toUpper
  else if kind = 'o' then based 8 ['0', 'o']
  else if ['e', 'f', 'g', 'E', 'F', 'G'].contains kind then
    match v.float? with
    | some x =>
      let t := m.writeFloat kind.toLower x
      return if kind.isUpper then t.map Char.toUpper else t
    | none => misfit ("must be real number, not " ++ v.kindName)
  else if kind = 'c' then
    match v.int?, v.text? with
    | some n, _ =>
      if 0 ≤ n && n < 0x110000 then
        return { m with places := none }.writeText [Char.ofNat n.toNat]
      else throw (.overflow "%c arg not in range(0x110000)")
    | none, some [c] => return { m with places := none }.writeText [c]
    | none, _ => misfit "%c requires int or char"
  else
    let shown := if 0x1f ≤ kind.toNat && kind.toNat < 0x7f then kind else '?'
    throw (.value ("unsupported format character '".toList ++ [shown] ++ "' (0x".toList
      ++ hex 1 kind.toNat ++ ") at index ".toList ++ ofNat i))
where
  codeOf (c : Char) : Text :=
    if c.toNat < 0x100 then '\\' :: 'x' :: hex 2 c.toNat
    else if c.toNat < 0x10000 then '\\' :: 'u' :: hex 4 c.toNat
    else '\\' :: 'U' :: hex 8 c.toNat

/-- The values that are still to be written, and the mapping that names are looked up in. -/
structure Supply where
  values : List Value
  mapping? : Option Value := none

def Supply.of (v : Value) : Supply :=
  match v with
  | .tuple vs => ⟨vs, none⟩
  | .map _ | .list _ | .range .. => ⟨[v], some v⟩
  | v => ⟨[v], none⟩

def Supply.next (s : Supply) : Result (Value × Supply) :=
  match s.values with
  | v :: vs => .ok (v, { s with values := vs })
  | [] => misfit "not enough arguments for format string"

/-- The value of a name comes next, and nothing after it. -/
def Supply.named (s : Supply) (name : Text) : Result Supply :=
  match s.mapping? with
  | some (.map es) =>
    match valueAt? (.text name) es with
    | some v => .ok { s with values := [v] }
    | none => .error (.key (quoted name))
  | some v => misfit (v.kindName ++ " indices must be integers or slices, not str")
  | none => misfit "format requires a mapping"

/-- A name up to the parenthesis that closes it, and the rest behind that. -/
def readName : (depth : Nat) → Text → Option (Text × Text)
  | _, [] => none
  | 0, ')' :: t => some ([], t)
  | depth + 1, ')' :: t => (readName depth t).map fun (n, r) => (')' :: n, r)
  | depth, '(' :: t => (readName (depth + 1) t).map fun (n, r) => ('(' :: n, r)
  | depth, c :: t => (readName depth t).map fun (n, r) => (c :: n, r)

def readFlags : Mark → Text → Mark × Text
  | m, '-' :: t => readFlags { m with toLeft := true } t
  | m, '+' :: t => readFlags { m with showsPlus := true } t
  | m, ' ' :: t => readFlags { m with showsGap := true } t
  | m, '#' :: t => readFlags { m with isAlternate := true } t
  | m, '0' :: t => readFlags { m with fillsZeros := true } t
  | m, t => (m, t)

/-- A count in digits, or a star for the next value. -/
def readCount (s : Supply) (t : Text) : Result (Int × Supply × Text) :=
  match t with
  | '*' :: t => do
    let (v, s) ← s.next
    match v.int? with
    | some i => return (i, s, t)
    | none => misfit "* wants int"
  | t => .ok (natural (t.takeWhile Char.isDigit), s, t.dropWhile Char.isDigit)

/-- The text of a format from a place on; `size` is the length of the whole format. -/
def formatFrom (escapes : Bool) (size : Nat) : Nat → Supply → Text → Result Text
  | 0, _, _ => .ok []
  | _ + 1, s, [] =>
    if s.values.isEmpty || s.mapping?.isSome then .ok []
    else misfit "not all arguments converted during string formatting"
  | fuel + 1, s, '%' :: '%' :: t => (formatFrom escapes size fuel s t).map ('%' :: ·)
  | fuel + 1, s, '%' :: t => do
    let (s, t) ← match t with
      | '(' :: t =>
        match readName 0 t with
        | some (n, t) =>
          if s.mapping?.isNone then misfit "format requires a mapping"
          else pure (← s.named n, t)
        | none => throw (if s.mapping?.isNone then .misfit "format requires a mapping"
            else .value "incomplete format key")
      | t => pure (s, t)
    let (m, t) := readFlags {} t
    let (width, s, t) ← readCount s t
    let m := { m with width := width.natAbs, toLeft := m.toLeft || width < 0 }
    let (places, s, t) ← match t with
      | '.' :: t => do
        let (n, s, t) ← readCount s t
        pure (some n.toNat, s, t)
      | t => pure (none, s, t)
    let t := match t with
      | 'h' :: t | 'l' :: t | 'L' :: t => t
      | t => t
    match t with
    | [] => throw (.value "incomplete format")
    | kind :: rest => do
      let (v, s) ← s.next
      let written ← { m with places }.write escapes (size - t.length) kind v
      return written ++ (← formatFrom escapes size fuel s rest)
  | fuel + 1, s, c :: t => (formatFrom escapes size fuel s t).map (c :: ·)

/-- The text of a format for a value, or for the values of a tuple; if the format is markup, what
is put in is escaped. -/
def format (escapes : Bool) (t : Text) (v : Value) : Result Text :=
  formatFrom escapes t.length (t.length + 1) (.of v) t

end Lectern.Theme.Template.Value
