import Lectern.Theme.Template.Call
import Lectern.Theme.Template.Filter.Number
import Lectern.Theme.Template.Filter.Phrase
import Lectern.Theme.Template.Value.Member

/-!
# Patterns

A pattern is a text with gaps in braces, which values are put into.  A gap tells which value it is, how
it is to be read, and its layout: what fills it up and on which side, the sign, a width, marks between
groups of digits, a count of places and a letter for the form.

* `Layout`        how a value is laid out;
* `Layout.write`  a value in a layout;
* `fillPattern`   the text of a pattern for given values.
-/

namespace Lectern.Theme.Template
open Text Value

/-- On which side of a value its room is filled up. -/
inductive Side where
  | before | behind | both
  /-- Between the sign of a number and its digits. -/
  | behindSign
  deriving DecidableEq

def Side.ofChar? (c : Char) : Option Side :=
  if c = '<' then some .behind else if c = '>' then some .before
  else if c = '^' then some .both else if c = '=' then some .behindSign else none

structure Layout where
  fill : Char := ' '
  side : Option Side := none
  sign : Option Char := none
  isAlternate : Bool := false
  width : Nat := 0
  separator : Option Char := none
  places : Option Nat := none
  kind : Option Char := none

namespace Layout

def fault {α : Type} (m : String) : Result α := .error (.value m.toList)

/-- What fills a value up, and on which side, and the rest. -/
def readFill : Text → Layout × Text
  | c :: d :: t =>
    match Side.ofChar? d, Side.ofChar? c with
    | some s, _ => ({ fill := c, side := some s }, t)
    | none, some s => ({ side := some s }, d :: t)
    | none, none => ({}, c :: d :: t)
  | [c] =>
    match Side.ofChar? c with
    | some s => ({ side := some s }, [])
    | none => ({}, [c])
  | [] => ({}, [])

/-- The layout that a text tells for a value. -/
def read (kindName : String) (t : Text) : Result Layout := do
  let (l, r) := readFill t
  let isFilled := r.length + 1 < t.length
  let (l, r) := match r with
    | c :: r => if "+- ".toList.contains c then ({ l with sign := some c }, r) else (l, c :: r)
    | [] => (l, [])
  let (l, r) := match r with
    | '#' :: r => ({ l with isAlternate := true }, r)
    | r => (l, r)
  let (l, r) := match r with
    | '0' :: r =>
      let side := match l.side with
        | none => if kindName = "str" then none else some Side.behindSign
        | s => s
      if isFilled then (l, '0' :: r) else ({ l with fill := '0', side }, r)
    | r => (l, r)
  let digits := r.takeWhile Char.isDigit
  let r := r.drop digits.length
  if digits.length > 18 then fault "Too many decimal digits in format string"
  let l := { l with width := natural digits }
  let (l, r) ← match r with
    | ',' :: '_' :: _ | '_' :: ',' :: _ => fault "Cannot specify both ',' and '_'."
    | ',' :: r => pure ({ l with separator := some ',' }, r)
    | '_' :: r => pure ({ l with separator := some '_' }, r)
    | r => pure (l, r)
  let (l, r) ← match r with
    | '.' :: r => do
      let digits := r.takeWhile Char.isDigit
      if digits.isEmpty then fault "Format specifier missing precision"
      if digits.length > 18 then fault "Too many decimal digits in format string"
      pure ({ l with places := some (natural digits) }, r.drop digits.length)
    | r => pure (l, r)
  match r with
  | [] => return l
  | [c] => return { l with kind := some c }
  | _ => throw (.value ("Invalid format specifier '".toList ++ t ++ "' for object of type '".toList
      ++ kindName.toList ++ ['\'']))

/-- A value brought to the width of its layout. -/
def pad (l : Layout) (side : Side) (sign body : Text) : Text :=
  let gap := l.width - (sign.length + body.length)
  let filling (n : Nat) : Text := List.replicate n l.fill
  match l.side.getD side with
  | .behind => sign ++ body ++ filling gap
  | .before => filling gap ++ sign ++ body
  | .both => filling (gap / 2) ++ sign ++ body ++ filling (gap - gap / 2)
  | .behindSign => sign ++ filling gap ++ body

/-- Digits in groups with a mark between them. -/
def grouped (mark : Char) (size : Nat) (digits : Text) : Text :=
  (go (digits.length % size) digits)
where
  go : Nat → Text → Text
    | _, [] => []
    | 0, c :: t => (if t.length + 1 < digits.length then [mark, c] else [c]) ++ go (size - 1) t
    | n + 1, c :: t => c :: go n t

/-- The sign of a number. -/
def signOf (l : Layout) (negative : Bool) : Text :=
  if negative then ['-'] else match l.sign with
    | some '+' => ['+']
    | some ' ' => [' ']
    | _ => []

/-- A number: its digits before the point in groups, filled up with zeros that are grouped too. -/
def writeNumber (l : Layout) (groupSize : Nat) (negative : Bool) (before digits behind : Text) :
    Text :=
  let sign := l.signOf negative ++ before
  match l.separator with
  | none => l.pad .before sign (digits ++ behind)
  | some mark =>
    let zeros (n : Nat) : Text := grouped mark groupSize (List.replicate n '0' ++ digits)
    let room := l.width - sign.length - behind.length
    let isZeroed := l.fill = '0' && l.side = some .behindSign
    let n := if isZeroed then
        ((List.range (room + 1)).find? fun n => (zeros n).length ≥ room).getD 0
      else 0
    l.pad .before sign (zeros n ++ behind)

def unknownKind {α : Type} (kind : Char) (kindName : String) : Result α :=
  .error (.value ("Unknown format code '".toList ++ [kind] ++ "' for object of type '".toList
    ++ kindName.toList ++ ['\'']))

def writeText (l : Layout) (t : Text) : Result Text := do
  if l.sign.isSome then fault "Sign not allowed in string format specifier"
  if l.isAlternate then fault "Alternate form (#) not allowed in string format specifier"
  match l.kind with
  | none | some 's' => pure ()
  | some c => unknownKind c "str"
  if let some c := l.separator then
    throw (.value ("Cannot specify '".toList ++ [c] ++ "' with 's'.".toList))
  if l.side = some .behindSign then fault "'=' alignment not allowed in string format specifier"
  return l.pad .behind [] (match l.places with
    | some n => t.take n
    | none => t)

/-- A double in the form that a letter stands for. -/
def writeFloat (l : Layout) (kindName : String) (x : Float) : Result Text := do
  let places := l.places.getD 6
  let t ← match l.kind with
    | none => pure (match l.places with
      | some n => Decimal.writeRounded numberWords n x
      | none => Template.writeFloat x)
    | some 'f' | some 'F' => pure (Decimal.writeFixed numberWords places x)
    | some 'e' | some 'E' => pure (Decimal.writeScientific numberWords places x)
    | some 'g' | some 'G' | some 'n' => pure (Decimal.writeRounded numberWords places x)
    | some '%' => pure (Decimal.writeFixed numberWords places (x * 100.0) ++ ['%'])
    | some c => unknownKind c kindName
  let t := if l.kind.any Char.isUpper then t.map Char.toUpper else t
  let (negative, t) := match t with
    | '-' :: t => (true, t)
    | t => (false, t)
  let digits := t.takeWhile Char.isDigit
  return l.writeNumber 3 negative [] digits (t.drop digits.length)

def writeInt (l : Layout) (kindName : String) (i : Int) : Result Text := do
  let based (base groupSize : Nat) (before : Text) : Text :=
    l.writeNumber groupSize (i < 0) (if l.isAlternate then before else [])
      (Nat.toDigits base i.natAbs) []
  let kind := l.kind.getD 'd'
  if ['d', 'b', 'o', 'x', 'X', 'n', 'c'].contains kind then
    if l.places.isSome then fault "Precision not allowed in integer format specifier"
    if kind ≠ 'd' && (l.separator = some ',' || (kind = 'c' && l.separator.isSome)) then
      throw (.value ("Cannot specify '".toList ++ l.separator.toList ++ "' with '".toList ++ [kind]
        ++ "'.".toList))
    if kind = 'd' || kind = 'n' then return based 10 3 []
    else if kind = 'b' then return based 2 4 ['0', 'b']
    else if kind = 'o' then return based 8 4 ['0', 'o']
    else if kind = 'x' then return based 16 4 ['0', 'x']
    else if kind = 'X' then return (based 16 4 ['0', 'x']).map Char.toUpper
    else if l.sign.isSome then fault "Sign not allowed with integer format specifier 'c'"
    else if 0 ≤ i && i < 0x110000 then return l.pad .behind [] [Char.ofNat i.toNat]
    else throw (.overflow "%c arg not in range(0x110000)")
  else if ['e', 'E', 'f', 'F', 'g', 'G', '%'].contains kind then
    l.writeFloat kindName (Float.ofInt i)
  else unknownKind kind kindName

/-- A value in the layout that a text tells. -/
def write (spec : Text) (v : Value) : Result Text := do
  if spec.isEmpty then v.shown
  else
    let l ← match v with
      | .text _ | .markup _ | .int _ | .bool _ | .float _ =>
        read (if v.isMarkup then "str" else v.kindName) spec
      | v => misfit ("unsupported format string passed to " ++ v.kindName ++ ".__format__")
    match v, v.text?, v.int? with
    | _, some t, _ => l.writeText t
    | _, none, some i => l.writeInt v.kindName i
    | .float x, none, none => l.writeFloat v.kindName x
    | v, none, none => v.shown

end Layout

/-! ## Gaps -/

/-- How the gaps of a pattern have told their values so far: by their order or by numbers. -/
inductive Numbering where
  | open_
  | inOrder (next : Nat)
  | given

/-- The text of a gap up to its closing brace, and the rest; braces inside it are in pairs. -/
def readGap : (depth : Nat) → Text → Option (Text × Text)
  | _, [] => none
  | 0, '\x7d' :: t => some ([], t)
  | depth + 1, '\x7d' :: t => (readGap depth t).map fun (g, r) => ('\x7d' :: g, r)
  | depth, '\x7b' :: t => (readGap (depth + 1) t).map fun (g, r) => ('\x7b' :: g, r)
  | depth, c :: t => (readGap depth t).map fun (g, r) => (c :: g, r)

/-- The value at a position among the arguments. -/
def argumentAt (c : Call) (i : Nat) : Result Value :=
  match c.values[i]? with
  | some v => .ok v
  | none => .error (.position (s!"Replacement index {i} out of range for positional args tuple").toList)

/-- The value that the name of a gap tells. -/
def namedValue (c : Call) (n : Numbering) (name : Text) : Result (Value × Numbering) :=
  if name.isEmpty then
    match n with
    | .open_ => (argumentAt c 0).map fun v => (v, .inOrder 1)
    | .inOrder i => (argumentAt c i).map fun v => (v, .inOrder (i + 1))
    | .given =>
      Layout.fault "cannot switch from manual field specification to automatic field numbering"
  else if name.all Char.isDigit then
    match n with
    | .inOrder _ =>
      Layout.fault "cannot switch from automatic field numbering to manual field specification"
    | _ => (argumentAt c (natural name)).map fun v => (v, .given)
  else
    match c.named.lookup name with
    | some v => .ok (v, n)
    | none => .error (.key (quoted name))

/-- The members and items that are told behind the name of a gap; the first argument bounds their
number. -/
def followed : Nat → Value → Text → Result Value
  | 0, v, _ => .ok v
  | fuel + 1, v, t =>
    match t with
    | [] => .ok v
    | '.' :: t => do
      let name := t.takeWhile fun c => c ≠ '.' && c ≠ '['
      if name.isEmpty then Layout.fault "Empty attribute in format string"
      match ownMember? v name with
      | some w => followed fuel w (t.drop name.length)
      | none =>
        throw (.lacking ('\'' :: v.kindName.toList ++ "' object has no attribute ".toList
          ++ quoted name))
    | '[' :: t => do
      let key := t.takeWhile (· ≠ ']')
      if key.length = t.length then Layout.fault "Missing ']' in format string"
      if key.isEmpty then Layout.fault "Empty attribute in format string"
      let k : Value := if key.all Char.isDigit then .int (natural key) else .text key
      match ← item v k with
      | .undefined _ =>
        throw (match v with
          | .map _ => .key (quoted key)
          | .text _ | .markup _ => .position "string index out of range"
          | v => .position (v.kindName.toList ++ " index out of range".toList))
      | w => followed fuel w (t.drop (key.length + 1))
    | _ => Layout.fault "Only '.' or '[' may follow ']' in format field specifier"

/-- The parts of a gap: its name, the letter behind an exclamation mark, and its layout. -/
def gapParts (g : Text) : Result (Text × Option Char × Text) :=
  let name := g.takeWhile fun c => c ≠ '!' && c ≠ ':'
  match g.drop name.length with
  | [] => .ok (name, none, [])
  | ':' :: spec => .ok (name, none, spec)
  | _ :: c :: [] => .ok (name, some c, [])
  | _ :: c :: ':' :: spec => .ok (name, some c, spec)
  | _ :: _ :: _ => Layout.fault "expected ':' after conversion specifier"
  | [_] => Layout.fault "unmatched '\x7b' in format spec"

/-- A value read in the way that a letter stands for. -/
def converted (v : Value) : Option Char → Result Value
  | none => .ok v
  | some 'r' | some 'a' => v.written.map .text
  | some 's' => v.shown.map .text
  | some c => .error (.value ("Unknown conversion specifier ".toList ++ [c]))

/-- The text of a pattern for given values; in markup they are escaped.  A layout may have gaps of its
own.  The first argument bounds the length of the pattern, the second one its depth. -/
def fillPattern (escapes : Bool) (c : Call) : Nat → Nat → Numbering → Text →
    Result (Text × Numbering)
  | 0, _, n, _ => .ok ([], n)
  | _, _, n, [] => .ok ([], n)
  | fuel + 1, depth, n, '\x7b' :: '\x7b' :: t => do
    let (u, n) ← fillPattern escapes c fuel depth n t
    return ('\x7b' :: u, n)
  | fuel + 1, depth, n, '\x7d' :: '\x7d' :: t => do
    let (u, n) ← fillPattern escapes c fuel depth n t
    return ('\x7d' :: u, n)
  | _, _, _, ['\x7b'] => Layout.fault "Single '\x7b' encountered in format string"
  | _, _, _, '\x7d' :: _ => Layout.fault "Single '\x7d' encountered in format string"
  | fuel + 1, depth, n, '\x7b' :: t =>
    match readGap 0 t with
    | none => Layout.fault "expected '\x7d' before end of string"
    | some (g, rest) => do
      let (name, letter, spec) ← gapParts g
      let first := name.takeWhile fun c => c ≠ '.' && c ≠ '['
      let (v, n) ← namedValue c n first
      let v ← converted (← followed name.length v (name.drop first.length)) letter
      let (spec, n) ← match depth with
        | 0 => Layout.fault "Max string recursion exceeded"
        | depth + 1 => fillPattern false c fuel depth n spec
      if escapes && v.isMarkup && !spec.isEmpty then
        Layout.fault "Unsupported format specification for Markup."
      let written ← Layout.write spec v
      let (u, n) ← fillPattern escapes c fuel depth n rest
      return ((if escapes && !v.isMarkup then escape written else written) ++ u, n)
  | fuel + 1, depth, n, d :: t => do
    let (u, n) ← fillPattern escapes c fuel depth n t
    return (d :: u, n)

/-- The text of a pattern for given values. -/
def formatPattern (isMarkup : Bool) (t : Text) (c : Call) : Result Text :=
  (fillPattern isMarkup c (2 * t.length + 2) 2 .open_ t).map (·.1)

end Lectern.Theme.Template
