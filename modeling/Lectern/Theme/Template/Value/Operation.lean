import Lectern.Theme.Template.Value.Format

/-!
# Sums, products and texts put together

* `operate`      the value of an operation on two values;
* `signed`       a number with its sign changed, or kept;
* `concat`       values put together as text.

Division is towards the lower whole number, and a remainder has the sign of what is divided by.
-/

namespace Lectern.Theme.Template.Value
open Text

/-- Two texts put together; the plain one is escaped where the other is markup. -/
def append (v w : Value) : Option Value :=
  match v, w with
  | .text s, .text t => some (.text (s ++ t))
  | .text s, .markup t => some (.markup (escape s ++ t))
  | .markup s, .text t => some (.markup (s ++ escape t))
  | .markup s, .markup t => some (.markup (s ++ t))
  | _, _ => none

/-- Several copies of a text or a list. -/
def copies (v : Value) (n : Int) : Option Value :=
  match v with
  | .text t => some (.text (rep n.toNat t))
  | .markup t => some (.markup (rep n.toNat t))
  | .list vs => some (.list (List.replicate n.toNat vs).flatten)
  | .tuple vs => some (.tuple (List.replicate n.toNat vs).flatten)
  | _ => none

def unsupported {α : Type} (sign : String) (v w : Value) : Result α :=
  misfit ("unsupported operand type(s) for " ++ sign ++ ": '" ++ v.kindName ++ "' and '" ++ w.kindName
    ++ "'")

def add (v w : Value) : Result Value :=
  match append v w, v.int?, w.int?, v.float?, w.float? with
  | some s, _, _, _, _ => .ok s
  | _, some i, some j, _, _ => .ok (.int (i + j))
  | _, _, _, some x, some y => .ok (.float (x + y))
  | _, _, _, _, _ =>
    match v, w with
    | .list vs, .list ws => .ok (.list (vs ++ ws))
    | .tuple vs, .tuple ws => .ok (.tuple (vs ++ ws))
    | .text _, w => misfit ("can only concatenate str (not \"" ++ w.kindName ++ "\") to str")
    | .list _, w => misfit ("can only concatenate list (not \"" ++ w.kindName ++ "\") to list")
    | .tuple _, w => misfit ("can only concatenate tuple (not \"" ++ w.kindName ++ "\") to tuple")
    | v, w => unsupported "+" v w

def multiply (v w : Value) : Result Value :=
  let isRow (v : Value) : Bool := (copies v 0).isSome
  match v.int?, w.int?, v.float?, w.float? with
  | some i, some j, _, _ => .ok (.int (i * j))
  | _, _, some x, some y => .ok (.float (x * y))
  | i?, j?, _, _ =>
    match copies v (j?.getD 0), copies w (i?.getD 0) with
    | some c, _ =>
      if j?.isSome then .ok c
      else misfit ("can't multiply sequence by non-int of type '" ++ w.kindName ++ "'")
    | none, some c =>
      if i?.isSome then .ok c
      else if isRow w then misfit ("can't multiply sequence by non-int of type '" ++ v.kindName ++ "'")
      else unsupported "*" v w
    | none, none => unsupported "*" v w

def divide (v w : Value) : Result Value :=
  match v.float?, w.float? with
  | some x, some y =>
    if y == 0.0 then
      .error (.division (if v.int?.isSome && w.int?.isSome then "division by zero"
        else "float division by zero"))
    else .ok (.float (x / y))
  | _, _ => unsupported "/" v w

/-- What is left of a finite double when another one, not zero, is taken away as often as it fits;
the sign stays. -/
def remainder (x y : Float) : Float :=
  match Decimal.Binary.ofBits? x.toBits, Decimal.Binary.ofBits? y.toBits with
  | some a, some b =>
    let least := min a.exponent b.exponent
    let size (c : Decimal.Binary) : Nat := c.mantissa * Nat.pow 2 (c.exponent - least).toNat
    let left := Float.scaleB (Float.ofNat (size a % size b)) least
    if a.negative then -left else left
  | some _, none => if y.isNaN then y else x
  | none, _ => 0.0 / 0.0

/-- The whole quotient and the remainder of two doubles, the second of which is not zero. -/
def quotient (x y : Float) : Float × Float :=
  let left := remainder x y
  let zero (sign : Float) : Float := if sign < 0.0 || 1.0 / sign < 0.0 then -0.0 else 0.0
  let count := (x - left) / y
  let (count, left) :=
    if left == 0.0 then (count, zero y)
    else if (y < 0.0) != (left < 0.0) then (count - 1.0, left + y)
    else (count, left)
  if count == 0.0 then (zero (x / y), left)
  else
    let whole := count.floor
    (if count - whole > 0.5 then whole + 1.0 else whole, left)

def floorDivide (v w : Value) : Result Value :=
  match v.int?, w.int?, v.float?, w.float? with
  | some i, some j, _, _ =>
    if j = 0 then .error (.division "integer division or modulo by zero")
    else .ok (.int (Int.fdiv i j))
  | _, _, some x, some y =>
    if y == 0.0 then .error (.division "float floor division by zero")
    else .ok (.float (quotient x y).1)
  | _, _, _, _ => unsupported "//" v w

def modulo (v w : Value) : Result Value :=
  match v with
  | .text t => (format false t w).map .text
  | .markup t => (format true t w).map .markup
  | v =>
    match v.int?, w.int?, v.float?, w.float? with
    | some i, some j, _, _ =>
      if j = 0 then .error (.division "integer modulo by zero") else .ok (.int (Int.fmod i j))
    | _, _, some x, some y =>
      if y == 0.0 then .error (.division "float modulo") else .ok (.float (quotient x y).2)
    | _, _, _, _ => unsupported "%" v w

def power (v w : Value) : Result Value :=
  match v.int?, w.int?, v.float?, w.float? with
  | some i, some j, some x, some y =>
    if 0 ≤ j then
      let size := Nat.pow i.natAbs j.toNat
      .ok (.int (if i < 0 && j.toNat % 2 = 1 then -(size : Int) else size))
    else if i = 0 then .error (.division "0.0 cannot be raised to a negative power")
    else .ok (.float (Float.pow x y))
  | _, _, some x, some y =>
    if x == 0.0 && y < 0.0 then .error (.division "0.0 cannot be raised to a negative power")
    else .ok (.float (Float.pow x y))
  | _, _, _, _ => unsupported "** or pow()" v w

def operate (op : Operation) (v w : Value) : Result Value := do
  v.check
  if op ≠ .mod || v.text?.isNone then w.check
  match op with
  | .add => add v w
  | .sub =>
    match v.int?, w.int?, v.float?, w.float? with
    | some i, some j, _, _ => return .int (i - j)
    | _, _, some x, some y => return .float (x - y)
    | _, _, _, _ => unsupported "-" v w
  | .mul => multiply v w
  | .div => divide v w
  | .floor => floorDivide v w
  | .mod => modulo v w
  | .pow => power v w

/-- A number with its sign changed, or kept. -/
def signed (changes : Bool) (v : Value) : Result Value := do
  v.check
  match v with
  | .float x => return .float (if changes then -x else x)
  | v =>
    match v.int? with
    | some i => return .int (if changes then -i else i)
    | none => misfit ("bad operand type for unary " ++ (if changes then "-" else "+") ++ ": '"
        ++ v.kindName ++ "'")

/-- Values put together as text; where markup is among them, the others are escaped. -/
def concat (escapes : Bool) (vs : List Value) : Result Value := do
  if escapes && vs.any isMarkup then return .markup (← vs.mapM (output true)).flatten
  else return .text (← vs.mapM shown).flatten

end Lectern.Theme.Template.Value
