import Lectern.Decimal.Written
import Lectern.Theme.Template.Part

/-!
# The values of a template

Text is either plain, and then its markup is escaped where it is written, or markup already.  A
value that is not there may be passed on, but not used.

* `Value`                the values;
* `shown`, `written`     a value on its own, and inside a list;
* `isFilled`, `items`    whether a value says something, and what it holds;
* `text?`, `int?`, `float?`   the characters and the number of a value.
-/

namespace Lectern.Theme.Template
open Text

inductive Value where
  | text (t : Text)
  /-- Text that is written as it is. -/
  | markup (t : Text)
  | int (i : Int)
  | float (x : Float)
  | bool (b : Bool)
  | nothing
  | list (items : List Value)
  | tuple (items : List Value)
  | map (entries : List (Value × Value))
  /-- Every `step`-th number from a start on, before a stop. -/
  | range (start stop step : Int)
  /-- What a mapping holds, under the name of the view. -/
  | view (name : String) (items : List Value)
  /-- Items that are met one after the other, and cannot be counted before. -/
  | stream (items : List Value)
  /-- A value that is not there, and what is said when it is used. -/
  | undefined (message : Text)
  /-- A value that is not there, and nothing is said of it. -/
  | missing
  /-- What can be done with a value. -/
  | method (of : Value) (name : Text)
  | function (name : String)
  /-- The state of a loop: its items, and which of them it is at. -/
  | turn (items : List Value) (position depth : Nat)
  /-- A part that can be called, with the names it sees. -/
  | part (name : Text) (parameters : List (Text × Option Term)) (body : List Part) (escapes : Bool)
    (names : List (Text × Value))
  /-- The slots that the one being written takes the place of. -/
  | replaced (name : Text) (slots : List (Bool × List Part))
  /-- All slots of a template. -/
  | slotTable (all : List (Text × List (Bool × List Part)))

abbrev Result (α : Type) := Except RenderFault α

def misfit {α : Type} (m : String) : Result α := .error (.misfit m.toList)

def escapeChar : Char → Text
  | '&' => "&amp;"
  | '<' => "&lt;"
  | '>' => "&gt;"
  | '"' => "&#34;"
  | '\'' => "&#39;"
  | c => [c]

def escape (t : Text) : Text := t.flatMap escapeChar

def ofInt (i : Int) : Text := if i < 0 then '-' :: ofNat i.natAbs else ofNat i.natAbs

/-- A number with too many digits is not written. -/
def writeInt (i : Int) : Result Text :=
  if (ofNat i.natAbs).length ≤ digitLimit then .ok (ofInt i)
  else .error (.value ("Exceeds the limit (4300 digits) for integer string conversion; ".toList
    ++ "use sys.set_int_max_str_digits() to increase the limit".toList))

/-- The words for numbers without digits. -/
def numberWords : Decimal.Words := ⟨"nan", "inf"⟩

def writeFloat (x : Float) : Text := Decimal.write numberWords x

/-- How many numbers a range holds. -/
def rangeSize (start stop step : Int) : Nat :=
  if step > 0 then ((stop - start + step - 1) / step).toNat
  else if step < 0 then ((start - stop - step - 1) / -step).toNat
  else 0

/-- The whole number of a double, if it is one. -/
def wholeOf? (x : Float) : Option Int :=
  (Decimal.Binary.ofBits? x.toBits).bind fun b =>
    let scale := Nat.pow 2 (-b.exponent).toNat
    let size := b.mantissa * Nat.pow 2 b.exponent.toNat
    if size % scale ≠ 0 then none
    else some (if b.negative then -((size / scale : Nat) : Int) else (size / scale : Nat))

/-- The whole part of a double that is finite. -/
def wholePart? (x : Float) : Option Int :=
  (Decimal.Binary.ofBits? x.toBits).map fun b =>
    let size := b.mantissa * Nat.pow 2 b.exponent.toNat / Nat.pow 2 (-b.exponent).toNat
    if b.negative then -(size : Int) else size

namespace Value

/-- What kind of value it is. -/
def kindName : Value → String
  | .text _ => "str"
  | .markup _ => "Markup"
  | .int _ => "int"
  | .float _ => "float"
  | .bool _ => "bool"
  | .nothing => "NoneType"
  | .list _ => "list"
  | .tuple _ => "tuple"
  | .map _ => "dict"
  | .range .. => "range"
  | .view n _ => n
  | .stream _ => "generator"
  | .undefined _ => "StrictUndefined"
  | .missing => "Undefined"
  | .method _ _ => "builtin_function_or_method"
  | .function _ => "function"
  | .turn .. => "LoopContext"
  | .part .. => "Macro"
  | .replaced .. => "BlockReference"
  | .slotTable _ => "TemplateReference"

/-- What a value is called when it lacks something. -/
def ownerName : Value → String
  | .nothing => "None"
  | .markup _ => "markupsafe.Markup object"
  | .turn .. => "jinja2.runtime.LoopContext object"
  | .part .. => "jinja2.runtime.Macro object"
  | .replaced .. => "jinja2.runtime.BlockReference object"
  | .slotTable _ => "jinja2.runtime.TemplateReference object"
  | v => v.kindName ++ " object"

mutual

/-- A value as it stands inside another one. -/
def written : Value → Result Text
  | .text t => .ok (quoted t)
  | .markup t => .ok ("Markup(".toList ++ quoted t ++ [')'])
  | .int i => writeInt i
  | .float x => .ok (writeFloat x)
  | .bool b => .ok (if b then "True" else "False")
  | .nothing => .ok "None"
  | .list vs => do
    let ts ← writtenAll vs
    return ['['] ++ join ", " ts ++ [']']
  | .tuple vs => do
    match ← writtenAll vs with
    | [t] => return ['('] ++ t ++ [',', ')']
    | ts => return ['('] ++ join ", " ts ++ [')']
  | .map es => do
    let ts ← writtenEntries es
    return ['\x7b'] ++ join ", " ts ++ ['\x7d']
  | .range start stop step =>
    .ok ("range(".toList ++ join ", " ((if step = 1 then [start, stop] else [start, stop, step]).map
      ofInt) ++ [')'])
  | .view n vs => do
    let ts ← writtenAll vs
    return n.toList ++ ['(', '['] ++ join ", " ts ++ [']', ')']
  | .undefined _ | .missing => .ok "Undefined"
  | .turn vs i _ =>
    .ok ("<LoopContext ".toList ++ ofNat (i + 1) ++ ['/'] ++ ofNat vs.length ++ ['>'])
  | .part n .. => .ok ("<Macro ".toList ++ quoted n ++ ['>'])
  | .slotTable _ => .ok "<TemplateReference 'template.html'>"
  | .method .. | .function _ | .replaced .. => .ok "<function>"
  | .stream _ => .ok "<generator object>"

def writtenAll : List Value → Result (List Text)
  | [] => .ok []
  | v :: vs => do
    let t ← v.written
    return t :: (← writtenAll vs)

def writtenEntries : List (Value × Value) → Result (List Text)
  | [] => .ok []
  | (k, v) :: es => do
    let t := (← k.written) ++ ": ".toList ++ (← v.written)
    return t :: (← writtenEntries es)

end

/-- A value on its own. -/
def shown : Value → Result Text
  | .text t | .markup t => .ok t
  | .undefined m => .error (.undefined m)
  | .missing => .ok []
  | v => v.written

/-- A value as a page shows it. -/
def output (escapes : Bool) : Value → Result Text
  | .markup t => .ok t
  | v => do
    let t ← v.shown
    return if escapes then escape t else t

/-- The value says something: it is neither nothing, nor false, zero or empty. -/
def isFilled : Value → Result Bool
  | .text t | .markup t => .ok !t.isEmpty
  | .int i => .ok (i ≠ 0)
  | .float x => .ok !(x == 0.0)
  | .bool b => .ok b
  | .nothing | .missing => .ok false
  | .list vs | .tuple vs | .view _ vs => .ok !vs.isEmpty
  | .map es => .ok !es.isEmpty
  | .range start stop step => .ok (rangeSize start stop step ≠ 0)
  | .undefined m => .error (.undefined m)
  | _ => .ok true

/-- What one meets when going through a value. -/
def items : Value → Result (List Value)
  | .text t | .markup t => .ok (t.map fun c => .text [c])
  | .list vs | .tuple vs | .view _ vs | .stream vs => .ok vs
  | .map es => .ok (es.map (·.1))
  | .range start stop step =>
    .ok ((List.range (rangeSize start stop step)).map fun (i : Nat) => .int (start + step * i))
  | .undefined m => .error (.undefined m)
  | .missing => .ok []
  | v => misfit ("'" ++ v.kindName ++ "' object is not iterable")

/-- How many values one meets. -/
def length : Value → Result Nat
  | .text t | .markup t => .ok t.length
  | .list vs | .tuple vs | .view _ vs => .ok vs.length
  | .map es => .ok es.length
  | .range start stop step => .ok (rangeSize start stop step)
  | .undefined m => .error (.undefined m)
  | .missing => .ok 0
  | .turn vs _ _ => .ok vs.length
  | v => misfit ("object of type '" ++ v.kindName ++ "' has no len()")

/-- The characters of a value that is text. -/
def text? : Value → Option Text
  | .text t | .markup t => some t
  | _ => none

def isMarkup : Value → Bool
  | .markup _ => true
  | _ => false

/-- The whole number of a value. -/
def int? : Value → Option Int
  | .int i => some i
  | .bool b => some (if b then 1 else 0)
  | _ => none

/-- The number of a value. -/
def float? : Value → Option Float
  | .float x => some x
  | v => v.int?.map Float.ofInt

/-- A value that is not there cannot be used. -/
def check : Value → Result Unit
  | .undefined m => .error (.undefined m)
  | _ => .ok ()

/-- The values that one holds, for as many places. -/
def unpack (v : Value) (wanted : Nat) : Result (List Value) := do
  v.check
  match v.items with
  | .error _ => misfit ("cannot unpack non-iterable " ++ v.kindName ++ " object")
  | .ok vs =>
    if vs.length < wanted then
      .error (.value (s!"not enough values to unpack (expected {wanted}, got {vs.length})").toList)
    else if vs.length > wanted then
      .error (.value (s!"too many values to unpack (expected {wanted})").toList)
    else return vs

/-- What is said of a value that lacks something it is asked for. -/
def lacks {α : Type} (v : Value) (name : String) : Result α := do
  v.check
  .error (.lacking ('\'' :: (v.kindName ++ "' object has no attribute '" ++ name ++ "'").toList))

/-- A value that may be a key: no list and no mapping. -/
def checkKey : Value → Result Unit
  | .undefined m => .error (.undefined m)
  | .list _ => misfit "unhashable type: 'list'"
  | .map _ => misfit "unhashable type: 'dict'"
  | _ => .ok ()

end Value
end Lectern.Theme.Template
