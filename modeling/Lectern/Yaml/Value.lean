import Lectern.Decimal.Written
import Lectern.Text.Quoted
import Lectern.Text.Utf8
import Lectern.Yaml.Calendar

/-!
# Configuration values

* `Value`        nothing, a truth value, a number, a text, bytes, a date, or values put together;
* `written`      a value as it stands inside another one;
* `shown`        a value on its own, where a text shows no quotes;
* `get?`         what a mapping says of a key;
* `put`          a mapping with one entry set: keys that are equal numbers are one key.
-/

namespace Lectern.Yaml
open Text

inductive Value where
  | null
  | bool (b : Bool)
  | int (i : Int)
  | float (x : Float)
  | text (t : Text)
  | bytes (bs : Bytes)
  | date (d : Date)
  | moment (m : Moment)
  | list (items : List Value)
  | pair (key value : Value)
  | map (entries : List (Value × Value))
  | set (items : List Value)
  /-- A list or a mapping inside of which this one stands. -/
  | again (isMap : Bool)

def ofInt (i : Int) : Text := if i < 0 then '-' :: ofNat i.natAbs else ofNat i.natAbs

/-- How one byte is written between quotes of the kind `q`. -/
def quotedByte (q : Char) (b : UInt8) : Text :=
  let c := Char.ofNat b.toNat
  if c = q || c = '\\' then ['\\', c]
  else if c = '\n' then ['\\', 'n']
  else if c = '\r' then ['\\', 'r']
  else if c = '\t' then ['\\', 't']
  else if 0x20 ≤ b.toNat && b.toNat < 0x7f then [c]
  else '\\' :: 'x' :: hex 2 b.toNat

def quotedBytes (bs : Bytes) : Text :=
  let q := if bs.contains 0x27 && !bs.contains 0x22 then '"' else '\''
  'b' :: q :: bs.flatMap (quotedByte q) ++ [q]

namespace Value

mutual

def written : Value → Text
  | .null => "None"
  | .bool b => if b then "True" else "False"
  | .int i => ofInt i
  | .float x => Decimal.write ⟨"nan", "inf"⟩ x
  | .text t => quoted t
  | .bytes bs => quotedBytes bs
  | .date d => d.written
  | .moment m => m.written
  | .list vs => ['['] ++ join ", " (writtenAll vs) ++ [']']
  | .pair k v => ['('] ++ k.written ++ ", ".toList ++ v.written ++ [')']
  | .map es => ['\x7b'] ++ join ", " (writtenEntries es) ++ ['\x7d']
  | .set [] => "set()"
  | .set (v :: vs) => ['\x7b'] ++ join ", " (v.written :: writtenAll vs) ++ ['\x7d']
  | .again isMap => if isMap then "\x7b...\x7d" else "[...]"

def writtenAll : List Value → List Text
  | [] => []
  | v :: vs => v.written :: writtenAll vs

def writtenEntries : List (Value × Value) → List Text
  | [] => []
  | (k, v) :: es => (k.written ++ ": ".toList ++ v.written) :: writtenEntries es

end

def shown : Value → Text
  | .text t => t
  | .date d => d.shown
  | .moment m => m.shown
  | v => v.written

mutual

/-- Every number in the value has few enough digits to be written. -/
def isWritable : Value → Bool
  | .int i => (ofNat i.natAbs).length ≤ digitLimit
  | .list vs | .set vs => allWritable vs
  | .pair k v => k.isWritable && v.isWritable
  | .map es => entriesWritable es
  | _ => true

def allWritable : List Value → Bool
  | [] => true
  | v :: vs => v.isWritable && allWritable vs

def entriesWritable : List (Value × Value) → Bool
  | [] => true
  | (k, v) :: es => k.isWritable && v.isWritable && entriesWritable es

end

/-- What kind of value it is. -/
def kindName : Value → String
  | .null => "NoneType"
  | .bool _ => "bool"
  | .int _ => "int"
  | .float _ => "float"
  | .text _ => "str"
  | .bytes _ => "bytes"
  | .date _ => "datetime.date"
  | .moment _ => "datetime.datetime"
  | .list _ => "list"
  | .pair _ _ => "tuple"
  | .map _ => "dict"
  | .set _ => "set"
  | .again isMap => if isMap then "dict" else "list"

/-- The value says something: it is neither nothing, nor false, zero or empty. -/
def isFilled : Value → Bool
  | .null => false
  | .bool b => b
  | .int i => i ≠ 0
  | .float x => !(x == 0.0)
  | .text t => !t.isEmpty
  | .bytes bs => !bs.isEmpty
  | .date _ | .moment _ | .pair _ _ | .again _ => true
  | .list vs | .set vs => !vs.isEmpty
  | .map es => !es.isEmpty

/-- The values one meets when going through a value; none for a value that holds no others. -/
def items? : Value → Option (List Value)
  | .text t => some (t.map fun c => .text [c])
  | .bytes bs => some (bs.map fun b => .int b.toNat)
  | .list vs | .set vs => some vs
  | .pair k v => some [k, v]
  | .map es => some (es.map (·.1))
  | _ => none

def entryOf? (key : Text) : List (Value × Value) → Option Value
  | [] => none
  | (.text k, v) :: es => if k = key then some v else entryOf? key es
  | _ :: es => entryOf? key es

/-- What a mapping says of a key that is a text. -/
def get? (key : Text) : Value → Option Value
  | .map es => entryOf? key es
  | _ => none

/-- Follows keys into mappings inside mappings. -/
def follow? (v : Value) (keys : List Text) : Option Value := keys.foldlM (fun v k => v.get? k) v

/-- The whole number that a value is equal to. -/
def whole? : Value → Option Int
  | .bool b => some (if b then 1 else 0)
  | .int i => some i
  | .float x =>
    (Decimal.Binary.ofBits? x.toBits).bind fun b =>
      let scale := Nat.pow 2 (-b.exponent).toNat
      let size := b.mantissa * Nat.pow 2 b.exponent.toNat
      if size % scale ≠ 0 then none
      else some (if b.negative then -((size / scale : Nat) : Int) else (size / scale : Nat))
  | _ => none

/-- Two values are one key of a mapping. -/
def sameKey (a b : Value) : Bool :=
  match a.whole?, b.whole? with
  | some i, some j => i = j
  | none, none =>
    match a, b with
    | .moment m, .moment n => m.same n
    | a, b => a.kindName == b.kindName && a.written = b.written
  | _, _ => false

/-- The entries with one put in place of the entry of its key, or behind all. -/
def put (key value : Value) : List (Value × Value) → List (Value × Value)
  | [] => [(key, value)]
  | (k, v) :: es => if sameKey k key then (k, value) :: es else (k, v) :: put key value es

/-- The value may be the key of a mapping. -/
def isKey : Value → Bool
  | .list _ | .map _ | .set _ | .again _ => false
  | _ => true

end Value
end Lectern.Yaml
