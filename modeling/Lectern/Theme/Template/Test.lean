import Lectern.Text.Case
import Lectern.Theme.Template.Call
import Lectern.Theme.Template.Value.Operation

/-!
# Tests

`applyTest` tells whether something holds of a value: of what kind it is, whether it is there, how it
compares with another one.
-/

namespace Lectern.Theme.Template
open Text Value

/-- What is said of a name that stands for nothing when it is used. -/
def unknownName {α : Type} (kind : String) (name : Text) : Result α :=
  .error (.unable ("No ".toList ++ kind.toList ++ " named ".toList ++ quoted name
    ++ " found.".toList))

/-- A value can be gone through. -/
def isIterable : Value → Result Bool
  | .text _ | .markup _ | .list _ | .tuple _ | .map _ | .range .. | .view .. | .stream _ | .turn ..
  | .missing => .ok true
  | .undefined m => .error (.undefined m)
  | _ => .ok false

/-- Something holds of a value. -/
def applyTest (name : Text) (v : Value) (c : Call) : Result Bool := do
  let some s := signature? name testSignatures | unknownName "test" name
  let a ← s.bind c
  let other := a.get "other"
  match String.ofList name with
  | "defined" => return match v with
    | .undefined _ | .missing => false
    | _ => true
  | "undefined" => return match v with
    | .undefined _ | .missing => true
    | _ => false
  | "none" => return match v with
    | .nothing => true
    | _ => false
  | "boolean" => return match v with
    | .bool _ => true
    | _ => false
  | "true" => return match v with
    | .bool b => b
    | _ => false
  | "false" => return match v with
    | .bool b => !b
    | _ => false
  | "integer" => return match v with
    | .int _ => true
    | _ => false
  | "float" => return match v with
    | .float _ => true
    | _ => false
  | "number" => return v.float?.isSome
  | "string" => return v.text?.isSome
  | "mapping" => return match v with
    | .map _ => true
    | _ => false
  | "sequence" => return match v with
    | .text _ | .markup _ | .list _ | .tuple _ | .map _ | .range .. => true
    | _ => false
  | "iterable" => isIterable v
  | "callable" => return match v with
    | .method .. | .function _ | .part .. | .replaced .. | .undefined _ | .missing => true
    | _ => false
  | "escaped" => return v.isMarkup
  | "lower" => do
    let t ← v.shown
    return t.any isCased && lower t = t
  | "upper" => do
    let t ← v.shown
    return t.any isCased && upper t = t
  | "odd" => compares .equal (← operate .mod v (.int 2)) (.int 1)
  | "even" => compares .equal (← operate .mod v (.int 2)) (.int 0)
  | "divisibleby" => compares .equal (← operate .mod v (a.get "num")) (.int 0)
  | "eq" | "equalto" | "==" => compares .equal v other
  | "ne" | "!=" => compares .unequal v other
  | "lt" | "lessthan" | "<" => compares .less v other
  | "le" | "<=" => compares .atMost v other
  | "gt" | "greaterthan" | ">" => compares .greater v other
  | "ge" | ">=" => compares .atLeast v other
  | "in" => compares .within v (a.get "seq")
  | "sameas" => return v.kindName == other.kindName && (← same v other)
  | "filter" => do
    v.checkKey
    return v.text?.any fun n => (signature? n filterSignatures).isSome
  | "test" => do
    v.checkKey
    return v.text?.any fun n => (signature? n testSignatures).isSome
  | _ => return false

end Lectern.Theme.Template
