import Lectern.Theme.Template.Method.Text

/-!
# Methods and functions

* `applyMethod`     what a value does: a text, a mapping, a row or a loop;
* `applyFunction`   what is known everywhere: rows of numbers and mappings.
-/

namespace Lectern.Theme.Template
open Text Value

/-- What a mapping does. -/
def mapMethod (es : List (Value × Value)) (name : String) (c : Call) : Result Value := do
  if name == "get" then
    checkCount .expected "dict" name 1 2 c
    (c.at 0).checkKey
    return (valueAt? (c.at 0) es).getD (c.at 1)
  checkCount .exactly "dict" name 0 0 c
  return match name with
    | "items" => .view "dict_items" (es.map fun e => .tuple [e.1, e.2])
    | "keys" => .view "dict_keys" (es.map (·.1))
    | "values" => .view "dict_values" (es.map (·.2))
    | _ => .map es

/-- A position in a row that an argument tells. -/
def rowPosition (length default : Nat) : Option Value → Result Nat
  | none => .ok default
  | some v =>
    match v.int? with
    | some i => .ok (if i < 0 then i + length else i).toNat
    | none => misfit "slice indices must be integers or have an __index__ method"

/-- What a list, a tuple or a range does; `row` holds its items. -/
def rowMethod (v : Value) (row : List Value) (name : String) (c : Call) : Result Value := do
  let owner := v.kindName
  let isRange := owner == "range"
  if name == "copy" then
    checkCount .exactly owner name 0 0 c
    return v
  if name == "count" then
    checkCount .exactly owner name 1 1 c
    return .int (← row.filterM (same · (c.at 0))).length
  if isRange then checkCount .exactly owner name 1 1 c else checkCount .expected owner name 1 3 c
  let start ← rowPosition row.length 0 c.values[1]?
  let stop ← rowPosition row.length row.length c.values[2]?
  let places := (row.take stop).zipIdx.drop start
  let found ← places.filterM fun e => same e.1 (c.at 0)
  match found with
  | (_, i) :: _ => return .int i
  | [] => do
    if owner == "tuple" then throw (.value "tuple.index(x): x not in tuple")
    let t ← (c.at 0).written
    if isRange && (c.at 0).int?.isNone then
      throw (.value "sequence.index(x): x not in sequence")
    throw (.value (t ++ " is not in ".toList ++ owner.toList))

/-- What a value does. -/
def applyMethod (v : Value) (name : Text) (c : Call) : Result Value := do
  let word := String.ofList name
  match v with
  | .text t => applyTextMethod false t word c
  | .markup t => applyTextMethod true t word c
  | .map es => mapMethod es word c
  | .list vs | .tuple vs => rowMethod v vs word c
  | .range .. => rowMethod v (← v.items) word c
  | .turn _ position _ =>
    if let some e := c.named.head? then
      misfit ("LoopContext.cycle() got an unexpected keyword argument '" ++ String.ofList e.1 ++ "'")
    match c.values with
    | [] => misfit "no items for cycling given"
    | vs => return (vs[position % vs.length]?).getD .nothing
  | v => misfit ("'" ++ v.kindName ++ "' object is not callable")

/-- The numbers from a start on, before a stop. -/
def rangeOf (c : Call) : Result Value := do
  checkCount .expected "" "range" 1 3 c
  match ← c.values.mapM needInt with
  | [stop] => return .range 0 stop 1
  | start :: stop :: rest => do
    let step := rest.headD 1
    if step = 0 then throw (.value "range() arg 3 must not be zero")
    return .range start stop step
  | [] => return .nothing

/-- A mapping of the entries of a value: another mapping, or pairs. -/
def entriesFrom (v : Value) : Result (List (Value × Value)) := do
  match v with
  | .map es => return es
  | v => do
    let pairs ← (← v.items).zipIdx.mapM fun (v, i) =>
      match v.items with
      | .error _ =>
        misfit (s!"cannot convert dictionary update sequence element #{i} to a sequence")
      | .ok [k, w] => .ok (k, w)
      | .ok vs =>
        let n := vs.length
        .error (.value
          (s!"dictionary update sequence element #{i} has length {n}; 2 is required").toList)
    pairs.foldlM (fun es (k, w) => do
      k.checkKey
      return putEntry k w es) []

/-- A mapping of the entries of an argument, and of the arguments that have names. -/
def mapOf (c : Call) : Result Value := do
  checkCount .expected "" "dict" 0 1 { c with named := [] }
  let es ← match c.values with
    | v :: _ => entriesFrom v
    | [] => pure []
  return .map (c.named.foldl (fun es e => putEntry (.text e.1) e.2 es) es)

/-- The values of functions that are known everywhere. -/
def applyFunction (name : String) (c : Call) : Result Value :=
  match name with
  | "range" => rangeOf c
  | "dict" => mapOf c
  | _ => .ok .nothing

end Lectern.Theme.Template
