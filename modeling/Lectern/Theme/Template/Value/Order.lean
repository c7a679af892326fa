import Lectern.Theme.Template.Value

/-!
# Comparing values

* `same`         two values are equal, a whole number and a fraction by their size;
* `order`        which of two values of one kind comes first;
* `compares`     one of the comparisons a template knows holds.
-/

namespace Lectern.Theme.Template.Value
open Text

mutual

/-- Two values are equal. -/
def same : Value → Value → Result Bool
  | .undefined m, _ | _, .undefined m => .error (.undefined m)
  | .list vs, .list ws | .tuple vs, .tuple ws => sameAll vs ws
  | .map es, .map fs => if es.length = fs.length then sameEntries es fs else .ok false
  | .range a b c, .range d e f => .ok (a = d && b = e && c = f)
  | .nothing, .nothing | .missing, .missing => .ok true
  | .float x, .float y => .ok (x == y)
  | v, w =>
    match v.text?, w.text? with
    | some s, some t => .ok (s = t)
    | none, none =>
      match v.int?, w.int?, v, w with
      | some i, some j, _, _ => .ok (i = j)
      | some i, none, _, .float y => .ok (wholeOf? y = some i)
      | none, some j, .float x, _ => .ok (wholeOf? x = some j)
      | _, _, _, _ => .ok false
    | _, _ => .ok false

def sameAll : List Value → List Value → Result Bool
  | [], [] => .ok true
  | v :: vs, w :: ws => do
    if ← same v w then sameAll vs ws else return false
  | _, _ => .ok false

/-- Each of the first entries is among the second. -/
def sameEntries : List (Value × Value) → List (Value × Value) → Result Bool
  | [], _ => .ok true
  | (k, v) :: es, fs => do
    let found ← fs.anyM fun f => do
      if ← same k f.1 then same v f.2 else return false
    if found then sameEntries es fs else return false

end

/-- The value of a key in a mapping. -/
def valueAt? (key : Value) : List (Value × Value) → Option Value
  | [] => none
  | (k, v) :: es => match same k key with
    | .ok true => some v
    | _ => valueAt? key es

/-- Puts an entry into a mapping: the value of a key that was there before is exchanged. -/
def putEntry (key v : Value) : List (Value × Value) → List (Value × Value)
  | [] => [(key, v)]
  | (k, w) :: es => match same k key with
    | .ok true => (k, v) :: es
    | _ => (k, w) :: putEntry key v es

/-- The order of two values of one kind; `sign` stands for the comparison in messages. -/
def order (sign : String) : Nat → Value → Value → Result Ordering
  | 0, _, _ => .ok .eq
  | _ + 1, .undefined m, _ | _ + 1, _, .undefined m => .error (.undefined m)
  | fuel + 1, .list vs, .list ws | fuel + 1, .tuple vs, .tuple ws => orderAll sign fuel vs ws
  | _ + 1, v, w =>
    match v.text?, w.text?, v.int?, w.int?, v.float?, w.float? with
    | some s, some t, _, _, _, _ => .ok (if s = t then .eq else if le s t then .lt else .gt)
    | _, _, some i, some j, _, _ => .ok (compare i j)
    | _, _, _, _, some x, some y => .ok (if x < y then .lt else if x == y then .eq else .gt)
    | _, _, _, _, _, _ =>
      misfit ("'" ++ sign ++ "' not supported between instances of '" ++ v.kindName ++ "' and '"
        ++ w.kindName ++ "'")
where
  orderAll (sign : String) (fuel : Nat) : List Value → List Value → Result Ordering
    | [], [] => .ok .eq
    | [], _ :: _ => .ok .lt
    | _ :: _, [] => .ok .gt
    | v :: vs, w :: ws => do
      if ← same v w then orderAll sign fuel vs ws else order sign fuel v w

/-- How deep values are compared. -/
def compareDepth : Nat := 100

/-- The value is among those that another one holds. -/
def within (v holder : Value) : Result Bool :=
  match holder with
  | .text t | .markup t =>
    match v with
    | .undefined m => .error (.undefined m)
    | v =>
      match v.text? with
      | some s => .ok (occurs s t)
      | none =>
        misfit ("'in <string>' requires string as left operand, not " ++ v.kindName)
  | .undefined m => .error (.undefined m)
  | .list vs | .tuple vs | .view _ vs | .stream vs => vs.anyM (same · v)
  | .map es => do
    v.checkKey
    es.anyM fun e => same e.1 v
  | .range .. => do (← holder.items).anyM (same · v)
  | .missing => .ok false
  | holder => misfit ("argument of type '" ++ holder.kindName ++ "' is not iterable")

def compares (c : Comparison) (v w : Value) : Result Bool :=
  let ordered (sign : String) (holds : Ordering → Bool) : Result Bool :=
    match v.float?, w.float? with
    | some x, some y =>
      if x.isNaN || y.isNaN then .ok false else (order sign compareDepth v w).map holds
    | _, _ => (order sign compareDepth v w).map holds
  match c with
  | .equal => same v w
  | .unequal => (same v w).map (!·)
  | .less => ordered "<" (· == .lt)
  | .atMost => ordered "<=" (· != .gt)
  | .greater => ordered ">" (· == .gt)
  | .atLeast => ordered ">=" (· != .lt)
  | .within => within v w
  | .without => (within v w).map (!·)

end Lectern.Theme.Template.Value
