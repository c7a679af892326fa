import Lectern.Theme.Template.Value.Order

/-!
# What belongs to a value

* `member`       what a value has under a name: something that can be done with it, or an entry;
* `item`         what it holds at a position or under a key;
* `slice`        a part of a row between two positions.
-/

namespace Lectern.Theme.Template.Value
open Text

def textMethods : List String :=
  ["capitalize", "casefold", "center", "count", "endswith", "expandtabs", "find", "format", "index",
    "isalnum", "isalpha", "isascii", "isdecimal", "isdigit", "isidentifier", "islower", "isnumeric",
    "isprintable", "isspace", "istitle", "isupper", "join", "ljust", "lower", "lstrip", "partition",
    "removeprefix", "removesuffix", "replace", "rfind", "rindex", "rjust", "rpartition", "rsplit",
    "rstrip", "split", "splitlines", "startswith", "strip", "swapcase", "title", "upper", "zfill"]

def mapMethods : List String := ["copy", "get", "items", "keys", "values"]

def rowMethods : List String := ["copy", "count", "index"]

/-- What a loop tells of its state. -/
def turnMember? (items : List Value) (position depth : Nat) (name : Text) : Option Value :=
  let n (i : Nat) : Option Value := some (.int i)
  let neighbour (v : Option Value) (what : String) : Option Value :=
    some (v.getD (.undefined ("there is no ".toList ++ what.toList ++ " item".toList)))
  match String.ofList name with
  | "index" => n (position + 1)
  | "index0" => n position
  | "revindex" => n (items.length - position)
  | "revindex0" => n (items.length - position - 1)
  | "first" => some (.bool (position = 0))
  | "last" => some (.bool (position + 1 = items.length))
  | "length" => n items.length
  | "depth" => n (depth + 1)
  | "depth0" => n depth
  | "previtem" =>
    neighbour (if position = 0 then none else items[position - 1]?) "previous"
  | "nextitem" => neighbour items[position + 1]? "next"
  | "cycle" => some (.method (.turn items position depth) name)
  | _ => none

/-- The slot that a slot takes the place of. -/
def replacedSlot (name : Text) (slots : List (Bool × List Part)) : Value :=
  if slots.isEmpty then
    .undefined ("there is no parent block called ".toList ++ quoted name ++ ['.'])
  else .replaced name slots

/-- The member of a value, if it has one of this name. -/
def ownMember? (v : Value) (name : Text) : Option Value :=
  let isOneOf (ws : List String) : Bool := ws.any (·.toList = name)
  let methodOf (ws : List String) : Option Value := if isOneOf ws then some (.method v name) else none
  match v with
  | .text _ | .markup _ => methodOf textMethods
  | .map _ => methodOf mapMethods
  | .list _ => methodOf rowMethods
  | .tuple _ => methodOf ["count", "index"]
  | .range start stop step =>
    if isOneOf ["start"] then some (.int start)
    else if isOneOf ["stop"] then some (.int stop)
    else if isOneOf ["step"] then some (.int step)
    else methodOf ["count", "index"]
  | .turn items position depth => turnMember? items position depth name
  | .part n ps .. =>
    if isOneOf ["name"] then some (.text n)
    else if isOneOf ["arguments"] then some (.tuple (ps.map fun p => .text p.1))
    else none
  | .replaced n slots => if isOneOf ["super"] then some (replacedSlot n (slots.drop 1)) else none
  | _ => none

def lacksMember (v : Value) (name : Text) : Value :=
  .undefined (quoted v.ownerName.toList ++ " has no attribute ".toList ++ quoted name)

/-- The member of a value, or the entry of a mapping. -/
def member (v : Value) (name : Text) : Result Value := do
  v.check
  match ownMember? v name, v with
  | some w, _ => return w
  | none, .map es => return (valueAt? (.text name) es).getD (lacksMember v name)
  | none, .slotTable all =>
    return match all.lookup name with
      | some slots => .replaced name slots
      | none => lacksMember v name
  | none, .missing => throw (.undefined (quoted name ++ " is undefined".toList))
  | none, _ => return lacksMember v name

/-- A position in a row, counted from its end where it is negative. -/
def position? (length : Nat) (i : Int) : Option Nat :=
  let j := if i < 0 then i + length else i
  if 0 ≤ j && j < length then some j.toNat else none

/-- The item of a row at a position, or the entry of a mapping; a member where the key is a text. -/
def item (v key : Value) : Result Value := do
  v.check
  let lacks : Result Value := do
    return .undefined (v.ownerName.toList ++ " has no element ".toList ++ (← key.written))
  match v, key with
  | .map es, key => do
    match key with
    | .undefined m => throw (.undefined m)
    | .list _ | .map _ => lacks
    | key =>
      match valueAt? key es, key.text? with
      | some w, _ => return w
      | none, some name => return (ownMember? v name).getD (lacksMember v name)
      | none, none => lacks
  | v, key => do
    match key.text? with
    | some name => member v name
    | none =>
      let at? (n : Nat) : Option Nat := key.int?.bind (position? n)
      let found : Option Value := match v with
        | .text t => ((at? t.length).bind (t[·]?)).map fun c => .text [c]
        | .markup t => ((at? t.length).bind (t[·]?)).map fun c => .markup [c]
        | .list vs | .tuple vs => (at? vs.length).bind (vs[·]?)
        | .range start stop step =>
          (at? (rangeSize start stop step)).map fun i => .int (start + step * i)
        | _ => none
      match found with
      | some w => return w
      | none => lacks

/-- The bound of a range of `length` items, as a position between the ends. -/
def bound (length : Nat) (backwards : Bool) (i : Int) : Int :=
  let j := if i < 0 then i + length else i
  let least : Int := if backwards then -1 else 0
  let most : Int := if backwards then (length : Int) - 1 else length
  max least (min most j)

/-- Every `step`-th item from a position on, before another one. -/
def pick {α : Type} (vs : List α) (stop step : Int) : Nat → Int → List α
  | 0, _ => []
  | fuel + 1, i =>
    if (if step > 0 then i < stop else i > stop) then
      (vs[i.toNat]?).toList ++ pick vs stop step fuel (i + step)
    else []

/-- The items between two positions. -/
def between {α : Type} (vs : List α) (start? stop? : Option Int) (step : Int) : List α :=
  let n := vs.length
  let backwards := step < 0
  let start := match start? with
    | some i => bound n backwards i
    | none => if backwards then (n : Int) - 1 else 0
  let stop := match stop? with
    | some i => bound n backwards i
    | none => if backwards then -1 else n
  pick vs stop step (n + 1) start

/-- The part of a row between two keys. -/
def slice (v start stop step : Value) : Result Value := do
  v.check
  let key? (k : Value) : Result (Option Int) :=
    match k with
    | .nothing => .ok none
    | k => match k.int? with
      | some i => .ok (some i)
      | none =>
        misfit "slice indices must be integers or None or have an __index__ method"
  let part {α : Type} (vs : List α) : Result (List α) := do
    let step := (← key? step).getD 1
    if step = 0 then throw (.value "slice step cannot be zero")
    return between vs (← key? start) (← key? stop) step
  match v with
  | .text t => return .text (← part t)
  | .markup t => return .markup (← part t)
  | .list vs => return .list (← part vs)
  | .tuple vs => return .tuple (← part vs)
  | .range .. => return .list (← part (← v.items))
  | .map _ => misfit "unhashable type: 'slice'"
  | v => misfit ("'" ++ v.kindName ++ "' object is not subscriptable")

end Lectern.Theme.Template.Value
