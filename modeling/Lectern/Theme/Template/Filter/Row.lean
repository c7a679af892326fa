import Lectern.Text.Case
import Lectern.Theme.Template.Value.Member
import Lectern.Theme.Template.Value.Operation

/-!
# What is done with a row of values

Rows are put in order, cut into parts, gone through for what is greatest, and joined.  Values may be
looked at through one of their members, which a dotted name or a position tells; letters count
without their case unless they are to be minded.

* `Getter`        what a value is looked at by;
* `sortValues`, `uniqueValues`, `extreme`, `groups`   rows by what their values are looked at by;
* `batches`, `columns`   the parts of a row;
* `joinValues`    a row as text.
-/

namespace Lectern.Theme.Template
open Text Value

/-- What a value is looked at by: the steps from member to member, and whether letters count without
their case. -/
structure Getter where
  steps : List Value := []
  foldsCase : Bool := false
  /-- What stands for a member that is not there. -/
  default : Value := .nothing

/-- The steps that a name with points tells, or a single key. -/
def stepsTo (path : Option Value) : List Value :=
  match path with
  | none | some .nothing => []
  | some v =>
    match v.text? with
    | some t => (splitOn ['.'] t).map fun s =>
      if !s.isEmpty && s.all isDigit then .int (natural s) else .text s
    | none => [v]

def Getter.of (g : Getter) (v : Value) : Result Value := do
  let found ← g.steps.foldlM (fun v step => do
    let w ← item v step
    return match w, g.default with
      | w, .nothing => w
      | .undefined _, d => d
      | w, _ => w) v
  return match g.foldsCase, found.text? with
    | true, some t => .text (lower t)
    | _, _ => found

/-! ## Order -/

/-- A row in order, every value being put before the first one that it precedes. -/
def insertSorted {α : Type} (precedes : α → α → Result Bool) (v : α) : List α → Result (List α)
  | [] => .ok [v]
  | w :: ws => do
    if ← precedes v w then return v :: w :: ws else return w :: (← insertSorted precedes v ws)

/-- A row in the order of the keys of its values. -/
def sortBy (key : Value → Result Value) (backwards : Bool) (vs : List Value) :
    Result (List Value) := do
  let keyed ← vs.mapM fun v => do return (← key v, v)
  let precedes (a b : Value × Value) : Result Bool := compares .less a.1 b.1
  let sorted ← (if backwards then keyed.reverse else keyed).foldlM
    (fun sorted e => insertSorted precedes e sorted) []
  return (if backwards then sorted.reverse else sorted).map (·.2)

/-- A row in order, by one or several members with commas between their names. -/
def sortValues (path : Option Value) (backwards foldsCase : Bool) (vs : List Value) :
    Result (List Value) :=
  let getters : List Getter := match path.bind text? with
    | some t => (splitOn [','] t).map fun a => ⟨stepsTo (some (.text a)), foldsCase, .nothing⟩
    | none => [⟨stepsTo path, foldsCase, .nothing⟩]
  sortBy (fun v => do return .list (← getters.mapM (·.of v))) backwards vs

/-- A row without values that were met before. -/
def uniqueValues (g : Getter) (vs : List Value) : Result (List Value) := do
  let (kept, _) ← vs.foldlM (fun (kept, seen) v => do
    let k ← g.of v
    k.checkKey
    if ← seen.anyM (same · k) then return (kept, seen)
    else return (kept ++ [v], k :: seen)) (([] : List Value), ([] : List Value))
  return kept

/-- The greatest or the least value of a row. -/
def extreme (c : Comparison) (g : Getter) : List Value → Result Value
  | [] => .ok (.undefined "No aggregated item, sequence was empty.")
  | v :: vs => do
    let first ← g.of v
    let (_, best) ← vs.foldlM (fun (k, best) w => do
      let l ← g.of w
      if ← compares c l k then return (l, w) else return (k, best)) (first, v)
    return best

/-- Neighbours of one key together. -/
def together (keyed : List (Value × Value)) : Result (List (Value × List Value)) :=
  keyed.foldrM (fun (k, v) groups => do
    match groups with
    | (l, vs) :: rest => do
      if ← same k l then return (k, v :: vs) :: rest else return (k, [v]) :: groups
    | [] => return [(k, [v])]) []

/-- A row in groups by what its values are looked at by, in the order of that. -/
def groups (g : Getter) (vs : List Value) : Result (List Value) := do
  let sorted ← sortBy g.of false vs
  let found ← together (← sorted.mapM fun v => do return (← g.of v, v))
  found.mapM fun (k, vs) => do
    let exact : Getter := { g with foldsCase := false }
    let k ← match vs with
      | v :: _ => exact.of v
      | [] => pure k
    return .tuple [k, .list vs]

/-! ## Parts -/

/-- Values up to a count with others behind them. -/
def filledUp (size : Nat) (filling : Option Value) (vs : List Value) : List Value :=
  match filling with
  | some v => vs ++ List.replicate (size - vs.length) v
  | none => vs

/-- The parts of a row that hold `size` values each; the last one may be filled up. -/
def batches (size : Nat) (filling : Option Value) : Nat → List Value → List Value
  | 0, _ => []
  | _, [] => []
  | fuel + 1, v :: vs =>
    let n := max 1 size
    .list (filledUp size filling ((v :: vs).take n)) :: batches size filling fuel ((v :: vs).drop n)

/-- A row in `count` parts, the first of which hold one value more where it does not come out even;
the others may be filled up. -/
def columns (count : Nat) (filling : Option Value) (vs : List Value) : List Value :=
  let size := vs.length / count
  let longer := vs.length % count
  (List.range count).map fun i =>
    let part := (vs.drop (i * size + min i longer)).take (if i < longer then size + 1 else size)
    .list (if i < longer then part else part ++ filling.toList)

/-! ## Text -/

/-- The values with a text between them; where markup is among them, the others are escaped. -/
def joinValues (escapes : Bool) (between : Value) (vs : List Value) : Result Value := do
  if escapes && (between.isMarkup || vs.any isMarkup) then
    let between ← between.output true
    return .markup (join between (← vs.mapM (·.output true)))
  else
    return .text (join (← between.shown) (← vs.mapM shown))

/-- The entries of a mapping as attributes of a tag. -/
def attributesText (es : List (Value × Value)) : Result Text := do
  let isBad (c : Char) : Bool := " \t\n\x0b\x0c\r/>=".toList.contains c
  let parts ← es.mapM fun (k, v) => do
    match v with
    | .nothing | .undefined _ | .missing => return []
    | v =>
      let name ← k.shown
      if name.any isBad then
        throw (.value ("Invalid character in attribute name: ".toList ++ (← k.written)))
      return (← k.output true) ++ ['=', '"'] ++ (← v.output true) ++ ['"']
  return join [' '] (parts.filter (!·.isEmpty))

end Lectern.Theme.Template
