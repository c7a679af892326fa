import Lectern.Theme.Template.Filter
import Lectern.Theme.Template.Method

/-!
# Pages from templates

* `Template`       the parts of a template, and whether what it writes is escaped;
* `Template.eval`  the value of a term;
* `Template.renderPart`   the text of a part, and the names behind it;
* `Template.render`       the text of a template for given names.

A template that is built upon another one writes nothing of its own from there on: the other one is
written in its place, with the slots of the first.
-/

namespace Lectern.Theme
open Text

structure Template where
  content : List Template.Part
  /-- The markup of values is escaped. -/
  escapes : Bool

namespace Template
open Value

/-- What is the same for all parts of a template. -/
structure Context where
  /-- Finds a template that is to be put in or built upon. -/
  load : Text → Result Template
  escapes : Bool
  /-- The slots of a name: the one that is written, and those it takes the place of. -/
  slots : List (Text × List (Bool × List Part)) := []

/-- The names at a place of a template. -/
structure Scope where
  /-- The names of the blocks around the place. -/
  inner : List (Text × Value) := []
  outer : List (Text × Value)
  /-- No block is around the place that has names of its own. -/
  isOutermost : Bool := true
  /-- The template that this one is built upon. -/
  base? : Option Template := none
  /-- What the filters of a block are given. -/
  filtered? : Option Value := none

namespace Scope

def bind (s : Scope) (name : Text) (v : Value) : Scope :=
  if s.isOutermost then { s with outer := (name, v) :: s.outer }
  else { s with inner := (name, v) :: s.inner }

/-- The scope of a block that has names of its own. -/
def nested (s : Scope) (names : List (Text × Value)) : Scope :=
  { s with inner := names ++ s.inner, isOutermost := false }

def names (s : Scope) : List (Text × Value) := s.inner ++ s.outer

end Scope

/-- Names that are known everywhere. -/
def functions : List String := ["range", "dict", "lipsum", "cycler", "joiner", "namespace"]

/-- Filters that look at what surrounds them. -/
def lookingFilters : List String :=
  ["map", "random", "reject", "rejectattr", "select", "selectattr"]

/-- The value of a term hangs on nothing outside it; the first argument bounds how deep terms nest. -/
def isConstant : Nat → Term → Bool
  | 0, _ => false
  | fuel + 1, a =>
    let all (as : List Term) (named : List (Text × Term)) : Bool :=
      as.all (isConstant fuel) && named.all fun e => isConstant fuel e.2
    match a with
    | .text _ | .whole _ | .decimal _ | .truth _ | .nothing => true
    | .list as | .tuple as | .concat as => all as []
    | .map es => es.all fun e => isConstant fuel e.1 && isConstant fuel e.2
    | .member a _ | .spread a _ | .negated a | .minus a | .plus a => isConstant fuel a
    | .item a b | .both a b | .either a b | .operate _ a b => isConstant fuel a && isConstant fuel b
    | .slice a b c => all (a.toList ++ b.toList ++ c.toList) []
    | .filter (some a) n as named =>
      !lookingFilters.any (·.toList = n) && isConstant fuel a && all as named
    | .test a _ as named => isConstant fuel a && all as named
    | .compare a rest => isConstant fuel a && rest.all fun e => isConstant fuel e.2
    | .chosen a b c => isConstant fuel a && isConstant fuel b && all c.toList []
    | .name _ | .call .. | .filter none .. | .field .. => false

/-- The value of a name. -/
def Scope.lookup (s : Scope) (name : Text) : Value :=
  match s.names.lookup name with
  | some v => v
  | none =>
    match functions.find? (·.toList = name) with
    | some f => .function f
    | none => .undefined (quoted name ++ " is undefined".toList)

/-- The names that a place gives to a value. -/
def bindings : Nat → Term → Value → Result (List (Text × Value))
  | 0, _, _ => .error .depth
  | fuel + 1, place, v =>
    match place with
    | .name n => .ok [(n, v)]
    | .tuple places => do
      let vs ← v.unpack places.length
      return (← (places.zip vs).mapM fun e => bindings fuel e.1 e.2).flatten
    | .field _ _ => .error (.unable "cannot assign attribute on non-namespace object")
    | _ => .ok []

/-- A text that was written, as a value. -/
def captured (c : Context) (t : Text) : Value := if c.escapes then .markup t else .text t

/-- The names of the templates that a value tells. -/
def sourceNames (v : Value) : Result (List Text × Bool) :=
  match v with
  | .text t | .markup t => .ok ([t], false)
  | .undefined m => .error (.undefined m)
  | v => do
    let names ← (← v.items).mapM shown
    return (names, true)

/-- The first of several templates that is there. -/
def firstFound (c : Context) (all : List Text) : List Text → Result Template
  | [] =>
    .error (.noneFound (if all.isEmpty then "Tried to select from an empty list of templates."
      else "none of the templates given were found: ".toList ++ join ", " all))
  | n :: ns =>
    match c.load n with
    | .error (.notFound _) => firstFound c all ns
    | r => r

/-- The template that a value names. -/
def loadNamed (c : Context) (v : Value) : Result Template := do
  match ← sourceNames v with
  | ([n], false) => c.load n
  | (ns, _) => firstFound c ns ns

/-- The slots of a context with those of a template behind them. -/
def withSlots (slots : List (Text × List (Bool × List Part))) (t : Template) :
    List (Text × List (Bool × List Part)) :=
  (slotsOf t.content).foldl (fun slots (name, ps) => add name (t.escapes, ps) slots) slots
where
  add (name : Text) (slot : Bool × List Part) :
      List (Text × List (Bool × List Part)) → List (Text × List (Bool × List Part))
    | [] => [(name, [slot])]
    | (n, ss) :: rest => if n = name then (n, ss ++ [slot]) :: rest else (n, ss) :: add name slot rest

mutual

/-- The value of a term. -/
def eval : Nat → Context → Scope → Term → Result Value
  | 0, _, _, _ => .error .depth
  | fuel + 1, c, s, a => do
    let eval_ := eval fuel c s
    match a with
    | .name n =>
      return match s.names.lookup n with
        | some v => v
        | none => if n = "self".toList then .slotTable c.slots else s.lookup n
    | .text t => return .text t
    | .whole n => return .int n
    | .decimal t => return .float (((Decimal.read? t).map Decimal.Reading.toFloat).getD 0)
    | .truth b => return .bool b
    | .nothing => return .nothing
    | .list as => return .list (← as.mapM eval_)
    | .tuple as => return .tuple (← as.mapM eval_)
    | .map es => do
      let es ← es.mapM fun e => do return (← eval_ e.1, ← eval_ e.2)
      let es ← es.foldlM (fun es (k, v) => do
        k.checkKey
        return putEntry k v es) []
      return .map es
    | .member a n => member (← eval_ a) n
    | .item a (.slice start stop step) => do
      let bound (a : Option Term) : Result Value :=
        match a with
        | some a => eval_ a
        | none => .ok .nothing
      Value.slice (← eval_ a) (← bound start) (← bound stop) (← bound step)
    | .item a k => item (← eval_ a) (← eval_ k)
    | .slice .. | .field .. => return .missing
    | .spread a _ => eval_ a
    | .call f as named => do
      let f ← eval_ f
      apply fuel c s f (← givenArguments fuel c s as named)
    | .filter a n as named => do
      let v ← match a with
        | some a => eval_ a
        | none => pure (s.filtered?.getD .missing)
      applyFilter c.escapes fuel n v (← givenArguments fuel c s as named)
    | .test a n as named => do
      let v ← eval_ a
      return .bool (← applyTest n v (← givenArguments fuel c s as named))
    | .negated a => return .bool !(← (← eval_ a).isFilled)
    | .minus a => signed true (← eval_ a)
    | .plus a => signed false (← eval_ a)
    | .both a b => do
      let v ← eval_ a
      if ← v.isFilled then eval_ b else return v
    | .either a b => do
      let v ← eval_ a
      if ← v.isFilled then return v else eval_ b
    | .operate op a b => operate op (← eval_ a) (← eval_ b)
    | .concat as => do
      let vs ← as.mapM eval_
      if isConstant fuel a then return .text (← vs.mapM shown).flatten
      concat c.escapes vs
    | .compare a rest => do
      let (_, holds) ← rest.foldlM (fun (v, holds) e => do
        if holds then
          let w ← eval_ e.2
          return (w, ← compares e.1 v w)
        else return (v, false)) (← eval_ a, true)
      return .bool holds
    | .chosen test yes no => do
      if ← (← eval_ test).isFilled then eval_ yes
      else match no with
        | some no => eval_ no
        | none => return .missing

/-- The values of arguments. -/
def givenArguments : Nat → Context → Scope → List Term → List (Text × Term) → Result Call
  | 0, _, _, _, _ => .error .depth
  | fuel + 1, c, s, as, named => do
    let call : Call := { named := ← named.mapM fun e => do return (e.1, ← eval fuel c s e.2) }
    as.foldlM (fun call a => do
      let v ← eval fuel c s a
      match a, v with
      | .spread _ true, .map es => do
        let es ← es.mapM fun e => do return (← e.1.shown, e.2)
        return { call with named := call.named ++ es }
      | .spread _ false, v => return { call with values := call.values ++ (← v.items) }
      | _, v => return { call with values := call.values ++ [v] }) call

/-- What a value gives for arguments. -/
def apply : Nat → Context → Scope → Value → Call → Result Value
  | 0, _, _, _, _ => .error .depth
  | fuel + 1, c, s, f, call => do
    match f with
    | .method v n => applyMethod v n call
    | .function n => applyFunction n call
    | .part n ps body escapes names => do
      let c := { c with escapes }
      if call.values.length > ps.length then
        misfit ("macro " ++ String.ofList (quoted n)
          ++ s!" takes not more than {ps.length} argument(s)")
      let known (e : Text × Value) : Bool := e.1 = "caller".toList || ps.any (·.1 = e.1)
      if let some e := call.named.find? fun e => !known e then
        misfit ("macro " ++ String.ofList (quoted n) ++ " takes no keyword argument "
          ++ String.ofList (quoted e.1))
      let own ← ps.zipIdx.foldlM (fun own (p, i) => do
        let v ← match (call.values[i]?).orElse fun _ => call.named.lookup p.1, p.2 with
          | some v, _ => pure v
          | none, some a => eval fuel c { s with inner := own ++ names, isOutermost := false } a
          | none, none =>
            pure (.undefined ("parameter ".toList ++ quoted p.1 ++ " was not provided".toList))
        return (p.1, v) :: own) ([] : List (Text × Value))
      let caller := call.named.filter fun e => e.1 = "caller".toList
      let (t, _) ← renderParts fuel c
        { inner := own ++ caller ++ names, outer := s.outer, isOutermost := false } body
      return captured c t
    | .replaced n slots =>
      match slots with
      | (escapes, ps) :: rest => do
        let c := { c with escapes }
        let (t, _) ← renderParts fuel c
          { inner := [("super", .replaced n rest)], outer := s.outer, isOutermost := false } ps
        return captured c t
      | [] => throw (.undefined ("there is no parent block called ".toList ++ quoted n ++ ['.']))
    | .undefined m => throw (.undefined m)
    | v => misfit ("'" ++ v.kindName ++ "' object is not callable")

/-- The text of parts, and the names behind them. -/
def renderParts : Nat → Context → Scope → List Part → Result (Text × Scope)
  | 0, _, _, _ => .error .depth
  | fuel + 1, c, s, ps =>
    ps.foldlM (fun (t, s) p => do
      let (u, s) ← renderPart fuel c s p
      return (t ++ u, s)) ([], s)

/-- The text of a part, and the names behind it. -/
def renderPart : Nat → Context → Scope → Part → Result (Text × Scope)
  | 0, _, _, _ => .error .depth
  | fuel + 1, c, s, p => do
    let inside (s : Scope) (ps : List Part) : Result Text := do
      return (← renderParts fuel c s ps).1
    match p with
    | .text t => return (if s.base?.isSome then [] else t, s)
    | .output as => do
      if s.base?.isSome then return ([], s)
      let ts ← as.mapM fun a => do (← eval fuel c s a).output c.escapes
      return (ts.flatten, s)
    | .choice branches no => do
      let chosen ← branches.foldlM (fun (chosen : Option (List Part)) b => do
        if chosen.isSome then return chosen
        else return if ← (← eval fuel c s b.1).isFilled then some b.2 else none) none
      renderParts fuel c s (chosen.getD no)
    | .loop target among test ps no => do
      let all ← (← eval fuel c s among).items
      let bound (v : Value) : Result (List (Text × Value)) := bindings fuel target v
      let vs ← match test with
        | none => pure all
        | some test => all.filterM fun v => do
          (← eval fuel c (s.nested (← bound v)) test).isFilled
      if vs.isEmpty then return (← inside (s.nested []) no, s)
      let ts ← vs.zipIdx.mapM fun (v, i) => do
        let names := (← bound v) ++ [("loop".toList, .turn vs i 0)]
        inside (s.nested names) ps
      return (ts.flatten, s)
    | .assign target a => do
      let v ← eval fuel c s a
      let names ← bindings fuel target v
      return ([], names.foldl (fun s e => s.bind e.1 e.2) s)
    | .capture target filter ps => do
      let v := captured c (← inside { s.nested [] with base? := none } ps)
      let v ← match filter with
        | none => pure v
        | some a => eval fuel c { s with filtered? := some v } a
      let names ← bindings fuel target v
      return ([], names.foldl (fun s e => s.bind e.1 e.2) s)
    | .scope values ps => do
      let names ← values.mapM fun e => do bindings fuel e.1 (← eval fuel c s e.2)
      return (← inside (s.nested names.flatten) ps, s)
    | .slot n isScoped isRequired _ => do
      if s.base?.isSome then return ([], s)
      match (c.slots.lookup n).getD [] with
      | [] => return ([], s)
      | (escapes, ps) :: rest => do
        if isRequired && rest.isEmpty then
          throw (.unable ("Required block ".toList ++ quoted n ++ " not found".toList))
        let names := ("super".toList, .replaced n rest) :: (if isScoped then s.inner else [])
        let (t, _) ← renderParts fuel { c with escapes }
          { inner := names, outer := s.outer, isOutermost := false } ps
        return (t, s)
    | .insert name mayMiss withNames => do
      if s.base?.isSome then return ([], s)
      match loadNamed c (← eval fuel c s name) with
      | .error (.notFound m) => if mayMiss then return ([], s) else throw (.notFound m)
      | .error (.noneFound m) => if mayMiss then return ([], s) else throw (.noneFound m)
      | .error e => throw e
      | .ok t => return (← renderWhole fuel c t (if withNames then s.names else []), s)
    | .base name => do
      let t ← loadNamed c (← eval fuel c s name)
      if s.base?.isSome then throw (.unable "extended multiple times")
      return ([], { s with base? := some t })
    | .define n ps body => return ([], s.bind n (.part n ps body c.escapes s.inner))
    | .through filter ps => do
      let v := captured c (← inside (s.nested []) ps)
      if s.base?.isSome then return ([], s)
      let v ← eval fuel c { s with filtered? := some v } filter
      return (← v.shown, s)
    | .escaping on ps => do
      let escapes ← (← eval fuel c s on).isFilled
      let (t, _) ← renderParts fuel { c with escapes } (s.nested []) ps
      return (t, s)
    | .callWith call ps body => do
      if s.base?.isSome then return ([], s)
      let caller := Value.part "caller" ps body c.escapes s.inner
      match call with
      | .call f as named => do
        let f ← eval fuel c s f
        let given ← givenArguments fuel c s as named
        let v ← apply fuel c s f
          { given with named := given.named ++ [("caller".toList, caller)] }
        return (← v.output c.escapes, s)
      | _ => return ([], s)
    | .bring source whole names withNames => do
      let t ← loadNamed c (← eval fuel c s source)
      let (_, after) ← renderParts fuel { c with escapes := t.escapes, slots := withSlots [] t }
        { outer := if withNames then s.names else [] } t.content
      let s := match whole with
        | none => s
        | some n => s.bind n (.map (after.outer.map fun e => (.text e.1, e.2)))
      return ([], names.foldl (fun s e => s.bind e.2 (after.lookup e.1)) s)

/-- The text of a template for the names it is given. -/
def renderWhole : Nat → Context → Template → List (Text × Value) → Result Text
  | 0, _, _, _ => .error .depth
  | fuel + 1, c, t, names => renderOn fuel { c with slots := withSlots [] t } t { outer := names }

/-- The text of a template, and of the one it is built upon. -/
def renderOn : Nat → Context → Template → Scope → Result Text
  | 0, _, _, _ => .error .depth
  | fuel + 1, c, t, s => do
    let (above, s) ← renderParts fuel { c with escapes := t.escapes } s t.content
    match s.base? with
    | none => return above
    | some base => do
      let below ← renderOn fuel { c with slots := withSlots c.slots base } base
        { s with base? := none }
      return above ++ below

end

/-- The text of a template for given names; `load` finds a template that is to be put in or built
upon. -/
def render (load : Text → Result Template) (names : List (Text × Text)) (t : Template) :
    Result Text :=
  renderWhole partDepth { load, escapes := t.escapes } t (names.map fun e => (e.1, .text e.2))

end Template
end Lectern.Theme
