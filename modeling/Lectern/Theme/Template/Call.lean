import Lectern.Theme.Template.Signature
import Lectern.Theme.Template.Value

/-!
# Calls

* `Call`             the arguments that are given to a filter, a test or a method;
* `Signature.bind`   the arguments under the names of their parameters.
-/

namespace Lectern.Theme.Template
open Text Value

/-- Arguments: in their order, and by their names. -/
structure Call where
  values : List Value := []
  named : List (Text × Value) := []

/-- Arguments under the names of the parameters that they stand for. -/
abbrev Arguments := List (String × Value)

namespace Signature

def refuse {α : Type} (s : Signature) (why : String) : Result α := misfit (s.name ++ "() " ++ why)

/-- Names as they are listed in messages. -/
def listed : List String → String
  | [] => ""
  | [n] => "'" ++ n ++ "'"
  | [n, m] => "'" ++ n ++ "' and '" ++ m ++ "'"
  | ns => ns.dropLast.foldl (fun t n => t ++ "'" ++ n ++ "', ") "" ++ "and '"
      ++ (ns.getLast?.getD "") ++ "'"

/-- What is said of too many arguments. -/
def refuseMany {α : Type} (s : Signature) (count : Nat) : Result α :=
  let least := s.handed + s.required.length
  let most := least + s.optional.length
  let given := s.handed + count
  let wanted := if least = most then s!"{most}" else s!"from {least} to {most}"
  let many := if least = most && most = 1 then "" else "s"
  let were := if given = 1 then "was" else "were"
  s.refuse (s!"takes {wanted} positional argument{many} but {given} {were} given")

/-- What is said of arguments that are missing. -/
def refuseFew {α : Type} (s : Signature) (missing : List String) : Result α :=
  let many := if missing.length = 1 then "" else "s"
  s.refuse (s!"missing {missing.length} required positional argument{many}: " ++ listed missing)

/-- The arguments under the names of their parameters.  Names are looked at first, then the count,
then what is missing. -/
def bind (s : Signature) (c : Call) : Result Arguments :=
  let parameters := s.required ++ s.optional
  let inOrder := parameters.zip c.values
  match s.refusal with
  | .counting =>
    if !c.named.isEmpty then s.refuse "takes no keyword arguments"
    else if !c.values.isEmpty then
      s.refuse (s!"takes exactly one argument ({c.values.length + 1} given)")
    else .ok []
  | .expecting =>
    if !c.named.isEmpty then misfit ("_operator." ++ s.name ++ "() takes no keyword arguments")
    else if c.values.length ≠ 1 then
      misfit (s.name ++ s!" expected 2 arguments, got {c.values.length + 1}")
    else .ok inOrder
  | .naming =>
    if s.isOpen then .ok []
    else do
      let byName ← c.named.mapM fun (n, v) =>
        match parameters.find? (·.toList = n) with
        | none => s.refuse ("got an unexpected keyword argument '" ++ String.ofList n ++ "'")
        | some p =>
          if inOrder.any (·.1 == p) then
            s.refuse ("got multiple values for argument '" ++ p ++ "'")
          else .ok (p, v)
      if c.values.length > parameters.length then s.refuseMany c.values.length
      let bound := inOrder ++ byName
      let missing := s.required.filter fun p => !bound.any (·.1 == p)
      if missing.isEmpty then return bound else s.refuseFew missing

end Signature

namespace Arguments

def get? (a : Arguments) (name : String) : Option Value := a.lookup name

/-- The argument of a name; nothing where there is none. -/
def get (a : Arguments) (name : String) : Value := (a.get? name).getD .nothing

/-- The argument of a name, unless it is nothing. -/
def some? (a : Arguments) (name : String) : Option Value :=
  match a.get? name with
  | some .nothing => none
  | v => v

/-- Whether the argument of a name says something. -/
def flag (a : Arguments) (name : String) (default : Bool := false) : Result Bool :=
  match a.get? name with
  | some v => v.isFilled
  | none => .ok default

/-- The whole number that is given under a name. -/
def number (a : Arguments) (name : String) (default : Int) : Result Int :=
  match a.get? name with
  | none => .ok default
  | some v =>
    match v.int? with
    | some i => .ok i
    | none => misfit ("'" ++ v.kindName ++ "' object cannot be interpreted as an integer")

/-- The text that is given under a name. -/
def text (a : Arguments) (name : String) (default : Text) : Result Text :=
  match a.get? name with
  | none => .ok default
  | some v => v.shown

end Arguments
end Lectern.Theme.Template
