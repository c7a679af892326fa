import Lectern.Theme.Template.Call

/-!
# The arguments of methods

Methods take their arguments by position.

* `Wording`      in what words a method says how many arguments it takes;
* `checkCount`   refuses arguments that are too few or too many, and those that have names;
* `byPosition`   arguments in the order of their parameters, the named ones among them;
* `needText`, `needInt`   an argument that has to be a text or a whole number.
-/

namespace Lectern.Theme.Template
open Text Value

/-- In what words a method says how many arguments it takes. -/
inductive Wording where
  /-- There is one number of arguments, none or one. -/
  | exactly
  /-- What was expected is told before what was given. -/
  | expected
  /-- What was given is told in brackets. -/
  | taking

/-- Several things, or one. -/
def counted (n : Nat) : String := if n = 1 then "1 argument" else s!"{n} arguments"

/-- Refuses arguments that are too few or too many. -/
def checkCount (w : Wording) (owner name : String) (least most : Nat) (c : Call) : Result Unit := do
  let full := if owner.isEmpty then name else owner ++ "." ++ name
  if !c.named.isEmpty then misfit (full ++ "() takes no keyword arguments")
  let given := c.values.length
  if least ≤ given && given ≤ most then return ()
  match w with
  | .exactly =>
    if most = 0 then misfit (full ++ s!"() takes no arguments ({given} given)")
    else misfit (full ++ s!"() takes exactly one argument ({given} given)")
  | .expected =>
    if given < least then misfit (name ++ " expected at least " ++ counted least ++ s!", got {given}")
    else misfit (name ++ " expected at most " ++ counted most ++ s!", got {given}")
  | .taking =>
    if given < least then misfit (name ++ "() takes at least " ++ counted least ++ s!" ({given} given)")
    else misfit (name ++ "() takes at most " ++ counted most ++ s!" ({given} given)")

/-- The arguments of a method whose parameters have names, in the order of the parameters. -/
def byPosition (name : String) (parameters : List String) (c : Call) :
    Result (List (Option Value)) := do
  let most := parameters.length
  let given := c.values.length + c.named.length
  if given > most then
    misfit (name ++ "() takes at most " ++ counted most ++ s!" ({given} given)")
  if let some e := c.named.find? fun e => !parameters.any (·.toList = e.1) then
    misfit ("'" ++ String.ofList e.1 ++ "' is an invalid keyword argument for " ++ name ++ "()")
  parameters.zipIdx.mapM fun (p, i) =>
    match c.values[i]?, c.named.lookup p.toList with
    | some _, some _ =>
      let place := i + 1
      misfit ("argument for " ++ name ++ "() given by name ('" ++ p ++ s!"') and position ({place})")
    | some v, none => .ok (some v)
    | none, v => .ok v

/-- The whole number that an argument has to be. -/
def needInt (v : Value) : Result Int :=
  match v.int? with
  | some i => .ok i
  | none => misfit ("'" ++ v.kindName ++ "' object cannot be interpreted as an integer")

/-- The text that an argument has to be; `who` begins what is said of any other value. -/
def needText (v : Value) (who : String := "") : Result Text :=
  match v, v.text? with
  | _, some t => .ok t
  | .nothing, none => misfit (who ++ "must be str, not " ++ (if who.isEmpty then "NoneType" else "None"))
  | v, none => misfit (who ++ "must be str, not " ++ v.kindName)

/-- The argument at a position, which is there. -/
def Call.at (c : Call) (i : Nat) : Value := (c.values[i]?).getD .nothing

end Lectern.Theme.Template
