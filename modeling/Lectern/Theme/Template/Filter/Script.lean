import Lectern.Text.Digit
import Lectern.Theme.Template.Filter.Row

/-!
# Values as data for scripts

Lists stand in brackets, mappings in braces with their keys in order, texts in double quotes; what
has a meaning in markup is written as a code.
-/

namespace Lectern.Theme.Template
open Text Value

/-- A character of a text between quotes. -/
def scriptChar (c : Char) : Text :=
  let code (n : Nat) : Text := '\\' :: 'u' :: hex 4 n
  if c = '"' then ['\\', '"']
  else if c = '\\' then ['\\', '\\']
  else if c = '\n' then ['\\', 'n']
  else if c = '\r' then ['\\', 'r']
  else if c = '\t' then ['\\', 't']
  else if c.toNat = 8 then ['\\', 'b']
  else if c.toNat = 12 then ['\\', 'f']
  else if c = '<' || c = '>' || c = '&' || c = '\'' then code c.toNat
  else if 0x20 ≤ c.toNat && c.toNat < 0x7f then [c]
  else if c.toNat < 0x10000 then code c.toNat
  else
    let n := c.toNat - 0x10000
    code (0xd800 + n / 0x400) ++ code (0xdc00 + n % 0x400)

def scriptText (t : Text) : Text := '"' :: t.flatMap scriptChar ++ ['"']

/-- A number with a fraction. -/
def scriptFloat (x : Float) : Text := Decimal.write ⟨"NaN", "Infinity"⟩ x

/-- A key as text. -/
def scriptKey : Value → Result Text
  | .text t | .markup t => .ok t
  | .int i => writeInt i
  | .float x => .ok (scriptFloat x)
  | .bool b => .ok (if b then "true" else "false")
  | .nothing => .ok "null"
  | v => misfit ("keys must be str, int, float, bool or None, not " ++ v.kindName)

/-- Parts between two brackets, each on a line of its own if lines are moved to the right by a gap
for each level. -/
def bracketed (gap : Option Text) (level : Nat) (start stop : Char) (ts : List Text) : Text :=
  match gap with
  | none => start :: join ", " ts ++ [stop]
  | some gap =>
    if ts.isEmpty then [start, stop]
    else
      let line (n : Nat) : Text := '\n' :: rep n gap
      start :: line (level + 1) ++ join (',' :: line (level + 1)) ts ++ line level ++ [stop]

/-- A value as data; the first argument bounds its depth. -/
def scriptData (gap : Option Text) : Nat → (level : Nat) → Value → Result Text
  | 0, _, _ => .error .depth
  | fuel + 1, level, v => do
    match v with
    | .text t | .markup t => return scriptText t
    | .int i => writeInt i
    | .float x => return scriptFloat x
    | .bool b => return if b then "true" else "false"
    | .nothing => return "null"
    | .list vs | .tuple vs =>
      return bracketed gap level '[' ']' (← vs.mapM (scriptData gap fuel (level + 1)))
    | .map es => do
      let keys ← sortBy pure false (es.map (·.1))
      let ts ← keys.mapM fun k => do
        let v := (valueAt? k es).getD .nothing
        return scriptText (← scriptKey k) ++ [':', ' '] ++ (← scriptData gap fuel (level + 1) v)
      return bracketed gap level '\x7b' '\x7d' ts
    | v => misfit ("Object of type " ++ v.kindName ++ " is not JSON serializable")

/-- How deep data for scripts may be. -/
def scriptDepth : Nat := 500

end Lectern.Theme.Template
