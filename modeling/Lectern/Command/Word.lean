import Lectern.Command.Flag
import Lectern.Text.Digit

/-!
# The words of a command

A word is a flag, a divider behind which nothing is a flag, or an operand.  A long flag may be cut
short as long as no other one begins so; a value may stand behind an equals sign, and letters or a
value behind the letter of a short flag.

* `word`     what one word is;
* `words`    all words of a command.

All words are told apart before the first is acted on, so an unclear one is found even behind a call
for help.
-/

namespace Lectern.Command
open Text

inductive Word where
  | operand (t : Text)
  /-- The first lone pair of dashes. -/
  | divider
  /-- A flag by a long name or by its letter. -/
  | flag (f : Flag) (isLong : Bool) (attached : Option Attached)
  | unknown (t : Text)
  deriving DecidableEq

/-- The word is a negative number: digits, or digits around a point of which those in front may be
missing.  One line end behind it does not count. -/
def isNegativeNumber : Text → Bool
  | '-' :: t =>
    let t := if t.getLast? = some '\n' then t.dropLast else t
    let fraction := t.dropWhile isDigit
    match fraction with
    | [] => !t.isEmpty
    | '.' :: digits => !digits.isEmpty && digits.all isDigit
    | _ => false
  | _ => false

/-- A word cut at its first equals sign. -/
def assignment (t : Text) : Text × Option Attached :=
  match indexOf? ['='] t with
  | some i => (t.take i, some ⟨true, t.drop (i + 1)⟩)
  | none => (t, none)

/-- The names that a word with dashes may stand for, each with its flag: the long ones that begin as
it does up to an equals sign, or the short one that it begins with. -/
def candidates (t : Text) : List (String × Word) :=
  if startsWith ['-', '-'] t then
    let (name, attached) := assignment t
    (Flag.table.filter fun e => startsWith name e.1.toList).map fun e =>
      (e.1, .flag e.2 true attached)
  else
    (Flag.table.filter fun e => e.1.toList = t.take 2).map fun e =>
      (e.1, .flag e.2 false (some ⟨false, t.drop 2⟩))

/-- What a word of a command is. -/
def word (t : Text) : Except Fault Word :=
  let isLong := startsWith ['-', '-'] t
  if t.head? ≠ some '-' then .ok (.operand t)
  else
    match Flag.ofName? t with
    | some f => .ok (.flag f isLong none)
    | none =>
      if t = ['-'] then .ok (.operand t)
      else
        let (name, attached) := assignment t
        match attached, Flag.ofName? name with
        | some a, some f => .ok (.flag f isLong (some a))
        | _, _ =>
          match candidates t with
          | [(_, w)] => .ok w
          | [] => .ok (if isNegativeNumber t || t.contains ' ' then .operand t else .unknown t)
          | several => .error (.ambiguous t (several.map (·.1)))

/-- The words of a command. -/
def words : List Text → Except Fault (List Word)
  | [] => .ok []
  | t :: ts =>
    if t = ['-', '-'] then .ok (.divider :: ts.map .operand)
    else do
      let w ← word t
      return w :: (← words ts)

end Lectern.Command
