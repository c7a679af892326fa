import Lectern.Command.Word
import Lectern.Files.Path

/-!
# What a command asks for

A command names the folder of the notes and the folder of the site, in this order, with flags before,
between and behind them.  Flags act in their order, so the first call for help or for the version
ends the reading; a missing folder is found before a word too many.

* `spread`          the flags that stand in one word;
* `Draft.takeRest`  the operands behind the divider;
* `read`            the request of a command.
-/

namespace Lectern.Command
open Text

structure Options where
  input : Path
  /-- The folder of the site; a pair of dashes behind the divider names none. -/
  output? : Option Path
  theme : Text := "default"
  themes? : Option Text := none
  verbosity : Nat := 1

inductive Request where
  | help
  | version
  | build (o : Options)

/-- The flags that a flag with letters or a value behind it stands for, and a word that is left over
where a letter is no flag's. -/
def spread (f : Flag) (isLong isAssigned : Bool) :
    Text → Except Fault (List (Flag × Option Text) × List Text)
  | [] => if f.takesValue then .ok ([(f, some [])], []) else .error (.unwantedValue f [])
  | c :: t =>
    if f.takesValue then .ok ([(f, some (c :: t))], [])
    else if isLong || isAssigned || c = '-' then .error (.unwantedValue f (c :: t))
    else
      match Flag.ofName? ['-', c] with
      | none => .ok ([(f, none)], ['-' :: c :: t])
      | some g =>
        match t with
        | [] => .ok ([(f, none), (g, none)], [])
        | '=' :: t => (spread g false true t).map fun (fs, rest) => ((f, none) :: fs, rest)
        | d :: t => (spread g false false (d :: t)).map fun (fs, rest) => ((f, none) :: fs, rest)

/-- A command that is being read. -/
structure Draft where
  /-- The folders named so far. -/
  operands : List (Option Text) := []
  leftOver : List Text := []
  theme : Text := "default"
  themes? : Option Text := none
  verbosity : Nat := 1

namespace Draft

/-- Follows flags in their order; one that asks for help or for the version ends the reading. -/
def follow (d : Draft) : List (Flag × Option Text) → Except Request Draft
  | [] => .ok d
  | (.help, _) :: _ => .error .help
  | (.version, _) :: _ => .error .version
  | (.verbosity, _) :: fs => { d with verbosity := d.verbosity + 1 }.follow fs
  | (.theme, v) :: fs => { d with theme := v.getD [] }.follow fs
  | (.themesFolder, v) :: fs => { d with themes? := v }.follow fs

/-- Takes words as folders while there is room, and leaves the others over. -/
def take (d : Draft) (ts : List (Option Text × Text)) : Draft :=
  ts.foldl (fun d (value, t) =>
    if d.operands.length < 2 then { d with operands := d.operands ++ [value] }
    else { d with leftOver := d.leftOver ++ [t] }) d

/-- Takes the words behind the divider.  The divider goes with a folder next to it, else it is left
over; without one that went with it before, a pair of dashes names nothing. -/
def takeRest (d : Draft) (wasTaken : Bool) (ts : List Text) : Draft :=
  let plain (t : Text) : Option Text × Text := (if t = ['-', '-'] then none else some t, t)
  if wasTaken then d.take (ts.map plain)
  else
    match ts with
    | t :: rest =>
      if d.operands.length < 2 then d.take ((some t, t) :: rest.map plain)
      else { d with leftOver := d.leftOver ++ ['-', '-'] :: t :: rest }
    | [] => { d with leftOver := d.leftOver ++ [['-', '-']] }

/-- What a command asks for that has been read to its end. -/
def request (d : Draft) : Except Fault Request :=
  match d.operands with
  | input :: output :: _ =>
    if d.leftOver.isEmpty then
      .ok (.build { input := Path.ofText (input.getD []), output? := output.map Path.ofText
                    theme := d.theme, themes? := d.themes?, verbosity := d.verbosity })
    else .error (.unrecognized d.leftOver)
  | [_] => .error (.missing ["outputdir"])
  | [] => .error (.missing ["inputdir", "outputdir"])

/-- Reads words; `wasTaken` says that the word before was taken as a folder. -/
def read (d : Draft) (wasTaken : Bool) : List Word → Except Fault Request
  | [] => d.request
  | .operand t :: ws =>
    (d.take [(some t, t)]).read (d.operands.length < 2) ws
  | .divider :: ws =>
    (d.takeRest wasTaken (ws.filterMap fun
      | .operand t => some t
      | _ => none)).request
  | .unknown t :: ws => { d with leftOver := d.leftOver ++ [t] }.read false ws
  | .flag f isLong (some a) :: ws =>
    match spread f isLong a.isAssigned a.text with
    | .error e => .error e
    | .ok (fs, rest) =>
      match { d with leftOver := d.leftOver ++ rest }.follow fs with
      | .error r => .ok r
      | .ok d => d.read false ws
  | .flag f _ none :: ws =>
    if f.takesValue then
      match ws with
      | .operand t :: ws =>
        match d.follow [(f, some t)] with
        | .error r => .ok r
        | .ok d => d.read false ws
      | _ => .error (.noValue f)
    else
      match d.follow [(f, none)] with
      | .error r => .ok r
      | .ok d => d.read false ws

end Draft

/-- What a command asks for. -/
def read (arguments : List Text) : Except Fault Request := do
  ({} : Draft).read false (← words arguments)

/-- How much of the journal is shown. -/
def loudness (r : Except Fault Request) : Int :=
  match r with
  | .ok (.build o) => o.verbosity
  | _ => 1

end Lectern.Command
