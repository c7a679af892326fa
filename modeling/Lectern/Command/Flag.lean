import Lectern.Text.Quoted

/-!
# The flags of the command line

A flag has a long name, and some have a letter as well.  Two of them take a value.

* `Flag.table`     the names, in the order in which they are offered;
* `Fault`          why a command cannot be followed, and what is said about it.
-/

namespace Lectern.Command
open Text

inductive Flag where
  | help
  | theme
  | themesFolder
  | verbosity
  | version
  deriving DecidableEq

/-- The flags with their names. -/
def Flag.table : List (String × Flag) :=
  [("-h", .help), ("--help", .help), ("--theme", .theme), ("--themesDir", .themesFolder),
    ("-v", .verbosity), ("--verbosity", .verbosity), ("-V", .version), ("--version", .version)]

/-- The flag of a name. -/
def Flag.ofName? (t : Text) : Option Flag := (table.find? (·.1.toList = t)).map (·.2)

/-- The names of a flag, as it is spoken of. -/
def Flag.shown (f : Flag) : Text :=
  join ['/'] ((table.filter (·.2 = f)).map (·.1.toList))

def Flag.takesValue : Flag → Bool
  | .theme | .themesFolder => true
  | .help | .verbosity | .version => false

/-- What stands behind a flag in the same word. -/
structure Attached where
  /-- An equals sign stands between. -/
  isAssigned : Bool
  text : Text
  deriving DecidableEq

/-- Why a command cannot be followed. -/
inductive Fault where
  | missing (names : List String)
  | noValue (f : Flag)
  /-- A flag that takes no value is given one. -/
  | unwantedValue (f : Flag) (value : Text)
  | ambiguous (word : Text) (names : List String)
  | unrecognized (words : List Text)
  deriving DecidableEq

def Fault.message : Fault → Text
  | .missing names =>
    "the following arguments are required: ".toList ++ join ", " (names.map String.toList)
  | .noValue f => "argument ".toList ++ f.shown ++ ": expected one argument".toList
  | .unwantedValue f value =>
    "argument ".toList ++ f.shown ++ ": ignored explicit argument ".toList ++ quoted value
  | .ambiguous word names =>
    "ambiguous option: ".toList ++ word ++ " could match ".toList
      ++ join ", " (names.map String.toList)
  | .unrecognized words => "unrecognized arguments: ".toList ++ join [' '] words

end Lectern.Command
