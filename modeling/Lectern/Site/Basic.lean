import Lectern.Document
import Lectern.Files.Copy
import Lectern.Theme.Config

/-!
# Sites

A site is built from a folder of notes into a folder of its own.

* `Order`      what is to be built;
* `Fault`      why a build stops before its end;
* `Built`      what has been done so far;
* `Outcome`    how a build ends, and the lines about what went wrong.
-/

namespace Lectern.Site
open Text

/-- What is to be built. -/
structure Order where
  settings : Settings
  input : Path
  /-- Where the site goes; a build without it stops. -/
  output? : Option Path
  theme : Text
  /-- The folder of the themes. -/
  themes : Path

/-- Why a build stops before its end. -/
inductive Fault where
  | noOutput
  /-- The ending of documents is no pattern. -/
  | badPattern
  /-- What the theme is made of cannot be used. -/
  | theme (e : Theme.Fault)
  | misfit (e : Theme.Misfit)
  | document (e : Document.Fault)
  | file (e : FileError)
  | copy (e : CopyFault)
  /-- What could not be copied of an asset folder. -/
  | assets (items : List Text)

def Fault.message : Fault → Text
  | .noOutput => "No output folder"
  | .badPattern => "Invalid pattern: '**' can only be an entire path component"
  | .theme e => e.message
  | .misfit e => e.message.toList
  | .document e => e.message
  | .file e | .copy (.file e) => e.message.toList
  | .copy (.sameFile source target inFolder) =>
    sameFileMessage source.named (if inFolder then quoted target.toText else target.named)
  | .assets items => ['['] ++ join ", " items ++ [']']

/-- What a build has done so far. -/
structure Built where
  files : FileTree
  /-- The pages, as seen from the output folder. -/
  pages : List Path := []
  /-- The documents that failed, as seen from the input folder, each with what is said about it. -/
  failures : List (Path × Text) := []
  /-- How many files were copied. -/
  copied : Nat := 0

/-- How a build ends. -/
inductive Outcome where
  | noInput (input : Path)
  | noTheme (fault : Theme.Fault) (available : List Text)
  | built (result : Built)

namespace Outcome

/-- The lines about what went wrong. -/
def complaints : Outcome → List Text
  | .noInput input => ["Error: Input directory not found: ".toList ++ input.toText]
  | .noTheme fault available =>
    ("Error: ".toList ++ fault.message) ::
      if available.isEmpty then [] else ["Available themes: ".toList ++ join ", " available]
  | .built done =>
    done.failures.map (fun (p, line) => "Error compiling ".toList ++ p.toText ++ ": ".toList ++ line)
      ++ if done.failures.isEmpty then []
        else
          ("Error: ".toList ++ s!"{done.failures.length}".toList ++ " document(s) failed:".toList) ::
            done.failures.map fun (p, line) => "  ".toList ++ p.toText ++ ": ".toList ++ line

/-- The files at the end; a build that never began leaves them as they were. -/
def files (o : Outcome) (before : FileTree) : FileTree :=
  match o with
  | .built done => done.files
  | _ => before

/-- A build ends well if nothing went wrong. -/
def isGood (o : Outcome) : Bool := o.complaints.isEmpty

end Outcome
end Lectern.Site
