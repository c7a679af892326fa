import Lectern.Command.Request
import Lectern.Site.Build

/-!
# The answer to a command

* `Options.order`   what is to be built, the settings standing in for what a command leaves out;
* `perform`         the exit code, the lines and the files that a request ends with.
-/

namespace Lectern.Command
open Text

def usage : List String :=
  ["usage: orfalius [-h] [--theme THEME] [--themesDir THEMESDIR] [-v] [-V]",
    "                inputdir outputdir"]

def help : List String :=
  usage ++ ["",
    "orfalius - Annotated markdown to course pages and synchronized slides", "",
    "positional arguments:",
    "  inputdir              Directory containing the documents",
    "  outputdir             Directory where the site will be written", "",
    "options:",
    "  -h, --help            show this help message and exit",
    "  --theme THEME         Theme used to render the pages (default: default)",
    "  --themesDir THEMESDIR",
    "                        Directory containing theme folders. Defaults to the",
    "                        packaged themes/ dir (default: None)",
    "  -v, --verbosity       Increase output verbosity (can be repeated: -v, -vv)",
    "                        (default: 1)",
    "  -V, --version         show program's version number and exit"]

def version : String := "orfalius 1.0.0"

/-- What a command ends with. -/
structure Reply where
  exitCode : Nat
  printed : List Text := []
  complaints : List Text := []
  files : FileTree

/-- The order that the options of a command stand for; `packaged` is the folder of the packaged
themes. -/
def Options.order (o : Options) (settings : Settings) (packaged : Path) : Site.Order where
  settings
  input := o.input
  output? := o.output?
  theme := if o.theme.isEmpty then settings.defaultTheme else o.theme
  themes :=
    match o.themes?, settings.themesDir with
    | some (c :: t), _ => Path.ofText (c :: t)
    | _, some (c :: t) => Path.ofText (c :: t)
    | _, _ => packaged

/-- Does what is asked for. -/
def perform (settings : Settings) (packaged : Path) (files : FileTree) (here : List Text)
    (request : Except Fault Request) : Logged Site.Fault Reply := do
  match request with
  | .error e =>
    return { exitCode := 2, files
             complaints := usage.map String.toList ++ ["orfalius: error: ".toList ++ e.message] }
  | .ok .help => return { exitCode := 0, printed := help.map String.toList, files }
  | .ok .version => return { exitCode := 0, printed := [version.toList], files }
  | .ok (.build o) => do
    let outcome ← Site.build (o.order settings packaged) files here
    return { exitCode := if outcome.isGood then 0 else 1, complaints := outcome.complaints
             files := outcome.files files }

end Lectern.Command
