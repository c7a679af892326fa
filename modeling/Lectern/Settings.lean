import Lectern.Decimal.Written

/-!
# Settings

What a site may decide for itself: the names of folders and endings, the classes given to code and
embedded snippets, and the numbers the reader works with.  `Settings.ofEnvironment` reads them from
variables, whose names are matched without regard to case.
-/

namespace Lectern
open Text

structure Settings where
  imageDir : Text := "img"
  videoDir : Text := "vid"
  errorDir : Text := "error"
  sourceSuffix : Text := ".md"
  snippetSuffix : Text := ".mds"
  outputSuffix : Text := ".html"
  defaultTheme : Text := "default"
  themesDir : Option Text := none
  highlightCode : Bool := false
  terminalClass : Text := "terminal nohighlight"
  embedTheme : Text := "dark"
  embedDefaultTab : Text := "result"
  syncEpsilon : Float := 1e-6
  slideWidth : Float := 704
  slideHeight : Float := 396
  exportFilename : Text := "edit.json"

namespace Settings

/-- A value that a variable cannot stand for. -/
inductive Fault where
  | notBoolean (field : String)
  | notNumber (field : String)

def Fault.text : Fault → Text
  | .notBoolean f => f.toList ++ ": bool_parsing".toList
  | .notNumber f => f.toList ++ ": float_parsing".toList

/-- The faults in one line, in the order of their texts. -/
def faultsMessage (fs : List Fault) : Text :=
  Text.join "; ".toList ((fs.map Fault.text).mergeSort Text.le)

def readBoolean? (t : Text) : Option Bool :=
  let word := String.ofList (t.map Char.toLower)
  if ["1", "on", "t", "true", "y", "yes"].contains word then some true
  else if ["0", "off", "f", "false", "n", "no"].contains word then some false
  else none

/-- A number in ASCII digits.  Single underscores inside the text are passed over if it is no number
with them. -/
def readNumber? (t : Text) : Option Float :=
  let isPlain (t : Text) : Bool := t.all fun c => c.toNat < 0x80 && c ≠ '_' && !isBlank c
  let number? (t : Text) : Option Float :=
    if isPlain t then (Decimal.read? t).map Decimal.Reading.toFloat else none
  match number? (Decimal.withoutMargins t) with
  | some x => some x
  | none =>
    if t.head? = some '_' ∨ t.getLast? = some '_' ∨ occurs ['_', '_'] t then none
    else number? (t.filter (· ≠ '_'))

/-- The settings with one field set from text; an unknown field changes nothing. -/
def setField (s : Settings) (field : String) (value : Text) : Except Fault Settings :=
  let flag (f : Bool → Settings) : Except Fault Settings :=
    match readBoolean? value with
    | some b => .ok (f b)
    | none => .error (.notBoolean field)
  let number (f : Float → Settings) : Except Fault Settings :=
    match readNumber? value with
    | some x => .ok (f x)
    | none => .error (.notNumber field)
  match field with
  | "image_dir" => .ok { s with imageDir := value }
  | "video_dir" => .ok { s with videoDir := value }
  | "error_dir" => .ok { s with errorDir := value }
  | "source_suffix" => .ok { s with sourceSuffix := value }
  | "snippet_suffix" => .ok { s with snippetSuffix := value }
  | "output_suffix" => .ok { s with outputSuffix := value }
  | "default_theme" => .ok { s with defaultTheme := value }
  | "themes_dir" => .ok { s with themesDir := some value }
  | "highlight_code" => flag fun b => { s with highlightCode := b }
  | "terminal_class" => .ok { s with terminalClass := value }
  | "embed_theme" => .ok { s with embedTheme := value }
  | "embed_default_tab" => .ok { s with embedDefaultTab := value }
  | "sync_epsilon" => number fun x => { s with syncEpsilon := x }
  | "slide_width" => number fun x => { s with slideWidth := x }
  | "slide_height" => number fun x => { s with slideHeight := x }
  | "export_filename" => .ok { s with exportFilename := value }
  | _ => .ok s

/-- The names of the fields. -/
def fieldNames : List String :=
  ["image_dir", "video_dir", "error_dir", "source_suffix", "snippet_suffix", "output_suffix",
    "default_theme", "themes_dir", "highlight_code", "terminal_class", "embed_theme",
    "embed_default_tab", "sync_epsilon", "slide_width", "slide_height", "export_filename"]

/-- What the names of the variables begin with. -/
def variablePrefix : Text := "orfalius_"

/-- The default settings with the variables that name a setting put over them, or every fault
found. -/
def ofEnvironment (env : List (Text × Text)) : Except (List Fault) Settings :=
  let (s, faults) := env.foldl (fun (s, faults) (name, value) =>
    match stripPrefix? variablePrefix (name.map Char.toLower) with
    | none => (s, faults)
    | some field =>
      match setField s (String.ofList field) value with
      | .ok s => (s, faults)
      | .error f => (s, faults ++ [f])) (({} : Settings), ([] : List Fault))
  if faults.isEmpty then .ok s else .error faults

end Settings
end Lectern
