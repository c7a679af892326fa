import Lectern.Files.Tree
import Lectern.Highlight.Markup
import Lectern.Theme.Template.Render
import Lectern.Yaml.Meaning

/-!
# Themes

A theme is a folder with a configuration, a page template and folders of assets.  The configuration
may give titles to directive blocks, name a style for code and list the asset folders; all of it may
be missing.

* `Theme.load`       the theme of a folder;
* `Theme.labels`, `Theme.style`, `Theme.assets`   what its configuration says;
* `Theme.render`     a page;
* `Theme.sheet`      its style sheet for code;
* `themeNames`       the themes that a folder holds.
-/

namespace Lectern
open Text

structure Theme where
  name : Text
  folder : Path
  config : Yaml.Value
  template : Theme.Template

namespace Theme

/-- Why a theme cannot be loaded or used. -/
inductive Fault where
  | noFolder (name : Text) (folder : Path)
  | noConfig (name : Text)
  | badConfig
  /-- A scalar of the configuration has no value. -/
  | badScalar (e : Yaml.Fault)
  | unreadableConfig (e : FileError)
  | notAMapping
  | noTemplate (name : Text)
  | badTemplate
  /-- A number of the template has too many digits. -/
  | badNumber (e : TooManyDigits)
  | unknownStyle (name : Text)
  /-- A file of the theme is no text. -/
  | encoding (e : DecodeError)
  /-- Whether a file is there cannot be asked. -/
  | file (e : FileError)

/-- What is said about a theme. -/
def Fault.message : Fault → Text
  | .noFolder name folder =>
    "Theme '".toList ++ name ++ "' not found. Expected directory: ".toList ++ folder.toText
  | .noConfig name => "Theme '".toList ++ name ++ "' missing theme.yaml".toList
  | .badConfig => "Failed to parse theme.yaml"
  | .badScalar e => e.message.toList
  | .unreadableConfig e => "Failed to load theme.yaml: ".toList ++ e.message.toList
  | .notAMapping => "theme.yaml must hold a mapping"
  | .noTemplate name => "Theme '".toList ++ name ++ "' missing template.html".toList
  | .badTemplate => "Failed to compile template.html"
  | .badNumber e => e.message.toList
  | .unknownStyle name => "Unknown Pygments style: ".toList ++ name
  | .encoding e => e.message.toList
  | .file e => e.message.toList

/-- The fault shows that the theme is none, so another theme may be chosen; the other faults are those
of the files and numbers that a theme is made of. -/
def Fault.isOfTheme : Fault → Bool
  | .badScalar _ | .badNumber _ | .encoding _ | .file _ => false
  | _ => true

/-- Configuration of another kind than is asked for. -/
inductive Misfit where
  /-- A value that lacks what a value of the right kind has. -/
  | noAttribute (kind name : String)
  /-- Assets, or a style, that cannot be gone through. -/
  | notIterable (kind : String)
  /-- The name of an asset folder that is no text. -/
  | assetName (kind : String)
  /-- Whether an asset folder is there cannot be asked. -/
  | file (e : FileError)
  /-- A number that is too long to be written. -/
  | tooLong
  /-- A rule of a style that is no pair. -/
  | notUnpackable (kind : String)
  | rule (count : Nat)
  /-- The first part of a rule of a style, which is an empty text, or nothing with parts, or no
  key. -/
  | emptyPart
  | noParts (kind : String)
  | noKey (kind : String)

def Misfit.message : Misfit → String
  | .noAttribute kind name => "'" ++ kind ++ "' object has no attribute '" ++ name ++ "'"
  | .notIterable kind => "'" ++ kind ++ "' object is not iterable"
  | .assetName kind => "unsupported operand type(s) for /: 'PosixPath' and '" ++ kind ++ "'"
  | .file e => e.message
  | .tooLong => "Exceeds the limit (4300 digits) for integer string conversion; "
    ++ "use sys.set_int_max_str_digits() to increase the limit"
  | .notUnpackable kind => "cannot unpack non-iterable " ++ kind ++ " object"
  | .rule count =>
    if count < 2 then s!"not enough values to unpack (expected 2, got {count})"
    else "too many values to unpack (expected 2)"
  | .emptyPart => "string index out of range"
  | .noParts kind => "'" ++ kind ++ "' object is not subscriptable"
  | .noKey kind => "unhashable type: '" ++ kind ++ "'"

/-- The word for a misfit in reports. -/
def Misfit.label : Misfit → String
  | .noAttribute _ _ => "AttributeError"
  | .file e => e.fault.label
  | .tooLong | .rule _ => "ValueError"
  | .emptyPart => "IndexError"
  | .notIterable _ | .assetName _ | .notUnpackable _ | .noParts _ | .noKey _ => "TypeError"

/-- The configuration in a file, which is read piece by piece: a character that the end cuts off is
counted from its own start. -/
def loadConfig (files : FileTree) (here : List Text) (place : Path) : Except Fault Yaml.Value :=
  match files.readText here place with
  | .error (.file e) => .error (.unreadableConfig e)
  | .error (.encoding e) =>
    .error (.encoding (if e.reason = .unexpectedEnd then { e with position := 0 } else e))
  | .ok t =>
    match Yaml.parse t with
    | .error .malformed => .error .badConfig
    | .error e => .error (.badScalar e)
    | .ok .null => .ok (.map [])
    | .ok (.map es) => .ok (.map es)
    | .ok _ => .error .notAMapping

/-- The page template in a file; it writes values with their markup escaped. -/
def loadTemplate (files : FileTree) (here : List Text) (place : Path) : Except Fault Template :=
  match files.readText here place with
  | .error (.file _) => .error .badTemplate
  | .error (.encoding e) => .error (.encoding e)
  | .ok t =>
    match Template.parse t with
    | .error (.digits e) => .error (.badNumber e)
    | .error _ => .error .badTemplate
    | .ok content => .ok { content, escapes := true }

/-- The theme called `name` in a folder of themes. -/
def load (files : FileTree) (here : List Text) (themes : Path) (name : Text) :
    Except Fault Theme := do
  let folder := themes.child name
  let config := folder.child "theme.yaml"
  let template := folder.child "template.html"
  let ask (answer : Except FileError Bool) : Except Fault Bool := answer.mapError .file
  if !(← ask (files.hasFolder here folder)) then throw (.noFolder name folder)
  if !(← ask (files.hasAny here config)) then throw (.noConfig name)
  let value ← loadConfig files here config
  if !(← ask (files.hasAny here template)) then throw (.noTemplate name)
  return ⟨name, folder, value, ← loadTemplate files here template⟩

/-- What the configuration says at a path of keys joined by dots. -/
def get? (t : Theme) (key : Text) : Option Yaml.Value := t.config.follow? (splitOn ['.'] key)

/-- The pairs with one put in place of the pair of its name, or behind all. -/
def putLabel (name title : Text) : List (Text × Text) → List (Text × Text)
  | [] => [(name, title)]
  | (n, v) :: rest =>
    if n = name then (n, title) :: rest else (n, v) :: putLabel name title rest

/-- The titles that the theme gives to directive blocks. -/
def labels (t : Theme) : Except Misfit (List (Text × Text)) :=
  match (t.get? "labels").getD (.map []) with
  | .map es =>
    if es.all fun e => e.1.isWritable && e.2.isWritable then
      .ok (es.foldl (fun ls e => putLabel e.1.shown e.2.shown ls) [])
    else .error .tooLong
  | v => if v.isFilled then .error (.noAttribute v.kindName "items") else .ok []

/-- The style for code. -/
def style (t : Theme) : Yaml.Value := (t.get? "code.pygments_style").getD (.text "default")

/-- The style as it is shown. -/
def shownStyle (t : Theme) : Except Misfit Text :=
  if t.style.isWritable then .ok t.style.shown else .error .tooLong

def styleNames : List String :=
  ["abap", "algol", "algol_nu", "arduino", "autumn", "borland", "bw", "coffee", "colorful",
    "default", "dracula", "emacs", "friendly", "friendly_grayscale", "fruity", "github-dark",
    "gruvbox-dark", "gruvbox-light", "igor", "inkpot", "lightbulb", "lilypond", "lovelace", "manni",
    "material", "monokai", "murphy", "native", "night-owl", "nord", "nord-darker", "one-dark", "paraiso-dark",
    "paraiso-light", "pastie", "perldoc", "rainbow_dash", "rrt", "sas", "solarized-dark",
    "solarized-light", "staroffice", "stata-dark", "stata-light", "tango", "trac", "vim",
    "vs", "xcode", "zenburn"]

/-- Why there is no style sheet for code. -/
inductive StyleFault where
  | unknown (name : Text)
  | misfit (m : Misfit)

/-- What is wrong with a style that is no name but rules, of which the first one is looked at. -/
def styleMisfit (v : Yaml.Value) : Misfit :=
  match v.items? with
  | none => .notIterable v.kindName
  | some [] => .noAttribute v.kindName "line_number_color"
  | some (rule :: _) =>
    match rule.items? with
    | none => .notUnpackable rule.kindName
    | some [part, _] =>
      match part with
      | .text [] => .emptyPart
      | .text _ => .noAttribute "str" "parent"
      | .list _ | .map _ | .set _ | .again _ => .noKey part.kindName
      | _ => .noParts part.kindName
    | some parts => .rule parts.length

/-- The name of the style, if there is one of that name. -/
def knownStyle (t : Theme) : Except StyleFault Text :=
  match t.style with
  | .text name =>
    if styleNames.any (·.toList = name) then .ok name else .error (.unknown name)
  | v => .error (.misfit (styleMisfit v))

/-- The names of the asset folders in the configuration. -/
def assetNames (t : Theme) : Except Misfit (List Yaml.Value) :=
  let v := (t.get? "assets").getD (.list [.text "css", .text "js", .text "fonts", .text "icons"])
  match v.items? with
  | some names => .ok names
  | none => if v.isFilled then .error (.notIterable v.kindName) else .ok []

/-- The asset folder of a name, if it is there. -/
def asset? (t : Theme) (files : FileTree) (here : List Text) (name : Yaml.Value) :
    Except Misfit (Option Path) :=
  match name with
  | .text n =>
    let folder := t.folder.child n
    ((files.hasFolder here folder).mapError .file).map fun there =>
      if there then some folder else none
  | v => .error (.assetName v.kindName)

/-- The asset folders that are there. -/
def assets (t : Theme) (files : FileTree) (here : List Text) : Except Misfit (List Path) := do
  (← t.assetNames).filterMapM (t.asset? files here)

/-- A template of the theme's folder.  A name that leads out of the folder is the name of no
template.  The markup of values is escaped in the templates that are pages themselves. -/
def pageAt (t : Theme) (files : FileTree) (here : List Text) (name : Text) :
    Except RenderFault Template :=
  let steps := (splitOn ['/'] name).filter fun s => !s.isEmpty && s ≠ ['.']
  if steps.contains ['.', '.'] then .error (.notFound name) else
  let place := steps.foldl Path.child t.folder
  if !files.isFile here place then
    .error (.notFound (quoted name ++ " not found in search path: ".toList ++ quoted t.folder.toText))
  else
    match files.readText here place with
    | .error (.file e) => .error (.notFound e.message.toList)
    | .error (.encoding e) => .error (.encoding e)
    | .ok source =>
      match Template.parse source with
      | .error e => .error (.unreadable e)
      | .ok content => .ok { content, escapes := ".html".toList.isSuffixOf (lower name) }

/-- A page: the title, the way back to the root of the site, and the contents put into the
template. -/
def render (t : Theme) (files : FileTree) (here : List Text) (title wayBack contents : Text) :
    Except RenderFault Text :=
  t.template.render (t.pageAt files here)
    [("title", title), ("prefix", wayBack), ("contents", contents)]

/-- The theme as a line of text. -/
def shown (t : Theme) : Text :=
  "Theme(name='".toList ++ t.name ++ "', path='".toList ++ t.folder.toText ++ "')".toList

/-! ## the style sheet for code

One rule for each role of a piece of code, headed by the name of the style that the theme asks for.
The rules set weight and slant alone, so that they suit light and dark pages alike. -/

/-- How the pieces of a role look; plain pieces have no rule. -/
def looks : List (Highlight.Role × String) :=
  [(.comment, "font-style: italic"), (.marker, "font-weight: bold"), (.title, "font-style: italic"),
    (.lineEnd, "font-weight: normal"), (.heading, "font-weight: bold"), (.sigil, "font-weight: bold"),
    (.inclusion, "font-style: italic"), (.key, "font-weight: bold"), (.formula, "font-style: italic"),
    (.argument, "font-style: italic")]

/-- The rule of one role. -/
def rule (role : Highlight.Role) (declaration : String) : Text :=
  "code .".toList ++ role.className ++ " \x7b ".toList ++ declaration.toList ++ " \x7d\n".toList

/-- The style sheet for code, if there is a style of the name that the theme gives. -/
def sheet (t : Theme) : Except StyleFault Text :=
  t.knownStyle.map fun name =>
    "/* Style: ".toList ++ name ++ " */\n".toList ++ looks.flatMap fun (role, look) => rule role look

end Theme

/-- The names of the themes in a folder; none where there is no such folder. -/
def themeNames (files : FileTree) (here : List Text) (themes : Path) :
    Except FileError (List Text) := do
  if !(← files.hasAny here themes) then return []
  let entries ← files.list here themes
  let found ← entries.filterM fun e => do
    return e.2 == .folder && (← files.hasAny here ((themes.child e.1).child "theme.yaml"))
  return (found.map (·.1)).mergeSort Text.le

end Lectern
