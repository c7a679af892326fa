import Lectern.Highlight.Markup
import Lectern.Html.Tree
import Lectern.Image.Source
import Lectern.Settings

/-!
# Code, images and links in their final form

* `Appearance`     what the settings say about them;
* `finishCode`     a code element whose first word names its language;
* `finishPre`      preformatted text: a timing strip, or a block of code;
* `finishImage`    an image with its size directive read and its source rooted;
* `finishLink`     a link that leads away from the site.
-/

namespace Lectern.Page
open Text Html

structure Appearance where
  settings : Settings
  /-- Code is coloured in its language. -/
  colours : Bool
  /-- Relative sources start at the root of the site. -/
  fromRoot : Bool

namespace Appearance

/-- The children that an element gets when its content is read from markup. -/
def reread (tag : Tag) (markup : Text) : Except Rejection (List Node) :=
  Node.parse markup (tag.generation + 1)

/-- The language that the first word of code names, and the rest; no language where a tilde
comes first, and none where nothing or a blank stands before the first blank. -/
def splitLanguage (t : Text) : Option Text × Text :=
  match t with
  | '~' :: rest => (none, rest)
  | t =>
    match t.span fun c => !isBlank c with
    | (language@(_ :: _), _ :: rest) => (some language, rest)
    | _ => (none, t)

/-- Code as the children of its element, coloured if the language is known. -/
def codeChildren (a : Appearance) (tag : Tag) (language code : Text) (plain : List Node) :
    Except Rejection (List Node) :=
  match (if a.colours then Highlight.Language.ofName? language else none) with
  | some l => reread tag (l.markup code)
  | none => .ok plain

def finishCode (a : Appearance) (tag : Tag) (cs : List Node) : Except Rejection Node :=
  match splitLanguage (Node.plainTextAll cs) with
  | (none, code) =>
    .ok (.element (tag.set "class" (join [' '] (words a.settings.terminalClass))) [.text code])
  | (some language, code) => do
    let children ← a.codeChildren tag language code [.text code]
    return .element (tag.set "class" ("language-".toList ++ language)) children

/-- Code in preformatted text: with a class of its own it only gets its colours.  Beside it, its tag
if the language was read from its first word; so also below. -/
def finishBlockCode (a : Appearance) (tag : Tag) (cs : List Node) :
    Except Rejection (Node × Option Tag) :=
  match (Node.element tag cs).classes with
  | [] => do return (← a.finishCode tag cs, some tag)
  | names =>
    match names.findSome? (stripPrefix? "language-" ·) with
    | none => .ok (.element tag cs, none)
    | some language => do
      return (.element tag (← a.codeChildren tag language (Node.plainTextAll cs) cs), none)

/-- The first code element of a preformatted block put into its final form. -/
def finishFirstCode (a : Appearance) (tag : Tag) (cs : List Node) :
    Except Rejection (Node × Option Tag) :=
  match (Node.element tag cs).find? "code" with
  | some (.element codeTag inner) => do
    let (code, named) ← a.finishBlockCode codeTag inner
    return (.element tag
      ((Node.mapFirstAll? (·.name = "code".toList) (fun _ _ => code) cs).getD cs), named)
  | _ => .ok (.element tag cs, none)

def finishPre (a : Appearance) (tag : Tag) (cs : List Node) : Except Rejection (Node × Option Tag) :=
  if (Node.element tag cs).hasClass "times" then
    match Node.elementsAll cs with
    | [] => .ok (.element tag cs, none)
    | inner :: _ => do
      return (.element tag (← reread tag (['\n'] ++ strip inner.writeInner ++ ['\n'])), none)
  else a.finishFirstCode tag cs

/-- The address leads away: a scheme, a colon and two slashes begin it. -/
def isExternal (address : Text) : Bool :=
  (Image.afterScheme? address).any fun rest => startsWith "//" rest

def finishLink (tag : Tag) : Tag :=
  if isExternal (tag.get "href") then
    (tag.set "target" "_blank").set "rel" "noopener noreferrer"
  else tag

def finishImage (a : Appearance) (tag : Tag) : Tag :=
  let (source, style) := Image.resolve a.settings.imageDir a.fromRoot (tag.get "src")
  let tag := tag.set "src" source
  match style with
  | some s => tag.set "style" s
  | none => tag

end Appearance
end Lectern.Page
