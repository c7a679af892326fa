import Lectern.Include
import Lectern.Markdown.Render
import Lectern.Page.Structure
import Lectern.Page.Walk
import Lectern.Theme.Config

/-!
# Documents

A document is compiled from notes to a page: its includes are worked out, its notes rendered, the
tree of the result put into its final form and its shape checked, and the page filled in.

* `wayBackFrom`          the path from a document back to the root of the site;
* `Compiler.compileText`, `Compiler.compileFile`   the page of a text, and of a file.
-/

namespace Lectern
open Text

structure Document where
  /-- The path of the page, seen from the root of the site. -/
  path : Path
  title : Text
  wayBack : Text
  html : Text

namespace Document

inductive Fault where
  | unreadable (e : FileTree.ReadError)
  | page (e : Markdown.PageFault)
  | inclusion (e : Include.Fault)
  | markup (e : Html.Rejection)
  | walk (e : Page.WalkFault)
  | shape (e : Page.StructureFault)
  | render (e : Theme.RenderFault)
  | suffix (e : Path.SuffixError)
  /-- The document does not lie below the folder it is seen from. -/
  | outside (path base : Path)

/-- The path from a document back to the root of the site.  Pages for errors are shown at any depth,
so from them it starts at the root. -/
def wayBackFrom (settings : Settings) (path : Path) : Text :=
  if path.parent.name = settings.errorDir then ['/'] else rep (path.depth - 1) "../"

end Document

def Path.SuffixError.message : Path.SuffixError → Text
  | .invalidSuffix s => "Invalid suffix ".toList ++ quoted s
  | .emptyName p => "PurePosixPath(".toList ++ quoted p.toText ++ ") has an empty name".toList

def Document.Fault.message : Document.Fault → Text
  | .unreadable e => e.message.toList
  | .page e => e.message.toList
  | .inclusion e => e.message
  | .markup e | .walk (.markup e) => e.message
  | .walk (.file e) => e.message.toList
  | .walk (.remainder e) => e.message.toList
  | .shape e => e.message
  | .render e => e.message
  | .suffix e => e.message
  | .outside path base =>
    quoted path.toText ++ " is not in the subpath of ".toList ++ quoted base.toText
      ++ " OR one path is relative and the other is absolute.".toList

/-- The word for a fault by which a document fails alone.  The other faults stop every document; one of
them is a path that is no path. -/
def Document.Fault.label? : Document.Fault → Option String
  | .unreadable (.file ⟨.zeroByte, _⟩) | .walk (.file ⟨.zeroByte, _⟩) => none
  | .unreadable e | .inclusion (.unreadable e) => some e.label
  | .walk (.file e) => some e.fault.label
  | .inclusion (.cycle _) => some "IncludeError"
  | .shape _ => some "StructureError"
  | .render e => if e.isLocal then some e.label else none
  | .page _ | .inclusion .zeroInPath | .markup _ | .walk (.markup _) | .walk (.remainder _)
  | .suffix _ | .outside _ _ =>
    none

/-- What documents are compiled with. -/
structure Compiler where
  settings : Settings
  /-- Code is coloured. -/
  colours : Bool
  theme : Theme
  /-- The titles that the theme gives to directive blocks. -/
  labels : List (Text × Text)
  files : FileTree
  here : List Text

namespace Compiler

/-- The page of a text whose includes have been worked out.  `path` is where the document lies on
the site, and `folder` the folder of its file. -/
def compileText (c : Compiler) (text : Text) (path folder : Path) :
    Logged Document.Fault Document := do
  let wayBack := Document.wayBackFrom c.settings path
  let rendered ← Logged.mapError .page (Markdown.render c.labels text)
  let (body, behind) ←
    match Html.Node.parse ("<body>".toList ++ rendered ++ "</body>".toList) with
    | .error e => throw (.markup e)
    | .ok [] => pure (.element (.of "body" []) [], [])
    | .ok (body :: behind) => pure (body, behind)
  let context : Page.Context := {
    appearance := ⟨c.settings, c.colours, wayBack = ['/']⟩, files := c.files, here := c.here
    folder := folder }
  let body ← Logged.mapError .walk (Page.finish context body behind)
  match Page.heading? body with
  | .error e => throw (.shape e)
  | .ok heading => do
    let title := strip heading.plainText
    Logged.note 2 (path.toText ++ ": '".toList ++ title ++ "' (prefix '".toList ++ wayBack
      ++ "')".toList)
    match c.theme.render c.files c.here title wayBack body.writeInner with
    | .error e => throw (.render e)
    | .ok html =>
      match path.withSuffix c.settings.outputSuffix with
      | .error e => throw (.suffix e)
      | .ok path => return { path, title, wayBack, html }

/-- The page of a file; its path on the site is the one from the folder `base`. -/
def compileFile (c : Compiler) (file base : Path) : Logged Document.Fault Document := do
  match c.files.readText c.here file with
  | .error e => throw (.unreadable e)
  | .ok source => do
    let text ← Logged.mapError .inclusion
      (Include.expand c.files c.here file.parent [file.resolve c.here] source)
    match file.relativeTo? base with
    | none => throw (.outside file base)
    | some path => c.compileText text path file.parent

end Compiler
end Lectern
