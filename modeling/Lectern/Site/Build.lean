import Lectern.Files.Select
import Lectern.Site.Basic

/-!
# Building a site

A site is built from a folder of notes: every document becomes a page at the same relative place,
every other file that is not a snippet is copied, and the theme's asset folders and the style sheet
for code are put beside them.  A document that cannot be compiled is reported, and the others are
compiled all the same.

* `sources`        the documents of a folder;
* `compileAll`     their pages written;
* `copyStatics`, `copyAssets`, `writeSheet`   what stands beside the pages;
* `build`          all of it, from the question whether the folder is there to the last report.

Every step looks at the files as the steps before it left them, so a site that is built into the
folder of its notes finds its own pages there.
-/

namespace Lectern.Site
open Text

/-- The result of a step, or the reason to stop. -/
def orStop {ε α : Type} (f : ε → Fault) (r : Except ε α) : Logged Fault α :=
  match r with
  | .ok a => pure a
  | .error e => throw (f e)

/-- The files below a folder as seen from it, in the order of their parts. -/
def filesBelow (files : FileTree) (here : List Text) (folder : Path) : List Path :=
  match files.locate here folder with
  | .error _ => []
  | .ok place => (files.below place).filterMap fun e =>
    if e.2.isFile then some ⟨[], e.1⟩ else none

/-- The documents of a folder: the files whose names end as those of documents do.  The ending may
hold signs of a pattern. -/
def sources (settings : Settings) (files : FileTree) (here : List Text) (folder : Path) :
    Except Fault (List Path) := do
  let some steps := Glob.steps? ('*' :: settings.sourceSuffix) | throw .badPattern
  let places ← (files.select here folder steps).mapError .file
  return (places.map (⟨[], ·⟩)).filter fun p => files.isFile here (folder.join p)

/-- The tree with the content of a file set, its folder being made where it is missing. -/
def put (files : FileTree) (here : List Text) (p : Path) (t : Text) : Except FileError FileTree := do
  let files ← files.makeFolders here p.parent
  files.write here p (encode t)

/-- Compiles one document and writes its page. -/
def compileOne (c : Compiler) (input output : Path) (done : Built) (source : Path) :
    Logged Fault Built := do
  Logged.note 2 ("Compiling ".toList ++ source.toText)
  match ← Logged.attempt ({ c with files := done.files }.compileFile (input.join source) input) with
  | .error e =>
    match e.label? with
    | some label =>
      let line := label.toList ++ ": ".toList ++ e.message
      return { done with failures := done.failures ++ [(source, line)] }
    | none => throw (.document e)
  | .ok d => do
    let page := output.join d.path
    let files ← orStop .file (put done.files c.here page d.html)
    Logged.note 3 ("Wrote ".toList ++ page.toText)
    return { done with files, pages := done.pages ++ [d.path] }

/-- Compiles documents one after the other. -/
def compileAll (c : Compiler) (input output : Path) (sources : List Path) : Logged Fault Built :=
  sources.foldlM (compileOne c input output) { files := c.files }

/-- A file that is copied as it is: no document and no snippet. -/
def isStatic (settings : Settings) (p : Path) : Bool :=
  p.suffix ≠ settings.sourceSuffix && p.suffix ≠ settings.snippetSuffix

/-- Copies one file to the same relative place of the site. -/
def copyStatic (here : List Text) (input output : Path) (done : Built) (p : Path) :
    Logged Fault Built := do
  let target := output.join p
  let files ← orStop .file (done.files.makeFolders here target.parent)
  let files ← orStop .copy (files.copyFile here (input.join p) target)
  return { done with files, copied := done.copied + 1 }

/-- Copies every file of the input folder that is neither a document nor a snippet. -/
def copyStatics (settings : Settings) (here : List Text) (input output : Path) (done : Built) :
    Logged Fault Built := do
  let statics := (filesBelow done.files here input).filter (isStatic settings)
  let done ← statics.foldlM (copyStatic here input output) done
  Logged.note 2 ("Copied ".toList ++ s!"{done.copied}".toList ++ " static file(s)".toList)
  return done

/-- Copies one asset folder of the theme. -/
def copyAsset (here : List Text) (output : Path) (done : Built) (folder : Path) :
    Logged Fault Built := do
  let (files, failed) ← orStop .file (done.files.copyFolder here folder (output.child folder.name))
  if !failed.isEmpty then throw (.assets failed)
  Logged.note 3 ("Copied theme ".toList ++ folder.name ++ "/ to output".toList)
  return { done with files }

/-- Copies the asset folders of the theme. -/
def copyAssets (theme : Theme) (here : List Text) (output : Path) (done : Built) :
    Logged Fault Built := do
  let folders ← orStop .misfit (theme.assets done.files here)
  folders.foldlM (copyAsset here output) done

def styleFault : Theme.StyleFault → Fault
  | .unknown name => .theme (.unknownStyle name)
  | .misfit m => .misfit m

/-- Writes the style sheet for code. -/
def writeSheet (theme : Theme) (here : List Text) (output : Path) (done : Built) :
    Logged Fault Built := do
  let place := output.join ⟨[], ["css".toList, "pygments.css".toList]⟩
  let files ← orStop .file (done.files.makeFolders here place.parent)
  let sheet ← orStop styleFault theme.sheet
  let files ← orStop .file (files.write here place (encode sheet))
  return { done with files }

/-- Says how much was done. -/
def report (output : Path) (done : Built) : Logged Fault Unit := do
  Logged.note 1 ("Pages: ".toList ++ s!"{done.pages.length}".toList)
  Logged.note 1 ("Static files: ".toList ++ s!"{done.copied}".toList)
  if done.failures.isEmpty then
    Logged.note 1 ("✓ Site written to ".toList ++ output.toText)

/-- Builds the site with a theme that is loaded. -/
def buildWith (order : Order) (theme : Theme) (files : FileTree) (here : List Text) :
    Logged Fault Built := do
  Logged.note 2 ("Theme: ".toList ++ theme.shown)
  match order.output? with
  | none => throw .noOutput
  | some output => do
    let files ← orStop .file (files.makeFolders here output)
    Logged.note 2 ("Output directory: ".toList ++ output.toText)
    let sources ← orStop id (sources order.settings files here order.input)
    Logged.note 1 ("Found ".toList ++ s!"{sources.length}".toList ++ " document(s)".toList)
    let labels ← orStop .misfit theme.labels
    let compiler : Compiler := {
      settings := order.settings, colours := order.settings.highlightCode, theme, labels, files
      here }
    let done ← compileAll compiler order.input output sources
    let done ← copyStatics order.settings here order.input output done
    let done ← copyAssets theme here output done
    let done ← writeSheet theme here output done
    report output done
    return done

/-- Builds a site. -/
def build (order : Order) (files : FileTree) (here : List Text) : Logged Fault Outcome := do
  Logged.note 2 "Checking environment..."
  if !(← orStop .file (files.hasFolder here order.input)) then return .noInput order.input
  match Theme.load files here order.themes order.theme with
  | .error e =>
    if e.isOfTheme then
      return .noTheme e (← orStop .file (themeNames files here order.themes))
    else throw (.theme e)
  | .ok theme => return .built (← buildWith order theme files here)

end Lectern.Site
