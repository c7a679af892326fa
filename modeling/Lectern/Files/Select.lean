import Lectern.Files.Glob
import Lectern.Files.Tree

/-!
# Choosing files by a pattern

A pattern for paths is a list of steps: any number of folders, a folder or file of a given name, or
one whose name fits a pattern for names.  A last step may ask for a folder.  A step that is followed
by others leads to folders only.

* `Glob.Step.ofText?`   a step from its written form;
* `Glob.steps?`         the steps of a written pattern that is looked for in every folder;
* `FileTree.select`     the places below a folder to which steps lead.
-/

namespace Lectern
open Text

namespace Glob

inductive Step where
  /-- The folder itself and every folder below it. -/
  | anywhere
  | called (name : Text)
  | fitting (pattern : List Piece)
  /-- What has been reached is a folder. -/
  | folder
  deriving DecidableEq

/-- The step of one part of a written pattern.  Two stars stand for folders at any depth, and nothing
may stand beside them. -/
def Step.ofText? (t : Text) : Option Step :=
  if t = ['*', '*'] then some .anywhere
  else if occurs ['*', '*'] t then none
  else if t.any "*?[".toList.contains then some (.fitting (ofText t))
  else some (.called t)

/-- The steps of a pattern that may begin in any folder. -/
def steps? (t : Text) : Option (List Step) := do
  let steps ← (Path.ofText t).parts.mapM Step.ofText?
  return .anywhere :: steps ++ if endsWith ['/'] t then [.folder] else []

end Glob

namespace FileTree
open Glob

/-- The folders at and below `place`, which is seen from the folder `base`. -/
def foldersFrom (t : FileTree) (here : List Text) (base : Path) (place : List Text) :
    List (List Text) :=
  match t.locate here (base.join ⟨[], place⟩) with
  | .error _ => []
  | .ok there => place :: (t.below there).filterMap fun e =>
    if e.2.isFile then none else some (place ++ e.1)

/-- The places to which steps lead from `place`; places are seen from the folder `base`. -/
def selectFrom (t : FileTree) (here : List Text) (base : Path) :
    List Step → List Text → Except FileError (List (List Text))
  | [], place | .folder :: _, place => .ok [place]
  | .anywhere :: steps, place =>
    return (← (t.foldersFrom here base place).mapM (selectFrom t here base steps)).flatten
  | .called name :: steps, place => do
    let next := base.join ⟨[], place ++ [name]⟩
    let found ← if steps.isEmpty then t.hasAny here next else t.hasFolder here next
    if found then selectFrom t here base steps (place ++ [name]) else .ok []
  | .fitting pattern :: steps, place => do
    let entries := (t.list here (base.join ⟨[], place⟩)).toOption.getD []
    let fit := entries.filter fun e => (steps.isEmpty || !e.2.isFile) && accepts pattern e.1
    return (← fit.mapM fun e => selectFrom t here base steps (place ++ [e.1])).flatten

/-- The places below a folder to which steps lead, in the order of their parts. -/
def select (t : FileTree) (here : List Text) (base : Path) (steps : List Step) :
    Except FileError (List (List Text)) :=
  if t.isFolder here base then
    return ((← t.selectFrom here base steps []).mergeSort Path.partsLe).eraseDups
  else .ok []

end FileTree
end Lectern
