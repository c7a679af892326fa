import Lectern.Files.Tree

/-!
# Copying files and folders

A file copied to a place where a folder stands goes into that folder under its own name; a folder
copied to a folder joins what is there.  A folder is copied to its end even if some of its files
cannot be, and what went wrong is gathered.

* `FileTree.copyFile`     one file;
* `FileTree.copyFolder`   a folder with everything below it.
-/

namespace Lectern
open Text

/-- Why a file cannot be copied. -/
inductive CopyFault where
  | file (e : FileError)
  /-- The file would be copied onto itself; `target` is its own place or one in the folder that was
  named. -/
  | sameFile (source target : Path) (inFolder : Bool)
  deriving DecidableEq

/-- How a path is named where it is told from a plain text. -/
def Path.named (p : Path) : Text := "PosixPath(".toList ++ quoted p.toText ++ [')']

/-- What is said of a file that would be copied onto itself, after the names of the two places. -/
def sameFileMessage (source target : Text) : Text :=
  source ++ " and ".toList ++ target ++ " are the same file".toList

namespace FileTree

/-- The target of a copy: a place in the folder that stands there, or the path itself. -/
def copyTarget (t : FileTree) (here : List Text) (source target : Path) : Path :=
  if t.isFolder here target then target.child source.name else target

/-- Both paths lead to one place. -/
def isSame (t : FileTree) (here : List Text) (p q : Path) : Bool :=
  match t.locate here p, t.locate here q with
  | .ok a, .ok b => a = b
  | _, _ => false

/-- The tree with a copy of one file. -/
def copyFile (t : FileTree) (here : List Text) (source target : Path) :
    Except CopyFault FileTree :=
  let place := t.copyTarget here source target
  if t.isSame here source place then
    .error (.sameFile source place (t.isFolder here target))
  else
    match t.readBytes here source with
    | .error e => .error (.file e)
    | .ok content => (t.write here place content).mapError .file

/-- What a copy of a folder says of one entry that could not be copied: the two places and the
reason. -/
def failureItem (source target : Path) (e : FileError) : Text :=
  ['('] ++ join ", " [quoted source.toText, quoted target.toText, quoted e.message.toList] ++ [')']

/-- The same for a file that would be copied onto itself, which is given letter by letter. -/
def sameItems (source target : Path) : List Text :=
  (sameFileMessage ("<DirEntry ".toList ++ quoted source.name ++ ['>'])
    (quoted target.toText)).map fun c => quoted [c]

/-- The tree with a copy of everything in a folder, and what could not be copied.  The first
argument bounds the depth. -/
def copyFolderAux (here : List Text) :
    Nat → FileTree → Path → Path → Except FileError (FileTree × List Text)
  | 0, t, _, _ => .ok (t, [])
  | depth + 1, t, source, target =>
    match t.list here source with
    | .error e => .error e
    | .ok entries =>
      match t.makeFolders here target with
      | .error e => .error e
      | .ok t =>
        .ok ((entries.mergeSort fun a b => Text.le a.1 b.1).foldl (fun (t, items) entry =>
          let old := source.child entry.1
          let new := target.child entry.1
          match entry.2 with
          | .folder =>
            match copyFolderAux here depth t old new with
            | .ok (t, more) => (t, items ++ more)
            | .error e => (t, items ++ [failureItem old new e])
          | .file _ =>
            match t.copyFile here old new with
            | .ok t => (t, items)
            | .error (.file e) => (t, items ++ [failureItem old new e])
            | .error (.sameFile source place _) => (t, items ++ sameItems source place))
          (t, []))

/-- The tree with a copy of everything in a folder, and what could not be copied.  No folder lies
deeper than the tree has nodes. -/
def copyFolder (t : FileTree) (here : List Text) (source target : Path) :
    Except FileError (FileTree × List Text) :=
  copyFolderAux here (t.nodes.length + 1) t source target

end FileTree
end Lectern
