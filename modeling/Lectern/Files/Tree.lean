import Lectern.Files.Path
import Lectern.Text.Quoted
import Lectern.Text.Utf8

/-!
# A tree of files

A tree of files is a list of nodes, each at the parts of its absolute path; the root is always a
folder.  What stands at a path is what the list says first.

* `FileTree.node?`      what stands at a path that is free of dots;
* `FileTree.locate`     the place a path leads to, every part on the way being a folder;
* `FileTree.isFolder`, `hasFolder`   whether a folder stands there; to the second question a name that
                        is too long is a fault;
* `FileTree.readBytes`, `readText`, `list`   contents of files and folders;
* `FileTree.write`, `makeFolders`            the tree after a change.

A fault names the path as the caller wrote it.
-/

namespace Lectern
open Text

inductive FileFault where
  | notFound
  | alreadyExists
  | notADirectory
  | isADirectory
  | nameTooLong
  /-- The path holds a zero character, so it is no path at all. -/
  | zeroByte
  deriving DecidableEq

structure FileError where
  fault : FileFault
  path : Text
  deriving DecidableEq

def FileFault.code : FileFault → Nat
  | .notFound => 2
  | .alreadyExists => 17
  | .notADirectory => 20
  | .isADirectory => 21
  | .nameTooLong => 36
  | .zeroByte => 22

def FileFault.reason : FileFault → String
  | .notFound => "No such file or directory"
  | .alreadyExists => "File exists"
  | .notADirectory => "Not a directory"
  | .isADirectory => "Is a directory"
  | .nameTooLong => "File name too long"
  | .zeroByte => "embedded null byte"

/-- The word for a fault in reports. -/
def FileFault.label : FileFault → String
  | .notFound => "FileNotFoundError"
  | .alreadyExists => "FileExistsError"
  | .notADirectory => "NotADirectoryError"
  | .isADirectory => "IsADirectoryError"
  | .nameTooLong => "OSError"
  | .zeroByte => "ValueError"

def FileError.message (e : FileError) : String :=
  if e.fault = .zeroByte then e.fault.reason
  else s!"[Errno {e.fault.code}] {e.fault.reason}: {String.ofList (quoted e.path)}"

inductive FileNode where
  | folder
  | file (content : Bytes)
  deriving DecidableEq

def FileNode.isFile : FileNode → Bool
  | .folder => false
  | .file _ => true

structure FileTree where
  nodes : List (List Text × FileNode)

namespace FileTree

def empty : FileTree := ⟨[]⟩

/-- What stands at an absolute place. -/
def node? (t : FileTree) (place : List Text) : Option FileNode :=
  if place = [] then some .folder else t.nodes.lookup place

def put (t : FileTree) (place : List Text) (n : FileNode) : FileTree :=
  ⟨(place, n) :: t.nodes.filter fun e => e.1 ≠ place⟩

theorem node?_put (t : FileTree) (place : List Text) (n : FileNode) (h : place ≠ []) :
    (t.put place n).node? place = some n := by
  simp [node?, put, h]

/-- Walks on from the place `done`. -/
def locateFrom (t : FileTree) (done : List Text) : List Text → Except FileFault (List Text)
  | [] => .ok done
  | c :: cs =>
    match t.node? done with
    | some (.file _) => .error .notADirectory
    | none => .error .notFound
    | some .folder =>
      if c = ['.', '.'] then locateFrom t done.dropLast cs
      else if (encode c).length > 255 then .error .nameTooLong
      else match t.node? (done ++ [c]) with
        | none => .error .notFound
        | some _ => locateFrom t (done ++ [c]) cs

/-- A walk without two dots leads to where its parts say. -/
theorem locateFrom_of_dots_not_mem {t : FileTree} {cs : List Text} (h : ['.', '.'] ∉ cs) :
    ∀ {done place : List Text}, t.locateFrom done cs = .ok place → place = done ++ cs := by
  induction cs with
  | nil =>
    intro done place hl
    rw [List.append_nil]
    exact (Except.ok.inj hl).symm
  | cons c cs ih =>
    intro done place hl
    have hc : c ≠ ['.', '.'] := fun e => h (e ▸ List.mem_cons_self)
    unfold locateFrom at hl
    split at hl
    · exact nomatch hl
    · exact nomatch hl
    · rw [if_neg hc] at hl
      split at hl
      · exact nomatch hl
      · split at hl
        · exact nomatch hl
        · rw [ih (fun hm => h (List.mem_cons_of_mem c hm)) hl, List.append_assoc]
          rfl

/-- The place where a walk starts. -/
def start (here : List Text) (p : Path) : List Text := if p.isAbsolute then [] else here

/-- The place a path leads to, seen from the folder `here`. -/
def locate (t : FileTree) (here : List Text) (p : Path) : Except FileFault (List Text) :=
  if p.toText.contains (Char.ofNat 0) then .error .zeroByte
  else if (encode p.toText).length ≥ 4096 then .error .nameTooLong
  else locateFrom t (start here p) p.parts

/-- An answer about what stands at a path; a name that is too long gives none. -/
def ask (t : FileTree) (here : List Text) (p : Path) (f : FileNode → Bool) : Except FileError Bool :=
  match t.locate here p with
  | .ok place => .ok ((t.node? place).any f)
  | .error .nameTooLong => .error ⟨.nameTooLong, p.toText⟩
  | .error _ => .ok false

/-- A folder stands at the path. -/
def hasFolder (t : FileTree) (here : List Text) (p : Path) : Except FileError Bool :=
  t.ask here p (· == .folder)

/-- Something stands at the path. -/
def hasAny (t : FileTree) (here : List Text) (p : Path) : Except FileError Bool :=
  t.ask here p fun _ => true

def isFolder (t : FileTree) (here : List Text) (p : Path) : Bool :=
  match t.locate here p with
  | .ok place => t.node? place == some .folder
  | .error _ => false

def isFile (t : FileTree) (here : List Text) (p : Path) : Bool :=
  match t.locate here p with
  | .ok place => (t.node? place).any FileNode.isFile
  | .error _ => false

/-- The content of a file. -/
def readBytes (t : FileTree) (here : List Text) (p : Path) : Except FileError Bytes :=
  match t.locate here p with
  | .error f => .error ⟨f, p.toText⟩
  | .ok place =>
    match t.node? place with
    | some (.file b) => .ok b
    | some .folder => .error ⟨.isADirectory, p.toText⟩
    | none => .error ⟨.notFound, p.toText⟩

/-- Why a file gives no text. -/
inductive ReadError where
  | file (e : FileError)
  | encoding (e : DecodeError)
  deriving DecidableEq

def ReadError.message : ReadError → String
  | .file e => e.message
  | .encoding e => e.message

/-- The word for a fault in reports. -/
def ReadError.label : ReadError → String
  | .file e => e.fault.label
  | .encoding _ => "UnicodeDecodeError"

/-- The content of a file as text, its line ends made one. -/
def readText (t : FileTree) (here : List Text) (p : Path) : Except ReadError Text :=
  match t.readBytes here p with
  | .error e => .error (.file e)
  | .ok b =>
    match decode b with
    | .error e => .error (.encoding e)
    | .ok text => .ok (unifyLineEnds text)

/-- What can be read stands somewhere. -/
theorem node?_of_readBytes {t : FileTree} {here : List Text} {p : Path} {b : Bytes}
    (h : t.readBytes here p = .ok b) :
    ∃ place, t.locate here p = .ok place ∧ t.node? place = some (.file b) := by
  unfold readBytes at h
  split at h
  · exact nomatch h
  · rename_i place hl
    split at h
    · rename_i b' hn
      exact ⟨place, hl, hn.trans (congrArg (some ∘ FileNode.file) (Except.ok.inj h))⟩
    · exact nomatch h
    · exact nomatch h

theorem locate_eq_ok {t : FileTree} {here place : List Text} {p : Path}
    (h : t.locate here p = .ok place) : t.locateFrom (start here p) p.parts = .ok place := by
  unfold locate at h
  split at h
  · exact nomatch h
  · split at h
    · exact nomatch h
    · exact h

/-- A file that is read by its absolute path stands there. -/
theorem node?_of_readBytes_absolute {t : FileTree} {here place : List Text} {b : Bytes}
    (hdots : ['.', '.'] ∉ place) (h : t.readBytes here (Path.absolute place) = .ok b) :
    t.node? place = some (.file b) := by
  obtain ⟨found, hl, hn⟩ := node?_of_readBytes h
  rw [locateFrom_of_dots_not_mem hdots (locate_eq_ok hl)] at hn
  exact hn

theorem mem_nodes_of_node? {t : FileTree} {place : List Text} {n : FileNode}
    (h : t.node? place = some n) : (place = [] ∧ n = .folder) ∨ (place, n) ∈ t.nodes := by
  unfold node? at h
  split at h
  · rename_i h0
    exact .inl ⟨h0, (Option.some.inj h).symm⟩
  · obtain ⟨before, after, hnodes, -⟩ := List.lookup_eq_some_iff.mp h
    exact .inr (hnodes ▸ List.mem_append_right _ List.mem_cons_self)

theorem readBytes_of_readText {t : FileTree} {here : List Text} {p : Path} {text : Text}
    (h : t.readText here p = .ok text) :
    ∃ b s, t.readBytes here p = .ok b ∧ decode b = .ok s ∧ unifyLineEnds s = text := by
  unfold readText at h
  split at h
  · exact nomatch h
  · rename_i b hb
    split at h
    · exact nomatch h
    · rename_i s hs
      exact ⟨b, s, hb, hs, Except.ok.inj h⟩

/-- The names directly below a place, each with its node. -/
def entriesAt (t : FileTree) (place : List Text) : List (Text × FileNode) :=
  t.nodes.filterMap fun e =>
    if e.1.length = place.length + 1 ∧ place <+: e.1 then (e.1.getLast?).map (·, e.2) else none

/-- The names in a folder, each with its node. -/
def list (t : FileTree) (here : List Text) (p : Path) :
    Except FileError (List (Text × FileNode)) :=
  match t.locate here p with
  | .error f => .error ⟨f, p.toText⟩
  | .ok place =>
    match t.node? place with
    | some .folder => .ok (t.entriesAt place)
    | some (.file _) => .error ⟨.notADirectory, p.toText⟩
    | none => .error ⟨.notFound, p.toText⟩

/-- Everything below a place with its parts seen from there, in the order of the parts. -/
def below (t : FileTree) (place : List Text) : List (List Text × FileNode) :=
  (t.nodes.filterMap fun e =>
    if place <+: e.1 ∧ e.1.length > place.length then some (e.1.drop place.length, e.2) else none)
    |>.mergeSort fun a b => Path.partsLe a.1 b.1

/-- The place at which a new node called by the last part of `p` would stand. -/
def newPlace (t : FileTree) (here : List Text) (p : Path) : Except FileFault (List Text) :=
  match p.parts.getLast? with
  | none => .ok (start here p)
  | some last =>
    if last.contains (Char.ofNat 0) then .error .zeroByte
    else match t.locate here p.parent with
    | .error f => .error f
    | .ok place =>
      match t.node? place with
      | some .folder =>
        if last = ['.', '.'] then .ok place.dropLast
        else if (encode last).length > 255 then .error .nameTooLong
        else .ok (place ++ [last])
      | _ => .error .notADirectory

/-- The tree with the content of one file set. -/
def write (t : FileTree) (here : List Text) (p : Path) (content : Bytes) :
    Except FileError FileTree :=
  match t.newPlace here p with
  | .error f => .error ⟨f, p.toText⟩
  | .ok place =>
    match t.node? place with
    | some .folder => .error ⟨.isADirectory, p.toText⟩
    | _ => .ok (t.put place (.file content))

/-- Makes one folder; one that is there already will do. -/
def makeFolder (t : FileTree) (here : List Text) (p : Path) : Except FileError FileTree :=
  match t.newPlace here p with
  | .error f => .error ⟨f, p.toText⟩
  | .ok place =>
    match t.node? place with
    | none => .ok (t.put place .folder)
    | some .folder => .ok t
    | some (.file _) => .error ⟨.alreadyExists, p.toText⟩

/-- Makes a folder and the missing folders on the way to it; `count` is the number of parts that may
be left out from the end. -/
def makeFoldersAux (t : FileTree) (here : List Text) : Nat → Path → Except FileError FileTree
  | 0, p => t.makeFolder here p
  | count + 1, p =>
    match t.makeFolder here p with
    | .ok t' => .ok t'
    | .error e =>
      if e.fault = .notFound then
        match makeFoldersAux t here count p.parent with
        | .error e => .error e
        | .ok t' => t'.makeFolder here p
      else .error e

def makeFolders (t : FileTree) (here : List Text) (p : Path) : Except FileError FileTree :=
  t.makeFoldersAux here p.parts.length p

/-- The tree with a file at an absolute place and every folder on the way to it. -/
def plant (t : FileTree) (place : List Text) (n : FileNode) : FileTree :=
  let folders := (List.range place.length).map (place.take ·)
  (folders.foldl (fun t f => if (t.node? f).isSome then t else t.put f .folder) t).put place n

end FileTree
end Lectern
