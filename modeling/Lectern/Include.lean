import Lectern.Files.Tree
import Lectern.Journal

/-!
# Including notes in notes

`{{ path }}` on one line stands for the content of a file, whose path is seen from the folder of the
file that names it.  Included files may include others; one that would include itself, directly or
through others, is a fault.

* `reference?`   the path named at a place;
* `cut`          a text as what stands before its first reference, and each reference with what
                 stands behind it;
* `expand`       the text with every reference worked out; the files that are being opened get more
                 with every reference inside another, and the tree has only so many.
-/

set_option linter.unusedVariables false

namespace Lectern.Include
open Text

inductive Fault where
  /-- The last file of the chain is one of those before it. -/
  | cycle (chain : List (List Text))
  | unreadable (e : FileTree.ReadError)
  /-- The path holds a zero character. -/
  | zeroInPath

def Fault.message : Fault → Text
  | .cycle chain =>
    "Cyclic include: ".toList
      ++ join " -> " (chain.map fun place => (Path.absolute place).toText)
  | .unreadable e => e.message.toList
  | .zeroInPath => FileFault.zeroByte.reason.toList

/-- The path between two pairs of braces that a text begins with, and what follows them.  The path
has at least one character and stands on one line. -/
def reference? (t : Text) : Option (Text × Text) :=
  match stripPrefix? ['\x7b', '\x7b'] t with
  | some (c :: rest) =>
    if c = '\n' then none
    else
      (indexOf? ['\x7d', '\x7d'] (rest.takeWhile (· ≠ '\n'))).map fun i =>
        (c :: rest.take i, rest.drop (i + 2))
  | _ => none

/-- What stands before the first reference, and each reference with the text up to the next one;
the first argument bounds the length of the text. -/
def cut : Nat → Text → Text × List (Text × Text)
  | 0, t => (t, [])
  | _, [] => ([], [])
  | fuel + 1, c :: t =>
    match reference? (c :: t) with
    | some (path, rest) =>
      let (behind, more) := cut fuel rest
      ([], (path, behind) :: more)
    | none =>
      let (before, more) := cut fuel t
      (c :: before, more)

/-- The place of the file that a reference names. -/
def target (here : List Text) (folder : Path) (path : Text) : List Text :=
  (folder.child (strip path)).resolve here

/-- How many nodes of the tree are not at some places. -/
def unvisited (files : FileTree) (chain : List (List Text)) : Nat :=
  (files.nodes.filter fun e => e.1 ∉ chain).length

/-- Every file that is opened leaves fewer to be opened inside it. -/
theorem unvisited_lt {files : FileTree} {here : List Text} {chain : List (List Text)} {p : Path}
    {text : Text} (hnew : p.resolve here ∉ chain)
    (hread : files.readText here (Path.absolute (p.resolve here)) = .ok text) :
    unvisited files (chain ++ [p.resolve here]) < unvisited files chain := by
  obtain ⟨b, -, hb, -, -⟩ := FileTree.readBytes_of_readText hread
  have hnode := FileTree.node?_of_readBytes_absolute (Path.dots_not_mem_resolve here p) hb
  have hmem := (FileTree.mem_nodes_of_node? hnode).resolve_left fun h => nomatch h.2
  have hsub : (files.nodes.filter fun e => e.1 ∉ chain ++ [p.resolve here]) =
      (files.nodes.filter fun e => e.1 ∉ chain).filter fun e => e.1 ≠ p.resolve here := by
    rw [List.filter_filter]
    apply List.filter_congr
    intro e _
    simp only [List.mem_append, List.mem_singleton, not_or, Bool.decide_and]
    exact Bool.and_comm _ _
  unfold unvisited
  rw [hsub]
  refine List.length_filter_lt_length_iff_exists.mpr ⟨_, List.mem_filter.mpr ⟨hmem, ?_⟩, ?_⟩
  · exact decide_eq_true hnew
  · simp

mutual

/-- The text with its references worked out from `folder`; `chain` are the files that are being
opened. -/
def expand (files : FileTree) (here : List Text) (folder : Path) (chain : List (List Text))
    (t : Text) : Logged Fault Text := do
  let (before, references) := cut t.length t
  let expanded ← references.mapM fun (path, behind) => do
    let inner ← included files here folder chain path
    return inner ++ behind
  return before ++ expanded.flatten
termination_by (unvisited files chain, 1)

/-- What a reference stands for. -/
def included (files : FileTree) (here : List Text) (folder : Path) (chain : List (List Text))
    (path : Text) : Logged Fault Text :=
  if (folder.child (strip path)).toText.contains (Char.ofNat 0) then throw .zeroInPath
  else if hnew : target here folder path ∈ chain then
    throw (.cycle (chain ++ [target here folder path]))
  else do
    Logged.note 3 ("Including ".toList ++ (Path.absolute (target here folder path)).toText)
    match hread : files.readText here (Path.absolute (target here folder path)) with
    | .error e => throw (.unreadable e)
    | .ok inner =>
      expand files here (Path.absolute (target here folder path).dropLast)
        (chain ++ [target here folder path]) inner
termination_by (unvisited files chain, 0)
decreasing_by exact Prod.Lex.left _ _ (unvisited_lt hnew hread)

end

end Lectern.Include
