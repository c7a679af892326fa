import Lectern.Files.Tree
import Lectern.Journal
import Lectern.Page.Code
import Lectern.Page.Lecture
import Lectern.Paragraph.Sigil
import Lectern.Text.Percent

/-!
# The walk over a rendered page

The walk gives the tree of a rendered document its final form.  It goes from the front to the back
and exchanges every node for one other node, so that nothing moves:

* a paragraph, a list item or a table cell that begins with a sigil becomes what the sigil says;
* one that holds nothing but an image becomes a figure;
* one that begins with a doubled sigil loses one of the two marks;
* a table stands in a figure, and a mark in its first heading cell gives it a class;
* code, links and images get their final form where the walk meets them.

Nodes that gave their content away are marked on the way and leave the tree at the end.

* `Visit`        as what a node is visited;
* `visit`        the walk below one node;
* `finish`       the whole of it.
-/

namespace Lectern.Page
open Text Html

structure Context where
  appearance : Appearance
  sigils : List Sigil := Sigil.all
  files : FileTree
  /-- The folder from which relative paths are seen. -/
  here : List Text
  /-- The folder of the document. -/
  folder : Path

inductive WalkFault where
  | file (e : FileError)
  | markup (r : Rejection)
  /-- The remainder of a paragraph cannot be read. -/
  | remainder (e : Sigil.FieldFault)

structure Progress where
  sources : Sources := {}
  /-- How many nodes have given their content away. -/
  spent : Nat := 0
  /-- The paragraphs, tables, code and images given their final form so far, last first. -/
  taken : List Tag := []

/-- A walk that fails has come so far all the same. -/
abbrev Walk := ExceptT WalkFault (StateT Progress (StateM (List Message)))

def lift {α : Type} (r : Except Rejection α) : Walk α :=
  match r with
  | .ok a => pure a
  | .error e => throw (.markup e)

/-- The remainder of a paragraph with its character references read. -/
def readRemainder (remainder : Text) : Walk Text :=
  match unescape (strip remainder) with
  | .ok t => pure t
  | .error e => throw (.remainder (.number e))

/-- The values in the remainder of a paragraph. -/
def readFields (s : Sigil) (remainder : Text) : Walk (List Text) :=
  match s.fields remainder with
  | .ok ts => pure ts
  | .error e => throw (.remainder e)

def tell (m : Message) : Walk Unit := ExceptT.lift (StateT.lift (modify (· ++ [m])))

/-- An element is about to get its final form. -/
def take (tag : Tag) : Walk Unit := modify fun p => { p with taken := tag :: p.taken }

/-- As what the walk visits a node. -/
inductive Visit where
  /-- By its name. -/
  | flow
  /-- As a paragraph. -/
  | paragraph
  /-- As a paragraph if it has one of these names. -/
  | paragraphIf (names : List String)
  /-- For the rows of a table that were there, at this generation, when the table was met. -/
  | rows (generation : Nat)

/-- What the name of an element says about it. -/
inductive Part where
  | paragraph | table | list | wrapper | preformatted | code | link | image | other
  deriving DecidableEq

def Part.ofName (name : Text) : Part :=
  match String.ofList name with
  | "p" => .paragraph
  | "table" => .table
  | "ul" | "ol" => .list
  | "blockquote" | "details" | "div" | "em" | "strong" | "span" => .wrapper
  | "pre" => .preformatted
  | "code" => .code
  | "a" => .link
  | "img" => .image
  | _ => .other

def cellNames : List String := ["th", "td"]

def isOneOf (names : List String) (tag : Tag) : Bool := names.any fun n => n.toList = tag.name

/-- Hands the waiting sources to a node that is about to be visited. -/
def deliver (n : Node) : Walk Node := do
  let p ← get
  set { p with sources := (p.sources.deliver n).2 }
  return (p.sources.deliver n).1

/-- Leaves a node that has been visited behind. -/
def pass (n : Node) : Walk Unit := modify fun p => { p with sources := p.sources.pass n }

/-- Visits the nodes of a list in order.  `ahead` says that a lecture video stands behind them. -/
def visitAll (visit : Bool → Node → Walk Node) (ahead : Bool) : List Node → Walk (List Node)
  | [] => return []
  | n :: ns => do
    let n ← visit (ahead || ns.any holdsLecture) (← deliver n)
    pass n
    return n :: (← visitAll visit ahead ns)

/-! ## Tables -/

/-- The first heading cell of a table with its mark taken off, and the class the mark gives. -/
def readMark (cell : Node) : Node × Option Text :=
  match cell with
  | .element tag cs =>
    let inner := cell.writeInner
    if inner = ['x'] then (.element tag [], some "cross")
    else if inner = ['^', 'x'] then (.element tag [.text ['x']], none)
    else (.element tag cs, none)
  | n => (n, none)

/-- The table with the mark in its first heading cell taken off. -/
def markTable (tag : Tag) (cs : List Node) : Tag × List Node :=
  match (Node.element tag cs).find? "thead" with
  | some head =>
    match head.descendants.find? fun n => n.tag?.any (isOneOf cellNames) with
    | some cell =>
      let (cell, given) := readMark cell
      let cs := Node.mapFirstAll? (·.name = "thead".toList) (fun headTag headChildren =>
        .element headTag
          ((Node.mapFirstAll? (isOneOf cellNames) (fun _ _ => cell) headChildren).getD headChildren)) cs
        |>.getD cs
      (match given with
        | some c => tag.set "class" c
        | none => tag, cs)
    | none => (tag, cs)
  | none => (tag, cs)

def figure (className : Text) (n : Node) : Node := .element (.made "figure" [("class", className)]) [n]

/-! ## Paragraphs -/

/-- The image that is all a paragraph holds. -/
def loneImage? (cs : List Node) : Option (Tag × List Node) :=
  match cs.filter Node.isElement with
  | [.element tag children] =>
    if tag.name = "img".toList && isAllBlank (cs.flatMap Node.content) then some (tag, children)
    else none
  | _ => none

/-- The files of a folder of frames, by name. -/
def frameNames (c : Context) (folder : Path) : Walk (List Text) :=
  match c.files.list c.here folder with
  | .error e => throw (.file e)
  | .ok entries => return ((entries.filter (·.2.isFile)).map (·.1)).mergeSort Text.le

def frameNode (a : Appearance) (folder : Text) (number : Nat) (name : Text) : Node :=
  .element (a.finishImage (.made "img" [("class", "frame"),
    ("src", folder ++ ['/'] ++ percentPath (replaceAll ['|'] ['|', '|'] name)),
    ("alt", ofNat number)])) []

/-- An animation of the frames in a folder; the paragraph itself where there are none. -/
def animate (c : Context) (tag : Tag) (cs : List Node) (remainder : Text) : Walk Node := do
  let folder ← readRemainder remainder
  if folder.isEmpty then return .element tag cs
  let place := (c.folder.child c.appearance.settings.imageDir).child folder
  let names ← frameNames c place
  if names.isEmpty then
    tell (.warning ("Animation folder ".toList ++ place.toText ++ " holds no frames".toList))
    return .element tag cs
  return .element (.made "div" [("class", "animation")])
    (names.zipIdx.map fun (name, i) => frameNode c.appearance folder (i + 1) name)

/-- Hands a source to the lecture video, or puts a lecture video in place of the paragraph that
names its first source. -/
def attachSource (c : Context) (ahead : Bool) (tag : Tag) (cs : List Node) (remainder : Text) :
    Walk Node := do
  let address := c.appearance.settings.videoDir ++ ['/'] ++ (← readRemainder remainder)
  tell (.note 3 ("Lecture source ".toList ++ address))
  let p ← get
  let (n, sources, given) :=
    p.sources.attach (sourceNode address) ahead (.element { tag with spent := true } cs)
  set { p with sources, spent := if given then p.spent + 1 else p.spent }
  return n

def anchorNode (name : Text) : Node := .element (.made "a" [("class", "anchor"), ("id", name)]) []

def videoNode (settings : Settings) (fields : List Text) : Node :=
  let source := fields.headD []
  let source := if Image.hasScheme source then source else settings.videoDir ++ ['/'] ++ source
  let poster := match fields.drop 1 with
    | (p@(_ :: _)) :: _ => [(("poster" : Text), settings.videoDir ++ ['/'] ++ p)]
    | _ => []
  figure "video" (.element (.made "video" (("src", source) :: ("controls", []) :: poster)) [])

def embedTag (settings : Settings) (tag : Tag) (fields : List Text) : Tag :=
  let tab := match fields.drop 2 with
    | (t@(_ :: _)) :: _ => t
    | _ => settings.embedDefaultTab
  ((((tag.set "class" "codepen").set "data-theme-id" settings.embedTheme).set
    "data-user" (fields.headD [])).set "data-slug-hash" (fields.getD 1 [])).set
    "data-default-tab" tab

/-- What becomes of a paragraph on which a sigil acts; `walk` goes on with content that has been
read anew. -/
def actOn (c : Context) (walk : List Node → Walk (List Node)) (ahead : Bool) (tag : Tag)
    (cs : List Node) (remainder : Text) : Sigil → Walk Node
  | .small => do
    let inner ← walk (← lift (Appearance.reread tag remainder))
    return .element tag [.element (.made "small" []) inner]
  | .alert => do
    let inner ← walk (← lift (Appearance.reread tag remainder))
    return .element (tag.set "class" "alert") inner
  | .lecture => attachSource c ahead tag cs remainder
  | .animation => animate c tag cs remainder
  | .anchor => return anchorNode (← readRemainder remainder)
  | .video => return videoNode c.appearance.settings (← readFields .video remainder)
  | .embed =>
    return .element (embedTag c.appearance.settings tag (← readFields .embed remainder)) []

/-- A paragraph in its final form. -/
def finishParagraph (c : Context) (walk : List Node → Walk (List Node)) (ahead : Bool) (tag : Tag)
    (cs : List Node) : Walk Node := do
  take tag
  let inner := (Node.element tag cs).writeInner
  match Sigil.select? c.sigils inner with
  | some s =>
    tell (.note 3 ("Sigil ".toList ++ s.name.toList ++ " on <".toList ++ tag.name ++ ['>']))
    actOn c walk ahead tag cs (inner.drop s.mark.length) s
  | none =>
    match loneImage? cs with
    | some (image, children) =>
      take image
      return figure "img" (.element (c.appearance.finishImage image) children)
    | none =>
      let cs ← match Sigil.unescape? c.sigils inner with
        | some t => lift (Appearance.reread tag t)
        | none => pure cs
      return .element tag (← walk cs)

/-! ## The walk -/

/-- The node in its final form; the first argument bounds the depth of the walk. -/
def visit (c : Context) : Nat → Visit → Bool → Node → Walk Node
  | 0, _, _, n => return n
  | fuel + 1, how, ahead, .element tag cs =>
    let below (how : Visit) (cs : List Node) : Walk (List Node) :=
      visitAll (visit c fuel how) ahead cs
    match how with
    | .paragraph => finishParagraph c (below .flow) ahead tag cs
    | .paragraphIf names =>
      if isOneOf names tag then visit c fuel .paragraph ahead (.element tag cs)
      else return .element tag cs
    | .rows generation => do
      let cs ←
        if tag.name = "tr".toList && tag.generation = generation then
          below (.paragraphIf cellNames) cs
        else pure cs
      return .element tag (← below (.rows generation) cs)
    | .flow =>
      match Part.ofName tag.name with
      | .paragraph => visit c fuel .paragraph ahead (.element tag cs)
      | .table => do
        take tag
        let (tag, cs) := markTable tag cs
        return figure "table" (.element tag (← below (.rows tag.generation) cs))
      | .list => return .element tag (← below (.paragraphIf ["li"]) cs)
      | .wrapper => return .element tag (← below .flow cs)
      | .preformatted => do
        let (n, named) ← lift (c.appearance.finishPre tag cs)
        named.forM take
        return n
      | .code => do
        take tag
        lift (c.appearance.finishCode tag cs)
      | .link => return .element (Appearance.finishLink tag) cs
      | .image => do
        take tag
        return .element (c.appearance.finishImage tag) cs
      | .other => return .element tag cs
  | _, _, _, n => return n

mutual

/-- The tree without the nodes that gave their content away. -/
def prune : Node → List Node
  | .element tag cs => if tag.spent then [] else [.element tag (pruneAll cs)]
  | n => [n]

def pruneAll : List Node → List Node
  | [] => []
  | n :: ns => prune n ++ pruneAll ns

end

/-- A depth that no walk over a page reaches. -/
def depthBound (n : Node) : Nat := 8 * (n.write.length + 8)

/-- The walk over what a body holds; `behind` is what follows the body in its document. -/
def walkBelow (c : Context) (body : Node) (behind : List Node) : Walk (List Node) :=
  visitAll (visit c (depthBound body) .flow) (behind.any holdsLecture) body.children

/-- The body of a page in its final form; `behind` is what follows the body in its document. -/
def finish (c : Context) (body : Node) (behind : List Node) : Logged WalkFault Node :=
  match body with
  | .element tag _ => do
    match ← ExceptT.lift (StateT.run (walkBelow c body behind).run {}) with
    | (.error e, _) => throw e
    | (.ok cs, progress) =>
      let body := progress.sources.settle (.element tag cs)
      if progress.spent > 0 then
        Logged.note 3 ("Pruned ".toList ++ ofNat progress.spent ++ " consumed node(s)".toList)
      return .element tag (pruneAll body.children)
  | n => return n

end Lectern.Page
