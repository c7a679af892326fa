import Lectern.Yaml.Token
import Lectern.Yaml.Word

/-!
# The nodes of a configuration

A configuration is a graph: a name given to a node stands for it again, even inside the node itself.
So nodes are numbered, and a list or a mapping holds the numbers of the nodes in it.

* `Graph`        the nodes of a text;
* `node`         reads a node off the tokens;
* `readGraph`    the nodes of a text and the number of the outermost one.
-/

namespace Lectern.Yaml
open Text

inductive Content where
  | scalar (t : Text)
  | list (items : List Nat)
  | map (entries : List (Nat × Nat))

structure Node where
  tag : Tag
  content : Content

/-- Nodes by their numbers. -/
abbrev Graph := Array Node

structure ReadState where
  scanner : Scanner
  /-- The short forms for the beginning of tags. -/
  handles : List (Text × Text) := []
  /-- The nodes that have a name. -/
  named : List (Text × Nat) := []
  graph : Graph := #[]

abbrev Reader := StateT ReadState (Except Fault)

namespace Reader

def fail {α : Type} : Reader α := throw .malformed

/-- The next token. -/
def peek : Reader Token := do
  let s ← get
  let scanner ← s.scanner.fill (s.scanner.size + 2)
  set { s with scanner }
  match scanner.queue with
  | t :: _ => return t
  | [] => fail

/-- Passes over the next token, which was looked at. -/
def take : Reader Unit :=
  modify fun s =>
    { s with scanner.queue := s.scanner.queue.drop 1, scanner.taken := s.scanner.taken + 1 }

/-- A new node. -/
def add (n : Node) : Reader Nat := do
  let s ← get
  set { s with graph := s.graph.push n }
  return s.graph.size

/-- The content of a node that has its number already. -/
def fillIn (id : Nat) (n : Node) : Reader Unit :=
  modify fun s => { s with graph := s.graph.setIfInBounds id n }

/-- A node for a missing value. -/
def empty : Reader Nat := add ⟨.null, .scalar []⟩

end Reader
open Reader

/-! ## What stands before a node -/

/-- A name and a tag as they are written, in either order. -/
structure Properties where
  name? : Option Text := none
  tag? : Option (Option Text × Text) := none

def readProperties : Reader Properties := do
  match ← peek with
  | .name n => do
    take
    match ← peek with
    | .tag h r => do
      take
      return ⟨some n, some (h, r)⟩
    | _ => return ⟨some n, none⟩
  | .tag h r => do
    take
    match ← peek with
    | .name n => do
      take
      return ⟨some n, some (h, r)⟩
    | _ => return ⟨none, some (h, r)⟩
  | _ => return {}

/-- The full name of a tag. -/
def fullTag (tag : Option Text × Text) : Reader Text := do
  match tag.1 with
  | none => return tag.2
  | some handle =>
    match (← get).handles.lookup handle with
    | some full => return full ++ tag.2
    | none => fail

/-- The tag of a node: the one that is written, unless it is the bare mark; else the one of its
looks. -/
def tagOr (written? : Option Text) (looks : Tag) : Tag :=
  match written? with
  | none | some ['!'] => looks
  | some t => .ofName t

/-- Remembers the name of a node, which must be new. -/
def giveName (name? : Option Text) (id : Nat) : Reader Unit := do
  if let some n := name? then
    modify fun s => { s with named := (n, id) :: s.named }

/-- No node has this name yet. -/
def checkName (name? : Option Text) : Reader Unit := do
  if let some n := name? then
    if ((← get).named.lookup n).isSome then fail

/-! ## Nodes -/

/-- What may open a node. -/
inductive Opening where
  | list | map | openList | openMap | dashes
  deriving DecidableEq

def Opening.isList : Opening → Bool
  | .list | .openList | .dashes => true
  | .map | .openMap => false

/-- What a token opens: collections by columns only in a block, and dashes without a column of their
own only behind a key. -/
def Opening.ofToken? (isBlock mayBeDashes : Bool) (t : Token) : Option Opening :=
  match t with
  | .dash => if mayBeDashes then some .dashes else none
  | .openList => some .openList
  | .openMap => some .openMap
  | .listStart => if isBlock then some .list else none
  | .mapStart => if isBlock then some .map else none
  | _ => none

mutual

/-- A node: `isBlock` says that collections by columns may stand here, and `mayBeDashes` that a list
may begin without a column of its own. -/
def node : Nat → (isBlock mayBeDashes : Bool) → Reader Nat
  | 0, _, _ => fail
  | fuel + 1, isBlock, mayBeDashes => do
    match ← peek with
    | .reference n => do
      take
      match (← get).named.lookup n with
      | some id => return id
      | none => fail
    | _ => do
      let p ← readProperties
      let tag? ← p.tag?.mapM fullTag
      let t ← peek
      checkName p.name?
      match t, Opening.ofToken? isBlock mayBeDashes t with
      | .scalar text isPlain, _ => do
        take
        let looks := if isPlain || tag?.isSome then Tag.ofWord text else .text
        let id ← add ⟨tagOr tag? looks, .scalar text⟩
        giveName p.name? id
        return id
      | _, some opening => do
        let tag := tagOr tag? (if opening.isList then .list else .map)
        let id ← add ⟨tag, .list []⟩
        giveName p.name? id
        fillIn id ⟨tag, ← content fuel opening⟩
        return id
      | _, none => do
        if p.name?.isNone && tag?.isNone then fail
        let id ← add ⟨tagOr tag? .null, .scalar []⟩
        giveName p.name? id
        return id

/-- The content of a collection. -/
def content : Nat → Opening → Reader Content
  | 0, _ => fail
  | fuel + 1, opening => do
    match opening with
    | .dashes => return .list (← dashItems fuel)
    | .list => do
      take
      return .list (← listItems fuel)
    | .map => do
      take
      return .map (← mapEntries fuel)
    | .openList => do
      take
      return .list (← flowItems fuel true)
    | .openMap => do
      take
      return .map (← flowEntries fuel true)

/-- The items of a list with a column of its own. -/
def listItems : Nat → Reader (List Nat)
  | 0 => fail
  | fuel + 1 => do
    match ← peek with
    | .dash => do
      take
      let item ← match ← peek with
        | .dash | .blockEnd => empty
        | _ => node fuel true false
      return item :: (← listItems fuel)
    | .blockEnd => do
      take
      return []
    | _ => fail

/-- The items of a list at the column of the key before it. -/
def dashItems : Nat → Reader (List Nat)
  | 0 => fail
  | fuel + 1 => do
    match ← peek with
    | .dash => do
      take
      let item ← match ← peek with
        | .dash | .key | .value | .blockEnd => empty
        | _ => node fuel true false
      return item :: (← dashItems fuel)
    | _ => return []

/-- The entries of a mapping with a column of its own. -/
def mapEntries : Nat → Reader (List (Nat × Nat))
  | 0 => fail
  | fuel + 1 => do
    match ← peek with
    | .key => do
      take
      let key ← blockPart fuel
      let value ← match ← peek with
        | .value => do
          take
          blockPart fuel
        | _ => empty
      return (key, value) :: (← mapEntries fuel)
    | .blockEnd => do
      take
      return []
    | _ => fail

/-- A key or a value of a mapping with a column of its own. -/
def blockPart : Nat → Reader Nat
  | 0 => fail
  | fuel + 1 => do
    match ← peek with
    | .key | .value | .blockEnd => empty
    | _ => node fuel true true

/-- The items in brackets; behind the first one a comma comes before each. -/
def flowItems : Nat → (isFirst : Bool) → Reader (List Nat)
  | 0, _ => fail
  | fuel + 1, isFirst => do
    match ← separator .closeList isFirst with
    | .closeList => do
      take
      return []
    | .key => do
      let id ← add ⟨.map, .list []⟩
      take
      let key ← match ← peek with
        | .value | .comma | .closeList => empty
        | _ => node fuel false false
      let value ← flowValue fuel .closeList
      fillIn id ⟨.map, .map [(key, value)]⟩
      return id :: (← flowItems fuel false)
    | _ => do
      let item ← node fuel false false
      return item :: (← flowItems fuel false)

/-- The entries in braces; behind the first one a comma comes before each. -/
def flowEntries : Nat → (isFirst : Bool) → Reader (List (Nat × Nat))
  | 0, _ => fail
  | fuel + 1, isFirst => do
    match ← separator .closeMap isFirst with
    | .closeMap => do
      take
      return []
    | .key => do
      take
      let key ← match ← peek with
        | .value | .comma | .closeMap => empty
        | _ => node fuel false false
      let value ← flowValue fuel .closeMap
      return (key, value) :: (← flowEntries fuel false)
    | _ => do
      let key ← node fuel false false
      let value ← empty
      return (key, value) :: (← flowEntries fuel false)

/-- The value behind a key inside brackets that are closed by `close`. -/
def flowValue : Nat → (close : Token) → Reader Nat
  | 0, _ => fail
  | fuel + 1, close => do
    match ← peek with
    | .value => do
      take
      let t ← peek
      if t = .comma || t = close then empty else node fuel false false
    | _ => empty

/-- The token that begins the next item inside brackets, the comma before it being passed over; or
the closing bracket. -/
def separator (close : Token) (isFirst : Bool) : Reader Token := do
  let t ← peek
  if t = close || isFirst then return t
  else if t = .comma then do
    take
    peek
  else fail

end

/-! ## Texts -/

/-- The short forms that need no declaration. -/
def commonHandles : List (Text × Text) := [(['!'], ['!']), (['!', '!'], Tag.space)]

/-- The declarations before a document. -/
def declarations : Nat → (versioned : Bool) → Reader Unit
  | 0, _ => fail
  | fuel + 1, versioned => do
    match ← peek with
    | .declaration d => do
      take
      match d with
      | .version major => do
        if versioned || major ≠ 1 then fail
        declarations fuel true
      | .handle name full => do
        if ((← get).handles.lookup name).isSome then fail
        modify fun s => { s with handles := (name, full) :: s.handles }
        declarations fuel versioned
      | .other => declarations fuel versioned
    | _ => modify fun s => { s with handles := s.handles ++ commonHandles }

/-- The outermost node of a document, or nothing where the text holds no document. -/
def document (fuel : Nat) : Reader (Option Nat) := do
  match ← peek with
  | .finish => return none
  | .declaration _ | .documentStart => do
    declarations fuel false
    match ← peek with
    | .documentStart => do
      take
      match ← peek with
      | .declaration _ | .documentStart | .documentEnd | .finish => return some (← empty)
      | _ => return some (← node fuel true false)
    | _ => fail
  | _ => do
    modify fun s => { s with handles := commonHandles }
    return some (← node fuel true false)

/-- Passes over the marks that end a document; the text must end with them. -/
def endDocument : Nat → Reader Unit
  | 0 => fail
  | fuel + 1 => do
    match ← peek with
    | .documentEnd => do
      take
      endDocument fuel
    | .finish => return
    | _ => fail

/-- The nodes of a text and the number of the outermost one. -/
def readGraph (t : Text) : Except Fault (Graph × Option Nat) := do
  let fuel := 16 * t.length + 64
  let root : Reader (Option Nat) := do
    let id ← document fuel
    endDocument fuel
    return id
  let (id, s) ← root.run { scanner := { cursor := ⟨t, 0, 0, 0⟩, size := t.length } }
  return (s.graph, id)

end Lectern.Yaml
