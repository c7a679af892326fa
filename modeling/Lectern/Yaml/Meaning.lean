import Lectern.Yaml.Node

/-!
# What a configuration says

The nodes of a configuration are given their values from the outermost one inwards: a scalar at
once, a list or a mapping when all that was met before it has its items.  So of several faults the
one nearest to the surface is reported.

* `Graph.flatten`   takes the entries over that a mapping merges into itself;
* `Graph.make`      the values of all nodes that are used;
* `parse`           the value of a text.
-/

namespace Lectern.Yaml
open Text

namespace Graph

def node (g : Graph) (id : Nat) : Node := (g[id]?).getD ⟨.null, .scalar []⟩

def tag (g : Graph) (id : Nat) : Tag := (g.node id).tag

def entries (g : Graph) (id : Nat) : List (Nat × Nat) :=
  match (g.node id).content with
  | .map es => es
  | _ => []

def setEntries (g : Graph) (id : Nat) (es : List (Nat × Nat)) : Graph :=
  g.setIfInBounds id ⟨g.tag id, .map es⟩

/-- The text of a scalar.  A mapping with an entry for the whole has the text of that entry; the
first argument bounds how deep such mappings nest. -/
def scalarText : Nat → Graph → Nat → Except Fault Text
  | 0, _, _ => .error .malformed
  | fuel + 1, g, id =>
    match (g.node id).content with
    | .scalar t => .ok t
    | .list _ => .error .malformed
    | .map es =>
      match es.find? fun e => g.tag e.1 = .value with
      | some e => scalarText fuel g e.2
      | none => .error .malformed

/-- The mappings that an entry for merging names, from the last one to the first. -/
def mergedMaps (g : Graph) (id : Nat) : Except Fault (List Nat) :=
  match (g.node id).content with
  | .map _ => .ok [id]
  | .scalar _ => .error .malformed
  | .list ids =>
    let isMap (i : Nat) : Bool := match (g.node i).content with
      | .map _ => true
      | _ => false
    if ids.all isMap then .ok ids.reverse else .error .malformed

/-- The graph with the entries for merging in a mapping exchanged for the entries of the mappings
they name, which come before its own.  A sign for the whole among the keys is a text.  The first
argument bounds how deep mappings merge. -/
def flatten : Nat → Graph → Nat → Except Fault Graph
  | 0, _, _ => .error .malformed
  | fuel + 1, g, id => do
    let es := g.entries id
    let own := es.filter fun e => g.tag e.1 ≠ .merge
    let g := es.foldl (fun g e =>
      if g.tag e.1 = .value then g.setIfInBounds e.1 { g.node e.1 with tag := .text } else g) g
    let g := g.setEntries id own
    let (g, merged) ← (es.filter fun e => g.tag e.1 = .merge).foldlM (fun (g, merged) e => do
      let maps ← g.mergedMaps e.2
      let g ← maps.reverse.foldlM (flatten fuel) g
      return (g, merged ++ maps.flatMap g.entries)) (g, ([] : List (Nat × Nat)))
    return if merged.isEmpty then g else g.setEntries id (merged ++ own)

end Graph

/-- The value of a node, the items of which are nodes. -/
inductive Made where
  | leaf (v : Value)
  | list (items : List Nat)
  | pairs (entries : List (Nat × Nat))
  | map (entries : List (Value × Nat))
  | set (items : List Value)

structure MakeState where
  graph : Graph
  /-- The values by the numbers of their nodes. -/
  made : Array (Option Made)
  /-- The nodes whose items have no values yet. -/
  waiting : List Nat := []

abbrev Maker := StateT MakeState (Except Fault)

namespace Maker

def put (id : Nat) (m : Made) : Maker Unit :=
  modify fun s => { s with made := s.made.setIfInBounds id (some m) }

/-- The value of a node as far as it is known, which is nothing but its kind for a collection. -/
def ofNode (id : Nat) : Maker Made := do
  let s ← get
  match (s.made[id]?).join with
  | some m => return m
  | none => do
    let start (m : Made) : Maker Made := do
      put id m
      modify fun s => { s with waiting := s.waiting ++ [id] }
      return m
    match s.graph.tag id with
    | .list => start (.list [])
    | .pairs => start (.pairs [])
    | .map => start (.map [])
    | .set => start (.set [])
    | tag => do
      let text ← match tag, (s.graph.node id).content with
        | .merge, _ | .value, _ | .unknown, _ => throw .malformed
        | .stamp, .map _ => do
          discard (s.graph.scalarText (s.graph.size + 1) id)
          throw .noText
        | _, _ => s.graph.scalarText (s.graph.size + 1) id
      let v ← readScalar tag text
      put id (.leaf v)
      return .leaf v

/-- Goes through all that a node inside of a key holds, `around` being the nodes around it, and stops
at what has no value. -/
def visit : Nat → (around : List Nat) → Nat → Maker Unit
  | 0, _, _ => throw .malformed
  | fuel + 1, around, id => do
    let s ← get
    if (s.made[id]?).join.isSome then return
    if around.contains id then throw .malformed
    let inner := visit fuel (id :: around)
    match s.graph.tag id, (s.graph.node id).content with
    | .list, .list ids => ids.forM inner
    | .pairs, .list ids => ids.forM fun i => do
      match (s.graph.node i).content with
      | .map [(k, v)] => do
        inner k
        inner v
      | _ => throw .malformed
    | .map, .map _ | .set, .map _ => do
      let graph ← s.graph.flatten (s.graph.size + 1) id
      set { s with graph }
      (graph.entries id).forM fun e => do
        inner e.1
        if (graph.tag e.1).isCollection then throw .malformed
        inner e.2
    | tag, _ => if tag.isCollection then throw .malformed else discard (ofNode id)

/-- The value of a node that is a key: only scalars may be one. -/
def keyOfNode (id : Nat) : Maker Value := do
  let g := (← get).graph
  if (g.tag id).isCollection then
    visit (g.size + 1) [] id
    throw .malformed
  match ← ofNode id with
  | .leaf v => return v
  | _ => throw .malformed

/-- The entries of a mapping, later ones of equal keys in the place of the first. -/
def entriesOfNode (id : Nat) : Maker (List (Value × Nat)) := do
  let s ← get
  match (s.graph.node id).content with
  | .map _ => do
    let graph ← s.graph.flatten (s.graph.size + 1) id
    set { s with graph }
    (graph.entries id).foldlM (fun es e => do
      let key ← keyOfNode e.1
      discard (ofNode e.2)
      return putEntry key e.2 es) []
  | _ => throw .malformed
where
  putEntry (key : Value) (id : Nat) : List (Value × Nat) → List (Value × Nat)
    | [] => [(key, id)]
    | (k, i) :: es =>
      if k.sameKey key then (k, id) :: es else (k, i) :: putEntry key id es

/-- The items of a list of single entries. -/
def pairsOfNode (ids : List Nat) : Maker (List (Nat × Nat)) :=
  ids.mapM fun i => do
    match ((← get).graph.node i).content with
    | .map [(k, v)] => do
      discard (ofNode k)
      discard (ofNode v)
      return (k, v)
    | _ => throw .malformed

/-- Gives a collection its items. -/
def complete (id : Nat) : Maker Unit := do
  let g := (← get).graph
  match g.tag id, (g.node id).content with
  | .list, .list ids => do
    ids.forM fun i => discard (ofNode i)
    put id (.list ids)
  | .pairs, .list ids => do put id (.pairs (← pairsOfNode ids))
  | .map, .map _ => do put id (.map (← entriesOfNode id))
  | .set, .map _ => do put id (.set ((← entriesOfNode id).map (·.1)))
  | _, _ => throw .malformed

/-- Gives the collections that wait their items, one after the other; the first argument bounds
their number. -/
def completeAll : Nat → Maker Unit
  | 0 => return
  | fuel + 1 => do
    match (← get).waiting with
    | [] => return
    | id :: rest => do
      modify fun s => { s with waiting := rest }
      complete id
      completeAll fuel

end Maker

/-- The value of a node put together from those of its items.  The first argument bounds the depth,
and `around` are the nodes inside of which the node stands. -/
def unfold (made : Array (Option Made)) : Nat → (around : List Nat) → Nat → Value
  | 0, _, _ => .null
  | fuel + 1, around, id =>
    let inner := unfold made fuel (id :: around)
    let isAgain := around.contains id
    match (made[id]?).join with
    | none => .null
    | some (.leaf v) => v
    | some (.set vs) => .set vs
    | some (.list ids) => if isAgain then .again false else .list (ids.map inner)
    | some (.pairs es) =>
      if isAgain then .again false else .list (es.map fun e => .pair (inner e.1) (inner e.2))
    | some (.map es) => if isAgain then .again true else .map (es.map fun e => (e.1, inner e.2))

/-- The value of a graph. -/
def Graph.make (g : Graph) (root : Nat) : Except Fault Value := do
  let make : Maker Unit := do
    discard (Maker.ofNode root)
    Maker.completeAll (g.size + 1)
  let (_, s) ← make.run { graph := g, made := Array.replicate g.size none }
  return unfold s.made (g.size + 1) [] root

/-- The characters that configuration text may hold. -/
def isAllowed (c : Char) : Bool :=
  let n := c.toNat
  n = 9 || n = 10 || n = 13 || (0x20 ≤ n && n ≤ 0x7e) || n = 0x85 || (0xa0 ≤ n && n ≤ 0xd7ff)
    || (0xe000 ≤ n && n ≤ 0xfffd) || 0x10000 ≤ n

/-- The value of a text. -/
def parse (t : Text) : Except Fault Value := do
  if !t.all isAllowed then throw .malformed
  match ← readGraph t with
  | (g, some root) => g.make root
  | (_, none) => return .null

end Lectern.Yaml
