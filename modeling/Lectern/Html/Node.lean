import Lectern.Text.Blank

/-!
# Page trees

A page is a list of nodes: elements with their children, text, and notes that a reader of the page
does not see.

* `Tag`          the name and the attributes of an element, ordered by their names;
* `Node`         the tree itself;
* `elements`     all elements of a tree in document order, each before those inside it;
* `plainText`    what an element says: its text, without notes and asides;
* `mapFirst?`    a tree with the first element of a kind exchanged.
-/

namespace Lectern.Html

/-- What stands in a page beside elements and text. -/
inductive NoteKind where
  | comment | literal | instruction | declaration | doctype
  deriving DecidableEq

structure Tag where
  name : Text
  attributes : List (Text × Text) := []
  /-- How often the content that holds the element has been read anew; no element that was made since
  the page was read has the generation zero. -/
  generation : Nat := 0
  /-- How many elements were read before it with the same text. -/
  serial : Nat := 0
  /-- The element has given away what it held, and goes when the walk over its page is over. -/
  spent : Bool := false
  deriving DecidableEq

inductive Node where
  | element (tag : Tag) (children : List Node)
  | text (content : Text)
  /-- Text in a script, a style sheet, a template or beside ruby characters, which is not part of
  what the elements around it say. -/
  | aside (content : Text)
  | note (kind : NoteKind) (content : Text)

/-- Puts an attribute into an ordered list; a value that was there before is exchanged. -/
def putAttribute (name value : Text) : List (Text × Text) → List (Text × Text)
  | [] => [(name, value)]
  | (n, v) :: rest =>
    if n = name then (n, value) :: rest
    else if Text.le name n then (name, value) :: (n, v) :: rest
    else (n, v) :: putAttribute name value rest

namespace Tag

/-- A tag with attributes given in any order, the last of equal names counting. -/
def of (name : Text) (attributes : List (Text × Text)) (generation : Nat := 0) (serial : Nat := 0) :
    Tag :=
  ⟨name, attributes.foldl (fun as a => putAttribute a.1 a.2 as) [], generation, serial, false⟩

/-- The tag of an element that is not in the page as it was read. -/
def made (name : Text) (attributes : List (Text × Text)) : Tag := .of name attributes 1

def get? (tag : Tag) (name : Text) : Option Text :=
  (tag.attributes.find? (·.1 = name)).map (·.2)

/-- The value of an attribute, empty where there is none. -/
def get (tag : Tag) (name : Text) : Text := (tag.get? name).getD []

def set (tag : Tag) (name value : Text) : Tag :=
  { tag with attributes := putAttribute name value tag.attributes }

/-- The elements that hold nothing and are never closed. -/
def voidNames : List String :=
  ["area", "base", "br", "col", "embed", "hr", "img", "input", "keygen", "link", "menuitem", "meta",
    "param", "source", "track", "wbr", "basefont", "bgsound", "command", "frame", "image",
    "isindex", "nextid", "spacer"]

def isVoid (tag : Tag) : Bool := voidNames.any fun n => n.toList = tag.name

end Tag

namespace Node

def tag? : Node → Option Tag
  | .element tag _ => some tag
  | _ => none

def children : Node → List Node
  | .element _ cs => cs
  | _ => []

def isElement (n : Node) : Bool := n.tag?.isSome

/-- The characters of a node that is not an element. -/
def content : Node → Text
  | .element _ _ => []
  | .text t | .aside t | .note _ t => t

/-- The name of an element. -/
def name? (n : Node) : Option Text := n.tag?.map (·.name)

def isNamed (name : Text) (n : Node) : Bool := n.name? = some name

/-- An element with its tag changed. -/
def mapTag (f : Tag → Tag) : Node → Node
  | .element tag cs => .element (f tag) cs
  | n => n

/-- The value of an attribute, empty where there is none. -/
def valueOf (n : Node) (name : Text) : Text := (n.tag?.map (·.get name)).getD []

mutual

/-- The elements of a tree in document order, the tree itself first. -/
def elements : Node → List Node
  | .element tag cs => .element tag cs :: elementsAll cs
  | _ => []

def elementsAll : List Node → List Node
  | [] => []
  | n :: ns => n.elements ++ elementsAll ns

end

mutual

/-- What a tree says. -/
def plainText : Node → Text
  | .element _ cs => plainTextAll cs
  | .text t => t
  | .note .literal t => t
  | _ => []

def plainTextAll : List Node → Text
  | [] => []
  | n :: ns => n.plainText ++ plainTextAll ns

end

mutual

/-- The tree with `f` applied to the first element, in document order, of which `p` holds; `none`
where there is no such element. -/
def mapFirst? (p : Tag → Bool) (f : Tag → List Node → Node) : Node → Option Node
  | .element tag cs =>
    if p tag then some (f tag cs) else (mapFirstAll? p f cs).map (.element tag ·)
  | _ => none

def mapFirstAll? (p : Tag → Bool) (f : Tag → List Node → Node) : List Node → Option (List Node)
  | [] => none
  | n :: ns =>
    match n.mapFirst? p f with
    | some n => some (n :: ns)
    | none => (mapFirstAll? p f ns).map (n :: ·)

end

/-- The elements inside a node, in document order. -/
def descendants (n : Node) : List Node := elementsAll n.children

/-- The first element inside a node that has a name. -/
def find? (name : Text) (n : Node) : Option Node := n.descendants.find? (·.isNamed name)

/-- The words of an element's class. -/
def classes (n : Node) : List Text := Text.words (n.valueOf "class")

def hasClass (name : Text) (n : Node) : Bool := n.classes.contains name

end Node
end Lectern.Html
