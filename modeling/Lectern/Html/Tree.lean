import Lectern.Html.Token

/-!
# Reading a page tree

The tokens of a page become a tree without repair: an element stands open until a closing tag of
its name, or of an element around it, comes; closing tags that close nothing are passed over.  Void
elements close at once.  Text that is blank throughout shrinks to one blank, outside of preformatted
text.

* `Builder`      the open elements and what has been read of each;
* `ofTokens`     the tree of a list of tokens;
* `Node.parse`   the tree of a text.
-/

namespace Lectern.Html
open Text

/-- Attributes that hold a list of words, by the element they belong to; the empty name stands for
any element. -/
def wordAttributes : List (String × List String) :=
  [("", ["class", "accesskey", "dropzone"]), ("a", ["rel", "rev"]), ("link", ["rel", "rev"]),
    ("td", ["headers"]), ("th", ["headers"]), ("form", ["accept-charset"]), ("object", ["archive"]),
    ("area", ["rel"]), ("icon", ["sizes"]), ("iframe", ["sandbox"]), ("output", ["for"])]

/-- The attribute holds a list of words. -/
def holdsWords (element name : Text) : Bool :=
  wordAttributes.any fun (e, names) =>
    (e.isEmpty || e.toList = element) && names.any fun n => n.toList = name

/-- An attribute as it is kept: of a list of words only the words count. -/
def keptAttribute (element : Text) (a : Text × Text) : Text × Text :=
  if holdsWords element a.1 then (a.1, join [' '] (words a.2)) else a

/-- An element that is still open. -/
structure OpenElement where
  tag : Tag
  /-- What it holds so far, last first. -/
  held : List Node := []

def OpenElement.close (e : OpenElement) : Node := .element e.tag e.held.reverse

structure Builder where
  /-- Innermost first. -/
  open_ : List OpenElement := []
  /-- What stands outside of all elements, last first. -/
  outside : List Node := []
  /-- Text that has been read and not yet been put into the tree. -/
  pending : Option Text := none
  /-- Names of void elements that were closed at once; a closing tag of such a name closes
  nothing. -/
  closedVoids : List Text := []
  generation : Nat := 0
  /-- How many elements have been opened. -/
  opened : Nat := 0

namespace Builder

def add (n : Node) (b : Builder) : Builder :=
  match b.open_ with
  | [] => { b with outside := n :: b.outside }
  | e :: es => { b with open_ := { e with held := n :: e.held } :: es }

def keepsBlanks (b : Builder) : Bool :=
  b.open_.any fun e => e.tag.name = "pre".toList || e.tag.name = "textarea".toList

/-- Text here is not part of what the page says. -/
def isAside (b : Builder) : Bool :=
  b.open_.any fun e => ["script", "style", "template", "rt", "rp"].any fun n => n.toList = e.tag.name

def isPlainBlank (c : Char) : Bool := " \n\t\x0c\r".toList.contains c

/-- The pending text as it goes into the tree. -/
def shrunk (b : Builder) (t : Text) : Text :=
  if !b.keepsBlanks && t.all isPlainBlank then (if t.contains '\n' then ['\n'] else [' ']) else t

/-- Puts the pending text into the tree as the node that `make` builds. -/
def flushAs (make : Text → Node) (b : Builder) : Builder :=
  match b.pending with
  | none => b
  | some t => { b with pending := none }.add (make (b.shrunk t))

def flush (b : Builder) : Builder := b.flushAs (if b.isAside then .aside else .text)

def closeInnermost (b : Builder) : Builder :=
  match b.open_ with
  | [] => b
  | e :: es => { b with open_ := es }.add e.close

/-- Closes the innermost open elements up to the first of a name; nothing if none has it. -/
def close (name : Text) (b : Builder) : Builder :=
  let b := b.flush
  match b.open_.findIdx? (·.tag.name = name) with
  | none => b
  | some i => (i + 1).repeat closeInnermost b

def closing (name : Text) (b : Builder) : Builder :=
  if b.closedVoids.contains name then { b with closedVoids := b.closedVoids.erase name }
  else b.close name

def opening (name : Text) (attributes : List (Text × Text)) (closed : Bool) (b : Builder) : Builder :=
  let b := b.flush
  let tag := Tag.of name (attributes.map (keptAttribute name)) b.generation b.opened
  let b := { b with open_ := { tag := tag } :: b.open_, opened := b.opened + 1 }
  if closed then b.closing name
  else if tag.isVoid then { b.close name with closedVoids := name :: b.closedVoids }
  else b

def step (b : Builder) : Token → Builder
  | .text t => { b with pending := some (b.pending.getD [] ++ t) }
  | .opening name attributes closed => b.opening name attributes closed
  | .closing name => b.closing name
  | .note kind content => { b.flush with pending := some content }.flushAs (.note kind)

/-- Everything closed at the end of the page. -/
def finish (b : Builder) : List Node :=
  let b := b.flush
  (b.open_.length.repeat closeInnermost b).outside.reverse

end Builder

/-- The tree of a list of tokens. -/
def ofTokens (tokens : List Token) (generation : Nat := 0) : List Node :=
  (tokens.foldl Builder.step { generation := generation }).finish

/-- The tree of a text. -/
def Node.parse (t : Text) (generation : Nat := 0) : Except Rejection (List Node) :=
  (scan t).map (ofTokens · generation)

end Lectern.Html
