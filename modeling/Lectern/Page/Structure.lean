import Lectern.Html.Written

/-!
# The shape of a document

A document has exactly one first-rank heading.  Only alerts may stand before it, and one plain
paragraph among them.
-/

namespace Lectern.Page
open Html

inductive StructureFault where
  /-- Not exactly one heading, but this many. -/
  | headings (found : Nat)
  /-- Something stands before the heading that may not. -/
  | opening
  deriving DecidableEq

def StructureFault.message : StructureFault → Text
  | .headings n => "Must have exactly one H1 (found ".toList ++ Text.ofNat n ++ [')']
  | .opening => "Must start with H1 or P followed by H1!"

def isHeading (n : Node) : Bool := n.isNamed "h1"

def isParagraph (n : Node) : Bool := n.isNamed "p"

/-- The node is an alert paragraph. -/
def isAlert (n : Node) : Bool := isParagraph n && n.hasClass "alert"

def skipAlerts (ns : List Node) : List Node := ns.dropWhile isAlert

/-- Elements of which the first that is no alert may begin a document: a heading, or a paragraph
before one. -/
def mayOpen (elements : List Node) : Bool :=
  match skipAlerts elements with
  | [] => false
  | first :: rest =>
    isHeading first || isParagraph first && ((skipAlerts rest).head?.any isHeading)

/-- The heading of a document with a valid shape. -/
def heading? (body : Node) : Except StructureFault Node :=
  match body.descendants.filter isHeading with
  | [h] => if mayOpen (body.children.filter Node.isElement) then .ok h else .error .opening
  | hs => .error (.headings hs.length)

end Lectern.Page
