import Lectern.Html.Node
import Lectern.Text.Blank
import Lectern.Text.Case

/-!
# The written form of a page tree

Attributes stand in the order of their names, each with a quoted value; the elements that hold
nothing are closed in their tag; only the ampersand and the two angle brackets are written as
references.  The text of scripts and style sheets is written as it is.  A page names `utf-8` as its
encoding, whatever it was read from.
-/

namespace Lectern.Html
open Text

def escapeChar : Char → Text
  | '&' => "&amp;"
  | '<' => "&lt;"
  | '>' => "&gt;"
  | c => [c]

def escape (t : Text) : Text := t.flatMap escapeChar

/-- The value in quotes: in double ones, unless it holds some and no single ones. -/
def quotedValue (value : Text) : Text :=
  let v := escape value
  if v.contains '"' then
    if v.contains '\'' then ['"'] ++ replaceAll ['"'] "&quot;" v ++ ['"']
    else ['\''] ++ v ++ ['\'']
  else ['"'] ++ v ++ ['"']

/-- The encoding named in the content type of a page exchanged; the flag says that a parameter may
begin here. -/
def renameCharset : Nat → Bool → Text → Text
  | 0, _, t => t
  | _, _, [] => []
  | fuel + 1, atStart, c :: t =>
    match atStart, stripPrefix? "charset=" (c :: t) with
    | true, some rest => "charset=utf-8".toList ++ renameCharset fuel false (rest.dropWhile (· ≠ ';'))
    | _, _ => c :: renameCharset fuel (c = ';' || isBlank c) t

/-- The attributes as they are written. -/
def writtenAttributes (tag : Tag) : List (Text × Text) :=
  if tag.name = "meta".toList then
    if (tag.get? "charset").isSome then (tag.set "charset" "utf-8").attributes
    else
      match tag.get? "http-equiv", tag.get? "content" with
      | some kind, some value =>
        if lower kind = "content-type".toList then
          (tag.set "content" (renameCharset (value.length + 1) true value)).attributes
        else tag.attributes
      | _, _ => tag.attributes
  else tag.attributes

def writeAttributes (tag : Tag) : Text :=
  (writtenAttributes tag).flatMap fun a => ' ' :: a.1 ++ '=' :: quotedValue a.2

def openTag (tag : Tag) : Text := '<' :: tag.name ++ writeAttributes tag ++ ['>']

def closedTag (tag : Tag) : Text := '<' :: tag.name ++ writeAttributes tag ++ "/>".toList

def closeTag (tag : Tag) : Text := "</".toList ++ tag.name ++ ['>']

def NoteKind.write (content : Text) : NoteKind → Text
  | .comment => "<!--".toList ++ content ++ "-->".toList
  | .literal => "<![CDATA[".toList ++ content ++ "]]>".toList
  | .instruction => "<?".toList ++ content ++ ['>']
  | .declaration => "<?".toList ++ content ++ "?>".toList
  | .doctype => "<!DOCTYPE ".toList ++ content ++ ">\n".toList

/-- Text inside this element is written as it is. -/
def isVerbatim (tag : Tag) : Bool := tag.name = "script".toList || tag.name = "style".toList

namespace Node

mutual

/-- The written form of a node; the flag says that text is written as it is. -/
def writeIn (verbatim : Bool) : Node → Text
  | .element tag cs =>
    if cs.isEmpty && tag.isVoid then closedTag tag
    else openTag tag ++ writeAllIn (isVerbatim tag) cs ++ closeTag tag
  | .text t | .aside t => if verbatim then t else escape t
  | .note kind t => kind.write t

def writeAllIn (verbatim : Bool) : List Node → Text
  | [] => []
  | n :: ns => n.writeIn verbatim ++ writeAllIn verbatim ns

end

def write (n : Node) : Text := n.writeIn false

/-- The written form of a page. -/
def writeAll (ns : List Node) : Text := writeAllIn false ns

/-- The written form of what an element holds. -/
def writeInner : Node → Text
  | .element tag cs => writeAllIn (isVerbatim tag) cs
  | _ => []

end Node
end Lectern.Html
