import Lectern.Html.Node

/-!
# The lecture video of a page

A page has one lecture video, to which sources are added from wherever a paragraph names one.  The
video stands where the first source was named, unless the page holds one of its own.  While a page
is walked from the front, a source named before the video waits until the walk comes to it, and one
named after it is kept until the walk is over.

* `isLecture`      the tag of a lecture video;
* `addSource?`     a node with a source put behind the others of its first lecture video;
* `Sources`        what is waiting, what is late, and whether the video has been passed.
-/

namespace Lectern.Page
open Html

def lectureClass : Text := "reader-lecture"

def isLecture (tag : Tag) : Bool :=
  tag.name = "video".toList && (Node.element tag []).hasClass lectureClass

def holdsLecture (n : Node) : Bool := n.elements.any fun e => e.tag?.any isLecture

/-- The node with sources behind the others of its first lecture video, if it holds one. -/
def addSources? (sources : List Node) (n : Node) : Option Node :=
  n.mapFirst? isLecture fun tag cs => .element tag (cs ++ sources)

def sourceNode (address : Text) : Node := .element (.made "source" [("src", address)]) []

def lectureNode (source : Node) : Node := .element (.made "video" [("class", lectureClass)]) [source]

structure Sources where
  /-- A lecture video stands in the part of the page that has been walked. -/
  passed : Bool := false
  /-- For the first lecture video ahead. -/
  waiting : List Node := []
  /-- For the first lecture video passed. -/
  late : List Node := []

namespace Sources

/-- The waiting sources handed to a node, if it holds a lecture video. -/
def deliver (s : Sources) (n : Node) : Node × Sources :=
  if s.waiting.isEmpty then (n, s)
  else
    match addSources? s.waiting n with
    | some n => (n, { s with waiting := [] })
    | none => (n, s)

/-- After a node has been walked. -/
def pass (n : Node) (s : Sources) : Sources := { s with passed := s.passed || holdsLecture n }

/-- What becomes of an element that names a source, and whether it has given the source away.  `rest` is
the element once it has, and `ahead` says that a lecture video stands behind it. -/
def attach (source : Node) (ahead : Bool) (rest : Node) (s : Sources) : Node × Sources × Bool :=
  if s.passed then (rest, { s with late := s.late ++ [source] }, true)
  else
    match addSources? [source] rest with
    | some rest => (rest, s, true)
    | none =>
      if ahead then (rest, { s with waiting := s.waiting ++ [source] }, true)
      else (lectureNode source, s, false)

/-- The late sources put into the page. -/
def settle (s : Sources) (n : Node) : Node :=
  if s.late.isEmpty then n else (addSources? s.late n).getD n

end Sources
end Lectern.Page
