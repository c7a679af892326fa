import Lectern.Html.Node
import Lectern.Journal
import Lectern.Page.Lecture
import Lectern.Slides.Lecture
import Lectern.Slides.Recorder
import Lectern.Text.Percent

/-!
# Presentations

A page is presented as its tree says: its alerts go to the top, its slides get the times of its
timing strip, a lecture video makes it a lecture, and without one it is open for rehearsals.

* `relocateAlerts`   the tree with its alerts at the top;
* `slidesOf`, `timesOf`, `frameCounts`   what a tree holds;
* `Stepper`          an animation of a page;
* `initialIndex`     the slide that the query of an address asks for;
* `Presentation`     a page that is being presented;
* `Presentation.press`, `Presentation.resize`   keys and measurements.
-/

namespace Lectern.Slides
open Html Quantity Text

/-- An element of a name with a class. -/
def isA (name className : Text) (n : Node) : Bool := n.isNamed name && n.hasClass className

def isAlertTag (tag : Tag) : Bool := isA "p" "alert" (.element tag [])

/-! ## Alerts -/

mutual

/-- A tree without its alerts. -/
def withoutAlerts : Node → List Node
  | .element tag cs => if isAlertTag tag then [] else [.element tag (withoutAlertsAll cs)]
  | n => [n]

def withoutAlertsAll : List Node → List Node
  | [] => []
  | n :: ns => withoutAlerts n ++ withoutAlertsAll ns

end

mutual

/-- The alerts of a tree in document order, each without those inside it. -/
def alerts : Node → List Node
  | .element tag cs =>
    if isAlertTag tag then .element tag (withoutAlertsAll cs) :: alertsAll cs else alertsAll cs
  | _ => []

def alertsAll : List Node → List Node
  | [] => []
  | n :: ns => alerts n ++ alertsAll ns

end

mutual

/-- The tree with its first element of a name exchanged for nodes; `none` where it has none. -/
def exchangeFirst? (name : Text) (put : Tag → List Node → List Node) : Node → Option (List Node)
  | .element tag cs =>
    if tag.name = name then some (put tag cs)
    else (exchangeFirstAll? name put cs).map fun cs => [.element tag cs]
  | _ => none

def exchangeFirstAll? (name : Text) (put : Tag → List Node → List Node) :
    List Node → Option (List Node)
  | [] => none
  | n :: ns =>
    match exchangeFirst? name put n with
    | some ms => some (ms ++ ns)
    | none => (exchangeFirstAll? name put ns).map (n :: ·)

end

mutual

/-- Whether the first element of a name stands in an alert; `none` where there is no such element. -/
def firstInAlert? (name : Text) (inside : Bool) : Node → Option Bool
  | .element tag cs =>
    if tag.name = name then some inside else firstInAlertAll? name (inside || isAlertTag tag) cs
  | _ => none

def firstInAlertAll? (name : Text) (inside : Bool) : List Node → Option Bool
  | [] => none
  | n :: ns => (firstInAlert? name inside n).or (firstInAlertAll? name inside ns)

end

/-- The page with its alerts before the main part, or first in the body, or first of all; and how
many they are.  A main part or a body that stands in an alert can hold nothing that stays on the page.
It is not told apart here whether such a move is refused, which happens to a main part right inside an
alert, or never ends, which may happen to a body with nothing in it. -/
def relocateAlerts (page : List Node) : List Node × Nat :=
  let found := alertsAll page
  let rest := withoutAlertsAll page
  let moved :=
    match firstInAlertAll? "main" false page, firstInAlertAll? "body" false page with
    | some false, _ =>
      (exchangeFirstAll? "main" (fun tag cs => found ++ [.element tag cs]) rest).getD rest
    | none, some false =>
      (exchangeFirstAll? "body" (fun tag cs => [.element tag (found ++ cs)]) rest).getD rest
    | none, none => found ++ rest
    -- What they go to stands in one of them: it has left the page with that one, and so do they all.
    | _, _ => rest
  (moved, found.length)

/-! ## What a page holds -/

variable {τ : Type} [Quantity τ]

/-- The slides of a page, without times. -/
def slidesOf (page : List Node) : List (Slide τ) :=
  ((Node.elementsAll page).filter (isA "div" "slide")).zipIdx.map fun (e, i) =>
    ⟨i, undefined,
      ((e.descendants.find? (isA "div" "slide-header")).map fun h => strip h.plainText).getD []⟩

/-- The times of a page's timing strip, each word read as a number. -/
def timesOf (readTime : Text → τ) (page : List Node) : List τ :=
  match (Node.elementsAll page).find? (isA "pre" "times") with
  | some strip => (words strip.plainText).map readTime
  | none => []

/-- The numbers of frames of a page's animations that have any. -/
def frameCounts (page : List Node) : List Nat :=
  ((Node.elementsAll page).filter (isA "div" "animation")).filterMap fun a =>
    let n := (a.descendants.filter (isA "img" "frame")).length
    if n = 0 then none else some n

/-! ## Animations

The frames of an animation are shown one at a time; a step beyond either end changes nothing. -/

structure Stepper where
  count : Nat
  index : Nat := 0
  index_lt : index < count

namespace Stepper

/-- A stepper over so many frames, if there are any. -/
def start? (count : Int) : Option Stepper :=
  if h : 0 < count then some ⟨count.toNat, 0, by omega⟩ else none

def noFrames : String := "An animation needs at least one frame"

def next? (s : Stepper) : Option Stepper :=
  if h : s.index + 1 < s.count then some { s with index := s.index + 1, index_lt := h } else none

def previous? (s : Stepper) : Option Stepper :=
  if s.index = 0 then none
  else some { s with index := s.index - 1, index_lt := by have := s.index_lt; omega }

def mayGoBack (s : Stepper) : Bool := s.index > 0

def mayGoOn (s : Stepper) : Bool := s.index + 1 < s.count

def counter (s : Stepper) : String := s!"{s.index + 1}/{s.count}"

end Stepper

/-! ## The slide asked for

The query of a page's address may name the slide to show first: `slide=2` is the second one.  The
first value given counts; blanks before its number and anything behind it do not. -/

/-- The plus signs of a query read as blanks, and its escapes as what they stand for. -/
def decodeField (t : Text) : Text := percentDecode (t.map fun c => if c = '+' then ' ' else c)

/-- The names and values of a query; a name without a value says nothing. -/
def queryFields (query : Text) : List (Text × Text) :=
  (splitOn ['&'] query).filterMap fun field =>
    match field.span (· ≠ '=') with
    | (name, _ :: value@(_ :: _)) => some (decodeField name, decodeField value)
    | _ => none

/-- The integer that a text begins with, behind blanks: whether it is negative, and its digits. -/
def leadingInteger? (t : Text) : Option (Bool × Text) :=
  let t := t.dropWhile isBlank
  let (negative, t) := match t with
    | '-' :: t => (true, t)
    | '+' :: t => (false, t)
    | t => (false, t)
  let digits := t.takeWhile isDigit
  if digits.isEmpty then none else some (negative, digits)

/-- The slide of `count` that a query asks for, counted from zero; the first one where it asks for
none that there is. -/
def initialIndex (query : Text) (count : Nat) : Except TooManyDigits Nat :=
  match (queryFields (query.dropWhile (· = '?'))).lookup ("slide" : Text) with
  | none => .ok 0
  | some value =>
    match leadingInteger? value with
    | none => .ok 0
    | some (negative, digits) =>
      (readNatural digits).map fun n => if !negative && 0 < n && n ≤ count then n - 1 else 0

/-! ## Presentations -/

/-- How a page is presented. -/
inductive Mode (τ : Type) where
  /-- It has no slides. -/
  | still
  | lecture (l : Lecture τ)
  | rehearsal (r : Recorder τ)

structure Presentation (τ : Type) where
  page : List Node
  mode : Mode τ
  animations : List Stepper

/-- The reader of a page that has slides. -/
def Presentation.reader? (p : Presentation τ) : Option (Reader τ) :=
  match p.mode with
  | .still => none
  | .lecture l => some l.reader
  | .rehearsal r => some r.reader

def Presentation.view? (p : Presentation τ) : Option View :=
  match p.mode with
  | .still => none
  | .lecture l => some l.view
  | .rehearsal r => some r.view

/-- The name of the reader panel. -/
def Presentation.label (p : Presentation τ) : Text :=
  match p.mode with
  | .lecture _ => "VideoSlides"
  | _ => "Slides"

/-- The reader of slides with times, as a lecture if the page has a video. -/
def modeOf (epsilon : τ) (hasVideo hasSink : Bool) (slides : List (Slide τ)) (times : List τ)
    (index : Nat) : Mode τ :=
  match Reader.start (retime slides times) index with
  | .error _ => .still
  | .ok reader =>
    if hasVideo then
      .lecture (Lecture.start reader .fresh (endOf times slides.length) epsilon)
    else .rehearsal (Recorder.start reader hasSink)

/-- The presentation of a page. -/
def Presentation.start (epsilon : τ) (readTime : Text → τ) (hasSink : Bool) (query : Text)
    (page : List Node) : Logged TooManyDigits (Presentation τ) := do
  let (page, moved) := relocateAlerts page
  let slides := slidesOf page
  let times := timesOf readTime page
  let hasVideo := (Node.elementsAll page).any fun e => e.tag?.any Page.isLecture
  match initialIndex query slides.length with
  | .error e => throw e
  | .ok index => do
    let mode := modeOf epsilon hasVideo hasSink slides times index
    let animations := (frameCounts page).filterMap fun (n : Nat) => Stepper.start? n
    Logged.note 2 (s!"Presentation: {slides.length} slide(s), {moved} alert(s), ".toList
      ++ s!"{animations.length} animation(s), ".toList
      ++ (if hasVideo then "lecture mode".toList else "authoring mode".toList))
    return { page, mode, animations }

namespace Presentation

/-- The keys that do something. -/
inductive Key where
  | left | right | record
  deriving DecidableEq

def Key.ofName? (name : Text) : Option Key :=
  if name = "ArrowLeft".toList then some .left
  else if name = "ArrowRight".toList then some .right
  else if name = ['R'] then some .record
  else none

/-- What a key press leads to: whether it did anything, or the number that could not be handed out;
the presentation after it; what was handed out; and what is reported. -/
structure Press (τ : Type) where
  answer : Except τ Bool
  after : Presentation τ
  sent : Option (Export τ) := none
  notes : List (Note τ) := []

def ofEvent (p : Presentation τ) (l : Lecture τ) (e : Event) : Press τ :=
  let (answer, after) := l.handle e
  { answer := .ok (answer.getD true), after := { p with mode := .lecture after }
    notes := l.notes e answer after }

def ofStep (p : Presentation τ) (r : Recorder τ) (s : Step τ Bool) (answer : Bool → Bool := id) :
    Press τ :=
  { answer := s.answer.map answer, after := { p with mode := .rehearsal s.after }, sent := s.sent
    notes := r.notes s }

/-- A key pressed at a clock reading. -/
def press (now : τ) (key : Option Key) (p : Presentation τ) : Press τ :=
  match p.mode, key with
  | .lecture l, some .left => p.ofEvent l .previous
  | .lecture l, some .right => p.ofEvent l .next
  | .rehearsal r, some .left => p.ofStep r (r.previous now)
  | .rehearsal r, some .right => p.ofStep r (r.next now)
  | .rehearsal r, some .record => p.ofStep r (r.toggle now) fun _ => true
  | _, _ => { answer := .ok false, after := p }

/-- The shown slide measured. -/
def resize (layout : Layout τ) (width height : τ) (p : Presentation τ) :
    Except ScaleFault (Option τ × Presentation τ) :=
  match p.mode with
  | .still => .ok (none, p)
  | .lecture l => (l.reader.measure layout width height).map fun (s, reader) =>
      (s, { p with mode := .lecture { l with reader } })
  | .rehearsal r => (r.reader.measure layout width height).map fun (s, reader) =>
      (s, { p with mode := .rehearsal { r with reader } })

end Presentation
end Lectern.Slides
