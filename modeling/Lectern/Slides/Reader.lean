import Lectern.Slides.Quantity
import Lectern.Text.Basic

/-!
# The slide reader

A page shows one of its slides at a time.  Moving either shows another slide or changes nothing.

* `Reader`         the slides and which of them is shown;
* `show?`, `next?`, `previous?`   the reader after a move, where there is such a slide;
* `measure`        the scale for the shown slide after its size was measured;
* `retime`, `endOf`   times recorded in a rehearsal, given to the slides;
* `View`           what the controls of a page show.
-/

namespace Lectern.Slides
open Quantity

structure Slide (τ : Type) where
  index : Nat
  /-- When the slide appears in the lecture. -/
  time : τ
  title : Text

def Slide.isTimed {τ : Type} [Quantity τ] (s : Slide τ) : Bool := !isUndefined s.time

structure Reader (τ : Type) where
  slides : List (Slide τ)
  /-- The slide shown. -/
  index : Nat
  /-- The width last measured of each slide that was measured. -/
  widths : List (Nat × τ)
  index_lt : index < slides.length

/-- Why there is no reader. -/
inductive ReaderFault where
  | noSlides
  | outOfRange (index : Int) (count : Nat)
  deriving DecidableEq

def ReaderFault.message : ReaderFault → String
  | .noSlides => "A reader needs at least one slide"
  | .outOfRange index count => s!"Initial slide {index} out of range 0..{count - 1}"

namespace Reader

variable {τ : Type}

/-- A reader that shows a slide first. -/
def start (slides : List (Slide τ)) (index : Int) : Except ReaderFault (Reader τ) :=
  if slides.isEmpty then .error .noSlides
  else if h : 0 ≤ index ∧ index < slides.length then
    .ok ⟨slides, index.toNat, [], by omega⟩
  else .error (.outOfRange index slides.length)

def count (r : Reader τ) : Nat := r.slides.length

def current (r : Reader τ) : Slide τ := r.slides.get ⟨r.index, r.index_lt⟩

def isLast (r : Reader τ) : Bool := r.index + 1 = r.count

/-- The slide after the one shown. -/
def upcoming? (r : Reader τ) : Option (Slide τ) := r.slides[r.index + 1]?

/-- The reader with another slide shown, if there is one of that number. -/
def show? (r : Reader τ) (index : Int) : Option (Reader τ) :=
  if h : 0 ≤ index ∧ index < r.slides.length then
    some { r with index := index.toNat, index_lt := by omega }
  else none

def next? (r : Reader τ) : Option (Reader τ) := if r.isLast then none else r.show? (r.index + 1)

def previous? (r : Reader τ) : Option (Reader τ) :=
  if r.index = 0 then none else r.show? (r.index - 1)

end Reader

/-! ## Scaling -/

/-- The size that slides are made for, and the smallest scale that is worth applying. -/
structure Layout (τ : Type) where
  width : τ
  height : τ
  epsilon : τ

variable {τ : Type} [Quantity τ]

/-- The layout with some of its sizes exchanged; a size of zero leaves the one that was there. -/
def Layout.override (base : Layout τ) (width height epsilon : Option τ) : Layout τ :=
  let size (given : Option τ) (default : τ) : τ :=
    match given with
    | some x => if same x zero then default else x
    | none => default
  ⟨size width base.width, size height base.height, epsilon.getD base.epsilon⟩

/-- A layout says that slides have no width, or no height. -/
inductive ScaleFault where
  | zeroSize
  deriving DecidableEq

def ScaleFault.message : ScaleFault → String
  | .zeroSize => "float division by zero"

/-- The scale at which a slide fits into a measured size; none if the width is what it was, or if
the slide would all but vanish. -/
def scale (layout : Layout τ) (previous : Option τ) (width height : τ) :
    Except ScaleFault (Option τ) :=
  if previous.any (same · width) then .ok none
  else
    match div? width layout.width, div? height layout.height with
    | some x, some y =>
      .ok (if less layout.epsilon (least x y) then some (least x y) else none)
    | _, _ => .error .zeroSize

/-- The pairs with the one of a key exchanged, or put behind all. -/
def putWidth (index : Nat) (width : τ) : List (Nat × τ) → List (Nat × τ)
  | [] => [(index, width)]
  | (i, w) :: rest =>
    if i = index then (i, width) :: rest else (i, w) :: putWidth index width rest

/-- The scale for the shown slide, and the reader with the measured width kept. -/
def Reader.measure (layout : Layout τ) (width height : τ) (r : Reader τ) :
    Except ScaleFault (Option τ × Reader τ) :=
  (scale layout (r.widths.lookup r.index) width height).map fun s =>
    (s, { r with widths := putWidth r.index width r.widths })

/-! ## Times of a rehearsal -/

/-- The slides with the times at which they appear.  Entry `i` is when slide `i` gave way to the
next one, so the first slide appears at zero; without entries nothing changes. -/
def retime (slides : List (Slide τ)) (times : List τ) : List (Slide τ) :=
  if times.isEmpty then slides
  else
    slides.zipIdx.map fun (s, i) =>
      match (zero :: times)[i]? with
      | some t => { s with time := t }
      | none => s

/-- When the last of `count` slides ends. -/
def endOf (times : List τ) (count : Nat) : τ :=
  if count = 0 then undefined else (times[count - 1]?).getD undefined

/-! ## Controls -/

structure View where
  index : Int
  count : Int
  previous : Bool
  next : Bool
  play : Bool := false
  playing : Bool := false
  stamp : Bool := false
  recording : Bool := false
  complete : Bool := false

/-- The number of the shown slide, counted from one, and how many there are. -/
def View.counter (v : View) : String := s!"{v.index + 1}/{v.count}"

def Reader.view (r : Reader τ) : View :=
  { index := r.index, count := r.count, previous := r.index > 0, next := !r.isLast }

/-! ## Notes -/

/-- What is reported of moves. -/
inductive Note (τ : Type) where
  | rejected (index : Int) (count : Nat)
  | moved (source target : Nat)
  | lectureAt (position : τ) (index : Nat)
  | userSeek (position : τ) (index : Nat)
  | everySlideTimed
  | takeClosed (number steps : Nat)
  | recording
  | exported

/-- The note of a move, if another slide is shown after it. -/
def Reader.moveNotes (before after : Reader τ) : List (Note τ) :=
  if before.index = after.index then [] else [.moved before.index after.index]

/-- The notes of a jump. -/
def Reader.jumpNotes (r : Reader τ) (index : Int) : List (Note τ) :=
  match r.show? index with
  | some r' => r.moveNotes r'
  | none => [.rejected index r.count]

end Lectern.Slides
