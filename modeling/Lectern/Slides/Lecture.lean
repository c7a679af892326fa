import Lectern.Slides.Reader

/-!
# Lectures

A lecture is a slide reader beside a video.  Each timed slide appears when the video reaches its
time.  Two kinds of seeks are told apart: one that the lecture asked for itself, after a move, is
taken note of and changes nothing; any other moves the reader to the slide of the new position.
Where the next slide has no time the video waits, and a stamp asks to go on by hand.

* `Media`       the video;
* `Lecture`     reader, video and what is known of seeks;
* `Event`       what can happen to a lecture, and `Lecture.handle` what it does.
-/

namespace Lectern.Slides
open Quantity

structure Media (τ : Type) where
  time : τ
  paused : Bool := true
  seeking : Bool := false
  visible : Bool := false
  duration : τ

/-- Whether the lecture waits to be told of a seek of its own. -/
inductive Phase where
  | idle
  | awaiting
  deriving DecidableEq

structure Lecture (τ : Type) where
  reader : Reader τ
  media : Media τ
  /-- When the last slide ends; if undefined, at the end of the video. -/
  finish : τ
  epsilon : τ
  phase : Phase := .idle
  stamp : Bool := false

variable {τ : Type} [Quantity τ]

/-- A video before anything is known of it. -/
def Media.fresh : Media τ := { time := zero, duration := undefined }

/-- The time of the last slide of a list that has one; zero if none has. -/
def anchorOf (slides : List (Slide τ)) : τ :=
  ((slides.reverse.find? (·.isTimed)).map (·.time)).getD zero

namespace Lecture

/-- Where the video stands when a slide is shown from its start. -/
def anchor (l : Lecture τ) (index : Nat) : τ := anchorOf (l.reader.slides.take (index + 1))

/-- As `anchor`, for the slides before a place that is counted from the end if it is negative. -/
def anchorAt (l : Lecture τ) (index : Int) : τ :=
  let bound := index + 1
  anchorOf (l.reader.slides.take
    (if bound < 0 then bound + l.reader.slides.length else bound).toNat)

/-- Asks the video for a position. -/
def seek (t : τ) (l : Lecture τ) : Lecture τ :=
  { l with phase := .awaiting, media := { l.media with time := t } }

/-- Playing on leads to the next slide, or there is none. -/
def isSyncable (l : Lecture τ) : Bool := l.reader.upcoming?.all (·.isTimed)

def pause (l : Lecture τ) : Lecture τ := { l with media := { l.media with paused := true } }

/-- The stamp as it must be for the shown slide; the video waits while it is there. -/
def refreshStamp (l : Lecture τ) : Lecture τ :=
  let l := { l with stamp := !l.isSyncable }
  if l.stamp then l.pause else l

def start (reader : Reader τ) (media : Media τ) (finish epsilon : τ) : Lecture τ :=
  let l : Lecture τ := { reader, media, finish, epsilon }
  (l.seek (l.anchor reader.index)).refreshStamp

/-- The video brought to the start of the slide that was moved to. -/
def followMove (l : Lecture τ) (reader : Reader τ) : Lecture τ :=
  let l := { l with reader }
  (l.seek (l.anchor reader.index)).refreshStamp

/-- A move that was accepted or not, with the lecture after it. -/
def navigate (l : Lecture τ) (move : Option (Reader τ)) : Bool × Lecture τ :=
  match move with
  | some reader => (true, l.followMove reader)
  | none => (false, l)

def next (l : Lecture τ) : Bool × Lecture τ := l.navigate l.reader.next?

def previous (l : Lecture τ) : Bool × Lecture τ := l.navigate l.reader.previous?

def jump (index : Int) (l : Lecture τ) : Bool × Lecture τ := l.navigate (l.reader.show? index)

/-- The reader moved to a slide, where there is one of that number. -/
def showSlide (index : Int) (l : Lecture τ) : Lecture τ :=
  { l with reader := (l.reader.show? index).getD l.reader }

/-- The end of the video: it waits at its start, and the first slide is shown. -/
def ended (l : Lecture τ) : Bool × Lecture τ :=
  (true, ((l.pause.seek zero).showSlide 0).refreshStamp)

/-- The video has played on to another position. -/
def positionUpdate (l : Lecture τ) : Bool × Lecture τ :=
  if l.media.seeking then (false, l)
  else
    match l.reader.upcoming? with
    | none =>
      let finish := if isUndefined l.finish then l.media.duration else l.finish
      if less (sub finish l.epsilon) l.media.time then l.ended else (false, l)
    | some s =>
      if !s.isTimed then
        (false, { l.pause with stamp := true }.seek (l.anchor l.reader.index))
      else if less (sub s.time l.epsilon) l.media.time then
        (true, (l.showSlide (l.reader.index + 1)).refreshStamp)
      else (false, l)

/-- The first timed slide that appears later than a position. -/
def firstLater? (l : Lecture τ) (position : τ) : Option Nat :=
  l.reader.slides.findIdx? fun s => s.isTimed && less (add position l.epsilon) s.time

/-- A seek has come to its end. -/
def seeked (l : Lecture τ) : Bool × Lecture τ :=
  if l.phase = .awaiting then (false, { l with phase := .idle })
  else if l.media.seeking then (false, l)
  else
    match l.firstLater? l.media.time with
    | some i => (true, (l.showSlide (i - 1 : Nat)).refreshStamp)
    | none => (true, (l.pause.showSlide (l.reader.count - 1 : Nat)).refreshStamp)

def played (l : Lecture τ) : Lecture τ := { l with media := { l.media with visible := true } }

def paused (l : Lecture τ) : Lecture τ := { l with media := { l.media with visible := false } }

/-- The play button, which does nothing where playing leads nowhere. -/
def play (l : Lecture τ) : Bool × Lecture τ :=
  if l.isSyncable then (true, { l with media := { l.media with paused := false } }) else (false, l)

def view (l : Lecture τ) : View :=
  { l.reader.view with play := l.isSyncable, playing := !l.media.paused, stamp := l.stamp }

end Lecture

/-- What can happen to a lecture. -/
inductive Event where
  | positionUpdate
  | seeked
  | ended
  | played
  | paused
  | play
  | pause
  | next
  | previous
  | jump (index : Int)
  deriving DecidableEq

namespace Lecture

/-- What an event answers, where it answers anything, and the lecture after it. -/
def handle (l : Lecture τ) : Event → Option Bool × Lecture τ
  | .positionUpdate => l.positionUpdate.map some id
  | .seeked => l.seeked.map some id
  | .ended => l.ended.map some id
  | .played => (none, l.played)
  | .paused => (none, l.paused)
  | .play => l.play.map some id
  | .pause => (some true, l.pause)
  | .next => l.next.map some id
  | .previous => l.previous.map some id
  | .jump index => (l.jump index).map some id

/-- What is reported of an event, `after` being the lecture after it. -/
def notes (l : Lecture τ) (e : Event) (answer : Option Bool) (after : Lecture τ) : List (Note τ) :=
  let moves := l.reader.moveNotes after.reader
  match e with
  | .jump index => l.reader.jumpNotes index
  | .positionUpdate =>
    if answer = some true && !l.reader.isLast then
      moves ++ [.lectureAt l.media.time after.reader.index]
    else moves
  | .seeked =>
    if answer = some true then moves ++ [.userSeek l.media.time after.reader.index] else moves
  | _ => moves

end Lecture
end Lectern.Slides
