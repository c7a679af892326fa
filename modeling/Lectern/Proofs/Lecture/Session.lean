import Lectern.Proofs.Lecture.Run

/-!
# Seeks and what is told of them

The video answers each seek with one notification, some time later and in the order of the seeks.
A notification says nothing about its seek, so it is enough to count the ones still to come.

* `Session`, `Occurrence`, `Session.run`   a lecture with the notifications it may still expect;
* `Session.owed`       the notifications that the lecture will take for its own;
* `followMove_*`       what the lecture looks like after it followed a move.
-/

set_option linter.unusedSectionVars false

namespace Lectern.Slides
open Quantity

structure Session (τ : Type) where
  lecture : Lecture τ
  /-- How many notifications are still to come. -/
  pending : Nat

/-- One moment of a session without playback. -/
inductive Occurrence (τ : Type) where
  | next
  | previous
  | jump (index : Int)
  | ended
  /-- The user moves the video to a position. -/
  | scrub (position : τ)
  /-- The video begins or ceases to report that it is seeking. -/
  | busy (seeking : Bool)
  /-- The oldest notification arrives. -/
  | notify

variable {τ : Type} [Quantity τ]

namespace Session

/-- A lecture just made, whose first seek is under way. -/
def start (l : Lecture τ) : Session τ := ⟨l, 1⟩

/-- The lecture at the time a notification reaches it. -/
def told (s : Session τ) : Lecture τ :=
  { s.lecture with media := { s.lecture.media with seeking := false } }

/-- The session after a handler that seeks if it answers true. -/
def ask (s : Session τ) (step : Bool × Lecture τ) : Session τ :=
  ⟨step.2, if step.1 then s.pending + 1 else s.pending⟩

def act (s : Session τ) : Occurrence τ → Session τ
  | .next => s.ask s.lecture.next
  | .previous => s.ask s.lecture.previous
  | .jump index => s.ask (s.lecture.jump index)
  | .ended => s.ask s.lecture.ended
  | .scrub position =>
    ⟨{ s.lecture with media := { s.lecture.media with time := position } }, s.pending + 1⟩
  | .busy seeking =>
    { s with lecture := { s.lecture with media := { s.lecture.media with seeking } } }
  | .notify =>
    match s.pending with
    | 0 => s
    | n + 1 => ⟨s.told.seeked.2, n⟩

def run (s : Session τ) (occs : List (Occurrence τ)) : Session τ := occs.foldl act s

/-- How many of the notifications to come the lecture will take for its own. -/
def owed (s : Session τ) : Nat := if s.lecture.phase = .awaiting then 1 else 0

theorem owed_of_awaiting {s : Session τ} (h : s.lecture.phase = .awaiting) : s.owed = 1 := if_pos h

theorem owed_of_idle {s : Session τ} (h : s.lecture.phase = .idle) : s.owed = 0 :=
  if_neg (by rw [h]; exact Phase.noConfusion)

theorem act_notify_of_pos {s : Session τ} (h : 0 < s.pending) :
    s.act .notify = ⟨s.told.seeked.2, s.pending - 1⟩ := by
  obtain ⟨l, pending⟩ := s
  cases pending with
  | zero => exact absurd h (Nat.lt_irrefl 0)
  | succ n => rfl

end Session

/-! ## seeks of the lecture itself -/

namespace Lecture

/-- A lecture is made as if its reader had just moved to its first slide. -/
theorem start_eq_followMove (reader : Reader τ) (media : Media τ) (finish epsilon : τ) :
    start reader media finish epsilon =
      ({ reader, media, finish, epsilon } : Lecture τ).followMove reader := rfl

theorem followMove_reader (l : Lecture τ) (r : Reader τ) : (l.followMove r).reader = r :=
  refreshStamp_reader _

theorem followMove_phase (l : Lecture τ) (r : Reader τ) : (l.followMove r).phase = .awaiting :=
  refreshStamp_phase _

theorem followMove_time (l : Lecture τ) (r : Reader τ) :
    (l.followMove r).media.time = anchorOf (r.slides.take (r.index + 1)) := refreshStamp_time _

/-- A slide that has a time is started there. -/
theorem anchorOf_take_of_timed {slides : List (Slide τ)} {k : Nat} (hk : k < slides.length)
    (ht : slides[k].isTimed = true) : anchorOf (slides.take (k + 1)) = slides[k].time := by
  rw [anchorOf, List.take_succ_eq_append_getElem hk, List.reverse_append, List.reverse_singleton,
    List.singleton_append, List.find?_cons_of_pos ht]
  rfl

/-- An accepted move is one that the lecture follows; any other changes nothing. -/
theorem navigate_cases {l : Lecture τ} {move : Option (Reader τ)}
    (h : ∀ r, move = some r → ∃ i, l.reader.show? i = some r) :
    l.navigate move = (false, l) ∨
      ∃ r, r.slides = l.reader.slides ∧ l.navigate move = (true, l.followMove r) := by
  cases move with
  | none => exact .inl rfl
  | some r =>
    obtain ⟨i, hi⟩ := h r rfl
    exact .inr ⟨r, Reader.slides_of_show? hi, rfl⟩

end Lecture
end Lectern.Slides
