import Lectern.Proofs.Reader
import Lectern.Slides.Lecture

/-!
# Runs of a lecture

What the handlers of a lecture do, one equation for each case, and what runs are: events in any
order with changes of the video between them that no event tells of.

* `Media.change`, `Action`, `Lecture.run`   the host's own changes, and runs;
* `refreshStamp_eq`                stamp and pause in one equation;
* `positionUpdate_of_*`, `seeked_of_*`, `ended_*`   the handlers case by case;
* `Outcome`, `outcome_handle`      what any handler can leave behind;
* `SamePage`, `samePage_run`       no run exchanges the slides, the end or the tolerance.
-/

namespace Lectern.Slides
open Quantity

variable {τ : Type}

/-- What the host page does to the video on its own; what is not given stays. -/
structure HostChange (τ : Type) where
  time : Option τ := none
  paused : Option Bool := none
  seeking : Option Bool := none
  visible : Option Bool := none
  duration : Option τ := none

def Media.change (c : HostChange τ) (m : Media τ) : Media τ where
  time := c.time.getD m.time
  paused := c.paused.getD m.paused
  seeking := c.seeking.getD m.seeking
  visible := c.visible.getD m.visible
  duration := c.duration.getD m.duration

/-- One moment of a run. -/
inductive Action (τ : Type) where
  | event (e : Event)
  | host (c : HostChange τ)

/-- The host sets the video playing itself. -/
def Action.isHostPlay : Action τ → Bool
  | .event _ => false
  | .host c => c.paused == some false

namespace Lecture

section
variable [Quantity τ]

def act (l : Lecture τ) : Action τ → Lecture τ
  | .event e => (l.handle e).2
  | .host c => { l with media := l.media.change c }

def run (l : Lecture τ) (acts : List (Action τ)) : Lecture τ := acts.foldl act l

/-- The lecture once the video has come to stand at a position. -/
def atPosition (t : τ) (l : Lecture τ) : Lecture τ :=
  l.act (.host { time := some t, seeking := some false })

theorem run_nil (l : Lecture τ) : l.run [] = l := rfl
theorem run_cons (l : Lecture τ) (a : Action τ) (acts : List (Action τ)) :
    l.run (a :: acts) = (l.act a).run acts := rfl

end

/-! ## seeks, pauses and the stamp -/

/-- The slide shown after the reader was sent to one that exists. -/
theorem showSlide_of_lt (l : Lecture τ) {k : Nat} (h : k < l.reader.slides.length) :
    l.showSlide k = { l with reader := { l.reader with index := k, index_lt := h } } := by
  rw [showSlide, l.reader.show?_of_lt h]
  rfl

theorem showSlide_slides (l : Lecture τ) (i : Int) :
    (l.showSlide i).reader.slides = l.reader.slides := by
  unfold showSlide
  cases h : l.reader.show? i with
  | none => rfl
  | some r => exact Reader.slides_of_show? h

/-- The slides, the end and the tolerance are what they were. -/
structure SamePage (l l' : Lecture τ) : Prop where
  slides_eq : l'.reader.slides = l.reader.slides
  finish_eq : l'.finish = l.finish
  epsilon_eq : l'.epsilon = l.epsilon

namespace SamePage

theorem refl (l : Lecture τ) : SamePage l l := ⟨rfl, rfl, rfl⟩

theorem trans {l m n : Lecture τ} (h : SamePage l m) (h' : SamePage m n) : SamePage l n :=
  ⟨h'.slides_eq.trans h.slides_eq, h'.finish_eq.trans h.finish_eq,
    h'.epsilon_eq.trans h.epsilon_eq⟩

theorem showSlide (l : Lecture τ) (i : Int) : SamePage l (l.showSlide i) :=
  ⟨showSlide_slides l i, rfl, rfl⟩

end SamePage

variable [Quantity τ]

theorem isSyncable_eq (l : Lecture τ) : l.isSyncable = l.reader.upcoming?.all (·.isTimed) := rfl

theorem isSyncable_congr {l m : Lecture τ} (h : m.reader = l.reader) :
    m.isSyncable = l.isSyncable := by
  rw [isSyncable_eq, isSyncable_eq, h]

theorem isSyncable_eq_false_iff (l : Lecture τ) :
    l.isSyncable = false ↔ ∃ h : l.reader.index + 1 < l.reader.slides.length,
      isUndefined l.reader.slides[l.reader.index + 1].time = true := by
  rw [isSyncable_eq]
  by_cases hn : l.reader.index + 1 < l.reader.slides.length
  · rw [Reader.upcoming?_of_lt hn]
    simp only [Option.all_some, Slide.isTimed, Bool.not_eq_false', hn, exists_true_left]
  · have hl : l.reader.upcoming? = none := List.getElem?_eq_none (Nat.le_of_not_lt hn)
    rw [hl]
    exact ⟨fun h => absurd h (by simp), fun ⟨h, _⟩ => absurd h hn⟩

/-- Stamp and pause are set together and nothing else is touched. -/
theorem refreshStamp_eq (l : Lecture τ) :
    l.refreshStamp = { l with
      stamp := !l.isSyncable
      media := { l.media with paused := !l.isSyncable || l.media.paused } } := by
  unfold refreshStamp
  cases h : l.isSyncable with
  | true => rfl
  | false => rfl

theorem refreshStamp_reader (l : Lecture τ) : l.refreshStamp.reader = l.reader := by
  rw [refreshStamp_eq]

theorem refreshStamp_phase (l : Lecture τ) : l.refreshStamp.phase = l.phase := by
  rw [refreshStamp_eq]

theorem refreshStamp_time (l : Lecture τ) : l.refreshStamp.media.time = l.media.time := by
  rw [refreshStamp_eq]

theorem refreshStamp_seeking (l : Lecture τ) :
    l.refreshStamp.media.seeking = l.media.seeking := by
  rw [refreshStamp_eq]

/-! ## the handlers case by case -/

theorem positionUpdate_of_seeking {l : Lecture τ} (h : l.media.seeking = true) :
    l.positionUpdate = (false, l) := by
  rw [positionUpdate, if_pos h]

/-- When the last slide ends: as recorded, or with the video. -/
def closing (l : Lecture τ) : τ := if isUndefined l.finish then l.media.duration else l.finish

theorem positionUpdate_of_last {l : Lecture τ} (h : l.media.seeking = false)
    (hl : l.reader.isLast = true) :
    l.positionUpdate =
      if less (sub l.closing l.epsilon) l.media.time then l.ended else (false, l) := by
  rw [positionUpdate, if_neg (by rw [h]; exact Bool.false_ne_true),
    l.reader.upcoming?_eq_none_iff.mpr hl]
  rfl

theorem positionUpdate_of_untimed {l : Lecture τ} (h : l.media.seeking = false)
    (hn : l.reader.index + 1 < l.reader.slides.length)
    (hu : l.reader.slides[l.reader.index + 1].isTimed = false) :
    l.positionUpdate =
      (false, { l.pause with stamp := true }.seek (l.anchor l.reader.index)) := by
  rw [positionUpdate, if_neg (by rw [h]; exact Bool.false_ne_true), Reader.upcoming?_of_lt hn]
  simp only [hu, Bool.not_false, if_true]

theorem positionUpdate_of_timed {l : Lecture τ} (h : l.media.seeking = false)
    (hn : l.reader.index + 1 < l.reader.slides.length)
    (ht : l.reader.slides[l.reader.index + 1].isTimed = true) :
    l.positionUpdate =
      if less (sub l.reader.slides[l.reader.index + 1].time l.epsilon) l.media.time then
        (true, (l.showSlide (l.reader.index + 1 : Nat)).refreshStamp)
      else (false, l) := by
  rw [positionUpdate, if_neg (by rw [h]; exact Bool.false_ne_true), Reader.upcoming?_of_lt hn]
  simp only [ht, Bool.not_true, Bool.false_eq_true, if_false]
  rfl

theorem seeked_of_awaiting {l : Lecture τ} (h : l.phase = .awaiting) :
    l.seeked = (false, { l with phase := .idle }) := by
  rw [seeked, if_pos h]

theorem seeked_of_seeking {l : Lecture τ} (h : l.phase = .idle) (hs : l.media.seeking = true) :
    l.seeked = (false, l) := by
  rw [seeked, if_neg (by rw [h]; exact Phase.noConfusion), if_pos hs]

/-- A slide appears later than a position. -/
def appearsAfter (l : Lecture τ) (position : τ) (s : Slide τ) : Bool :=
  s.isTimed && less (add position l.epsilon) s.time

/-- A seek of the user leads to the slide before the first that appears later.  Past all of them the
last slide is shown, and the video is paused beforehand. -/
theorem seeked_of_user {l : Lecture τ} (h : l.phase = .idle) (hs : l.media.seeking = false) :
    ∃ m, (m = l ∨ m = l.pause) ∧ l.seeked = (true, (m.showSlide
      (l.reader.slides.findIdx (l.appearsAfter l.media.time) - 1 : Nat)).refreshStamp) := by
  rw [seeked, if_neg (by rw [h]; exact Phase.noConfusion),
    if_neg (by rw [hs]; exact Bool.false_ne_true)]
  cases hi : l.firstLater? l.media.time with
  | some i =>
    have hi' : l.reader.slides.findIdx? (l.appearsAfter l.media.time) = some i := hi
    rw [(List.findIdx?_eq_some_iff_findIdx_eq.mp hi').2]
    exact ⟨l, .inl rfl, rfl⟩
  | none =>
    have hi' : l.reader.slides.findIdx? (l.appearsAfter l.media.time) = none := hi
    rw [List.findIdx?_eq_none_iff_findIdx_eq.mp hi']
    exact ⟨l.pause, .inr rfl, rfl⟩

theorem ended_eq (l : Lecture τ) :
    l.ended = (true, ((l.pause.seek zero).showSlide (0 : Nat)).refreshStamp) := rfl

theorem ended_phase (l : Lecture τ) : l.ended.2.phase = .awaiting := refreshStamp_phase _

theorem ended_time (l : Lecture τ) : l.ended.2.media.time = zero := refreshStamp_time _

theorem ended_index (l : Lecture τ) : l.ended.2.reader.index = 0 := by
  have hpos : 0 < (l.pause.seek zero).reader.slides.length :=
    Nat.lt_of_le_of_lt (Nat.zero_le _) l.reader.index_lt
  rw [ended_eq]
  show (refreshStamp _).reader.index = 0
  rw [refreshStamp_reader, showSlide_of_lt _ hpos]

/-! ## what a handler leaves behind -/

theorem SamePage.refreshStamp (l : Lecture τ) : SamePage l l.refreshStamp := by
  rw [refreshStamp_eq]
  exact ⟨rfl, rfl, rfl⟩

/-- What a handler can leave behind.  Wherever it moves the reader it refreshes the stamp. -/
inductive Outcome (l : Lecture τ) : Lecture τ → Prop
  /-- Reader and stamp stay, and the video is set playing only where that leads somewhere. -/
  | kept {m : Lecture τ} (page : SamePage l m) (reader_eq : m.reader = l.reader)
      (stamp_eq : m.stamp = l.stamp)
      (plays : l.media.paused = true → m.media.paused = true ∨ l.isSyncable = true) : Outcome l m
  | refreshed {m : Lecture τ} (page : SamePage l m) : Outcome l m.refreshStamp
  /-- The one place where the stamp is set by hand: the next slide is seen to have no time. -/
  | stopped (h : l.isSyncable = false) :
      Outcome l ({ l.pause with stamp := true }.seek (l.anchor l.reader.index))

namespace Outcome

theorem refl (l : Lecture τ) : Outcome l l := kept (.refl l) rfl rfl .inl

theorem followMove {l : Lecture τ} {r : Reader τ} (h : r.slides = l.reader.slides) :
    Outcome l (l.followMove r) := by
  have hpage : SamePage l (({ l with reader := r } : Lecture τ).seek
    (anchorOf (r.slides.take (r.index + 1)))) := ⟨h, rfl, rfl⟩
  exact refreshed hpage

theorem navigate {l : Lecture τ} {move : Option (Reader τ)}
    (h : ∀ r, move = some r → ∃ i, l.reader.show? i = some r) : Outcome l (l.navigate move).2 := by
  cases move with
  | none => exact refl l
  | some r =>
    obtain ⟨i, hi⟩ := h r rfl
    exact followMove (Reader.slides_of_show? hi)

theorem ended (l : Lecture τ) : Outcome l l.ended.2 := by
  have hpage : SamePage l (l.pause.seek zero) := ⟨rfl, rfl, rfl⟩
  exact refreshed (hpage.trans (.showSlide _ 0))

theorem positionUpdate (l : Lecture τ) : Outcome l l.positionUpdate.2 := by
  cases hs : l.media.seeking with
  | true =>
    rw [positionUpdate_of_seeking hs]
    exact refl l
  | false =>
    cases hl : l.reader.isLast with
    | true =>
      rw [positionUpdate_of_last hs hl]
      split
      · exact ended l
      · exact refl l
    | false =>
      have hn := Reader.next_lt_of_not_last hl
      cases ht : l.reader.slides[l.reader.index + 1].isTimed with
      | false =>
        rw [positionUpdate_of_untimed hs hn ht]
        exact stopped (l.isSyncable_eq_false_iff.mpr ⟨hn, by simpa [Slide.isTimed] using ht⟩)
      | true =>
        rw [positionUpdate_of_timed hs hn ht]
        split
        · exact refreshed (.showSlide l _)
        · exact refl l

theorem seeked (l : Lecture τ) : Outcome l l.seeked.2 := by
  cases hp : l.phase with
  | awaiting =>
    rw [seeked_of_awaiting hp]
    exact kept ⟨rfl, rfl, rfl⟩ rfl rfl .inl
  | idle =>
    cases hs : l.media.seeking with
    | true =>
      rw [seeked_of_seeking hp hs]
      exact refl l
    | false =>
      obtain ⟨m, hm, e⟩ := seeked_of_user hp hs
      have hpage : SamePage l m := by
        rcases hm with hm | hm
        · rw [hm]
          exact .refl l
        · rw [hm]
          exact ⟨rfl, rfl, rfl⟩
      rw [e]
      exact refreshed (hpage.trans (.showSlide m _))

theorem play (l : Lecture τ) : Outcome l l.play.2 := by
  unfold Lecture.play
  cases h : l.isSyncable with
  | true => exact kept ⟨rfl, rfl, rfl⟩ rfl rfl fun _ => .inr h
  | false => exact refl l

end Outcome

theorem outcome_handle (l : Lecture τ) (e : Event) : Outcome l (l.handle e).2 := by
  cases e with
  | positionUpdate => exact .positionUpdate l
  | seeked => exact .seeked l
  | ended => exact .ended l
  | played => exact .kept ⟨rfl, rfl, rfl⟩ rfl rfl .inl
  | paused => exact .kept ⟨rfl, rfl, rfl⟩ rfl rfl .inl
  | play => exact .play l
  | pause => exact .kept ⟨rfl, rfl, rfl⟩ rfl rfl fun _ => .inl rfl
  | next => exact .navigate fun _ => Reader.exists_show?_of_next?
  | previous => exact .navigate fun _ => Reader.exists_show?_of_previous?
  | jump i => exact .navigate fun _ h => ⟨i, h⟩

/-! ## the page of a run -/

theorem Outcome.samePage {l m : Lecture τ} (h : Outcome l m) : SamePage l m := by
  cases h with
  | kept page => exact page
  | refreshed page => exact page.trans (.refreshStamp _)
  | stopped => exact ⟨rfl, rfl, rfl⟩

theorem samePage_act (l : Lecture τ) (a : Action τ) : SamePage l (l.act a) := by
  cases a with
  | event e => exact (outcome_handle l e).samePage
  | host c => exact ⟨rfl, rfl, rfl⟩

/-- No run exchanges the slides, the end or the tolerance. -/
theorem samePage_run (l : Lecture τ) (acts : List (Action τ)) : SamePage l (l.run acts) := by
  induction acts generalizing l with
  | nil => exact .refl l
  | cons a acts ih =>
    rw [run_cons]
    exact (samePage_act l a).trans (ih (l.act a))

theorem samePage_start (reader : Reader τ) (media : Media τ) (finish epsilon : τ) :
    SamePage { reader, media, finish, epsilon } (start reader media finish epsilon) :=
  (Outcome.followMove (l := { reader, media, finish, epsilon }) rfl).samePage

end Lecture
end Lectern.Slides
