import Lectern.Proofs.Lecture.Run
import Lectern.Proofs.Times

/-!
# The stamp over whole runs

A lecture waits exactly where it cannot know when to go on.  Numbers may be anything here:
undefined, infinite, out of order.

* `Stamped`           the stamp is as the shown slide asks;
* `Waits`             the video is paused while the stamp shows;
* `OnPage`            what a page may rely on at every moment;
* `onPage_throughout` it may, whatever happens.
-/

namespace Lectern.Slides.Lecture
open Quantity

variable {τ : Type} [Quantity τ]

/-- The stamp shows where playing leads to a slide without a time, and nowhere else. -/
def Stamped (l : Lecture τ) : Prop := l.stamp = !l.isSyncable

/-- The video is paused while the stamp shows. -/
def Waits (l : Lecture τ) : Prop := l.stamp = true → l.media.paused = true

/-! ## one step -/

theorem stamped_refreshStamp (l : Lecture τ) : l.refreshStamp.Stamped := by
  unfold Stamped
  rw [isSyncable_congr (refreshStamp_reader l), refreshStamp_eq]

theorem waits_refreshStamp (l : Lecture τ) : l.refreshStamp.Waits := by
  intro h
  rw [refreshStamp_eq] at h ⊢
  show (!l.isSyncable || l.media.paused) = true
  rw [show (!l.isSyncable) = true from h, Bool.true_or]

theorem stamped_of_outcome {l m : Lecture τ} (o : Outcome l m) (h : l.Stamped) : m.Stamped := by
  cases o with
  | kept page reader_eq stamp_eq =>
    unfold Stamped
    rw [stamp_eq, isSyncable_congr reader_eq]
    exact h
  | refreshed => exact stamped_refreshStamp _
  | stopped hu =>
    show true = !l.isSyncable
    rw [hu]
    rfl

/-- The video is set playing only where the stamp does not show. -/
theorem waits_of_outcome {l m : Lecture τ} (o : Outcome l m) (h : l.Stamped) (w : l.Waits) :
    m.Waits := by
  cases o with
  | kept page reader_eq stamp_eq plays =>
    intro hs
    rw [stamp_eq] at hs
    rcases plays (w hs) with hm | hl
    · exact hm
    · have hs' : l.stamp = !l.isSyncable := h
      rw [hs, hl] at hs'
      exact absurd hs' (by decide)
  | refreshed => exact waits_refreshStamp _
  | stopped => exact fun _ => rfl

theorem stamped_act {l : Lecture τ} (h : l.Stamped) (a : Action τ) : (l.act a).Stamped := by
  cases a with
  | event e => exact stamped_of_outcome (outcome_handle l e) h
  | host c => exact h

theorem waits_act {l : Lecture τ} (h : l.Stamped) (w : l.Waits) {a : Action τ}
    (ha : a.isHostPlay = false) : (l.act a).Waits := by
  cases a with
  | event e => exact waits_of_outcome (outcome_handle l e) h w
  | host c =>
    intro hs
    show c.paused.getD l.media.paused = true
    cases hc : c.paused with
    | none => exact w hs
    | some b =>
      cases b with
      | true => rfl
      | false => exact absurd ha (by rw [Action.isHostPlay, hc]; decide)

/-! ## whole runs -/

theorem stamped_run {l : Lecture τ} (h : l.Stamped) (acts : List (Action τ)) :
    (l.run acts).Stamped := by
  induction acts generalizing l with
  | nil => exact h
  | cons a acts ih => exact ih (stamped_act h a)

theorem waits_run {l : Lecture τ} (h : l.Stamped) (w : l.Waits) {acts : List (Action τ)}
    (ha : ∀ a ∈ acts, a.isHostPlay = false) : (l.run acts).Waits := by
  induction acts generalizing l with
  | nil => exact w
  | cons a acts ih =>
    have w' := waits_act h w (ha a List.mem_cons_self)
    exact ih (stamped_act h a) w' fun b hb => ha b (List.mem_cons_of_mem a hb)

/-- The play button while the stamp is right. -/
theorem Stamped.play_eq {l : Lecture τ} (h : l.Stamped) :
    l.play = if l.stamp then (false, l)
      else (true, { l with media := { l.media with paused := false } }) := by
  unfold play
  rw [show l.stamp = !l.isSyncable from h]
  cases l.isSyncable <;> rfl

/-- What a page may rely on at every moment of its lecture. -/
structure OnPage (slides : List (Slide τ)) (l : Lecture τ) : Prop where
  slides_eq : l.reader.slides = slides
  index_lt : l.reader.index < slides.length
  /-- Wherever a handler looks at the slide after the shown one, there is one. -/
  next_lt : l.reader.isLast = false → l.reader.index + 1 < slides.length
  stamp_iff : l.stamp = true ↔
    ∃ h : l.reader.index + 1 < slides.length, isUndefined slides[l.reader.index + 1].time = true
  view_stamp : l.view.stamp = l.stamp
  view_play : l.view.play = !l.stamp
  play_refused : l.stamp = true → l.play = (false, l)
  play_accepted : l.stamp = false →
    l.play = (true, { l with media := { l.media with paused := false } })

theorem Stamped.onPage {l : Lecture τ} (h : l.Stamped) : l.OnPage l.reader.slides where
  slides_eq := rfl
  index_lt := l.reader.index_lt
  next_lt := Reader.next_lt_of_not_last
  stamp_iff := by
    rw [← isSyncable_eq_false_iff, show l.stamp = !l.isSyncable from h, Bool.not_eq_true']
  view_stamp := rfl
  view_play := by
    rw [show l.stamp = !l.isSyncable from h, Bool.not_not]
    rfl
  play_refused hs := by rw [h.play_eq, if_pos hs]
  play_accepted hs := by rw [h.play_eq, if_neg (by rw [hs]; exact Bool.false_ne_true)]

theorem stamped_start (reader : Reader τ) (media : Media τ) (finish epsilon : τ) :
    (start reader media finish epsilon).Stamped := stamped_refreshStamp _

theorem waits_start (reader : Reader τ) (media : Media τ) (finish epsilon : τ) :
    (start reader media finish epsilon).Waits := waits_refreshStamp _

/-- **The stamp tells the truth at every moment.**  From any slide of any page, after any events
with any changes of the host's between them, the shown slide is one of the page, the stamp shows
exactly where the next slide has no time, and playing is refused exactly then.  As long as the
host does not set the video playing itself, the video waits whenever the stamp shows. -/
theorem onPage_throughout (slides : List (Slide τ)) (index : Int) (h0 : 0 ≤ index)
    (h1 : index < slides.length) (media : Media τ) (finish epsilon : τ) :
    ∃ reader, Reader.start slides index = .ok reader ∧ (reader.index : Int) = index ∧
      ∀ acts : List (Action τ),
        ((start reader media finish epsilon).run acts).OnPage slides ∧
        ((∀ a ∈ acts, a.isHostPlay = false) →
          ((start reader media finish epsilon).run acts).stamp = true →
          ((start reader media finish epsilon).run acts).media.paused = true) := by
  obtain ⟨reader, hstart, hslides, hindex⟩ := Reader.exists_start h0 h1
  refine ⟨reader, hstart, hindex, fun acts => ?_⟩
  have hs := stamped_start reader media finish epsilon
  have hw := waits_start reader media finish epsilon
  refine ⟨?_, waits_run hs hw⟩
  have he : ((start reader media finish epsilon).run acts).reader.slides = slides :=
    ((samePage_start reader media finish epsilon).trans (samePage_run _ acts)).slides_eq.trans
      hslides
  rw [← he]
  exact (stamped_run hs acts).onPage

/-- Three slides, of which the middle one has no time. -/
def partlyTimed : List (Slide (Exact ℚ)) :=
  [⟨0, .num 0, []⟩, ⟨1, .undefined, []⟩, ⟨2, .num 5, []⟩]

/-- On the first slide nothing plays; the second one plays, and going back from there stops it. -/
theorem onPage_throughout_step_back :
    ∃ reader, Reader.start partlyTimed 0 = .ok reader ∧
      let l := (start reader .fresh .undefined (.num 1)).run
        [.event .next, .event .play, .host { time := some (.num 3) }, .event .previous]
      l.OnPage partlyTimed ∧ l.stamp = true ∧ l.media.paused = true := by
  obtain ⟨reader, hstart, -, h⟩ := onPage_throughout partlyTimed 0 (by decide) (by decide)
    Media.fresh .undefined (.num 1)
  obtain rfl : _ = reader := Except.ok.inj hstart
  obtain ⟨hpage, hwaits⟩ :=
    h [.event .next, .event .play, .host { time := some (.num 3) }, .event .previous]
  exact ⟨_, hstart, hpage, rfl, hwaits (by decide) rfl⟩

end Lectern.Slides.Lecture
