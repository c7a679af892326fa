import Lectern.Proofs.Lecture.Run
import Lectern.Proofs.Times

/-!
# The slide of a position

A seek looks for the slide of a position among all slides at once, playback goes on from slide
to slide.  On a page whose slides all have times, in order, both come to the same slide.

* `seeked_index`                where a seek leads to;
* `positionUpdate_advances`     playback moves by one slide;
* `playOn`                      playback at a standstill: told of one position until nothing moves;
* `TimedBy`, `At`               lectures over a page with given times, and at a position;
* `playOn_agrees_with_seeked`   playback stops where the seek leads to, unless it is past it.
-/

set_option linter.unusedSectionVars false
set_option linter.unusedVariables false

namespace Lectern.Slides
open Quantity

namespace Lecture

section
variable {τ : Type} [Quantity τ]

/-! ## seeks of the user -/

variable {l : Lecture τ} (h : l.phase = .idle) (hs : l.media.seeking = false)
include h hs

theorem seeked_answer : l.seeked.1 = true := by
  obtain ⟨m, -, e⟩ := seeked_of_user h hs
  rw [e]

/-- The shown slide is the one before the first that appears later, or the first one. -/
theorem seeked_index :
    l.seeked.2.reader.index = l.reader.slides.findIdx (l.appearsAfter l.media.time) - 1 := by
  obtain ⟨m, hm, e⟩ := seeked_of_user h hs
  have hreader : m.reader = l.reader := by
    rcases hm with hm | hm
    · rw [hm]
    · rw [hm]
      rfl
  have hpos : 0 < l.reader.slides.length := Nat.lt_of_le_of_lt (Nat.zero_le _) l.reader.index_lt
  have hle : l.reader.slides.findIdx (l.appearsAfter l.media.time) ≤ l.reader.slides.length :=
    List.findIdx_le_length
  have hlt : l.reader.slides.findIdx (l.appearsAfter l.media.time) - 1 <
      m.reader.slides.length := by
    rw [hreader]
    omega
  rw [e, refreshStamp_reader, showSlide_of_lt m hlt]

theorem seeked_time : l.seeked.2.media.time = l.media.time := by
  obtain ⟨m, hm, e⟩ := seeked_of_user h hs
  rw [e, refreshStamp_time]
  rcases hm with hm | hm
  · rw [hm]
    rfl
  · rw [hm]
    rfl

theorem seeked_phase : l.seeked.2.phase = .idle := by
  obtain ⟨m, hm, e⟩ := seeked_of_user h hs
  rw [e, refreshStamp_phase]
  rcases hm with hm | hm
  · rw [hm]
    exact h
  · rw [hm]
    exact h

end

/-! ## playback at one position -/

section
variable {τ : Type} [Quantity τ]

/-- Before the last slide an answer of true says that the next slide is shown. -/
theorem positionUpdate_advances {l : Lecture τ} (hl : l.reader.isLast = false)
    (h : l.positionUpdate.1 = true) :
    l.positionUpdate.2.reader.slides = l.reader.slides ∧
      l.positionUpdate.2.reader.index = l.reader.index + 1 := by
  refine ⟨(Outcome.positionUpdate l).samePage.slides_eq, ?_⟩
  have hn := Reader.next_lt_of_not_last hl
  cases hs : l.media.seeking with
  | true =>
    rw [positionUpdate_of_seeking hs] at h
    exact absurd h Bool.false_ne_true
  | false =>
    cases ht : l.reader.slides[l.reader.index + 1].isTimed with
    | false =>
      rw [positionUpdate_of_untimed hs hn ht] at h
      exact absurd h Bool.false_ne_true
    | true =>
      rw [positionUpdate_of_timed hs hn ht] at h ⊢
      split at h
      · rename_i hless
        rw [if_pos hless]
        show (refreshStamp _).reader.index = _
        rw [refreshStamp_reader, showSlide_of_lt l hn]
      · exact absurd h Bool.false_ne_true

/-- The video reports its position again and again, until nothing moves or the last slide is shown:
the slides that come up on the way, and the lecture then. -/
def playOn (l : Lecture τ) : List Nat × Lecture τ :=
  if hl : l.reader.isLast = true then ([], l)
  else if h : l.positionUpdate.1 = true then
    (l.positionUpdate.2.reader.index :: l.positionUpdate.2.playOn.1, l.positionUpdate.2.playOn.2)
  else ([], l.positionUpdate.2)
termination_by l.reader.slides.length - l.reader.index
decreasing_by all_goals
  obtain ⟨hslides, hindex⟩ := positionUpdate_advances (Bool.eq_false_iff.mpr hl) h
  have hlt := l.reader.index_lt
  rw [hslides, hindex]
  omega

theorem playOn_of_last {l : Lecture τ} (hl : l.reader.isLast = true) : l.playOn = ([], l) := by
  rw [playOn, dif_pos hl]

theorem playOn_of_true {l : Lecture τ} (hl : l.reader.isLast = false)
    (h : l.positionUpdate.1 = true) :
    l.playOn = (l.positionUpdate.2.reader.index :: l.positionUpdate.2.playOn.1,
      l.positionUpdate.2.playOn.2) := by
  rw [playOn, dif_neg (by rw [hl]; exact Bool.false_ne_true), dif_pos h]

theorem playOn_of_false {l : Lecture τ} (hl : l.reader.isLast = false)
    (h : l.positionUpdate.1 = false) : l.playOn = ([], l.positionUpdate.2) := by
  rw [playOn, dif_neg (by rw [hl]; exact Bool.false_ne_true),
    dif_neg (by rw [h]; exact Bool.false_ne_true)]

end

/-! ## pages whose slides all have times -/

section
variable {K : Type} [Field K] [LinearOrder K]

/-- The slides appear at given times. -/
structure TimedBy (times : List K) (epsilon : K) (l : Lecture (Exact K)) : Prop where
  times_eq : l.reader.slides.map (·.time) = Exact.nums times
  epsilon_eq : l.epsilon = .num epsilon

/-- On such a page the video stands at a position and no seek is under way. -/
structure At (times : List K) (epsilon position : K) (l : Lecture (Exact K)) : Prop
    extends TimedBy times epsilon l where
  time_eq : l.media.time = .num position
  seeking_eq : l.media.seeking = false

variable {times : List K} {epsilon p : K} {l : Lecture (Exact K)}

theorem TimedBy.of_samePage (h : l.TimedBy times epsilon) {m : Lecture (Exact K)}
    (hm : SamePage l m) : m.TimedBy times epsilon :=
  ⟨by rw [hm.slides_eq, h.times_eq], hm.epsilon_eq.trans h.epsilon_eq⟩

theorem TimedBy.atPosition (h : l.TimedBy times epsilon) (p : K) :
    (l.atPosition (.num p)).At times epsilon p :=
  ⟨⟨h.times_eq, h.epsilon_eq⟩, rfl, rfl⟩

theorem TimedBy.length_eq (h : l.TimedBy times epsilon) :
    l.reader.slides.length = times.length := by
  have e := congrArg List.length h.times_eq
  rwa [List.length_map, Exact.nums, List.length_map] at e

theorem TimedBy.index_lt (h : l.TimedBy times epsilon) : l.reader.index < times.length :=
  h.length_eq ▸ l.reader.index_lt

theorem TimedBy.isLast_iff (h : l.TimedBy times epsilon) :
    l.reader.isLast = true ↔ l.reader.index + 1 = times.length := by
  rw [Reader.isLast_iff, h.length_eq]

theorem TimedBy.time_getElem (h : l.TimedBy times epsilon) {k : Nat} (hk : k < times.length)
    (hr : k < l.reader.slides.length) : l.reader.slides[k].time = .num times[k] := by
  have e : (l.reader.slides.map (·.time))[k]? = (Exact.nums times)[k]? := by rw [h.times_eq]
  rw [Exact.nums, List.getElem?_map, List.getElem?_map, List.getElem?_eq_getElem hk,
    List.getElem?_eq_getElem hr] at e
  exact Option.some.inj e

theorem TimedBy.isTimed_getElem (h : l.TimedBy times epsilon) {k : Nat}
    (hr : k < l.reader.slides.length) : l.reader.slides[k].isTimed = true := by
  rw [Slide.isTimed, h.time_getElem (h.length_eq ▸ hr) hr]
  rfl

/-- The first slide that appears later than a position, among the times alone. -/
theorem TimedBy.findIdx_appearsAfter (h : l.TimedBy times epsilon) (p : K) :
    l.reader.slides.findIdx (l.appearsAfter (.num p)) =
      firstAfter times (p + epsilon) := by
  have e : l.appearsAfter (.num p) = (fun x => !isUndefined x && less (.num (p + epsilon)) x)
      ∘ (·.time) := by
    funext s
    rw [appearsAfter, h.epsilon_eq]
    rfl
  rw [e, ← List.findIdx_map, h.times_eq, Exact.nums, List.findIdx_map]
  rfl

/-- Where a seek of the user leads to. -/
theorem At.seeked_index (h : l.At times epsilon p) (hp : l.phase = .idle) :
    l.seeked.2.reader.index = firstAfter times (p + epsilon) - 1 := by
  rw [Lecture.seeked_index hp h.seeking_eq, h.time_eq, h.findIdx_appearsAfter p]

/-- One report of the position. -/
theorem At.positionUpdate_eq (h : l.At times epsilon p) (hn : l.reader.index + 1 < times.length) :
    l.positionUpdate = if times[l.reader.index + 1] - epsilon < p then
      (true, (l.showSlide (l.reader.index + 1 : Nat)).refreshStamp) else (false, l) := by
  have hr : l.reader.index + 1 < l.reader.slides.length := h.length_eq.symm ▸ hn
  rw [positionUpdate_of_timed h.seeking_eq hr (h.isTimed_getElem hr), h.time_getElem hn hr,
    h.epsilon_eq, h.time_eq]
  simp only [Exact.sub_num, Exact.less_num, decide_eq_true_eq]

/-- On the last slide, where the end is known, a report of the position either ends the lecture or
changes nothing. -/
theorem At.positionUpdate_wraps {finish : K} (h : l.At times epsilon p)
    (hl : l.reader.isLast = true) (hf : l.finish = .num finish) :
    (l.positionUpdate.1 = true ↔ finish - epsilon < p) ∧
    (l.positionUpdate.1 = true → l.positionUpdate.2.reader.index = 0) ∧
    (l.positionUpdate.1 = false → l.positionUpdate.2 = l) := by
  have hclosing : l.closing = .num finish := by
    rw [closing, hf]
    rfl
  rw [positionUpdate_of_last h.seeking_eq hl, hclosing, h.epsilon_eq, h.time_eq]
  simp only [Exact.sub_num, Exact.less_num, decide_eq_true_eq]
  split
  · rename_i hlt
    exact ⟨⟨fun _ => hlt, fun _ => rfl⟩, fun _ => ended_index _, fun he => nomatch he⟩
  · rename_i hlt
    exact ⟨⟨fun he => absurd he Bool.false_ne_true, fun he => absurd he hlt⟩,
      fun he => absurd he Bool.false_ne_true, fun _ => rfl⟩

/-- A move of the reader leaves the video where it is, since no slide makes it wait. -/
theorem At.showSlide (h : l.At times epsilon p) {k : Nat} (hk : k < times.length) :
    (l.showSlide k).refreshStamp.At times epsilon p := by
  have ht := h.toTimedBy.of_samePage (.showSlide l k)
  have ht' := ht.of_samePage (.refreshStamp _)
  refine ⟨ht', ?_, ?_⟩
  · rw [refreshStamp_time]
    exact h.time_eq
  · rw [refreshStamp_seeking]
    exact h.seeking_eq

end

/-! ## playback and seeks -/

section
variable {K : Type} [Field K] [LinearOrder K] [IsStrictOrderedRing K] {times : List K}
  {epsilon p : K} {l : Lecture (Exact K)}

section
variable (hsorted : times.Pairwise (· ≤ ·)) (hp : ∀ t ∈ times, p ≠ t - epsilon)
  (h : l.At times epsilon p)
include hsorted hp h

/-- Before the slide of the position playback goes on to the next slide. -/
theorem At.positionUpdate_of_before
    (hlt : l.reader.index < firstAfter times (p + epsilon) - 1) :
    l.positionUpdate = (true, (l.showSlide (l.reader.index + 1 : Nat)).refreshStamp) := by
  have hle := firstAfter_le times (p + epsilon)
  have hn : l.reader.index + 1 < times.length := by omega
  rw [h.positionUpdate_eq hn, if_pos ((sub_lt_iff_lt_firstAfter hsorted hp hn).mpr (by omega))]

/-- From the slide of the position on, nothing happens. -/
theorem At.positionUpdate_of_reached (hl : l.reader.isLast = false)
    (hle : firstAfter times (p + epsilon) - 1 ≤ l.reader.index) :
    l.positionUpdate = (false, l) := by
  have hn : l.reader.index + 1 < times.length := h.length_eq ▸ Reader.next_lt_of_not_last hl
  rw [h.positionUpdate_eq hn, if_neg]
  rw [sub_lt_iff_lt_firstAfter hsorted hp hn]
  omega

omit h in
/-- Playback at a standstill shows the slides up to the slide of the position one by one. -/
theorem playOn_eq (n : Nat) : ∀ l : Lecture (Exact K), l.At times epsilon p →
    firstAfter times (p + epsilon) - 1 - l.reader.index = n →
    l.playOn.1 = List.range' (l.reader.index + 1) n ∧
      l.playOn.2.reader.index = l.reader.index + n ∧ l.playOn.2.At times epsilon p := by
  -- on the number of slides that are left to go
  induction n with
  | zero =>
    intro l h hn
    have hplay : l.playOn = ([], l) := by
      cases hl : l.reader.isLast with
      | true => exact playOn_of_last hl
      | false =>
        have hu := h.positionUpdate_of_reached hsorted hp hl (by omega)
        rw [playOn_of_false hl (by rw [hu]), hu]
    rw [hplay]
    exact ⟨rfl, rfl, h⟩
  | succ n ih =>
    intro l h hn
    have hle := firstAfter_le times (p + epsilon)
    have hk : l.reader.index + 1 < times.length := by omega
    have hl : l.reader.isLast = false := Bool.eq_false_iff.mpr fun e => by
      have := h.isLast_iff.mp e
      omega
    have hu := h.positionUpdate_of_before hsorted hp (by omega)
    have hidx : l.positionUpdate.2.reader.index = l.reader.index + 1 :=
      (positionUpdate_advances hl (by rw [hu])).2
    have hat : l.positionUpdate.2.At times epsilon p := by
      rw [hu]
      exact h.showSlide hk
    obtain ⟨ih1, ih2, ih3⟩ := ih l.positionUpdate.2 hat (by omega)
    rw [playOn_of_true hl (by rw [hu])]
    refine ⟨?_, ?_, ih3⟩
    · show _ :: _ = _
      rw [ih1, hidx, List.range'_succ]
    · show l.positionUpdate.2.playOn.2.reader.index = _
      rw [ih2, hidx]
      omega

end

/-- **Seek and playback agree.**  Where all slides have times in order and none is exactly due at a
position, let `k` be the slide that a seek of the user to the position leads to: the slide of the
position.  Playback that stays there shows the slides after the shown one up to `k`, one for each
answer of true, stops on the later of the two, and from `k` on nothing happens any more. -/
theorem playOn_agrees_with_seeked (hsorted : times.Pairwise (· ≤ ·))
    (hp : ∀ t ∈ times, p ≠ t - epsilon) {u : Lecture (Exact K)} (hu : u.At times epsilon p)
    (hidle : u.phase = .idle) (h : l.At times epsilon p) :
    u.seeked.1 = true ∧ ShownAt times (p + epsilon) u.seeked.2.reader.index ∧
    l.playOn.1 = List.range' (l.reader.index + 1)
      (max l.reader.index u.seeked.2.reader.index - l.reader.index) ∧
    l.playOn.2.reader.index = max l.reader.index u.seeked.2.reader.index ∧
    l.playOn.2.At times epsilon p ∧
    ∀ m : Lecture (Exact K), m.At times epsilon p → u.seeked.2.reader.index ≤ m.reader.index →
      m.reader.isLast = false → m.positionUpdate = (false, m) := by
  rw [hu.seeked_index hidle]
  obtain ⟨h1, h2, h3⟩ := playOn_eq hsorted hp _ l h rfl
  refine ⟨seeked_answer hidle hu.seeking_eq, shownAt_firstAfter hsorted _, ?_, ?_, h3,
    fun m hm hle hl => ?_⟩
  · rw [h1]
    congr 1
    omega
  · rw [h2]
    omega
  · exact hm.positionUpdate_of_reached hsorted hp hl hle

end

/-- Two of four slides appear at once; the video stands shortly before them. -/
def beforeTwoAtOnce : Lecture (Exact ℚ) where
  reader := ⟨[⟨0, .num 0, []⟩, ⟨1, .num 2, []⟩, ⟨2, .num 2, []⟩, ⟨3, .num 5, []⟩], 0, [], by decide⟩
  media := { time := .num (3 / 2), duration := .undefined }
  finish := .undefined
  epsilon := .num 1

theorem playOn_agrees_with_seeked_two_at_once :
    beforeTwoAtOnce.playOn.1 = [1, 2] ∧ beforeTwoAtOnce.playOn.2.reader.index = 2 := by
  have hat : beforeTwoAtOnce.At [0, 2, 2, 5] 1 (3 / 2) := ⟨⟨rfl, rfl⟩, rfl, rfl⟩
  have hk : beforeTwoAtOnce.seeked.2.reader.index = 2 := by decide +kernel
  obtain ⟨-, -, h1, h2, -⟩ :=
    playOn_agrees_with_seeked (by decide +kernel) (by decide +kernel) hat rfl hat
  rw [hk] at h1 h2
  exact ⟨h1, h2⟩

end Lecture
end Lectern.Slides
