import Lectern.Proofs.Lecture.Position

/-!
# Slides without a time

Any slide of a page may lack a time.  Where those that have one appear in the order of the page, a
seek of the user leads to the last slide before the first that is still to come, with or without a
time of its own.

* `TimesPairwise`      the times that there are, two by two;
* `DueThrough`         nothing up to a slide is still to come;
* `LandsOn`            the slide of a position, said without any search;
* `seeked_lands`       where a seek of the user leads to, and when the video stops there.
-/

set_option linter.unusedSectionVars false

namespace Lectern.Slides
open Quantity

variable {K : Type} [Field K] [LinearOrder K]

/-- Any two slides that have times, the earlier one of the page first, appear at times so related. -/
def TimesPairwise (r : K → K → Prop) (slides : List (Slide (Exact K))) : Prop :=
  slides.Pairwise fun a b => ∀ s t, a.time = .num s → b.time = .num t → r s t

/-- No slide up to this one appears after a bound. -/
def DueThrough (slides : List (Slide (Exact K))) (bound : K) (k : Nat) : Prop :=
  ∀ i (hi : i < slides.length), i ≤ k → ∀ t, slides[i].time = .num t → t ≤ bound

/-- The slide of a bound: the last one with nothing up to it still to come, or the first slide
where that is to come itself.  What has a time behind it appears after the bound. -/
structure LandsOn (slides : List (Slide (Exact K))) (bound : K) (k : Nat) : Prop where
  due : IsGreatest { j | j < slides.length ∧ DueThrough slides bound j } k ∨
    (k = 0 ∧ ∃ t, slides.head?.map (·.time) = some (.num t) ∧ bound < t)
  later : ∀ i (hi : i < slides.length), k < i → ∀ t, slides[i].time = .num t → bound < t

/-- A video that comes to a slide stops there: no slide is still to come, or it is not known when
the next one appears. -/
def HaltsOn (slides : List (Slide (Exact K))) (bound : K) (k : Nat) : Prop :=
  (∀ s ∈ slides, ∀ t, s.time = .num t → t ≤ bound) ∨
    ∃ h : k + 1 < slides.length, slides[k + 1].isTimed = false

theorem isTimed_iff {s : Slide (Exact K)} : s.isTimed = true ↔ ∃ t, s.time = .num t := by
  rw [Slide.isTimed]
  cases h : s.time with
  | num t => exact ⟨fun _ => ⟨t, rfl⟩, fun _ => rfl⟩
  | undefined =>
    refine ⟨fun e => absurd e Bool.false_ne_true, fun ht => ?_⟩
    obtain ⟨t, e⟩ := ht
    cases e

namespace Lecture

section
variable {l : Lecture (Exact K)} {epsilon p : K}

theorem appearsAfter_iff (he : l.epsilon = .num epsilon) {s : Slide (Exact K)} :
    l.appearsAfter (.num p) s = true ↔ ∃ t, s.time = .num t ∧ p + epsilon < t := by
  rw [appearsAfter, Bool.and_eq_true_iff, isTimed_iff, he]
  constructor
  · rintro ⟨⟨t, ht⟩, hless⟩
    rw [ht] at hless
    exact ⟨t, ht, of_decide_eq_true hless⟩
  · rintro ⟨t, ht, hlt⟩
    rw [ht]
    exact ⟨⟨t, rfl⟩, decide_eq_true hlt⟩

theorem not_appearsAfter_iff (he : l.epsilon = .num epsilon) {s : Slide (Exact K)} :
    l.appearsAfter (.num p) s = false ↔ ∀ t, s.time = .num t → t ≤ p + epsilon := by
  rw [← Bool.not_eq_true, appearsAfter_iff he]
  exact ⟨fun h t ht => not_lt.mp fun hlt => h ⟨t, ht, hlt⟩,
    fun h ⟨t, ht, hlt⟩ => absurd (h t ht) (not_le.mpr hlt)⟩

/-- The slide before the first that appears after the position is the slide of the position. -/
theorem landsOn_findIdx (hsorted : TimesPairwise (· ≤ ·) l.reader.slides)
    (he : l.epsilon = .num epsilon) :
    LandsOn l.reader.slides (p + epsilon)
      (l.reader.slides.findIdx (l.appearsAfter (.num p)) - 1) := by
  have hpos : 0 < l.reader.slides.length := Nat.lt_of_le_of_lt (Nat.zero_le _) l.reader.index_lt
  have hle : l.reader.slides.findIdx (l.appearsAfter (.num p)) ≤ l.reader.slides.length :=
    List.findIdx_le_length
  -- what stands before the first such slide is due, and that slide itself is not
  have hbefore : ∀ j (hj : j < l.reader.slides.length),
      j < l.reader.slides.findIdx (l.appearsAfter (.num p)) →
        ∀ t, l.reader.slides[j].time = .num t → t ≤ p + epsilon := fun j hj hlt =>
    (not_appearsAfter_iff he).mp (List.not_of_lt_findIdx hlt)
  have hfirst : ∀ h : l.reader.slides.findIdx (l.appearsAfter (.num p)) < l.reader.slides.length,
      ∃ t, l.reader.slides[l.reader.slides.findIdx (l.appearsAfter (.num p))].time = .num t ∧
        p + epsilon < t := fun h =>
    (appearsAfter_iff he).mp (List.findIdx_getElem (w := h))
  generalize l.reader.slides.findIdx (l.appearsAfter (.num p)) = n at hle hbefore hfirst ⊢
  have hlater : ∀ i (hi : i < l.reader.slides.length), n ≤ i →
      ∀ t, l.reader.slides[i].time = .num t → p + epsilon < t := by
    intro i hi hni t ht
    obtain ⟨s, hs, hlt⟩ := hfirst (Nat.lt_of_le_of_lt hni hi)
    rcases Nat.eq_or_lt_of_le hni with rfl | hlt'
    · rw [hs] at ht
      exact Exact.num.inj ht ▸ hlt
    · exact hlt.trans_le (List.pairwise_iff_getElem.mp hsorted n i _ hi hlt' s t hs ht)
  refine ⟨?_, fun i hi hki => hlater i hi (by omega)⟩
  rcases Nat.eq_zero_or_pos n with rfl | hn
  · right
    obtain ⟨t, ht, hlt⟩ := hfirst hpos
    refine ⟨rfl, t, ?_, hlt⟩
    rw [List.head?_eq_getElem?, List.getElem?_eq_getElem hpos, Option.map_some, ht]
  · left
    refine ⟨⟨by omega, fun i hi hik => hbefore i hi (by omega)⟩, fun j ⟨hj, hdue⟩ => ?_⟩
    by_contra hnj
    obtain ⟨t, ht, hlt⟩ := hfirst (by omega)
    exact absurd (hdue n (by omega) (by omega) t ht) (not_le.mpr hlt)

variable (hidle : l.phase = .idle) (hs : l.media.seeking = false)
include hidle hs

/-- The video waits after a seek of the user if it has waited before, if the seek led past all times,
or if the stamp shows. -/
theorem seeked_paused :
    l.seeked.2.media.paused = true ↔ l.media.paused = true ∨
      (∀ s ∈ l.reader.slides, l.appearsAfter l.media.time s = false) ∨
        l.seeked.2.isSyncable = false := by
  have hreader (m : Lecture (Exact K)) : m.refreshStamp.media.paused = true ↔
      m.media.paused = true ∨ m.refreshStamp.isSyncable = false := by
    rw [isSyncable_congr (refreshStamp_reader m), refreshStamp_eq, Bool.or_eq_true,
      Bool.not_eq_true', or_comm]
  rw [seeked, if_neg (by rw [hidle]; exact Phase.noConfusion),
    if_neg (by rw [hs]; exact Bool.false_ne_true)]
  cases hi : l.firstLater? l.media.time with
  | some i =>
    have hsome : ¬ ∀ s ∈ l.reader.slides, l.appearsAfter l.media.time s = false := fun hnone => by
      rw [show l.firstLater? l.media.time = none from List.findIdx?_eq_none_iff.mpr hnone] at hi
      cases hi
    rw [hreader, iff_false_intro hsome, false_or]
    rfl
  | none =>
    have hnone : ∀ s ∈ l.reader.slides, l.appearsAfter l.media.time s = false :=
      List.findIdx?_eq_none_iff.mp hi
    rw [hreader]
    exact ⟨fun _ => .inr (.inl hnone), fun _ => .inl rfl⟩

/-- **A seek of the user leads to the slide of the position** on any page whose times are in order,
whichever slides have one.  The reader answers that it has moved, the position stays and no
notification is waited for; the call stops the video exactly where no slide is still to come or
where it is not known when the next one appears. -/
theorem seeked_lands (hsorted : TimesPairwise (· ≤ ·) l.reader.slides)
    (he : l.epsilon = .num epsilon) (hp : l.media.time = .num p) :
    l.seeked.1 = true ∧ l.seeked.2.reader.slides = l.reader.slides ∧
    LandsOn l.reader.slides (p + epsilon) l.seeked.2.reader.index ∧
    l.seeked.2.media.time = .num p ∧ l.seeked.2.phase = .idle ∧
    (l.seeked.2.media.paused = true ↔ l.media.paused = true ∨
      HaltsOn l.reader.slides (p + epsilon) l.seeked.2.reader.index) := by
  have hslides : l.seeked.2.reader.slides = l.reader.slides := (Outcome.seeked l).samePage.slides_eq
  refine ⟨seeked_answer hidle hs, hslides, ?_, (seeked_time hidle hs).trans hp,
    seeked_phase hidle hs, ?_⟩
  · rw [seeked_index hidle hs, hp]
    exact landsOn_findIdx hsorted he
  · rw [seeked_paused hidle hs, hp, isSyncable_eq_false_iff]
    refine or_congr Iff.rfl (or_congr ?_ ?_)
    · exact forall₂_congr fun s _ => not_appearsAfter_iff he
    · simp only [hslides, Slide.isTimed, Bool.not_eq_false']

end

/-- Five slides, of which the second and the fourth have no time, with the video between the times
of the other three. -/
def betweenTimes : Lecture (Exact ℚ) where
  reader := ⟨[⟨0, .num 0, []⟩, ⟨1, .undefined, []⟩, ⟨2, .num 2, []⟩, ⟨3, .undefined, []⟩,
    ⟨4, .num 9, []⟩], 4, [], by decide⟩
  media := { time := .num 2, paused := false, duration := .undefined }
  finish := .undefined
  epsilon := .num 1

/-- The seek leads past the third slide to the one without a time behind it, and the video plays on
to the last. -/
theorem seeked_lands_between :
    betweenTimes.seeked.2.reader.index = 3 ∧ betweenTimes.seeked.2.media.paused = false ∧
      LandsOn betweenTimes.reader.slides (2 + 1) 3 ∧ ¬ HaltsOn betweenTimes.reader.slides (2 + 1) 3 := by
  have hsorted : TimesPairwise (· ≤ ·) betweenTimes.reader.slides := by
    simp [TimesPairwise, betweenTimes, show (2 : ℚ) ≤ 9 by norm_num]
  have hk : betweenTimes.seeked.2.reader.index = 3 := by decide +kernel
  have hplays : betweenTimes.seeked.2.media.paused = false := by decide +kernel
  obtain ⟨-, -, hlands, -, -, hpaused⟩ := seeked_lands (l := betweenTimes) rfl rfl hsorted rfl rfl
  rw [hk] at hlands hpaused
  refine ⟨hk, hplays, hlands, fun h => ?_⟩
  rw [hpaused.mpr (.inr h)] at hplays
  exact Bool.false_ne_true hplays.symm

end Lecture
end Lectern.Slides
