import Lectern.Proofs.Recorder.Run
import Lectern.Proofs.Times
import Mathlib.Data.List.Induction

/-!
# The entry of a slide

An entry is read as the moment at which the slide of its number was left.  A step forward writes it
for the slide that is shown, as long as there are as many entries as slides were left.  The last
slide is the exception: it has an entry although it is still shown.  Somebody who goes back from
there loses that entry, but sees the slide before, whose entry stays; from then on the entries are
ahead of the slides, until the last of them is gone.

* `Astray`                 the author has gone back from a full list, and some entry is left;
* `astray_concat_iff`      one more press;
* `Paced`, `paced_run`     entries and slides after any run;
* `next_appends_shown_iff` a step forward writes the entry of the shown slide unless the author is
                           astray;
* `next_appends_later`     two slides, and the second entry written on the first one.
-/

namespace Lectern.Slides.Recorder
open Quantity

variable {τ : Type} [Quantity τ]

/-- At some press the author went back while every slide had an entry, and ever since then there has
been an entry. -/
def Astray (r : Recorder τ) (presses : List (τ × Press)) : Prop :=
  ∃ before now after, presses = before ++ (now, .back) :: after ∧
    (r.run before).isComplete = true ∧
    ∀ rest, rest <+: after → (r.run (before ++ (now, .back) :: rest)).times ≠ []

theorem not_astray_nil (r : Recorder τ) : ¬ r.Astray [] := by
  rintro ⟨before, now, after, h, -, -⟩
  exact absurd h (by simp)

/-- After one more press the author is astray by that press or still, and there are entries. -/
theorem astray_concat_iff (r : Recorder τ) (presses : List (τ × Press)) (now : τ) (p : Press) :
    r.Astray (presses ++ [(now, p)]) ↔
      (r.run (presses ++ [(now, p)])).times ≠ [] ∧
        (r.Astray presses ∨ p = .back ∧ (r.run presses).isComplete = true) := by
  constructor
  · rintro ⟨before, c, after, h, hfull, hsince⟩
    refine ⟨h ▸ hsince after (List.prefix_refl after), ?_⟩
    rcases List.eq_nil_or_concat after with rfl | ⟨init, last, rfl⟩
    · obtain ⟨rfl, e⟩ := List.append_inj' h rfl
      obtain ⟨-, rfl⟩ := Prod.mk.inj (List.cons.inj e).1
      exact .inr ⟨rfl, hfull⟩
    · rw [List.concat_eq_append, ← List.cons_append, ← List.append_assoc] at h
      obtain ⟨rfl, -⟩ := List.append_inj' h rfl
      rw [List.concat_eq_append] at hsince
      exact .inl ⟨before, c, init, rfl, hfull, fun rest hrest =>
        hsince rest (hrest.trans (List.prefix_append _ _))⟩
  · rintro ⟨hne, ⟨before, c, after, rfl, hfull, hsince⟩ | ⟨rfl, hfull⟩⟩
    · rw [List.append_assoc, List.cons_append] at hne ⊢
      refine ⟨before, c, after ++ [(now, p)], rfl, hfull, fun rest hrest => ?_⟩
      rcases List.prefix_concat_iff.mp hrest with rfl | hrest
      · exact hne
      · exact hsince rest hrest
    · refine ⟨presses, now, [], rfl, hfull, fun rest hrest => ?_⟩
      rw [List.prefix_nil.mp hrest]
      exact hne

/-! ## entries and slides -/

/-- The shown slide has the number of the entries, or is the last one; but once the author is astray,
there are more entries than slides before the shown one. -/
structure Paced (r : Recorder τ) (astray : Prop) : Prop where
  length_le : r.times.length ≤ r.reader.slides.length
  index_eq : ¬ astray → r.reader.index = min r.times.length (r.reader.slides.length - 1)
  index_lt : astray → r.reader.index < r.times.length

variable {r : Recorder τ} {a : Prop}

omit [Quantity τ] in
theorem slides_length_pos (r : Recorder τ) : 0 < r.reader.slides.length :=
  Nat.lt_of_le_of_lt (Nat.zero_le _) r.reader.index_lt

theorem pushTime_times (now : τ) (r : Recorder τ) :
    ∃ t, (r.pushTime now).times = r.times ++ [t] := by
  cases h : r.take with
  | none => exact ⟨_, by rw [pushTime_of_idle h]⟩
  | some t => exact ⟨_, by rw [pushTime_of_take h]⟩

/-- A step forward adds one entry where one is missing. -/
theorem length_times_grow (hle : r.times.length ≤ r.reader.slides.length) (now : τ) :
    (r.grow now).times.length = min (r.times.length + 1) r.reader.slides.length := by
  unfold grow
  split
  · obtain ⟨t, ht⟩ := r.pushTime_times now
    rw [ht, List.length_append, List.length_singleton]
    omega
  · omega

theorem Paced.forward (h : r.Paced a) (now : τ) :
    (r.step now .forward).after.times ≠ [] ∧ (r.step now .forward).after.Paced a := by
  have hpos := r.slides_length_pos
  have hlt := r.reader.index_lt
  have hgrow := length_times_grow h.length_le now
  have hne : (r.grow now).times ≠ [] := List.ne_nil_of_length_pos (by omega)
  rw [step_forward]
  rcases r.next_after now with e | ⟨hfull, e⟩
  · rw [e]
    refine ⟨hne, ?_, fun ha => ?_, fun ha => ?_⟩
    · rw [Reader.slides_next?_getD]
      show (r.grow now).times.length ≤ _
      omega
    · have hindex := h.index_eq ha
      rw [Reader.index_next?_getD, Reader.slides_next?_getD]
      show _ = min (r.grow now).times.length _
      omega
    · have hindex := h.index_lt ha
      rw [Reader.index_next?_getD]
      show _ < (r.grow now).times.length
      omega
  · -- nothing was handed out, so the reader stays; but every slide has an entry, so it may
    have hlength : (r.grow now).times.length = r.reader.slides.length := by
      rw [← r.grow_reader now]
      exact of_decide_eq_true hfull
    rw [e]
    refine ⟨hne, ?_, fun ha => ?_, fun ha => ?_⟩
    · rw [grow_reader]
      omega
    · have hindex := h.index_eq ha
      rw [grow_reader]
      omega
    · rw [grow_reader]
      omega

theorem Paced.back (h : r.Paced a) (now : τ) :
    (r.step now .back).after.Paced
      ((r.step now .back).after.times ≠ [] ∧ (a ∨ r.isComplete = true)) := by
  have hpos := r.slides_length_pos
  have hlt := r.reader.index_lt
  have htimes : (r.markBack now).dropTime.times = r.times.dropLast := dropTime_times _
  have hlength : (r.markBack now).dropTime.times.length = r.times.length - 1 := by
    rw [htimes, List.length_dropLast]
  have hempty : (r.markBack now).dropTime.times ≠ [] ↔ 1 < r.times.length := by
    rw [← List.length_pos_iff, hlength]
    omega
  have hfull : r.isComplete = true ↔ r.times.length = r.reader.slides.length := decide_eq_true_iff
  rw [step_back, previous_after]
  refine ⟨?_, fun ha => ?_, fun ha => ?_⟩
  · rw [Reader.slides_previous?_getD]
    show (r.markBack now).dropTime.times.length ≤ _
    have := h.length_le
    omega
  · have hle := h.length_le
    rw [Reader.index_previous?_getD, Reader.slides_previous?_getD]
    show _ = min (r.markBack now).dropTime.times.length _
    rw [not_and_or, not_or, hempty, hfull] at ha
    by_cases hastray : a
    · have := h.index_lt hastray
      have hone : ¬ 1 < r.times.length := ha.resolve_right fun h => h.1 hastray
      omega
    · have := h.index_eq hastray
      omega
  · rw [Reader.index_previous?_getD]
    show _ < (r.markBack now).dropTime.times.length
    obtain ⟨hne, ha⟩ := ha
    have hone : 1 < r.times.length := hempty.mp hne
    by_cases hastray : a
    · have := h.index_lt hastray
      omega
    · have := h.index_eq hastray
      have := hfull.mp (ha.resolve_left hastray)
      omega

theorem Paced.toggle (h : r.Paced a) (now : τ) :
    (r.step now .toggle).after.times = r.times ∧ (r.step now .toggle).after.Paced a := by
  rw [step_toggle, toggle_after]
  cases r.take <;> exact ⟨rfl, h.length_le, h.index_eq, h.index_lt⟩

/-- From the first slide on, whatever is pressed. -/
theorem paced_run {reader : Reader τ} (h : reader.index = 0) (hasSink : Bool)
    (presses : List (τ × Press)) :
    ((start reader hasSink).run presses).Paced ((start reader hasSink).Astray presses) := by
  -- on the presses from the end, since going astray depends on what came before
  induction presses using List.reverseRecOn with
  | nil =>
    refine ⟨Nat.zero_le _, fun _ => ?_, fun ha => absurd ha (not_astray_nil _)⟩
    show reader.index = _
    rw [h, run_nil]
    exact (Nat.zero_min _).symm
  | append_singleton presses press ih =>
    obtain ⟨now, p⟩ := press
    rw [astray_concat_iff, run_concat]
    cases p with
    | forward =>
      obtain ⟨hne, hpaced⟩ := ih.forward now
      simpa only [hne, ne_eq, not_false_eq_true, true_and, reduceCtorEq, false_and, or_false]
        using hpaced
    | back => simpa only [true_and] using ih.back now
    | toggle =>
      obtain ⟨htimes, hpaced⟩ := ih.toggle now
      have hastray : (((start reader hasSink).run presses).step now .toggle).after.times ≠ [] ∧
          ((start reader hasSink).Astray presses ∨
            Press.toggle = .back ∧ ((start reader hasSink).run presses).isComplete = true) ↔
          (start reader hasSink).Astray presses := by
        rw [htimes]
        simp only [reduceCtorEq, false_and, or_false, and_iff_right_iff_imp]
        exact fun ha => List.ne_nil_of_length_pos (Nat.zero_lt_of_lt (ih.index_lt ha))
      rw [hastray]
      exact hpaced

/-! ## the entry that a step forward writes -/

theorem next_times (now : τ) (r : Recorder τ) : (r.next now).after.times = (r.grow now).times := by
  rcases r.next_after now with e | ⟨-, e⟩ <;> rw [e]

/-- **A step forward writes the entry of the shown slide, unless the author is astray.**  Over any
slides, the first one shown first, after any presses at any clock readings: a step forward adds an
entry exactly if some slide has none.  That entry has the number of the shown slide, unless the
author went back at some time while every slide had an entry and there has been an entry ever since;
then it has a greater number. -/
theorem next_appends_shown_iff (slides : List (Slide τ)) (hne : slides ≠ []) (hasSink : Bool) :
    ∃ reader, Reader.start slides 0 = .ok reader ∧
      ∀ (presses : List (τ × Press)) (now : τ) (r : Recorder τ),
        r = (start reader hasSink).run presses →
        (slides.length ≤ r.times.length → (r.next now).after.times = r.times) ∧
        (r.times.length < slides.length →
          (∃ t, (r.next now).after.times = r.times ++ [t]) ∧
          (r.times.length = r.reader.index ↔ ¬ (start reader hasSink).Astray presses) ∧
          ((start reader hasSink).Astray presses → r.reader.index < r.times.length)) := by
  have hpos : 0 < slides.length := List.length_pos_iff.mpr hne
  obtain ⟨reader, hstart, hslides, hindex⟩ :=
    Reader.exists_start le_rfl (Int.natCast_pos.mpr hpos)
  refine ⟨reader, hstart, ?_⟩
  rintro presses now r rfl
  have hpaced := paced_run (Int.natCast_eq_zero.mp hindex) hasSink presses
  have hcount : ((start reader hasSink).run presses).reader.slides.length = slides.length := by
    rw [slides_run, ← hslides]
    rfl
  rw [next_times]
  unfold grow
  rw [hcount]
  refine ⟨fun hfull => by rw [if_neg (Nat.not_lt.mpr hfull)], fun hroom => ?_⟩
  rw [if_pos hroom]
  refine ⟨pushTime_times now _, ⟨fun he ha => ?_, fun ha => ?_⟩, hpaced.index_lt⟩
  · exact absurd (hpaced.index_lt ha) (by omega)
  · have hi := hpaced.index_eq ha
    rw [hcount] at hi
    omega

/-- So many slides without times. -/
def blankSlides (count : Nat) : List (Slide (Exact ℚ)) :=
  (List.range count).map fun i => ⟨i, .undefined, []⟩

/-- Three slides, a step outside any take, one in a take and one back from the last slide, which has
no entry yet. -/
theorem next_appends_shown_iff_before_full :
    blankSlides 3 ≠ [] ∧ ∃ reader, Reader.start (blankSlides 3) 0 = .ok reader ∧
      let presses : List (Exact ℚ × Press) :=
        [(.num 1, .forward), (.num 2, .toggle), (.num 4, .forward), (.num 5, .back)]
      let r := (start reader true).run presses
      r.reader.index = 1 ∧ (∃ t, (r.next (.num 7)).after.times = r.times ++ [t]) ∧
        r.times.length = 1 ∧ ¬ (start reader true).Astray presses := by
  have hne : blankSlides 3 ≠ [] := by decide
  obtain ⟨reader, hstart, h⟩ := next_appends_shown_iff (blankSlides 3) hne true
  obtain rfl : _ = reader := Except.ok.inj hstart
  obtain ⟨happends, hshown, -⟩ :=
    (h [(.num 1, .forward), (.num 2, .toggle), (.num 4, .forward), (.num 5, .back)] (.num 7) _
      rfl).2 (by decide +kernel)
  exact ⟨hne, _, hstart, by decide +kernel, happends, by decide +kernel,
    hshown.mp (by decide +kernel)⟩

/-- Two slides, gone through in a take and then one step back.  The first slide is shown again, and
its entry is still there; so the step forward from it writes the entry of the second slide, which
then is there before that slide was left. -/
theorem next_appends_later :
    ∃ reader, Reader.start (blankSlides 2) 0 = .ok reader ∧
      let r := (start reader true).run [(.num 0, .toggle), (.num 1, .forward), (.num 2, .forward),
        (.num 3, .back)]
      r.reader.index = 0 ∧ r.times = [.num 1] ∧
        (r.next (.num 4)).after.times = r.times ++ [.num 2] ∧
        (r.next (.num 4)).after.reader.index = 1 :=
  ⟨_, rfl, by decide +kernel, by decide +kernel, by decide +kernel, by decide +kernel⟩

end Lectern.Slides.Recorder
