import Lectern.Proofs.Reader
import Lectern.Proofs.Times

/-!
# Measured slides

A reader keeps the width last measured of each slide, and a slide that is measured again with that width is not
scaled again.  So what is answered to a measurement depends on what was measured before while the same slide was
shown, and on nothing else that happened.  Where slides have no width or no height nothing is answered, and what was
measured then is not kept.

* `lookup_putWidth`        the width of a slide is exchanged, and no other one;
* `Act`, `measurements`    what a page does with its reader, and all that is measured on the way;
* `lookup_widths_act`      what an act does to the widths;
* `Remembers`, `Remembers.act`   the reader knows of each slide the width last measured;
* `answers_ofSlide`        the answers on one slide, made of the sizes measured on it;
* `scale_fits`             a scale makes a slide as large as there is room for it;
* `answers_by_slide`       what is answered to each measurement of a run.
-/

namespace Lectern.Slides
open Quantity

variable {τ : Type} [Quantity τ]

/-! ## widths -/

omit [Quantity τ] in
theorem lookup_putWidth (index k : Nat) (width : τ) (widths : List (Nat × τ)) :
    (putWidth index width widths).lookup k = if k = index then some width else widths.lookup k := by
  induction widths with
  | nil =>
    by_cases h : k = index
    · subst h
      simp [putWidth]
    · simp [putWidth, h]
  | cons entry rest ih =>
    obtain ⟨i, w⟩ := entry
    rw [putWidth]
    by_cases hi : i = index
    · subst hi
      by_cases h : k = i
      · subst h
        simp
      · simp [List.lookup_cons, h, beq_eq_false_iff_ne.mpr h]
    · rw [if_neg hi, List.lookup_cons, List.lookup_cons, ih]
      by_cases h : k = i
      · subst h
        simp [hi]
      · simp [beq_eq_false_iff_ne.mpr h]

/-- Every quotient by the size of a slide is a number. -/
def Layout.IsSized (layout : Layout τ) : Prop :=
  ∀ x : τ, (div? x layout.width).isSome = true ∧ (div? x layout.height).isSome = true

theorem isOk_scale {layout : Layout τ} (h : layout.IsSized) (previous : Option τ) (width height : τ) :
    ∃ s, scale layout previous width height = .ok s := by
  unfold scale
  split
  · exact ⟨_, rfl⟩
  · obtain ⟨x, hx⟩ := Option.isSome_iff_exists.mp (h width).1
    obtain ⟨y, hy⟩ := Option.isSome_iff_exists.mp (h height).2
    rw [hx, hy]
    exact ⟨_, rfl⟩

/-! ## acts and measurements -/

namespace Reader

/-- What a page does with its reader. -/
inductive Act (τ : Type) where
  | next
  | previous
  | jump (index : Int)
  | measure (width height : τ)

/-- A measurement: the slide shown, the size measured, and what was answered. -/
structure Measurement (τ : Type) where
  slide : Nat
  width : τ
  height : τ
  answer : Except ScaleFault (Option τ)

def Measurement.size (m : Measurement τ) : τ × τ := (m.width, m.height)

def Measurement.isAnswered (m : Measurement τ) : Bool := m.answer.isOk

/-- The reader after an act. -/
def act (layout : Layout τ) (a : Act τ) (r : Reader τ) : Reader τ :=
  match a with
  | .next => r.next?.getD r
  | .previous => r.previous?.getD r
  | .jump index => (r.show? index).getD r
  | .measure width height =>
    match r.measure layout width height with
    | .ok (_, r) => r
    | .error _ => r

/-- What is measured at an act. -/
def measured (layout : Layout τ) (a : Act τ) (r : Reader τ) : Option (Measurement τ) :=
  match a with
  | .measure width height => some ⟨r.index, width, height, (r.measure layout width height).map (·.1)⟩
  | _ => none

/-- All that is measured in a run. -/
def measurements (layout : Layout τ) : Reader τ → List (Act τ) → List (Measurement τ)
  | _, [] => []
  | r, a :: acts => (r.measured layout a).toList ++ measurements layout (r.act layout a) acts

/-- What was measured while a slide was shown. -/
def ofSlide (slide : Nat) (ms : List (Measurement τ)) : List (Measurement τ) := ms.filter (·.slide = slide)

/-- The width last measured of a slide. -/
def latestWidth (slide : Nat) (ms : List (Measurement τ)) : Option τ := (ofSlide slide ms).getLast?.map (·.width)

/-- What is answered to sizes measured one after the other on one slide. -/
def replies (layout : Layout τ) : Option τ → List (τ × τ) → List (Except ScaleFault (Option τ))
  | _, [] => []
  | previous, (width, height) :: sizes =>
    let answer := scale layout previous width height
    answer :: replies layout (if answer.isOk then some width else previous) sizes

/-! ## one act -/

theorem measured_eq_some {layout : Layout τ} {a : Act τ} {r : Reader τ} {m : Measurement τ}
    (h : r.measured layout a = some m) :
    m.slide = r.index ∧ m.answer = scale layout (r.widths.lookup r.index) m.width m.height := by
  cases a with
  | next => exact nomatch h
  | previous => exact nomatch h
  | jump index => exact nomatch h
  | measure width height =>
    obtain rfl := Option.some.inj h
    refine ⟨rfl, ?_⟩
    dsimp only
    rw [measure]
    cases scale layout (r.widths.lookup r.index) width height <;> rfl

/-- Moves keep the widths. -/
theorem widths_act_of_measured_eq_none {layout : Layout τ} {a : Act τ} {r : Reader τ}
    (h : r.measured layout a = none) : (r.act layout a).widths = r.widths := by
  cases a with
  | next => exact r.widths_next?_getD
  | previous => exact r.widths_previous?_getD
  | jump index => exact r.widths_show?_getD index
  | measure width height => exact nomatch h

/-- A measurement that is answered exchanges the width of its slide. -/
theorem lookup_widths_act {layout : Layout τ} {a : Act τ} {r : Reader τ} {m : Measurement τ}
    (h : r.measured layout a = some m) (slide : Nat) :
    (r.act layout a).widths.lookup slide =
      if m.slide = slide ∧ m.isAnswered = true then some m.width else r.widths.lookup slide := by
  cases a with
  | next => exact nomatch h
  | previous => exact nomatch h
  | jump index => exact nomatch h
  | measure width height =>
    obtain rfl := Option.some.inj h
    unfold act Measurement.isAnswered
    dsimp only
    rw [measure]
    cases scale layout (r.widths.lookup r.index) width height with
    | error e =>
      have hnot : ¬ (r.index = slide ∧ Except.isOk (Except.error e : Except ScaleFault (Option τ)) = true) :=
        fun h => nomatch h.2
      exact (if_neg hnot).symm
    | ok s =>
      show (putWidth r.index width r.widths).lookup slide = _
      rw [lookup_putWidth]
      by_cases h : slide = r.index
      · rw [if_pos h]
        exact (if_pos ⟨h.symm, rfl⟩).symm
      · rw [if_neg h]
        exact (if_neg fun hm => h hm.1.symm).symm

/-! ## a run -/

omit [Quantity τ] in
theorem latestWidth_concat (slide : Nat) (ms : List (Measurement τ)) (m : Measurement τ) :
    latestWidth slide (ms ++ [m]) = if m.slide = slide then some m.width else latestWidth slide ms := by
  unfold latestWidth ofSlide
  rw [List.filter_append, List.filter_singleton]
  by_cases h : m.slide = slide
  · simp [h]
  · simp [h]

/-- The reader knows of every slide the width last measured, as far as it was answered. -/
def Remembers (r : Reader τ) (ms : List (Measurement τ)) : Prop :=
  ∀ slide, r.widths.lookup slide = latestWidth slide (ms.filter (·.isAnswered))

theorem Remembers.act {r : Reader τ} {ms : List (Measurement τ)} (h : r.Remembers ms) (layout : Layout τ) (a : Act τ) :
    (r.act layout a).Remembers (ms ++ (r.measured layout a).toList) := by
  intro slide
  cases hm : r.measured layout a with
  | none =>
    rw [widths_act_of_measured_eq_none hm, h slide, Option.toList_none, List.append_nil]
  | some m =>
    rw [lookup_widths_act hm, h slide, Option.toList_some, List.filter_append, List.filter_singleton]
    cases m.isAnswered with
    | true =>
      rw [cond_true, latestWidth_concat]
      simp only [and_true]
    | false =>
      rw [cond_false, List.append_nil]
      exact if_neg fun hm => nomatch hm.2

/-- An answer depends on what was measured before it. -/
theorem answer_of_remembers {layout : Layout τ} (acts : List (Act τ)) :
    ∀ {r : Reader τ} {done before after : List (Measurement τ)} {m : Measurement τ}, r.Remembers done →
      r.measurements layout acts = before ++ m :: after →
      m.answer = scale layout (latestWidth m.slide ((done ++ before).filter (·.isAnswered))) m.width m.height := by
  -- `done` is what was measured before these acts; the first of them adds to it
  induction acts with
  | nil =>
    intro r done before after m _ h
    exact absurd h (by simp [measurements])
  | cons a acts ih =>
    intro r done before after m hr h
    have hnext := hr.act layout a
    rw [measurements] at h
    cases hm : r.measured layout a with
    | none =>
      rw [hm, Option.toList_none, List.append_nil] at hnext
      rw [hm, Option.toList_none, List.nil_append] at h
      exact ih hnext h
    | some m₀ =>
      rw [hm, Option.toList_some] at hnext
      rw [hm, Option.toList_some, List.singleton_append] at h
      cases before with
      | nil =>
        obtain ⟨rfl, -⟩ := List.cons.inj h
        obtain ⟨hslide, hanswer⟩ := measured_eq_some hm
        rw [hanswer, List.append_nil, hslide, hr]
      | cons m₁ before =>
        obtain ⟨rfl, hrest⟩ := List.cons.inj h
        have hanswer := ih hnext hrest
        rwa [List.append_assoc] at hanswer

/-- What is answered on one slide is replied to what was measured on it. -/
theorem answers_ofSlide (layout : Layout τ) (slide : Nat) (acts : List (Act τ)) :
    ∀ r : Reader τ, (ofSlide slide (r.measurements layout acts)).map (·.answer) =
      replies layout (r.widths.lookup slide)
        ((ofSlide slide (r.measurements layout acts)).map (·.size)) := by
  -- a move and a measurement of another slide leave the width that the next reply depends on
  induction acts with
  | nil => exact fun _ => rfl
  | cons a acts ih =>
    intro r
    have hrest := ih (r.act layout a)
    rw [measurements]
    cases hm : r.measured layout a with
    | none =>
      rw [widths_act_of_measured_eq_none hm] at hrest
      exact hrest
    | some m =>
      rw [lookup_widths_act hm] at hrest
      rw [Option.toList_some, List.singleton_append, ofSlide]
      by_cases h : m.slide = slide
      · obtain ⟨hslide, hanswer⟩ := measured_eq_some hm
        have hreply : scale layout (r.widths.lookup slide) m.size.1 m.size.2 = m.answer := by
          rw [hanswer, ← hslide, h]
          rfl
        rw [List.filter_cons_of_pos (by simpa using h), List.map_cons, List.map_cons, replies, hreply]
        simp only [h, true_and] at hrest
        exact congrArg (m.answer :: ·) hrest
      · rw [List.filter_cons_of_neg (by simpa using h)]
        rw [if_neg fun hm => h hm.1] at hrest
        exact hrest

theorem isAnswered_of_isSized {layout : Layout τ} (h : layout.IsSized) (acts : List (Act τ)) :
    ∀ r : Reader τ, ∀ m ∈ r.measurements layout acts, m.isAnswered = true := by
  induction acts with
  | nil => exact fun _ m hm => absurd hm List.not_mem_nil
  | cons a acts ih =>
    intro r m hm
    rw [measurements] at hm
    rcases List.mem_append.mp hm with hm | hm
    · obtain ⟨-, hanswer⟩ := measured_eq_some (Option.mem_toList.mp hm)
      obtain ⟨s, hs⟩ := isOk_scale h (r.widths.lookup r.index) m.width m.height
      rw [Measurement.isAnswered, hanswer, hs]
      rfl
    · exact ih _ m hm

end Reader

/-! ## exact sizes -/

section
variable {K : Type} [Field K] [LinearOrder K]

theorem least_num (x y : K) : least (Exact.num x) (.num y) = .num (min x y) := by
  unfold least
  rw [Exact.less_num]
  rcases lt_or_ge y x with h | h
  · rw [decide_eq_true h, if_pos rfl, min_eq_right h.le]
  · rw [decide_eq_false (not_lt.mpr h), if_neg Bool.false_ne_true, min_eq_left h]

theorem div?_num (x : K) {y : K} (hy : y ≠ 0) : div? (Exact.num x) (.num y) = some (.num (x / y)) :=
  if_neg fun h => hy (Exact.num.inj h)

/-- The scale of exact sizes. -/
theorem scale_num {W H : K} (hW : W ≠ 0) (hH : H ≠ 0) (epsilon : K) (previous : Option (Exact K)) (w h : K) :
    scale ⟨.num W, .num H, .num epsilon⟩ previous (.num w) (.num h) =
      .ok (if previous.any (same · (.num w)) then none
        else if epsilon < min (w / W) (h / H) then some (.num (min (w / W) (h / H))) else none) := by
  unfold scale
  split
  · rfl
  · simp only [div?_num _ hW, div?_num _ hH, least_num, Exact.less_num, decide_eq_true_eq]

theorem isSized_num {W H : K} (hW : W ≠ 0) (hH : H ≠ 0) (epsilon : Exact K) :
    (⟨.num W, .num H, epsilon⟩ : Layout (Exact K)).IsSized := by
  have hsome (x : Exact K) {y : K} (hy : y ≠ 0) : (div? x (.num y)).isSome = true := by
    rw [Option.isSome_iff_exists]
    exact ⟨_, if_neg fun h => hy (Exact.num.inj h)⟩
  exact fun x => ⟨hsome x hW, hsome x hH⟩

variable [IsStrictOrderedRing K]

/-- A scale makes a slide as large as there is room for it. -/
theorem scale_fits {W H : K} (hW : 0 < W) (hH : 0 < H) (epsilon : K) (previous : Option (Exact K)) (w h : K) :
    ∃ s, scale ⟨.num W, .num H, .num epsilon⟩ previous (.num w) (.num h) = .ok s ∧
      ∀ t, s = some t → ∃ x, t = .num x ∧ epsilon < x ∧ W * x ≤ w ∧ H * x ≤ h ∧ (W * x = w ∨ H * x = h) := by
  refine ⟨_, scale_num hW.ne' hH.ne' epsilon previous w h, fun t ht => ?_⟩
  split at ht
  · exact nomatch ht
  · split at ht
    · rename_i hgreat
      refine ⟨_, (Option.some.inj ht).symm, hgreat, ?_, ?_, ?_⟩
      · rw [mul_comm, ← le_div_iff₀ hW]
        exact min_le_left _ _
      · rw [mul_comm, ← le_div_iff₀ hH]
        exact min_le_right _ _
      · rcases min_choice (w / W) (h / H) with hmin | hmin
        · left
          rw [hmin, mul_div_cancel₀ w hW.ne']
        · right
          rw [hmin, mul_div_cancel₀ h hH.ne']
    · exact nomatch ht

end

/-! ## the answers -/

/-- **A slide is scaled by what was measured of it.**  Let a page start on any slide and go to others and measure in
any order.  A measurement is answered with the scale for its size, compared to the width last measured of the same
slide, measurements without an answer apart; and if slides have a width and a height, then all are answered, and it
is the width last measured of the slide.  In two runs in which the same sizes are measured on a slide, one after the
other, the same is answered there, whatever happens between and on other slides.  Where slides have exact and positive
sizes a scale is greater than the smallest one worth applying, the scaled slide fits, and it leaves no room in one
direction. -/
theorem Reader.answers_by_slide (layout : Layout τ) {slides : List (Slide τ)} {index : Int} {r : Reader τ}
    (hstart : start slides index = .ok r) :
    (∀ acts before m after, r.measurements layout acts = before ++ m :: after →
      m.answer = scale layout (latestWidth m.slide (before.filter (·.isAnswered))) m.width m.height ∧
      (layout.IsSized → m.isAnswered = true ∧
        m.answer = scale layout (latestWidth m.slide before) m.width m.height)) ∧
    (∀ slides' index' r', start slides' index' = .ok r' → ∀ acts acts' slide,
      (ofSlide slide (r.measurements layout acts)).map (·.size) =
        (ofSlide slide (r'.measurements layout acts')).map (·.size) →
      (ofSlide slide (r.measurements layout acts)).map (·.answer) =
        (ofSlide slide (r'.measurements layout acts')).map (·.answer)) ∧
    ∀ (K : Type) [Field K] [LinearOrder K] [IsStrictOrderedRing K] (W H epsilon w h : K) (shown : Reader (Exact K)),
      0 < W → 0 < H → ∃ s after, shown.measure ⟨.num W, .num H, .num epsilon⟩ (.num w) (.num h) = .ok (s, after) ∧
        ∀ t, s = some t → ∃ x, t = .num x ∧ epsilon < x ∧ W * x ≤ w ∧ H * x ≤ h ∧ (W * x = w ∨ H * x = h) := by
  have hremembers : r.Remembers [] := fun slide => by
    rw [widths_of_start hstart]
    rfl
  refine ⟨fun acts before m after h => ?_, fun slides' index' r' hstart' acts acts' slide h => ?_,
    fun K _ _ _ W H epsilon w h shown hW hH => ?_⟩
  · have hanswer := answer_of_remembers acts hremembers h
    rw [List.nil_append] at hanswer
    refine ⟨hanswer, fun hsized => ?_⟩
    have hall := isAnswered_of_isSized hsized acts r
    rw [h] at hall
    have hbefore : before.filter (·.isAnswered) = before :=
      List.filter_eq_self.mpr fun m' hm => hall m' (List.mem_append_left _ hm)
    rw [hbefore] at hanswer
    exact ⟨hall m (List.mem_append_right _ List.mem_cons_self), hanswer⟩
  · rw [answers_ofSlide, answers_ofSlide, h, widths_of_start hstart, widths_of_start hstart']
  · obtain ⟨s, hs, hfits⟩ := scale_fits hW hH epsilon (shown.widths.lookup shown.index) w h
    have hmeasure : shown.measure ⟨.num W, .num H, .num epsilon⟩ (.num w) (.num h) =
        .ok (s, { shown with widths := putWidth shown.index (.num w) shown.widths }) := by
      rw [measure, hs]
      rfl
    exact ⟨s, _, hmeasure, hfits⟩

/-- Two slides without times. -/
def twoSlides : List (Slide (Exact ℚ)) := [⟨0, .undefined, []⟩, ⟨1, .undefined, []⟩]

def wideLayout : Layout (Exact ℚ) := ⟨.num 704, .num 396, .num 0⟩

/-- The first slide is measured, left and come back to; the other one is measured in between. -/
def thereAndBack : List (Reader.Act (Exact ℚ)) :=
  [.measure (.num 704) (.num 396), .next, .measure (.num 352) (.num 99), .previous, .measure (.num 704) (.num 198)]

/-- The first slide is measured twice. -/
def standingStill : List (Reader.Act (Exact ℚ)) :=
  [.measure (.num 704) (.num 396), .measure (.num 704) (.num 198)]

open Reader in
/-- The width of the first slide is what it was, whatever was measured in between. -/
theorem Reader.answers_by_slide_back_again :
    ∃ r, start twoSlides 0 = .ok r ∧
      (∃ before m, r.measurements wideLayout thereAndBack = before ++ [m] ∧ m.answer = .ok none) ∧
      (ofSlide 0 (r.measurements wideLayout thereAndBack)).map (·.answer) =
        (ofSlide 0 (r.measurements wideLayout standingStill)).map (·.answer) ∧
      ∃ s after, r.measure wideLayout (.num 352) (.num 99) = .ok (s, after) ∧
        ∀ t, s = some t → ∃ x : ℚ, t = .num x ∧ 0 < x ∧ 704 * x ≤ 352 ∧ 396 * x ≤ 99 ∧
          (704 * x = 352 ∨ 396 * x = 99) := by
  obtain ⟨r, hstart⟩ : ∃ r, start twoSlides 0 = .ok r := ⟨_, rfl⟩
  obtain ⟨hown, hsame, hfits⟩ := answers_by_slide wideLayout hstart
  have hsized : wideLayout.IsSized := isSized_num (by norm_num) (by norm_num) _
  refine ⟨r, hstart, ?_, ?_, hfits ℚ 704 396 0 352 99 r (by norm_num) (by norm_num)⟩
  · obtain ⟨first, other, m, hall, hfirst, hwidth, hother, hm, hagain⟩ :
      ∃ first other m, r.measurements wideLayout thereAndBack = [first, other] ++ [m] ∧
        first.slide = 0 ∧ first.width = .num 704 ∧ other.slide = 1 ∧ m.slide = 0 ∧ m.width = .num 704 := by
      obtain rfl : _ = r := Except.ok.inj hstart
      exact ⟨_, _, _, rfl, rfl, rfl, rfl, rfl, rfl⟩
    have hanswer := ((hown _ _ m [] hall).2 hsized).2
    have hlatest : latestWidth m.slide [first, other] = some (.num 704) := by
      simp [latestWidth, ofSlide, hfirst, hwidth, hother, hm]
    rw [hlatest, hagain] at hanswer
    exact ⟨_, m, hall, hanswer⟩
  · refine hsame _ _ r hstart _ _ 0 ?_
    obtain rfl : _ = r := Except.ok.inj hstart
    rfl

open Reader in
/-- Slides that have no width: the first measurement is not answered, and its width is forgotten, so that the second
one, of the same width, is not answered either. -/
theorem Reader.measured_again_unsized :
    ∃ r, start twoSlides 0 = .ok r ∧
      let layout : Layout (Exact ℚ) := ⟨.num 0, .num 396, .num 0⟩
      (r.measurements layout [.measure (.num 704) (.num 396), .measure (.num 704) (.num 396)]).map (·.answer) =
          [.error .zeroSize, .error .zeroSize] ∧
        scale layout none (.num 704) (.num 396) = .error .zeroSize ∧
        scale layout (some (.num 704)) (.num 704) (.num 396) = .ok none :=
  ⟨_, rfl, rfl, rfl, rfl⟩

end Lectern.Slides
