import Lectern.Proofs.Lecture.Session
import Lectern.Proofs.Lecture.Untimed
import Lectern.Proofs.Reader

/-!
# After a navigation

A navigation puts the video at the start of the slide it leads to: at the slide's own time, or at
that of the nearest earlier slide that has one.  On a page with the times of a rehearsal this is
before the time of every later slide, so the reports of a video that stands there move nothing.

* `StartsAt`            where the video stands for a slide;
* `FarBehind`           an end of the lecture that no slide's start comes near;
* `Rehearsed`           lectures over a page with recorded times;
* `Stays`               a slide is shown and the video stands at its start;
* `stays_act`, `stays_run`   this is kept as long as nobody moves the video;
* `navigation_stays`    so it is after every navigation.
-/

set_option linter.unusedSectionVars false

namespace Lectern.Slides
open Quantity

variable {K : Type} [Field K] [LinearOrder K]

/-- The time of the nearest slide at or before this one that has a time, zero where there is none. -/
def StartsAt (slides : List (Slide (Exact K))) (k : Nat) (t : K) : Prop :=
  (∃ i, ∃ hi : i < slides.length, i ≤ k ∧ slides[i].time = .num t ∧
    ∀ j (hj : j < slides.length), i < j → j ≤ k → slides[j].isTimed = false) ∨
  (t = 0 ∧ ∀ j (hj : j < slides.length), j ≤ k → slides[j].isTimed = false)

/-- An end that is undefined, or more than `epsilon` after zero and after every slide. -/
def FarBehind (slides : List (Slide (Exact K))) (epsilon : K) (x : Exact K) : Prop :=
  ∀ e, x = .num e → epsilon < e ∧ ∀ s ∈ slides, ∀ t, s.time = .num t → t + epsilon < e

/-- Without a time on the first slide there is none at all. -/
def TimedFromFirst (slides : List (Slide (Exact K))) : Prop :=
  ∀ h : 0 < slides.length, slides[0].isTimed = false → ∀ s ∈ slides, s.isTimed = false

theorem timedFromFirst_retime {base : List (Slide (Exact K))} {recorded : List (Exact K)}
    (hbase : recorded = [] → ∀ s ∈ base, s.isTimed = false) :
    TimedFromFirst (retime base recorded) := by
  intro h hfirst
  cases recorded with
  | nil => exact hbase rfl
  | cons t ts =>
    -- the first slide has been put at zero
    have hlen : 0 < base.length := by rwa [length_retime] at h
    have hzero := time_retime base (List.cons_ne_nil t ts) hlen h
    rw [Slide.isTimed, hzero] at hfirst
    exact absurd (show true = false from hfirst) (by decide)

/-! ## the start of a slide -/

section
variable {slides : List (Slide (Exact K))} {k : Nat}

/-- A slide without a time starts where the one before it does. -/
theorem anchorOf_take_of_untimed (hk : k < slides.length) (hu : slides[k].isTimed = false) :
    anchorOf (slides.take (k + 1)) = anchorOf (slides.take k) := by
  rw [anchorOf, anchorOf, List.take_succ_eq_append_getElem hk, List.reverse_append,
    List.reverse_singleton, List.singleton_append,
    List.find?_cons_of_neg (by rw [hu]; exact Bool.false_ne_true)]

theorem exists_startsAt (hk : k < slides.length) :
    ∃ t, anchorOf (slides.take (k + 1)) = .num t ∧ StartsAt slides k t := by
  induction k with
  | zero =>
    cases ht : slides[0].isTimed with
    | true =>
      obtain ⟨t, htime⟩ := isTimed_iff.mp ht
      refine ⟨t, (Lecture.anchorOf_take_of_timed hk ht).trans htime, .inl ⟨0, hk, le_rfl, htime, ?_⟩⟩
      intro j hj h0 hj0
      omega
    | false =>
      refine ⟨0, anchorOf_take_of_untimed hk ht, .inr ⟨rfl, ?_⟩⟩
      intro j hj hj0
      obtain rfl : j = 0 := by omega
      exact ht
  | succ k ih =>
    cases ht : slides[k + 1].isTimed with
    | true =>
      obtain ⟨t, htime⟩ := isTimed_iff.mp ht
      refine ⟨t, (Lecture.anchorOf_take_of_timed hk ht).trans htime, .inl ⟨k + 1, hk, le_rfl, htime, ?_⟩⟩
      intro j hj hlt hle
      omega
    | false =>
      have hlast : ∀ j (hj : j < slides.length), j ≤ k + 1 → ¬ j ≤ k → slides[j].isTimed = false := by
        intro j hj hle hnle
        obtain rfl : j = k + 1 := by omega
        exact ht
      obtain ⟨t, htime, hstarts⟩ := ih (by omega)
      refine ⟨t, (anchorOf_take_of_untimed hk ht).trans htime, ?_⟩
      rcases hstarts with ⟨i, hi, hik, hit, hbetween⟩ | ⟨h0, hnone⟩
      · refine .inl ⟨i, hi, by omega, hit, fun j hj hij hle => ?_⟩
        by_cases hjk : j ≤ k
        · exact hbetween j hj hij hjk
        · exact hlast j hj hle hjk
      · refine .inr ⟨h0, fun j hj hle => ?_⟩
        by_cases hjk : j ≤ k
        · exact hnone j hj hjk
        · exact hlast j hj hle hjk

/-- What is used of the start of a slide: every later time is more than `epsilon` behind it, and so
is every end that is far behind. -/
structure Start (slides : List (Slide (Exact K))) (epsilon : K) (k : Nat) (t : K) : Prop where
  anchor_eq : anchorOf (slides.take (k + 1)) = .num t
  later : ∀ i (hi : i < slides.length), k < i → ∀ u, slides[i].time = .num u → epsilon < u - t
  closes : ∀ x e, FarBehind slides epsilon x → x = .num e → t + epsilon < e

theorem exists_start [IsStrictOrderedRing K] {epsilon : K} (hfirst : TimedFromFirst slides)
    (hgaps : TimesPairwise (fun s t => epsilon < t - s) slides) (hk : k < slides.length) :
    ∃ t, StartsAt slides k t ∧ Start slides epsilon k t := by
  obtain ⟨t, hanchor, hstarts⟩ := exists_startsAt hk
  refine ⟨t, hstarts, hanchor, fun i hi hki u hu => ?_, fun x e hx he => ?_⟩
  · rcases hstarts with ⟨j, hj, hjk, hjt, -⟩ | ⟨-, hnone⟩
    · exact List.pairwise_iff_getElem.mp hgaps j i hj hi (by omega) t u hjt hu
    · have h0 : 0 < slides.length := by omega
      have huntimed := hfirst h0 (hnone 0 h0 (Nat.zero_le k)) _ (List.getElem_mem hi)
      rw [isTimed_iff.mpr ⟨u, hu⟩] at huntimed
      exact nomatch huntimed
  · obtain ⟨hzero, hslides⟩ := hx e he
    rcases hstarts with ⟨j, hj, -, hjt, -⟩ | ⟨rfl, -⟩
    · exact hslides _ (List.getElem_mem hj) t hjt
    · rwa [zero_add]

end

/-! ## nobody moves the video -/

/-- The video reports its position, plays or pauses, or the host changes something else about it. -/
def Action.IsQuiet (slides : List (Slide (Exact K))) (epsilon : K) : Action (Exact K) → Prop
  | .event .positionUpdate | .event .played | .event .paused | .event .play | .event .pause => True
  | .event _ => False
  | .host c => c.time = none ∧ ∀ d, c.duration = some d → FarBehind slides epsilon d

namespace Lecture

/-- A lecture over a page with recorded times; those that there are lie more than `epsilon` apart,
and the ends of the lecture are far behind them. -/
structure Rehearsed (base : List (Slide (Exact K))) (recorded : List (Exact K)) (epsilon : K)
    (l : Lecture (Exact K)) : Prop where
  /-- No other times are in use. -/
  untimed : recorded = [] → ∀ s ∈ base, s.isTimed = false
  slides_eq : l.reader.slides = retime base recorded
  epsilon_eq : l.epsilon = .num epsilon
  gaps : TimesPairwise (fun s t => epsilon < t - s) (retime base recorded)
  finish_far : FarBehind (retime base recorded) epsilon l.finish
  duration_far : FarBehind (retime base recorded) epsilon l.media.duration

/-- A slide is shown, and the video stands at its start. -/
structure Stays (slides : List (Slide (Exact K))) (epsilon : K) (k : Nat) (t : K)
    (l : Lecture (Exact K)) : Prop where
  slides_eq : l.reader.slides = slides
  epsilon_eq : l.epsilon = .num epsilon
  index_eq : l.reader.index = k
  time_eq : l.media.time = .num t
  finish_far : FarBehind slides epsilon l.finish
  duration_far : FarBehind slides epsilon l.media.duration

section
variable {slides : List (Slide (Exact K))} {epsilon t : K} {k : Nat} {l : Lecture (Exact K)}

theorem stays_positionUpdate [IsStrictOrderedRing K] (hstart : Start slides epsilon k t)
    (h : l.Stays slides epsilon k t) :
    l.positionUpdate.2.Stays slides epsilon k t ∧
      (l.phase = .awaiting → l.positionUpdate.2.phase = .awaiting) := by
  cases hs : l.media.seeking with
  | true =>
    rw [positionUpdate_of_seeking hs]
    exact ⟨h, id⟩
  | false =>
    cases hl : l.reader.isLast with
    | true =>
      -- the lecture does not end here, as its end is far behind
      have hclosing : FarBehind slides epsilon l.closing := by
        unfold closing
        split
        · exact h.duration_far
        · exact h.finish_far
      have hless : less (sub l.closing l.epsilon) l.media.time = false := by
        rw [h.epsilon_eq, h.time_eq]
        cases hc : l.closing with
        | undefined => rfl
        | num e =>
          have hlt := hstart.closes _ e hclosing hc
          exact decide_eq_false (not_lt.mpr (by linarith))
      rw [positionUpdate_of_last hs hl, hless, if_neg Bool.false_ne_true]
      exact ⟨h, id⟩
    | false =>
      have hn := Reader.next_lt_of_not_last hl
      cases ht : l.reader.slides[l.reader.index + 1].isTimed with
      | false =>
        -- the video is sent to the start of the slide, where it stands
        have hsame : l.anchor l.reader.index = .num t := by
          rw [anchor, h.slides_eq, h.index_eq, hstart.anchor_eq]
        rw [positionUpdate_of_untimed hs hn ht, hsame]
        exact ⟨⟨h.slides_eq, h.epsilon_eq, h.index_eq, rfl, h.finish_far, h.duration_far⟩,
          fun _ => rfl⟩
      | true =>
        obtain ⟨u, hu⟩ := isTimed_iff.mp ht
        have hlater : epsilon < u - t := by
          obtain ⟨hslides, -, rfl, -⟩ := h
          subst hslides
          exact hstart.later _ hn (Nat.lt_succ_self _) u hu
        have hless : less (sub (.num u) l.epsilon) l.media.time = false := by
          rw [h.epsilon_eq, h.time_eq]
          exact decide_eq_false (not_lt.mpr (by linarith))
        rw [positionUpdate_of_timed hs hn ht, hu, hless, if_neg Bool.false_ne_true]
        exact ⟨h, id⟩

section
variable [IsStrictOrderedRing K] (hstart : Start slides epsilon k t)
include hstart

theorem stays_act (h : l.Stays slides epsilon k t) {a : Action (Exact K)}
    (ha : a.IsQuiet slides epsilon) : (l.act a).Stays slides epsilon k t ∧
      (l.phase = .awaiting → (l.act a).phase = .awaiting) := by
  have kept {m : Lecture (Exact K)} (hr : m.reader = l.reader) (he : m.epsilon = l.epsilon)
      (ht : m.media.time = l.media.time) (hf : m.finish = l.finish)
      (hd : FarBehind slides epsilon m.media.duration) : m.Stays slides epsilon k t :=
    ⟨hr ▸ h.slides_eq, he.trans h.epsilon_eq, hr ▸ h.index_eq, ht.trans h.time_eq,
      hf ▸ h.finish_far, hd⟩
  cases a with
  | host c =>
    obtain ⟨htime, hduration⟩ := ha
    refine ⟨kept rfl rfl ?_ rfl ?_, id⟩
    · show c.time.getD l.media.time = _
      rw [htime]
      rfl
    · show FarBehind slides epsilon (c.duration.getD l.media.duration)
      cases hc : c.duration with
      | none => exact h.duration_far
      | some d => exact hduration d hc
  | event e =>
    cases e with
    | positionUpdate => exact stays_positionUpdate hstart h
    | played | paused | pause => exact ⟨kept rfl rfl rfl rfl h.duration_far, id⟩
    | play =>
      show l.play.2.Stays slides epsilon k t ∧ (_ → l.play.2.phase = _)
      unfold play
      split
      · exact ⟨kept rfl rfl rfl rfl h.duration_far, id⟩
      · exact ⟨h, id⟩
    | _ => exact ha.elim

theorem stays_run (h : l.Stays slides epsilon k t) {acts : List (Action (Exact K))}
    (ha : ∀ a ∈ acts, a.IsQuiet slides epsilon) : (l.run acts).Stays slides epsilon k t ∧
      (l.phase = .awaiting → (l.run acts).phase = .awaiting) := by
  induction acts generalizing l with
  | nil => exact ⟨h, id⟩
  | cons a acts ih =>
    obtain ⟨h1, hp1⟩ := stays_act hstart h (ha a List.mem_cons_self)
    obtain ⟨h2, hp2⟩ := ih h1 fun b hb => ha b (List.mem_cons_of_mem a hb)
    exact ⟨h2, hp2 ∘ hp1⟩

end

/-! ## navigations -/

end
end Lecture

/-- Where a navigation asks to go from a slide. -/
def Event.target? (index : Nat) : Event → Option Int
  | .next => some (index + 1)
  | .previous => some (index - 1)
  | .jump i => some i
  | _ => none

namespace Lecture

/-- The lecture follows an accepted navigation to the slide that was asked for. -/
theorem handle_navigation {τ : Type} [Quantity τ] {l : Lecture τ} {e : Event} {k : Int}
    (hk : e.target? l.reader.index = some k) (hok : (l.handle e).1 = some true) :
    ∃ r, r.slides = l.reader.slides ∧ (r.index : Int) = k ∧ (l.handle e).2 = l.followMove r := by
  have follow {move : Option (Reader τ)} (hmove : ∀ r, move = some r → l.reader.show? k = some r)
      (hok : some (l.navigate move).1 = some true) :
      ∃ r, r.slides = l.reader.slides ∧ (r.index : Int) = k ∧
        (l.navigate move).2 = l.followMove r := by
    cases move with
    | none => exact absurd (Option.some.inj hok) Bool.false_ne_true
    | some r =>
      obtain ⟨hslides, hindex, -⟩ := Reader.show?_eq_some_iff.mp (hmove r rfl)
      exact ⟨r, hslides, hindex, rfl⟩
  cases e with
  | next =>
    obtain rfl := Option.some.inj hk
    refine follow (fun r hr => ?_) hok
    unfold Reader.next? at hr
    split at hr
    · exact nomatch hr
    · exact hr
  | previous =>
    obtain rfl := Option.some.inj hk
    refine follow (fun r hr => ?_) hok
    unfold Reader.previous? at hr
    split at hr
    · exact nomatch hr
    · exact hr
  | jump i =>
    obtain rfl := Option.some.inj hk
    exact follow (fun r hr => hr) hok
  | _ => exact nomatch hk

variable {base : List (Slide (Exact K))} {recorded : List (Exact K)} {epsilon : K}
  {l : Lecture (Exact K)}

/-- Slide `k` is shown and the video stands at `t`. -/
def Rests (k : Nat) (t : K) (l : Lecture (Exact K)) : Prop :=
  l.reader.index = k ∧ l.media.time = .num t

/-- **A navigation is not undone.**  On a page with recorded times, however many of its slides have
one, an accepted navigation shows the slide `k` that was asked for and leaves the video at the start
of it.  As long as nobody moves the video the slide stays shown and the video stays there, however
often the position is reported.  The next notification of a seek is taken for the lecture's own and
moves nothing, and the same holds on from there. -/
theorem navigation_stays [IsStrictOrderedRing K] (h : l.Rehearsed base recorded epsilon) {e : Event}
    {i : Int} (hi : e.target? l.reader.index = some i) (hok : (l.handle e).1 = some true) :
    ∃ k : Nat, ∃ t, (k : Int) = i ∧ StartsAt (retime base recorded) k t ∧
      (l.handle e).2.Rests k t ∧
      ∀ acts : List (Action (Exact K)), (∀ a ∈ acts, a.IsQuiet (retime base recorded) epsilon) →
        ((l.handle e).2.run acts).Rests k t ∧ ((l.handle e).2.run acts).seeked.1 = false ∧
        ∀ acts' : List (Action (Exact K)),
          (∀ a ∈ acts', a.IsQuiet (retime base recorded) epsilon) →
          (((l.handle e).2.run acts).seeked.2.run acts').Rests k t := by
  obtain ⟨r, hslides, hindex, hafter⟩ := handle_navigation hi hok
  have hr : (l.handle e).2.reader = r := by rw [hafter, followMove_reader]
  have hpage : r.slides = retime base recorded := hslides.trans h.slides_eq
  obtain ⟨t, hstarts, hstart⟩ := exists_start (timedFromFirst_retime h.untimed) h.gaps
    (show r.index < (retime base recorded).length from hpage ▸ r.index_lt)
  have hstays : (l.handle e).2.Stays (retime base recorded) epsilon r.index t := by
    have hsame := (outcome_handle l e).samePage
    refine ⟨hsame.slides_eq.trans h.slides_eq, hsame.epsilon_eq.trans h.epsilon_eq, by rw [hr], ?_,
      hsame.finish_eq ▸ h.finish_far, ?_⟩
    · rw [hafter, followMove_time, hpage, hstart.anchor_eq]
    · rw [hafter]
      show FarBehind _ epsilon (refreshStamp _).media.duration
      rw [refreshStamp_eq]
      exact h.duration_far
  refine ⟨r.index, t, hindex, hstarts, ⟨hstays.index_eq, hstays.time_eq⟩, fun acts hq => ?_⟩
  obtain ⟨hrun, hwaits⟩ := stays_run hstart hstays hq
  have hseeked := seeked_of_awaiting (hwaits (by rw [hafter, followMove_phase]))
  refine ⟨⟨hrun.index_eq, hrun.time_eq⟩, by rw [hseeked], fun acts' hq' => ?_⟩
  have hidle : ((l.handle e).2.run acts).seeked.2.Stays (retime base recorded) epsilon r.index t := by
    rw [hseeked]
    exact ⟨hrun.slides_eq, hrun.epsilon_eq, hrun.index_eq, hrun.time_eq, hrun.finish_far,
      hrun.duration_far⟩
  obtain ⟨hrun', -⟩ := stays_run hstart hidle hq'
  exact ⟨hrun'.index_eq, hrun'.time_eq⟩

/-- Four slides, of which a rehearsal has given the third a time; the last is shown. -/
def halfRehearsed : Lecture (Exact ℚ) where
  reader := ⟨retime [⟨0, .undefined, []⟩, ⟨1, .undefined, []⟩, ⟨2, .undefined, []⟩,
    ⟨3, .undefined, []⟩] [.undefined, .num 2], 3, [], by decide⟩
  media := { time := .num 7, duration := .num 9 }
  finish := .undefined
  epsilon := .num 1

/-- A jump to the second slide puts the video at zero, where it stays through three reports. -/
theorem navigation_stays_untimed :
    (halfRehearsed.handle (.jump 1)).1 = some true ∧
    ((((halfRehearsed.handle (.jump 1)).2.run [.event .positionUpdate]).seeked.2).run
      [.event .play, .event .positionUpdate, .event .positionUpdate]).Rests 1 0 := by
  have h : halfRehearsed.Rehearsed [⟨0, .undefined, []⟩, ⟨1, .undefined, []⟩, ⟨2, .undefined, []⟩,
      ⟨3, .undefined, []⟩] [.undefined, .num 2] 1 := by
    have hzero : (zero : Exact ℚ) = .num 0 := rfl
    refine ⟨fun e => absurd e (by simp), rfl, rfl, ?_, fun e he => ?_, fun e he => ?_⟩
    · simp [TimesPairwise, retime, hzero]
    · exact absurd he (by simp [halfRehearsed])
    · obtain rfl := Exact.num.inj he
      simp [retime, hzero, show (1 : ℚ) < 9 by norm_num, show (2 : ℚ) + 1 < 9 by norm_num]
  have hok : (halfRehearsed.handle (.jump 1)).1 = some true := by decide +kernel
  obtain ⟨k, t, hk, hstarts, ⟨hindex, htime⟩, hstays⟩ :=
    navigation_stays h (e := .jump 1) (i := 1) rfl hok
  obtain rfl : k = 1 := by omega
  obtain rfl : t = 0 := by
    have h0 : (halfRehearsed.handle (.jump 1)).2.media.time = .num 0 := by decide +kernel
    exact Exact.num.inj (htime.symm.trans h0)
  obtain ⟨-, -, hafter⟩ := hstays [.event .positionUpdate] (by simp [Action.IsQuiet])
  exact ⟨hok, hafter _ (by simp [Action.IsQuiet])⟩

end Lecture
end Lectern.Slides
