import Lectern.Proofs.Lecture.Position
import Lectern.Proofs.Recorder.Run
import Lectern.Proofs.Reader

/-!
# A rehearsal shown again

A take in which the author goes once through all slides writes, for each slide, when it was left.
Given to the slides of a lecture these are the times at which the next ones appear, and the last one
is when the lecture ends.  So a seek to a position shows what was shown at that time.

* `rehearse`            a take with a step forward at each of some clock readings;
* `Rehearsed`           what has been written after some of its steps;
* `rehearsed_rehearse`  from the start of the take to any step;
* `replayed_timedBy`    the lecture made of it;
* `rehearsal_replays`   it shows the rehearsal again.
-/

namespace Lectern.Slides
open Quantity

variable {K : Type} [Field K] [LinearOrder K]

namespace Recorder

/-- A take started at a clock reading, with a step forward at each of others. -/
def rehearse (r : Recorder (Exact K)) (c0 : K) (cs : List K) : Recorder (Exact K) :=
  r.run ((.num c0, .toggle) :: cs.map fun c => (.num c, .forward))

/-- What a take that started on the first slide at `c0` has come to after steps at `cs`. -/
structure Rehearsed (slides : List (Slide (Exact K))) (c0 : K) (cs : List K)
    (r : Recorder (Exact K)) : Prop where
  slides_eq : r.reader.slides = slides
  index_eq : r.reader.index = min cs.length (slides.length - 1)
  times_eq : r.times = Exact.nums (cs.map (· - c0))
  shift_eq : r.shift = .num (cs.getLastD c0 - c0)
  take_eq : ∃ dwells, r.take = some ⟨.num (cs.getLastD c0), Exact.nums dwells⟩
  takes_eq : r.takes = []
  hasSink_eq : r.hasSink = true

theorem rehearsed_start {reader : Reader (Exact K)} (h : reader.index = 0) (c0 : K) :
    Rehearsed reader.slides c0 [] ((start reader true).toggle (.num c0)).after where
  slides_eq := rfl
  index_eq := by
    rw [List.length_nil, Nat.zero_min]
    exact h
  times_eq := rfl
  shift_eq := by
    show zero = _
    rw [List.getLastD_nil, sub_self]
    rfl
  take_eq := ⟨[], rfl⟩
  takes_eq := rfl
  hasSink_eq := rfl

/-- The running total telescopes: after each step it is the time since the start of the take. -/
theorem Rehearsed.next {slides : List (Slide (Exact K))} {c0 : K} {cs : List K}
    {r : Recorder (Exact K)} (h : Rehearsed slides c0 cs r) (hlt : cs.length < slides.length)
    (c : K) : Rehearsed slides c0 (cs ++ [c]) (r.next (.num c)).after := by
  obtain ⟨dwells, htake⟩ := h.take_eq
  have hroom : r.times.length < r.reader.slides.length := by
    rw [h.times_eq, Exact.length_nums, List.length_map, h.slides_eq]
    exact hlt
  have htotal : add r.shift (sub (.num c) (.num (cs.getLastD c0))) = .num (c - c0) := by
    rw [h.shift_eq, Exact.sub_num, Exact.add_num, sub_add_sub_cancel']
  rw [next_of_take htake hroom, htotal]
  refine ⟨?_, ?_, ?_, ?_, ⟨dwells ++ [c - cs.getLastD c0], ?_⟩, h.takes_eq, h.hasSink_eq⟩
  · exact (Reader.slides_next?_getD r.reader).trans h.slides_eq
  · show (r.reader.next?.getD r.reader).index = _
    rw [Reader.index_next?_getD, h.slides_eq, h.index_eq, List.length_append, List.length_singleton]
    omega
  · show r.times ++ [_] = _
    rw [h.times_eq, List.map_append, Exact.nums_append]
    rfl
  · rw [List.getLastD_concat]
  · rw [List.getLastD_concat, Exact.nums_append]
    rfl

theorem Rehearsed.run {slides : List (Slide (Exact K))} {c0 : K} (cs : List K) :
    ∀ {done : List K} {r : Recorder (Exact K)}, Rehearsed slides c0 done r →
      done.length + cs.length ≤ slides.length →
      Rehearsed slides c0 (done ++ cs) (r.run (cs.map fun c => (.num c, .forward))) := by
  induction cs with
  | nil =>
    intro done r h _
    rw [List.append_nil]
    exact h
  | cons c cs ih =>
    intro done r h hlen
    rw [List.length_cons] at hlen
    have h' := ih (h.next (by omega) c) (by rw [List.length_append, List.length_singleton]; omega)
    rw [List.append_assoc, List.singleton_append] at h'
    exact h'

theorem rehearsed_rehearse {reader : Reader (Exact K)} (h : reader.index = 0) (c0 : K)
    {cs : List K} (hlen : cs.length ≤ reader.slides.length) :
    Rehearsed reader.slides c0 cs ((start reader true).rehearse c0 cs) := by
  have h' := (rehearsed_start h c0).run cs (by rw [List.length_nil, Nat.zero_add]; exact hlen)
  rw [List.nil_append] at h'
  exact h'

/-- At the end of a take with one step for each slide the times since its start are handed out. -/
theorem Rehearsed.toggle_sent {slides : List (Slide (Exact K))} {c0 : K} {cs : List K}
    {r : Recorder (Exact K)} (h : Rehearsed slides c0 cs r) (hlen : cs.length = slides.length)
    (now : Exact K) :
    ∃ e, (r.toggle now).sent = some e ∧ e.times = Exact.nums (cs.map (· - c0)) := by
  obtain ⟨dwells, htake⟩ := h.take_eq
  have hwritten : ({ r with takes := r.takes ++ [Exact.nums dwells], take := none } :
      Recorder (Exact K)).written = .ok (some ⟨r.times, r.takes ++ [Exact.nums dwells]⟩) := by
    apply written_of_complete
    · rw [h.takes_eq]
      rfl
    · show r.times.length = r.reader.slides.length
      rw [h.times_eq, Exact.length_nums, List.length_map, h.slides_eq, hlen]
    · show ∀ t ∈ r.times, _
      rw [h.times_eq]
      intro t ht
      obtain ⟨x, _, rfl⟩ := List.mem_map.mp ht
      exact .inr rfl
    · rw [h.takes_eq]
      intro t ht
      rw [List.nil_append, List.flatten_singleton] at ht
      obtain ⟨x, _, rfl⟩ := List.mem_map.mp ht
      rfl
  refine ⟨⟨r.times, r.takes ++ [Exact.nums dwells]⟩, ?_, h.times_eq⟩
  rw [toggle_of_take htake now hwritten]
  exact if_pos h.hasSink_eq

end Recorder

/-! ## the lecture made of a rehearsal -/

/-- The slides appear at zero and then whenever the one before was left. -/
def appearances (c0 : K) (cs : List K) : List K := (0 :: cs.map (· - c0)).take cs.length

section
variable [IsStrictOrderedRing K] {c0 : K} {cs : List K} {epsilon : K}

theorem appearances_sorted (hsorted : (c0 :: cs).Pairwise (· ≤ ·)) :
    (appearances c0 cs).Pairwise (· ≤ ·) := by
  have hshift : (0 :: cs.map (· - c0)).Pairwise (· ≤ ·) := by
    have h := hsorted.map (· - c0) fun a b hab => sub_le_sub_right hab c0
    rwa [List.map_cons, sub_self] at h
  exact hshift.sublist (List.take_sublist _ _)

/-- As long as the rehearsal goes on, one slide more has appeared than steps were taken, provided
that no step falls into the time by which a seek looks ahead. -/
theorem countP_appearances (heps : 0 ≤ epsilon) {p : K} (hp : 0 ≤ p)
    (hlast : p < cs.getLastD c0 - c0)
    (hgap : ∀ c ∈ cs, ¬ (p < c - c0 ∧ c - c0 ≤ p + epsilon)) :
    (appearances c0 cs).countP (fun t => decide (t ≤ p + epsilon)) =
      (cs.filter fun c => decide (c ≤ c0 + p)).length + 1 := by
  rcases List.eq_nil_or_concat cs with rfl | ⟨init, last, rfl⟩
  · rw [List.getLastD_nil, sub_self] at hlast
    exact absurd hlast (not_lt.mpr hp)
  · rw [List.concat_eq_append, List.getLastD_concat] at hlast
    rw [List.concat_eq_append] at hgap ⊢
    -- the last step ends the last slide, so nothing appears then
    have htake : appearances c0 (init ++ [last]) = 0 :: init.map (· - c0) := by
      rw [appearances, List.map_append, List.length_append, List.length_singleton,
        List.take_succ_cons, List.take_left' (List.length_map _)]
    have hlast' : ¬ last ≤ c0 + p := fun h => by linarith
    rw [htake, List.countP_cons_of_pos (by simp; linarith), List.countP_map, List.filter_append,
      List.filter_cons_of_neg (by simpa using hlast'), List.filter_nil, List.append_nil,
      ← List.countP_eq_length_filter]
    congr 1
    apply List.countP_congr
    intro c hc
    have h := hgap c (List.mem_append_left _ hc)
    simp only [Function.comp_apply, decide_eq_true_eq]
    constructor
    · intro hle
      by_contra hlt
      exact h ⟨by linarith, hle⟩
    · intro hle
      linarith

end

/-- The lecture over slides that were given the times of a rehearsal. -/
theorem replayed_timedBy {c0 : K} {cs : List K} {epsilon : K} {blank : List (Slide (Exact K))}
    (hne : cs ≠ []) (hlen : cs.length = blank.length) {shown : Reader (Exact K)}
    (hshown : shown.slides = retime blank (Exact.nums (cs.map (· - c0))))
    (media : Media (Exact K)) (finish : Exact K) (acts : List (Action (Exact K))) :
    ((Lecture.start shown media finish (.num epsilon)).run acts).TimedBy (appearances c0 cs)
      epsilon := by
  have hpage := (Lecture.samePage_start shown media finish (.num epsilon)).trans
    (Lecture.samePage_run _ acts)
  refine Lecture.TimedBy.of_samePage ⟨?_, rfl⟩ hpage
  have hnums : Exact.nums (cs.map (· - c0)) ≠ [] := by
    intro h
    have hlen0 := congrArg List.length h
    rw [Exact.length_nums, List.length_map] at hlen0
    exact hne (List.eq_nil_of_length_eq_zero hlen0)
  show shown.slides.map (·.time) = _
  rw [hshown, map_time_retime blank hnums
    (by rw [Exact.length_nums, List.length_map, hlen]; exact Nat.le_succ _), ← hlen, appearances,
    Exact.nums, Exact.nums, List.map_take]
  rfl

/-- Its end is the time of the last step. -/
theorem replayed_finish {c0 : K} {cs : List K} {count : Nat} (hne : cs ≠ [])
    (hlen : cs.length = count) :
    endOf (Exact.nums (cs.map (· - c0))) count = .num (cs.getLastD c0 - c0) := by
  apply endOf_of_length
  · rw [Exact.length_nums, List.length_map, hlen]
  · obtain ⟨init, last, rfl⟩ := (List.eq_nil_or_concat cs).resolve_left hne
    rw [List.concat_eq_append, List.getLastD_concat, Exact.nums, List.map_append, List.map_append]
    exact List.getLast?_concat

section
variable [IsStrictOrderedRing K] {c0 : K} {cs : List K} {epsilon p : K} {l : Lecture (Exact K)}

/-- A seek of the user goes over as many slides as steps had been taken by then. -/
theorem seeked_index_replayed (hsorted : (c0 :: cs).Pairwise (· ≤ ·)) (heps : 0 ≤ epsilon)
    (h : l.TimedBy (appearances c0 cs) epsilon) (hidle : l.phase = .idle) (hp : 0 ≤ p)
    (hlast : p < cs.getLastD c0 - c0)
    (hgap : ∀ c ∈ cs, ¬ (p < c - c0 ∧ c - c0 ≤ p + epsilon)) :
    (l.atPosition (.num p)).seeked.2.reader.index =
      (cs.filter fun c => decide (c ≤ c0 + p)).length := by
  rw [(h.atPosition p).seeked_index hidle, firstAfter_eq_countP (appearances_sorted hsorted),
    countP_appearances heps hp hlast hgap, Nat.add_sub_cancel]

/-- The last step is not among them, so the reader had not come to its end. -/
theorem length_filter_lt (heps : 0 ≤ epsilon) (hp : 0 ≤ p) (hlast : p < cs.getLastD c0 - c0)
    (hgap : ∀ c ∈ cs, ¬ (p < c - c0 ∧ c - c0 ≤ p + epsilon)) :
    (cs.filter fun c => decide (c ≤ c0 + p)).length < cs.length := by
  have h := List.countP_le_length (p := fun t => decide (t ≤ p + epsilon)) (l := appearances c0 cs)
  rw [countP_appearances heps hp hlast hgap, appearances, List.length_take] at h
  omega

end

/-- **A recorded rehearsal replays.**  Over a page of slides a take starts at `c0`, goes one step
forward at each of as many clock readings as there are slides, and is closed.  The times handed out,
given to as many slides and as the end of a lecture, show the rehearsal again.  Whatever has
happened to that lecture, a seek of the user to a position `p` leads to the slide that was on screen
at `c0 + p`, unless a step fell into the `epsilon` after it; and a report of a position on the last
slide wraps to the first one exactly when less than `epsilon` is left of the rehearsal. -/
theorem rehearsal_replays [IsStrictOrderedRing K] (slides blank : List (Slide (Exact K)))
    (hne : slides ≠ []) (hblank : blank.length = slides.length) {c0 : K} {cs : List K}
    (hlen : cs.length = slides.length) (hsorted : (c0 :: cs).Pairwise (· ≤ ·)) (close : Exact K)
    {epsilon : K} (heps : 0 ≤ epsilon) :
    ∃ reader e, Reader.start slides 0 = .ok reader ∧
      (((Recorder.start reader true).rehearse c0 cs).toggle close).sent = some e ∧
      ∀ index : Int, 0 ≤ index → index < blank.length →
        ∃ shown, Reader.start (retime blank e.times) index = .ok shown ∧
          ∀ (media : Media (Exact K)) (acts : List (Action (Exact K))) (l : Lecture (Exact K)),
            l = (Lecture.start shown media (endOf e.times blank.length) (.num epsilon)).run acts →
            (∀ p, 0 ≤ p → p < cs.getLastD c0 - c0 →
              (∀ c ∈ cs, ¬ (p < c - c0 ∧ c - c0 ≤ p + epsilon)) → l.phase = .idle →
              (l.atPosition (.num p)).seeked.1 = true ∧
              (l.atPosition (.num p)).seeked.2.reader.index =
                ((Recorder.start reader true).rehearse c0
                  (cs.filter fun c => decide (c ≤ c0 + p))).reader.index) ∧
            ∀ p, l.reader.isLast = true →
              ((l.atPosition (.num p)).positionUpdate.1 = true ↔
                cs.getLastD c0 - c0 - epsilon < p) ∧
              ((l.atPosition (.num p)).positionUpdate.1 = true →
                (l.atPosition (.num p)).positionUpdate.2.reader.index = 0) ∧
              ((l.atPosition (.num p)).positionUpdate.1 = false →
                (l.atPosition (.num p)).positionUpdate.2 = l.atPosition (.num p)) := by
  have hpos : 0 < slides.length := List.length_pos_of_ne_nil hne
  have hcs : cs ≠ [] := List.ne_nil_of_length_pos (hlen ▸ hpos)
  have hzero : (0 : Int) < slides.length := Int.natCast_pos.mpr hpos
  obtain ⟨reader, hstart, hslides, hindex⟩ := Reader.exists_start le_rfl hzero
  have hrehearsed : ∀ ds : List K, ds.length ≤ slides.length →
      Recorder.Rehearsed reader.slides c0 ds ((Recorder.start reader true).rehearse c0 ds) :=
    fun ds h => Recorder.rehearsed_rehearse (Int.natCast_eq_zero.mp hindex) c0 (hslides.symm ▸ h)
  obtain ⟨e, hsent, htimes⟩ := (hrehearsed cs hlen.le).toggle_sent (hslides.symm ▸ hlen) close
  refine ⟨reader, e, hstart, hsent, fun index h0 h1 => ?_⟩
  have hindex1 : index < (retime blank e.times).length := by rwa [length_retime]
  obtain ⟨shown, hshown, hpage, -⟩ := Reader.exists_start h0 hindex1
  refine ⟨shown, hshown, fun media acts l hl => ?_⟩
  have htimed : l.TimedBy (appearances c0 cs) epsilon := by
    rw [hl]
    exact replayed_timedBy hcs (hlen.trans hblank.symm) (htimes ▸ hpage) media _ acts
  have hfinish : l.finish = .num (cs.getLastD c0 - c0) := by
    have hsame := (Lecture.samePage_start shown media (endOf e.times blank.length)
      (.num epsilon)).trans (Lecture.samePage_run _ acts)
    rw [hl, hsame.finish_eq, htimes]
    exact replayed_finish hcs (hlen.trans hblank.symm)
  constructor
  · intro p hp hlast hgap hidle
    refine ⟨Lecture.seeked_answer hidle rfl, ?_⟩
    have hlt := length_filter_lt heps hp hlast hgap
    rw [seeked_index_replayed hsorted heps htimed hidle hp hlast hgap,
      (hrehearsed _ (by omega)).index_eq, hslides]
    omega
  · intro p hlast
    exact (htimed.atPosition p).positionUpdate_wraps hlast hfinish

/-- Three slides without times. -/
def untimedSlides : List (Slide (Exact ℚ)) :=
  [⟨0, .undefined, []⟩, ⟨1, .undefined, []⟩, ⟨2, .undefined, []⟩]

/-- The first two slides are left at once; a seek to that moment shows the third, which wraps
shortly before its end. -/
theorem rehearsal_replays_two_at_once :
    ∃ reader e shown, Reader.start untimedSlides 0 = .ok reader ∧
      (((Recorder.start reader true).rehearse 10 [12, 12, 17]).toggle (.num 20)).sent = some e ∧
      Reader.start (retime untimedSlides e.times) 0 = .ok shown ∧
      let l := (Lecture.start shown .fresh (endOf e.times 3) (.num (1 / 2))).run
        [.event .seeked, .event (.jump 2), .event .seeked]
      (l.atPosition (.num 2)).seeked.2.reader.index =
        ((Recorder.start reader true).rehearse 10
          ([12, 12, 17].filter fun c => decide (c ≤ 10 + 2))).reader.index ∧
      (l.atPosition (.num (27 / 4))).positionUpdate.1 = true := by
  have hsorted : ([10, 12, 12, 17] : List ℚ).Pairwise (· ≤ ·) := by decide +kernel
  have heps : (0 : ℚ) ≤ 1 / 2 := by norm_num
  obtain ⟨reader, e, hstart, hsent, h⟩ := rehearsal_replays untimedSlides untimedSlides
    (by simp [untimedSlides]) rfl rfl hsorted (.num 20) heps
  obtain ⟨shown, hshown, hl⟩ := h 0 le_rfl (by decide)
  obtain ⟨hseek, hwrap⟩ := hl .fresh [.event .seeked, .event (.jump 2), .event .seeked] _ rfl
  obtain rfl : _ = reader := Except.ok.inj hstart
  obtain rfl : _ = e := Option.some.inj hsent
  obtain rfl : _ = shown := Except.ok.inj hshown
  refine ⟨_, _, _, hstart, hsent, hshown, ?_, ?_⟩
  · exact (hseek 2 (by norm_num) (by decide +kernel) (by decide +kernel) rfl).2
  · exact (hwrap (27 / 4) rfl).1.mpr (by decide +kernel)

end Lectern.Slides
