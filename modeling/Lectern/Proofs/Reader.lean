import Lectern.Proofs.Times
import Lectern.Slides.Reader

/-!
# Moves of a reader

* `start_eq_ok`, `exists_start`    a reader of a page with slides;
* `show?_of_lt`, `show?_of_not`    a move that is accepted, and one that is not;
* `show?_eq_some_iff`              what a move leads to: the same slides, the slide asked for;
* `exists_show?_of_next?`, `exists_show?_of_previous?`   a step is a move;
* `index_next?_getD`               a step forward, which stops at the last slide;
* `index_previous?_getD`           a step back, which stops at the first one;
* `upcoming?_eq_none_iff`          only the last slide has none after it;
* `length_retime`, `getElem_retime`   the slides that recorded times are given to, one by one;
* `map_retime`, `map_time_retime_eq_append`   what stays of them, and all their times;
* `endOf_of_length`                the end, where the last slide has an entry;
* `retime_split`                   the entries are the times after the first, and the end.
-/

namespace Lectern.Slides.Reader
variable {τ : Type}

theorem start_eq_ok {slides : List (Slide τ)} {index : Int} (h0 : 0 ≤ index)
    (h1 : index < slides.length) :
    start slides index = .ok ⟨slides, index.toNat, [], by omega⟩ := by
  have hne : slides.isEmpty = false := by
    cases slides with
    | nil => simp only [List.length_nil] at h1; omega
    | cons s ss => rfl
  rw [start, if_neg (by rw [hne]; exact Bool.false_ne_true), dif_pos ⟨h0, h1⟩]

theorem exists_start {slides : List (Slide τ)} {index : Int} (h0 : 0 ≤ index)
    (h1 : index < slides.length) :
    ∃ r, start slides index = .ok r ∧ r.slides = slides ∧ (r.index : Int) = index :=
  ⟨_, start_eq_ok h0 h1, rfl, Int.toNat_of_nonneg h0⟩

theorem widths_of_start {slides : List (Slide τ)} {index : Int} {r : Reader τ}
    (h : start slides index = .ok r) : r.widths = [] := by
  unfold start at h
  split at h
  · exact nomatch h
  · split at h
    · obtain rfl := Except.ok.inj h
      rfl
    · exact nomatch h

theorem show?_of_lt (r : Reader τ) {k : Nat} (h : k < r.slides.length) :
    r.show? k = some { r with index := k, index_lt := h } := by
  rw [show?, dif_pos ⟨Int.natCast_nonneg k, Int.ofNat_lt.mpr h⟩]
  rfl

theorem show?_of_not (r : Reader τ) {i : Int} (h : ¬ (0 ≤ i ∧ i < r.slides.length)) :
    r.show? i = none := by
  rw [show?, dif_neg h]

theorem show?_eq_some_iff {r r' : Reader τ} {i : Int} :
    r.show? i = some r' ↔ r'.slides = r.slides ∧ (r'.index : Int) = i ∧ r'.widths = r.widths := by
  constructor
  · intro h
    by_cases hi : 0 ≤ i ∧ i < r.slides.length
    · rw [show?, dif_pos hi] at h
      obtain rfl := Option.some.inj h
      exact ⟨rfl, Int.toNat_of_nonneg hi.1, rfl⟩
    · rw [r.show?_of_not hi] at h
      exact absurd h (by simp)
  · rintro ⟨hs, rfl, hw⟩
    obtain ⟨slides, index, widths, hlt⟩ := r'
    cases hs
    cases hw
    exact r.show?_of_lt hlt

theorem slides_of_show? {r r' : Reader τ} {i : Int} (h : r.show? i = some r') :
    r'.slides = r.slides := (show?_eq_some_iff.mp h).1

theorem widths_show?_getD (r : Reader τ) (i : Int) : ((r.show? i).getD r).widths = r.widths := by
  cases h : r.show? i with
  | none => rfl
  | some r' => exact (show?_eq_some_iff.mp h).2.2

theorem exists_show?_of_next? {r r' : Reader τ} (h : r.next? = some r') :
    ∃ i, r.show? i = some r' := by
  unfold next? at h
  split at h
  · exact absurd h (by simp)
  · exact ⟨_, h⟩

theorem exists_show?_of_previous? {r r' : Reader τ} (h : r.previous? = some r') :
    ∃ i, r.show? i = some r' := by
  unfold previous? at h
  split at h
  · exact absurd h (by simp)
  · exact ⟨_, h⟩

theorem isLast_iff (r : Reader τ) : r.isLast = true ↔ r.index + 1 = r.slides.length := by
  unfold isLast
  exact decide_eq_true_iff

theorem next_lt_of_not_last {r : Reader τ} (h : r.isLast = false) :
    r.index + 1 < r.slides.length := by
  have h1 := r.index_lt
  have h2 : ¬ r.index + 1 = r.slides.length := fun e => by
    rw [r.isLast_iff.mpr e] at h
    exact absurd h (by simp)
  omega

/-- The slide shown after a step forward, which from the last slide leads nowhere. -/
theorem index_next?_getD (r : Reader τ) :
    (r.next?.getD r).index = min (r.index + 1) (r.slides.length - 1) := by
  have h1 := r.index_lt
  unfold next?
  cases hl : r.isLast with
  | true =>
    have h2 := r.isLast_iff.mp hl
    show r.index = _
    omega
  | false =>
    have h2 := next_lt_of_not_last hl
    rw [if_neg Bool.false_ne_true, show ((r.index : Int) + 1) = (r.index + 1 : Nat) from rfl,
      r.show?_of_lt h2]
    show r.index + 1 = _
    omega

theorem slides_next?_getD (r : Reader τ) : (r.next?.getD r).slides = r.slides := by
  cases h : r.next? with
  | none => rfl
  | some r' =>
    obtain ⟨i, hi⟩ := exists_show?_of_next? h
    exact slides_of_show? hi

theorem widths_next?_getD (r : Reader τ) : (r.next?.getD r).widths = r.widths := by
  unfold next?
  split
  · rfl
  · exact r.widths_show?_getD _

/-- The slide shown after a step back, which from the first slide leads nowhere. -/
theorem index_previous?_getD (r : Reader τ) :
    (r.previous?.getD r).index = r.index - 1 := by
  have h1 := r.index_lt
  unfold previous?
  split
  · rename_i h0
    show r.index = _
    omega
  · rename_i h0
    rw [show ((r.index : Int) - 1) = (r.index - 1 : Nat) by omega, r.show?_of_lt (by omega)]
    rfl

theorem slides_previous?_getD (r : Reader τ) : (r.previous?.getD r).slides = r.slides := by
  cases h : r.previous? with
  | none => rfl
  | some r' =>
    obtain ⟨i, hi⟩ := exists_show?_of_previous? h
    exact slides_of_show? hi

theorem widths_previous?_getD (r : Reader τ) : (r.previous?.getD r).widths = r.widths := by
  unfold previous?
  split
  · rfl
  · exact r.widths_show?_getD _

theorem upcoming?_eq_none_iff (r : Reader τ) : r.upcoming? = none ↔ r.isLast = true := by
  have h1 := r.index_lt
  rw [upcoming?, List.getElem?_eq_none_iff, isLast_iff]
  omega

theorem upcoming?_of_lt {r : Reader τ} (h : r.index + 1 < r.slides.length) :
    r.upcoming? = some r.slides[r.index + 1] := List.getElem?_eq_getElem h

theorem index_of_next? {r r' : Reader τ} (h : r.next? = some r') : r'.index = r.index + 1 := by
  unfold next? at h
  split at h
  · exact nomatch h
  · have hi := (show?_eq_some_iff.mp h).2.1
    omega

theorem index_of_previous? {r r' : Reader τ} (h : r.previous? = some r') :
    r'.index + 1 = r.index := by
  unfold previous? at h
  split at h
  · exact nomatch h
  · have hi := (show?_eq_some_iff.mp h).2.1
    omega

theorem next?_eq_none_iff (r : Reader τ) : r.next? = none ↔ r.isLast = true := by
  unfold next?
  cases hl : r.isLast with
  | true => simp
  | false =>
    rw [show ((r.index : Int) + 1) = (r.index + 1 : Nat) from rfl,
      r.show?_of_lt (next_lt_of_not_last hl)]
    simp

theorem previous?_eq_none_iff (r : Reader τ) : r.previous? = none ↔ r.index = 0 := by
  have h1 := r.index_lt
  unfold previous?
  by_cases h0 : r.index = 0
  · simp [h0]
  · rw [if_neg h0, show ((r.index : Int) - 1) = (r.index - 1 : Nat) by omega,
      r.show?_of_lt (by omega)]
    simp [h0]

end Lectern.Slides.Reader

/-! ## recorded times -/

namespace Lectern.Slides
open Quantity

variable {τ : Type} [Quantity τ]

theorem length_retime (slides : List (Slide τ)) (times : List τ) :
    (retime slides times).length = slides.length := by
  unfold retime
  split
  · rfl
  · rw [List.length_map, List.length_zipIdx]

/-- A slide is as it was but for its time: it appears when entry `i` of the entries with zero before
them says, if there is one. -/
theorem getElem_retime (slides : List (Slide τ)) {times : List τ} (hne : times ≠ []) {i : Nat}
    (hi : i < slides.length) (hr : i < (retime slides times).length) :
    (retime slides times)[i] =
      { slides[i] with time := ((zero :: times)[i]?).getD slides[i].time } := by
  have hempty : times.isEmpty = false := List.isEmpty_eq_false_iff.mpr hne
  simp only [retime, hempty, Bool.false_eq_true, if_false, List.getElem_map, List.getElem_zipIdx,
    Nat.zero_add]
  cases (zero :: times)[i]? with
  | none => rfl
  | some t => rfl

theorem time_retime (slides : List (Slide τ)) {times : List τ} (hne : times ≠ []) {i : Nat}
    (hi : i < slides.length) (hr : i < (retime slides times).length) :
    (retime slides times)[i].time = ((zero :: times)[i]?).getD slides[i].time := by
  rw [getElem_retime slides hne hi hr]

/-- What does not depend on the time of a slide stays. -/
theorem map_retime {α : Type} {f : Slide τ → α} (hf : ∀ s t, f { s with time := t } = f s)
    (slides : List (Slide τ)) (times : List τ) : (retime slides times).map f = slides.map f := by
  by_cases hne : times = []
  · rw [hne]
    rfl
  · apply List.ext_getElem
    · rw [List.length_map, List.length_map, length_retime]
    · intro i h1 h2
      have hr : i < (retime slides times).length := by rwa [List.length_map] at h1
      have hi : i < slides.length := by rwa [List.length_map] at h2
      rw [List.getElem_map, List.getElem_map, getElem_retime slides hne hi hr, hf]

/-- The times are the entries with zero before them, as far as they go, and then what they were. -/
theorem map_time_retime_eq_append (slides : List (Slide τ)) {times : List τ} (hne : times ≠ []) :
    (retime slides times).map (·.time) =
      (zero :: times).take slides.length ++ (slides.drop (times.length + 1)).map (·.time) := by
  apply List.ext_getElem
  · simp only [List.length_map, length_retime, List.length_append, List.length_take,
      List.length_cons, List.length_drop]
    omega
  · intro i h1 h2
    have hr : i < (retime slides times).length := by rwa [List.length_map] at h1
    have hi : i < slides.length := by rwa [length_retime] at hr
    rw [List.getElem_map, time_retime slides hne hi hr]
    by_cases hentry : i < (zero :: times).length
    · have htake : i < ((zero :: times).take slides.length).length := by
        rw [List.length_take]
        omega
      rw [List.getElem_append_left htake, List.getElem_take, List.getElem?_eq_getElem hentry]
      rfl
    · have htake : (zero :: times).take slides.length = zero :: times :=
        List.take_of_length_le (by omega)
      have hsum : times.length + 1 + (i - (times.length + 1)) = i := by
        rw [List.length_cons] at hentry
        omega
      rw [List.getElem?_eq_none (Nat.not_lt.mp hentry)]
      simp only [htake]
      rw [List.getElem_append_right (Nat.not_lt.mp hentry)]
      simp only [List.length_cons, List.getElem_map, List.getElem_drop, hsum]
      rfl

theorem map_time_retime (slides : List (Slide τ)) {times : List τ} (hne : times ≠ [])
    (hlen : slides.length ≤ times.length + 1) :
    (retime slides times).map (·.time) = (zero :: times).take slides.length := by
  rw [map_time_retime_eq_append slides hne, List.drop_of_length_le hlen, List.map_nil,
    List.append_nil]

/-- All slides but the first appear when the one before gives way. -/
theorem map_time_tail_retime (s : Slide τ) (ss : List (Slide τ)) (times : List τ) :
    (retime (s :: ss) times).tail.map (·.time) =
      times.take ss.length ++ (ss.drop times.length).map (·.time) := by
  cases times with
  | nil => rw [List.take_nil, List.nil_append]; rfl
  | cons t ts =>
    rw [List.map_tail, map_time_retime_eq_append _ (List.cons_ne_nil t ts)]
    rfl

/-- The end of the lecture is the entry behind those that the slides take. -/
theorem take_append_endOf (times : List τ) (n : Nat) :
    times.take n ++ (List.replicate (n - times.length) undefined ++ [endOf times (n + 1)]) =
      times.take (n + 1) ++ List.replicate (n + 1 - times.length) undefined := by
  rw [endOf, if_neg (Nat.succ_ne_zero n), Nat.add_sub_cancel]
  rcases Nat.lt_or_ge n times.length with h | h
  · rw [Nat.sub_eq_zero_of_le (Nat.le_of_lt h), Nat.sub_eq_zero_of_le h,
      List.getElem?_eq_getElem h, List.take_add_one, List.getElem?_eq_getElem h]
    simp
  · rw [List.getElem?_eq_none h, List.take_of_length_le h,
      List.take_of_length_le (Nat.le_succ_of_le h), Nat.succ_sub h, List.replicate_succ']
    rfl

theorem endOf_of_length {times : List τ} {count : Nat} (h : times.length = count) (t : τ)
    (ht : times.getLast? = some t) : endOf times count = t := by
  have hne : count ≠ 0 := by
    rintro rfl
    rw [List.eq_nil_of_length_eq_zero h] at ht
    exact absurd ht (by simp)
  rw [endOf, if_neg hne, ← h, ← List.getLast?_eq_getElem?, ht]
  rfl

/-- **Recorded times are split between the slides and the end.**  Given to slides without times, the
entries are found again, in their order and none twice: the times of all slides but the first, and
the end of the lecture behind them, are the entries, as many as there are slides, and undefined where
there are no more.  The first slide is at zero if there are entries at all.  Nothing but the times
changes. -/
theorem retime_split {slides : List (Slide τ)} (hne : slides ≠ [])
    (huntimed : ∀ s ∈ slides, s.time = undefined) (times : List τ) :
    (retime slides times).tail.map (·.time) ++ [endOf times slides.length] =
      times.take slides.length ++ List.replicate (slides.length - times.length) undefined ∧
    (retime slides times).head?.map (·.time) = some (if times = [] then undefined else zero) ∧
    (retime slides times).length = slides.length ∧
    (retime slides times).map (fun s => (s.index, s.title)) =
      slides.map fun s => (s.index, s.title) := by
  obtain ⟨s, ss, rfl⟩ := List.exists_cons_of_ne_nil hne
  refine ⟨?_, ?_, length_retime _ _, map_retime (fun _ _ => rfl) _ _⟩
  · have hrest : (ss.drop times.length).map (·.time) =
        List.replicate (ss.length - times.length) undefined := by
      rw [List.eq_replicate_iff, List.length_map, List.length_drop]
      refine ⟨rfl, fun t ht => ?_⟩
      obtain ⟨s', hs', rfl⟩ := List.mem_map.mp ht
      exact huntimed s' (List.mem_cons_of_mem s (List.mem_of_mem_drop hs'))
    rw [map_time_tail_retime, hrest, List.append_assoc]
    exact take_append_endOf times ss.length
  · cases times with
    | nil => exact congrArg some (huntimed s List.mem_cons_self)
    | cons t ts => rfl

/-- Four slides and two entries, one of them undefined. -/
theorem retime_split_two_of_four :
    let slides : List (Slide (Exact ℚ)) := List.replicate 4 ⟨0, .undefined, []⟩
    let times : List (Exact ℚ) := [.undefined, .num 3]
    (retime slides times).tail.map (·.time) ++ [endOf times 4] =
        [.undefined, .num 3, .undefined, .undefined] ∧
      (retime slides times).head?.map (·.time) = some (.num 0) := by
  intro slides times
  have huntimed : ∀ s ∈ slides, s.time = undefined := by
    intro s hs
    rw [List.eq_of_mem_replicate hs]
    rfl
  obtain ⟨hsplit, hfirst, -⟩ := retime_split (List.cons_ne_nil _ _) huntimed times
  exact ⟨hsplit, hfirst⟩

end Lectern.Slides
