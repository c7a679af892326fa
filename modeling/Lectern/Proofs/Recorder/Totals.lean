import Lectern.Proofs.Recorder.Run
import Lectern.Proofs.Times
import Mathlib.Algebra.BigOperators.Group.List.Basic
import Mathlib.Algebra.Order.BigOperators.Group.List
import Mathlib.Data.List.Induction
import Mathlib.Data.List.ReduceOption

/-!
# Recorded times as running totals

The entries of a recorder are what is left of its steps forward: a step back takes the latest one
away, wherever it came from.  So the recorder can be checked by somebody who puts on a stack how long
each slide was shown, takes the topmost away at a step back, and adds up what is on the stack.

* `Tally`, `Tally.step`, `tally`   the stack, and the clock from which the next stay is counted;
* `total`, `totals`       what is on a stack, added up, and added up to each of its places;
* `lastTotal_totals`      the last total that is defined is the one of the whole stack;
* `run_keeps`             what every step keeps, a whole run keeps;
* `Tallied`, `Tallied.run`   recorder and stack agree after every run;
* `exists_onward`         the same for steps whose clock does not go back;
* `Tally.Onward`, `total_take_mono`   while the clock does not go back, the totals never get smaller;
* `times_eq_totals`       the entries are the totals.
-/

set_option linter.unusedSectionVars false

namespace Lectern.Slides
open Quantity

variable {K : Type}

/-! ## the stack beside the recorder -/

/-- What is noted down beside a recorder. -/
structure Tally (K : Type) where
  /-- How long each slide was shown that was left and not come back to, the latest one last; nothing
  where no take was running. -/
  stack : List (Option K) := []
  /-- While a take is running, the clock at the latest of its start, its last step back and its last
  step forward that was put on the stack. -/
  since : Option K := none

def Tally.step [Sub K] (count : Nat) (now : K) (p : Press) (w : Tally K) : Tally K :=
  match p with
  | .forward =>
    if w.stack.length < count then
      { stack := w.stack ++ [w.since.map (now - ·)], since := w.since.map fun _ => now }
    else w
  | .back => { stack := w.stack.dropLast, since := w.since.map fun _ => now }
  | .toggle => { w with since := if w.since.isSome then none else some now }

/-- The notes of a run over so many slides. -/
def tally [Sub K] (count : Nat) (presses : List (K × Press)) : Tally K :=
  presses.foldl (fun w (now, p) => w.step count now p) {}

/-- The presses as the recorder is told of them. -/
def atReadings (presses : List (K × Press)) : List (Exact K × Press) :=
  presses.map fun (now, p) => (.num now, p)

/-! ## totals -/

section
variable [Field K]

/-- What is on a stack, added up. -/
def total (stack : List (Option K)) : K := stack.reduceOption.sum

/-- The total up to each place of a stack, where there is something at the place. -/
def totals (stack : List (Option K)) : List (Exact K) :=
  stack.mapIdx fun j d => if d.isSome then .num (total (stack.take (j + 1))) else .undefined

theorem total_concat (stack : List (Option K)) (d : Option K) :
    total (stack ++ [d]) = total stack + d.getD 0 := by
  rw [total, List.reduceOption_append, List.sum_append]
  cases d with
  | none => rfl
  | some x => rw [Option.getD_some, total, List.reduceOption_singleton, Option.toList_some,
      List.sum_singleton]

theorem length_totals (stack : List (Option K)) : (totals stack).length = stack.length :=
  List.length_mapIdx

theorem totals_concat (stack : List (Option K)) (d : Option K) :
    totals (stack ++ [d]) =
      totals stack ++ [if d.isSome then .num (total (stack ++ [d])) else .undefined] := by
  apply List.ext_getElem
  · simp only [length_totals, List.length_append, List.length_singleton]
  · intro j h1 h2
    have hj : j < stack.length + 1 := by
      rwa [length_totals, List.length_append, List.length_singleton] at h1
    rcases Nat.lt_succ_iff_lt_or_eq.mp hj with hlt | rfl
    · rw [List.getElem_append_left (by rwa [length_totals])]
      simp only [totals, List.getElem_mapIdx, List.getElem_append_left hlt]
      rw [List.take_append_of_le_length hlt]
    · rw [List.getElem_append_right (by rw [length_totals])]
      simp only [totals, List.getElem_mapIdx, List.getElem_concat_length, List.length_mapIdx,
        Nat.sub_self, List.getElem_cons_zero]
      rw [List.take_of_length_le (by rw [List.length_append, List.length_singleton])]

theorem totals_dropLast (stack : List (Option K)) :
    totals stack.dropLast = (totals stack).dropLast := by
  rcases List.eq_nil_or_concat stack with rfl | ⟨init, d, rfl⟩
  · rfl
  · rw [List.concat_eq_append, totals_concat, List.dropLast_concat, List.dropLast_concat]

end

section
variable [Field K] [LinearOrder K]

theorem lastTotal_concat (times : List (Exact K)) (t : Exact K) :
    Recorder.lastTotal (times ++ [t]) =
      if isUndefined t then Recorder.lastTotal times else t := by
  unfold Recorder.lastTotal
  rw [List.reverse_append, List.reverse_singleton, List.singleton_append, List.find?_cons]
  cases isUndefined t <;> rfl

/-- What a recorder falls back to is the total of what is left. -/
theorem lastTotal_totals (stack : List (Option K)) :
    Recorder.lastTotal (totals stack) = .num (total stack) := by
  induction stack using List.reverseRecOn with
  | nil => rfl
  | append_singleton stack d ih =>
    rw [totals_concat, lastTotal_concat]
    cases d with
    | none =>
      rw [total_concat, Option.getD_none, add_zero]
      exact ih
    | some x => rfl

/-! ## recorder and stack -/

namespace Recorder

/-- What every step keeps, of a recorder and of what is noted down beside it, a whole run keeps. -/
theorem run_keeps {α : Type} {P : Recorder (Exact K) → α → Prop} {note : K → Press → α → α} {count : Nat}
    (hstep : ∀ {r : Recorder (Exact K)} {a : α}, r.reader.slides.length = count → P r a →
      ∀ now p, P (r.step (.num now) p).after (note now p a)) (presses : List (K × Press)) :
    ∀ {r : Recorder (Exact K)} {a : α}, r.reader.slides.length = count → P r a →
      P (r.run (atReadings presses)) (presses.foldl (fun a (now, p) => note now p a) a) := by
  induction presses with
  | nil => exact fun _ h => h
  | cons press presses ih =>
    intro r a hcount h
    obtain ⟨now, p⟩ := press
    refine ih ?_ (hstep hcount h now p)
    rw [slides_step]
    exact hcount

/-- The entries are the totals, the running total is the one of the whole stack, and the next stay
is counted from the same moment. -/
structure Tallied (r : Recorder (Exact K)) (w : Tally K) : Prop where
  times_eq : r.times = totals w.stack
  shift_eq : r.shift = .num (total w.stack)
  since_eq : r.take.map (·.lapStart) = w.since.map .num

variable {r : Recorder (Exact K)} {w : Tally K}

/-- Where the reader stands does not matter. -/
theorem Tallied.withReader (h : r.Tallied w) (reader : Reader (Exact K)) :
    ({ r with reader } : Recorder (Exact K)).Tallied w :=
  ⟨h.times_eq, h.shift_eq, h.since_eq⟩

theorem Tallied.length_eq (h : r.Tallied w) : r.times.length = w.stack.length := by
  rw [h.times_eq, length_totals]

theorem Tallied.since_of_idle (h : r.Tallied w) (ht : r.take = none) : w.since = none := by
  have hs := h.since_eq
  rw [ht] at hs
  exact Option.map_eq_none_iff.mp hs.symm

theorem Tallied.since_of_take (h : r.Tallied w) {t : Take (Exact K)} (ht : r.take = some t) :
    ∃ c, w.since = some c ∧ t.lapStart = .num c := by
  have hs := h.since_eq
  rw [ht] at hs
  obtain ⟨c, hc, hlap⟩ := Option.map_eq_some_iff.mp hs.symm
  exact ⟨c, hc, hlap.symm⟩

/-- One more entry is one more stay on the stack. -/
theorem Tallied.pushTime (h : r.Tallied w) (now : K) :
    (r.pushTime (.num now)).Tallied
      { stack := w.stack ++ [w.since.map (now - ·)], since := w.since.map fun _ => now } := by
  cases ht : r.take with
  | none =>
    rw [pushTime_of_idle ht, h.since_of_idle ht]
    refine ⟨?_, ?_, congrArg _ ht⟩
    · show r.times ++ [_] = _
      rw [h.times_eq, Option.map_none, totals_concat]
      rfl
    · show r.shift = _
      rw [h.shift_eq, Option.map_none, total_concat, Option.getD_none, add_zero]
  | some t =>
    obtain ⟨c, hc, hlap⟩ := h.since_of_take ht
    have htotal : add r.shift (sub (.num now) t.lapStart) =
        .num (total (w.stack ++ [some (now - c)])) := by
      rw [h.shift_eq, hlap, Exact.sub_num, Exact.add_num, total_concat, Option.getD_some]
    rw [pushTime_of_take ht, hc]
    refine ⟨?_, htotal, rfl⟩
    show r.times ++ [_] = _
    rw [htotal, h.times_eq, Option.map_some, totals_concat]
    rfl

/-- The latest entry goes with the latest stay, and the running total is repaired. -/
theorem Tallied.dropTime (h : r.Tallied w) :
    r.dropTime.Tallied { w with stack := w.stack.dropLast } := by
  refine ⟨?_, ?_, ?_⟩
  · rw [dropTime_times, h.times_eq, totals_dropLast]
  · rcases List.eq_nil_or_concat w.stack with hw | ⟨init, d, hw⟩
    · have hnil : r.times = [] := by rw [h.times_eq, hw]; rfl
      have hdrop : r.dropTime = r := by
        unfold Recorder.dropTime
        rw [hnil]
        rfl
      rw [hdrop, h.shift_eq, hw]
      rfl
    · rw [List.concat_eq_append] at hw
      obtain ⟨t, ht⟩ : ∃ t, t = if d.isSome then
        (.num (total (init ++ [d])) : Exact K) else .undefined := ⟨_, rfl⟩
      have htimes : r.times = totals init ++ [t] := by rw [h.times_eq, hw, totals_concat, ht]
      have hshift : r.dropTime.shift =
          if isUndefined t then r.shift else lastTotal (totals init) := by
        unfold Recorder.dropTime
        rw [htimes, List.getLast?_concat, List.dropLast_concat]
      rw [hshift, h.shift_eq, hw, List.dropLast_concat, lastTotal_totals, ht]
      cases d with
      | none =>
        rw [total_concat, Option.getD_none, add_zero]
        rfl
      | some x => rfl
  · rw [dropTime_take]
    exact h.since_eq

theorem Tallied.markBack (h : r.Tallied w) (now : K) :
    (r.markBack (.num now)).Tallied { w with since := w.since.map fun _ => now } := by
  refine ⟨h.times_eq, h.shift_eq, ?_⟩
  unfold Recorder.markBack
  dsimp only
  cases ht : r.take with
  | none =>
    rw [h.since_of_idle ht]
    rfl
  | some t =>
    obtain ⟨c, hc, -⟩ := h.since_of_take ht
    rw [hc]
    rfl

/-- One step. -/
theorem Tallied.step {count : Nat} (hcount : r.reader.slides.length = count) (h : r.Tallied w)
    (now : K) (p : Press) : (r.step (.num now) p).after.Tallied (w.step count now p) := by
  cases p with
  | forward =>
    have hgrow : (r.grow (.num now)).Tallied (w.step count now .forward) := by
      unfold Recorder.grow Tally.step
      rw [hcount, h.length_eq]
      dsimp only
      split
      · exact h.pushTime now
      · exact h
    obtain ⟨reader, -, e⟩ := r.exists_next_after (.num now)
    rw [step_forward, e]
    exact hgrow.withReader reader
  | back =>
    rw [step_back, previous_after]
    exact ((h.markBack now).dropTime).withReader _
  | toggle =>
    rw [step_toggle, toggle_after]
    unfold Tally.step
    cases ht : r.take with
    | none =>
      rw [h.since_of_idle ht]
      exact ⟨h.times_eq, h.shift_eq, rfl⟩
    | some t =>
      obtain ⟨c, hc, -⟩ := h.since_of_take ht
      rw [hc]
      exact ⟨h.times_eq, h.shift_eq, rfl⟩

/-- A whole run. -/
theorem Tallied.run {count : Nat} (presses : List (K × Press)) :
    ∀ {r : Recorder (Exact K)} {w : Tally K}, r.reader.slides.length = count → r.Tallied w →
      (r.run (atReadings presses)).Tallied
        (presses.foldl (fun w (now, p) => w.step count now p) w) :=
  run_keeps (fun hcount h => h.step hcount) presses

theorem tallied_start (reader : Reader (Exact K)) (hasSink : Bool) :
    (start reader hasSink).Tallied {} := ⟨rfl, rfl, rfl⟩

end Recorder

/-! ## clocks that do not go back -/

section
variable {α : Type} {P : K → α → Prop} {note : K → Press → α → α}

/-- What every step keeps that comes no earlier than the one before, a whole run keeps. -/
theorem onward_foldl
    (hstep : ∀ {latest now : K} {a : α}, P latest a → latest ≤ now → ∀ p, P now (note now p a))
    (presses : List (K × Press)) :
    ∀ {latest : K} {a : α}, P latest a → (latest :: presses.map (·.1)).Pairwise (· ≤ ·) →
      ∃ c, P c (presses.foldl (fun a (now, p) => note now p a) a) := by
  induction presses with
  | nil => exact fun h _ => ⟨_, h⟩
  | cons press presses ih =>
    intro latest a h hsorted
    obtain ⟨hfirst, hrest⟩ := List.pairwise_cons.mp hsorted
    exact ih (hstep h (hfirst _ List.mem_cons_self) press.2) hrest

/-- A run may start at any reading. -/
theorem exists_onward
    (hstep : ∀ {latest now : K} {a : α}, P latest a → latest ≤ now → ∀ p, P now (note now p a))
    {a : α} (hstart : ∀ latest, P latest a) {presses : List (K × Press)}
    (hsorted : (presses.map (·.1)).Pairwise (· ≤ ·)) :
    ∃ c, P c (presses.foldl (fun a (now, p) => note now p a) a) := by
  cases presses with
  | nil => exact ⟨0, hstart 0⟩
  | cons press presses =>
    exact onward_foldl hstep presses (hstep (hstart press.1) le_rfl press.2) hsorted

end

/-- No stay on the stack is negative, and the next one is counted from a moment that has come. -/
structure Tally.Onward (latest : K) (w : Tally K) : Prop where
  nonneg : ∀ d, some d ∈ w.stack → 0 ≤ d
  since_le : ∀ c, w.since = some c → c ≤ latest

variable [IsStrictOrderedRing K]

theorem Tally.Onward.step {latest now : K} {w : Tally K} (h : w.Onward latest)
    (hnow : latest ≤ now) (count : Nat) (p : Press) : (w.step count now p).Onward now := by
  have hsince : ∀ c, w.since.map (fun _ => now) = some c → c ≤ now := by
    intro c hc
    obtain ⟨-, -, rfl⟩ := Option.map_eq_some_iff.mp hc
    exact le_rfl
  cases p with
  | forward =>
    unfold Tally.step
    dsimp only
    split
    · refine ⟨fun d hd => ?_, hsince⟩
      rcases List.mem_append.mp hd with hd | hd
      · exact h.nonneg d hd
      · obtain ⟨c, hc, rfl⟩ := Option.map_eq_some_iff.mp (List.mem_singleton.mp hd).symm
        exact sub_nonneg.mpr ((h.since_le c hc).trans hnow)
    · exact ⟨h.nonneg, fun c hc => (h.since_le c hc).trans hnow⟩
  | back => exact ⟨fun d hd => h.nonneg d (List.dropLast_subset _ hd), hsince⟩
  | toggle =>
    refine ⟨h.nonneg, fun c hc => ?_⟩
    unfold Tally.step at hc
    dsimp only at hc
    split at hc
    · exact absurd hc (by simp)
    · exact (Option.some.inj hc).ge

theorem onward_tally (count : Nat) {presses : List (K × Press)}
    (hsorted : (presses.map (·.1)).Pairwise (· ≤ ·)) {d : K}
    (hd : some d ∈ (tally count presses).stack) : 0 ≤ d := by
  have hstart (latest : K) : Tally.Onward latest ({} : Tally K) :=
    ⟨fun d hd => absurd hd List.not_mem_nil, nofun⟩
  obtain ⟨c, h⟩ := exists_onward (fun h hnow p => h.step hnow count p) hstart hsorted
  exact h.nonneg d hd

theorem total_nonneg {stack : List (Option K)} (h : ∀ d, some d ∈ stack → 0 ≤ d) :
    0 ≤ total stack :=
  List.sum_nonneg fun d hd => h d (List.reduceOption_mem_iff.mp hd)

/-- Where nothing on a stack is negative, the total up to a later place is not smaller. -/
theorem total_take_mono {stack : List (Option K)} (h : ∀ d, some d ∈ stack → 0 ≤ d) {i j : Nat}
    (hij : i ≤ j) : total (stack.take i) ≤ total (stack.take j) := by
  obtain ⟨n, rfl⟩ := Nat.exists_eq_add_of_le hij
  rw [List.take_add, total, total, List.reduceOption_append, List.sum_append]
  refine le_add_of_nonneg_right (total_nonneg fun d hd => h d ?_)
  exact List.mem_of_mem_drop (List.mem_of_mem_take hd)

/-! ## the entries -/

/-- An entry by itself. -/
theorem getElem_totals (stack : List (Option K)) {j : Nat} (hs : j < stack.length)
    (ht : j < (totals stack).length) :
    (totals stack)[j] =
      if stack[j].isSome then .num (total (stack.take (j + 1))) else .undefined :=
  List.getElem_mapIdx

/-- An entry that is defined is the total up to its place. -/
theorem total_of_getElem?_totals {stack : List (Option K)} {j : Nat} {x : K}
    (h : (totals stack)[j]? = some (.num x)) : x = total (stack.take (j + 1)) := by
  obtain ⟨ht, e⟩ := List.getElem?_eq_some_iff.mp h
  rw [getElem_totals stack (length_totals stack ▸ ht) ht] at e
  split at e
  · exact (Exact.num.inj e).symm
  · exact absurd e (by simp)

/-- **The entries of a recorder are running totals.**  Over slides of any number, the first one
shown being any, let steps forward and back and the starts and ends of takes come in any order and at
any clock readings, and let a stack be kept beside the recorder.  There are as many entries as the
stack holds; one is undefined exactly where the stack has nothing; and every other is the sum of what
the stack holds up to its place.  If the clock never goes back, then the entries that are defined are
not negative and never get smaller. -/
theorem times_eq_totals (slides : List (Slide (Exact K))) (index : Int) (h0 : 0 ≤ index)
    (h1 : index < slides.length) (hasSink : Bool) :
    ∃ reader, Reader.start slides index = .ok reader ∧ (reader.index : Int) = index ∧
      ∀ (presses : List (K × Press)) (times : List (Exact K)) (stack : List (Option K)),
        times = ((Recorder.start reader hasSink).run (atReadings presses)).times →
        stack = (tally slides.length presses).stack →
        times.length = stack.length ∧
        (∀ j (ht : j < times.length) (hs : j < stack.length),
          (isUndefined times[j] = true ↔ stack[j] = none) ∧
          (stack[j] ≠ none → times[j] = .num (stack.take (j + 1)).reduceOption.sum)) ∧
        ((presses.map (·.1)).Pairwise (· ≤ ·) →
          ∀ (i j : Nat) (x y : K), i ≤ j → times[i]? = some (.num x) →
            times[j]? = some (.num y) → 0 ≤ x ∧ x ≤ y) := by
  obtain ⟨reader, hstart, hslides, hindex⟩ := Reader.exists_start h0 h1
  refine ⟨reader, hstart, hindex, ?_⟩
  rintro presses _ _ rfl rfl
  have h := (Recorder.tallied_start reader hasSink).run presses (congrArg List.length hslides)
  have htimes : ((Recorder.start reader hasSink).run (atReadings presses)).times =
      totals (tally slides.length presses).stack := h.times_eq
  rw [htimes]
  refine ⟨length_totals _, fun j ht hs => ?_, fun hsorted i j x y hij hx hy => ?_⟩
  · rw [getElem_totals _ hs ht]
    cases (tally slides.length presses).stack[j] with
    | none => exact ⟨⟨fun _ => rfl, fun _ => rfl⟩, fun hne => absurd rfl hne⟩
    | some d => exact ⟨⟨fun hu => absurd hu Bool.false_ne_true, fun he => nomatch he⟩, fun _ => rfl⟩
  · have hnonneg : ∀ d, some d ∈ (tally slides.length presses).stack → 0 ≤ d :=
      fun d hd => onward_tally slides.length hsorted hd
    rw [total_of_getElem?_totals hx, total_of_getElem?_totals hy]
    exact ⟨total_nonneg fun d hd => hnonneg d (List.mem_of_mem_take hd),
      total_take_mono hnonneg (Nat.succ_le_succ hij)⟩

/-- A step outside any take, a take with a step back and one step too many, and a step back after
it. -/
def mixedSteps : List (ℚ × Press) :=
  [(1, .forward), (10, .toggle), (12, .forward), (15, .back), (16, .forward), (20, .forward),
    (21, .forward), (23, .toggle), (24, .back)]

theorem times_eq_totals_mixed_steps :
    ∃ reader, Reader.start (List.replicate 3 (⟨0, .undefined, []⟩ : Slide (Exact ℚ))) 1 =
        .ok reader ∧
      let times := ((Recorder.start reader true).run (atReadings mixedSteps)).times
      times.length = 2 ∧ (∀ h : 1 < times.length, times[1] = .num 1) ∧
        ∀ x : ℚ, times[1]? = some (.num x) → 0 ≤ x := by
  have hstack : (tally 3 mixedSteps).stack = [none, some 1] := by decide +kernel
  obtain ⟨reader, hstart, -, h⟩ := times_eq_totals
    (List.replicate 3 (⟨0, .undefined, []⟩ : Slide (Exact ℚ))) 1 (by decide) (by decide) true
  obtain ⟨hlength, hentries, hmono⟩ := h mixedSteps _ [none, some 1] rfl hstack.symm
  refine ⟨reader, hstart, hlength, fun h1 => ?_, fun x hx => ?_⟩
  · have hsum : ([none, some (1 : ℚ)].take (1 + 1)).reduceOption.sum = 1 := by decide +kernel
    rw [← hsum]
    exact (hentries 1 h1 (by decide)).2 (by decide)
  · exact (hmono (by decide +kernel) 1 1 x x le_rfl hx hx).1

end
end Lectern.Slides
