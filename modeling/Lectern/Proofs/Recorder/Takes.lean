import Lectern.Proofs.Recorder.Handed
import Mathlib.Algebra.Order.Group.Unbundled.Abs
import Mathlib.Algebra.Group.Nat.Even

/-!
# The time a take accounts for

A take says how long each of its steps lasted, those back with a sign.  Whoever writes down what a
watch shows at the start of the take, and at every step that is noted in it, can check that: between
the start and the latest step no second is lost and none is counted twice, although a step forward is
not noted when every slide has its entry.

* `Mark`, `Watched`       a take as it is seen on the watch;
* `Watched.dwells`        what its steps lasted;
* `Watched.IsAccount`     the steps account for the time up to the latest one;
* `sum_abs_dwellsFrom`    what the steps lasted, added up without signs, telescopes;
* `Watch`, `Watch.step`, `watch`   the running take and the closed ones;
* `Watching`, `Watching.run`       recorder and watch agree after every run;
* `Watch.Onward`, `onward_watch`   while the clock does not go back, no take does;
* `takes_account`         takes account for their time, and a closed one stays as it is.
-/

set_option linter.unusedSectionVars false

namespace Lectern.Slides
open Quantity Exact

variable {K : Type}

/-! ## a take on the watch -/

/-- A step that is noted: its direction, and the watch at it. -/
structure Mark (K : Type) where
  isForward : Bool
  reading : K

/-- A take: the watch at its start, and the steps noted in it. -/
structure Watched (K : Type) where
  began : K
  marks : List (Mark K) := []

namespace Watched

/-- The watch at the latest step, or at the start if there is none. -/
def latest (t : Watched K) : K := (t.marks.map (·.reading)).getLastD t.began

def note (m : Mark K) (t : Watched K) : Watched K := { t with marks := t.marks ++ [m] }

theorem latest_note (m : Mark K) (t : Watched K) : (t.note m).latest = m.reading := by
  rw [latest, note, List.map_append, List.map_singleton, List.getLastD_concat]

end Watched

/-- The time since a reading, with a sign if the step led back. -/
def Mark.dwell [Sub K] [Neg K] (since : K) (m : Mark K) : K :=
  if m.isForward then m.reading - since else -(m.reading - since)

namespace Watched

section
variable [Sub K] [Neg K]

def dwellsFrom : K → List (Mark K) → List K
  | _, [] => []
  | since, m :: ms => m.dwell since :: dwellsFrom m.reading ms

/-- How long each step lasted, those back with a sign. -/
def dwells (t : Watched K) : List K := dwellsFrom t.began t.marks

theorem dwellsFrom_concat (ms : List (Mark K)) (m : Mark K) (since : K) :
    dwellsFrom since (ms ++ [m]) =
      dwellsFrom since ms ++ [m.dwell ((ms.map (·.reading)).getLastD since)] := by
  induction ms generalizing since with
  | nil => rfl
  | cons m' ms ih =>
    rw [List.cons_append, dwellsFrom, dwellsFrom, ih, List.map_cons, List.getLastD_cons,
      List.cons_append]

theorem dwells_note (m : Mark K) (t : Watched K) :
    (t.note m).dwells = t.dwells ++ [m.dwell t.latest] :=
  dwellsFrom_concat t.marks m t.began

end

section
variable [Field K] [LinearOrder K]

/-- The take as a recorder has it while it is running. -/
def take (t : Watched K) : Take (Exact K) := ⟨.num t.latest, nums t.dwells⟩

theorem take_note (m : Mark K) (t : Watched K) :
    (t.note m).take = Recorder.Take.push (.num m.reading) (.num (m.dwell t.latest)) t.take := by
  rw [take, latest_note, dwells_note, nums_append]
  rfl

/-- What a take should come to: a step forward never lasts less than nothing and one back never
more, and together they last from the start to the latest step. -/
def IsAccount (t : Watched K) (entries : List (Exact K)) : Prop :=
  ∃ ds : List K, entries = nums ds ∧
    List.Forall₂ (fun m d => if m.isForward then 0 ≤ d else d ≤ 0) t.marks ds ∧
    (ds.map (|·|)).sum = t.latest - t.began

/-- The watch never goes back in the take. -/
def Onward (t : Watched K) : Prop := (t.began :: t.marks.map (·.reading)).IsChain (· ≤ ·)

theorem Onward.note {t : Watched K} (h : t.Onward) {m : Mark K} (hm : t.latest ≤ m.reading) :
    (t.note m).Onward := by
  unfold Onward Watched.note at *
  rw [List.map_append, List.map_singleton, ← List.cons_append, List.isChain_append]
  refine ⟨h, List.isChain_singleton _, fun x hx y hy => ?_⟩
  rw [List.getLast?_cons, Option.mem_some_iff, ← List.getLastD_eq_getLast?] at hx
  rw [List.head?_cons, Option.mem_some_iff] at hy
  rw [← hx, ← hy]
  exact hm

variable [IsStrictOrderedRing K]

theorem sign_dwell {since : K} {m : Mark K} (h : since ≤ m.reading) :
    if m.isForward then 0 ≤ m.dwell since else m.dwell since ≤ 0 := by
  have hnonneg : 0 ≤ m.reading - since := sub_nonneg.mpr h
  unfold Mark.dwell
  split
  · exact hnonneg
  · exact neg_nonpos.mpr hnonneg

theorem abs_dwell {since : K} {m : Mark K} (h : since ≤ m.reading) :
    |m.dwell since| = m.reading - since := by
  have habs : |m.reading - since| = m.reading - since := abs_of_nonneg (sub_nonneg.mpr h)
  unfold Mark.dwell
  split
  · exact habs
  · rw [abs_neg, habs]

theorem sign_dwellsFrom {ms : List (Mark K)} {since : K}
    (h : (since :: ms.map (·.reading)).IsChain (· ≤ ·)) :
    List.Forall₂ (fun m d => if m.isForward then 0 ≤ d else d ≤ 0) ms (dwellsFrom since ms) := by
  induction ms generalizing since with
  | nil => exact .nil
  | cons m ms ih =>
    rw [List.map_cons, List.isChain_cons_cons] at h
    exact .cons (sign_dwell h.1) (ih h.2)

/-- Every reading but the first and the last is added once and taken away once. -/
theorem sum_abs_dwellsFrom {ms : List (Mark K)} {since : K}
    (h : (since :: ms.map (·.reading)).IsChain (· ≤ ·)) :
    ((dwellsFrom since ms).map (|·|)).sum = (ms.map (·.reading)).getLastD since - since := by
  induction ms generalizing since with
  | nil =>
    show (0 : K) = since - since
    rw [sub_self]
  | cons m ms ih =>
    rw [List.map_cons, List.isChain_cons_cons] at h
    rw [dwellsFrom, List.map_cons, List.sum_cons, abs_dwell h.1, ih h.2, List.map_cons,
      List.getLastD_cons, add_comm, sub_add_sub_cancel]

theorem Onward.isAccount {t : Watched K} (h : t.Onward) : t.IsAccount (nums t.dwells) :=
  ⟨t.dwells, rfl, sign_dwellsFrom h, sum_abs_dwellsFrom h⟩

end
end Watched

/-! ## the watch beside the recorder -/

/-- What is written down with a watch beside a recorder. -/
structure Watch (K : Type) where
  /-- How many entries there are. -/
  entries : Nat := 0
  running : Option (Watched K) := none
  closed : List (Watched K) := []

namespace Watch

/-- A step is noted in the running take, a step forward only if it adds an entry. -/
def step (count : Nat) (now : K) (p : Press) (w : Watch K) : Watch K :=
  match p with
  | .forward =>
    if w.entries < count then
      { w with entries := w.entries + 1, running := w.running.map (·.note ⟨true, now⟩) }
    else w
  | .back =>
    { w with entries := w.entries - 1, running := w.running.map (·.note ⟨false, now⟩) }
  | .toggle =>
    { w with
      running := if w.running.isSome then none else some ⟨now, []⟩
      closed := w.closed ++ w.running.toList }

def run (count : Nat) (w : Watch K) (presses : List (K × Press)) : Watch K :=
  presses.foldl (fun w (now, p) => w.step count now p) w

theorem run_concat (count : Nat) (w : Watch K) (presses : List (K × Press)) (now : K) (p : Press) :
    w.run count (presses ++ [(now, p)]) = (w.run count presses).step count now p :=
  List.foldl_append

theorem isSome_running_step (count : Nat) (now : K) (p : Press) (w : Watch K) :
    (w.step count now p).running.isSome =
      if p = .toggle then !w.running.isSome else w.running.isSome := by
  cases p with
  | forward =>
    rw [step]
    split
    · exact Option.isSome_map
    · rfl
  | back => exact Option.isSome_map
  | toggle =>
    rw [step]
    cases w.running <;> rfl

theorem closed_step (count : Nat) (now : K) (p : Press) (w : Watch K) :
    (w.step count now p).closed =
      w.closed ++ if p = .toggle then w.running.toList else [] := by
  cases p with
  | forward =>
    have hclosed : (w.step count now .forward).closed = w.closed := by
      rw [step]
      split <;> rfl
    exact hclosed.trans (List.append_nil _).symm
  | back => exact (List.append_nil _).symm
  | toggle => rfl

/-- A take is running after an odd number of starts and ends. -/
theorem isSome_running_run (count : Nat) (presses : List (K × Press)) :
    (run count {} presses).running.isSome = true ↔ Odd (presses.countP (·.2 = .toggle)) := by
  induction presses using List.reverseRecOn with
  | nil => exact ⟨fun h => absurd h Bool.false_ne_true, fun h => absurd h Nat.not_odd_zero⟩
  | append_singleton presses press ih =>
    obtain ⟨now, p⟩ := press
    rw [run_concat, isSome_running_step, List.countP_append, List.countP_singleton]
    by_cases hp : p = .toggle
    · rw [if_pos hp, if_pos (decide_eq_true hp), Nat.odd_add_one, Bool.not_eq_true', ← ih,
        Bool.not_eq_true]
    · rw [if_neg hp, if_neg (by simpa using hp), Nat.add_zero, ih]

/-- A closed take stays where it is. -/
theorem closed_prefix_run (count : Nat) (w : Watch K) (presses : List (K × Press)) :
    w.closed <+: (w.run count presses).closed := by
  induction presses generalizing w with
  | nil => exact List.prefix_rfl
  | cons press presses ih =>
    refine List.IsPrefix.trans ?_ (ih (w.step count press.1 press.2))
    rw [closed_step]
    exact List.prefix_append ..

end Watch

/-- The watch beside a recorder that is given so many slides. -/
def watch (count : Nat) (presses : List (K × Press)) : Watch K := Watch.run count {} presses

namespace Recorder
variable [Field K] [LinearOrder K]

/-- There are as many entries as were counted, and the takes are those on the watch. -/
structure Watching (r : Recorder (Exact K)) (w : Watch K) : Prop where
  length_eq : r.times.length = w.entries
  take_eq : r.take = w.running.map (·.take)
  takes_eq : r.takes = (w.closed.map (·.dwells)).map nums

variable {r : Recorder (Exact K)} {w : Watch K}

/-- Where the reader stands does not matter. -/
theorem Watching.withReader (h : r.Watching w) (reader : Reader (Exact K)) :
    ({ r with reader } : Recorder (Exact K)).Watching w :=
  ⟨h.length_eq, h.take_eq, h.takes_eq⟩

theorem Watching.isRecording_eq (h : r.Watching w) : r.isRecording = w.running.isSome := by
  rw [isRecording, h.take_eq, Option.isSome_map]

/-- The running take, in the recorder and on the watch. -/
theorem Watching.take (h : r.Watching w) :
    (r.take = none ∧ w.running = none) ∨ ∃ t, r.take = some t.take ∧ w.running = some t := by
  rw [h.take_eq]
  cases w.running with
  | none => exact .inl ⟨rfl, rfl⟩
  | some t => exact .inr ⟨t, rfl, rfl⟩

theorem Watching.pushTime (h : r.Watching w) (now : K) :
    (r.pushTime (.num now)).Watching { w with
      entries := w.entries + 1
      running := w.running.map (·.note ⟨true, now⟩) } := by
  have hlength (t : Exact K) : (r.times ++ [t]).length = w.entries + 1 := by
    rw [List.length_append, h.length_eq]
    rfl
  rcases h.take with ⟨ht, hw⟩ | ⟨t, ht, hw⟩ <;> rw [hw]
  · rw [pushTime_of_idle ht]
    exact ⟨hlength _, ht, h.takes_eq⟩
  · rw [pushTime_of_take ht]
    exact ⟨hlength _, congrArg some (t.take_note ⟨true, now⟩).symm, h.takes_eq⟩

theorem Watching.markBack (h : r.Watching w) (now : K) :
    (r.markBack (.num now)).Watching
      { w with running := w.running.map (·.note ⟨false, now⟩) } := by
  refine ⟨h.length_eq, ?_, h.takes_eq⟩
  show r.take.map _ = _
  rw [h.take_eq]
  cases w.running with
  | none => rfl
  | some t => exact congrArg some (t.take_note ⟨false, now⟩).symm

theorem Watching.dropTime (h : r.Watching w) :
    r.dropTime.Watching { w with entries := w.entries - 1 } where
  length_eq := by rw [dropTime_times, List.length_dropLast, h.length_eq]
  take_eq := by rw [dropTime_take, h.take_eq]
  takes_eq := by rw [(dropTime_takes r).1, h.takes_eq]

/-- One step. -/
theorem Watching.step {count : Nat} (hcount : r.reader.slides.length = count) (h : r.Watching w)
    (now : K) (p : Press) : (r.step (.num now) p).after.Watching (w.step count now p) := by
  cases p with
  | forward =>
    have hgrow : (r.grow (.num now)).Watching (w.step count now .forward) := by
      unfold Recorder.grow Watch.step
      rw [hcount, h.length_eq]
      dsimp only
      split
      · exact h.pushTime now
      · exact h
    obtain ⟨reader, -, e⟩ := r.exists_next_after (.num now)
    rw [step_forward, e]
    exact hgrow.withReader reader
  | back =>
    rw [step_back, previous_after]
    exact ((h.markBack now).dropTime).withReader _
  | toggle =>
    rw [step_toggle, toggle_after, Watch.step]
    rcases h.take with ⟨ht, hw⟩ | ⟨t, ht, hw⟩ <;> rw [ht, hw]
    · refine ⟨h.length_eq, rfl, ?_⟩
      rw [Option.toList_none, List.append_nil]
      exact h.takes_eq
    · refine ⟨h.length_eq, rfl, ?_⟩
      show r.takes ++ [nums t.dwells] = _
      rw [h.takes_eq, Option.toList_some, List.map_append, List.map_append]
      rfl

/-- A whole run. -/
theorem Watching.run {count : Nat} (presses : List (K × Press)) :
    ∀ {r : Recorder (Exact K)} {w : Watch K}, r.reader.slides.length = count → r.Watching w →
      (r.run (atReadings presses)).Watching (w.run count presses) :=
  run_keeps (fun hcount h => h.step hcount) presses

theorem watching_start (reader : Reader (Exact K)) (hasSink : Bool) :
    (start reader hasSink).Watching {} := ⟨rfl, rfl, rfl⟩

/-- Every step is answered, whoever takes what is handed out. -/
theorem Watching.answered (h : r.Watching w) (now : K) (p : Press) :
    ∃ answer, (r.step (.num now) p).answer = .ok answer := by
  cases p with
  | forward =>
    rw [step_forward, next]
    split
    · cases r.isRecording with
      | true => exact ⟨_, rfl⟩
      | false =>
        rw [if_neg Bool.false_ne_true,
          flush_of_written (written_of_nums (h.pushTime now).takes_eq)]
        exact ⟨_, rfl⟩
    · exact ⟨_, rfl⟩
  | back => exact ⟨_, rfl⟩
  | toggle =>
    rw [step_toggle]
    rcases h.take with ⟨ht, -⟩ | ⟨t, ht, -⟩
    · rw [toggle, ht]
      exact ⟨_, rfl⟩
    · have hclosed : r.takes ++ [nums t.dwells] =
          ((w.closed ++ [t]).map (·.dwells)).map nums := by
        rw [h.takes_eq, List.map_append, List.map_append]
        rfl
      rw [toggle_of_take ht _ (written_of_nums hclosed)]
      exact ⟨_, rfl⟩

/-- The takes after a step are those before it and, if the step ends the running one, that one. -/
theorem Watching.takes_step {count : Nat} (hcount : r.reader.slides.length = count)
    (h : r.Watching w) (now : K) (p : Press) :
    (r.step (.num now) p).after.takes =
      r.takes ++ if p = .toggle then (r.take.map (·.dwells)).toList else [] := by
  rw [(h.step hcount now p).takes_eq, Watch.closed_step, h.takes_eq, h.take_eq]
  cases p with
  | toggle => cases w.running <;> simp [Watched.take]
  | forward | back => simp

end Recorder

/-! ## clocks that do not go back -/

/-- No take goes back on the watch, and the running one has not passed the latest reading. -/
structure Watch.Onward [Field K] [LinearOrder K] (latest : K) (w : Watch K) : Prop where
  closed : ∀ t ∈ w.closed, t.Onward
  running : ∀ t, w.running = some t → t.Onward ∧ t.latest ≤ latest

section
variable [Field K] [LinearOrder K] {latest now : K} {w : Watch K}

theorem Watch.Onward.later (h : w.Onward latest) (hnow : latest ≤ now) : w.Onward now :=
  ⟨h.closed, fun t ht => ⟨(h.running t ht).1, (h.running t ht).2.trans hnow⟩⟩

/-- One more step in the running take. -/
theorem Watch.Onward.note (h : w.Onward latest) (hnow : latest ≤ now) (entries : Nat)
    (isForward : Bool) :
    Watch.Onward now { w with entries, running := w.running.map (·.note ⟨isForward, now⟩) } := by
  refine ⟨h.closed, fun t ht => ?_⟩
  obtain ⟨u, hu, rfl⟩ := Option.map_eq_some_iff.mp ht
  obtain ⟨honward, hlatest⟩ := h.running u hu
  exact ⟨honward.note (hlatest.trans hnow), (u.latest_note _).le⟩

theorem Watch.Onward.step (h : w.Onward latest) (hnow : latest ≤ now) (count : Nat) (p : Press) :
    (w.step count now p).Onward now := by
  cases p with
  | forward =>
    rw [Watch.step]
    split
    · exact h.note hnow _ true
    · exact h.later hnow
  | back => exact h.note hnow _ false
  | toggle =>
    refine ⟨fun t ht => ?_, fun t ht => ?_⟩
    · rcases List.mem_append.mp ht with ht | ht
      · exact h.closed t ht
      · exact (h.running t (Option.mem_toList.mp ht)).1
    · rw [Watch.step] at ht
      dsimp only at ht
      split at ht
      · cases ht
      · obtain rfl := Option.some.inj ht
        exact ⟨List.isChain_singleton now, le_rfl⟩

theorem onward_watch (count : Nat) {presses : List (K × Press)}
    (hsorted : (presses.map (·.1)).Pairwise (· ≤ ·)) : ∃ c, (watch count presses).Onward c :=
  exists_onward (fun h hnow p => h.step hnow count p)
    (fun _ => ⟨fun _ ht => absurd ht List.not_mem_nil, nofun⟩) hsorted

/-! ## the takes -/

variable [IsStrictOrderedRing K]

theorem forall₂_isAccount {ts : List (Watched K)} (h : ∀ t ∈ ts, t.Onward) :
    List.Forall₂ Watched.IsAccount ts ((ts.map (·.dwells)).map nums) := by
  rw [List.map_map, List.forall₂_map_right_iff, List.forall₂_same]
  exact fun t ht => (h t ht).isAccount

namespace Recorder

/-- **A take accounts for its time.**  Over slides of any number, the first one shown being any, let
steps forward and back and the starts and ends of takes come in any order and at any clock readings,
and let a watch be kept beside the recorder, which counts its entries.  A take is running exactly
after an odd number of starts and ends.  Every further step is answered; it adds the running take to
the closed ones if it ends it, and leaves them as they are otherwise, so that a closed take never
changes.  If the clock never goes back, then in every take, running or closed, a step forward lasts
no less than nothing and a step back no more, and together they last from its start to its latest
step, from which the next one is counted. -/
theorem takes_account (reader : Reader (Exact K)) (hasSink : Bool) (presses : List (K × Press))
    {r : Recorder (Exact K)} (hr : r = (start reader hasSink).run (atReadings presses))
    {w : Watch K} (hw : w = watch reader.slides.length presses) :
    r.times.length = w.entries ∧
    (r.isRecording = true ↔ Odd (presses.countP (·.2 = .toggle))) ∧
    (r.isRecording = true ↔ ∃ t, r.take = some t) ∧
    (∀ now p, (∃ answer, (r.step (.num now) p).answer = .ok answer) ∧
      (r.step (.num now) p).after.takes =
        r.takes ++ if p = .toggle then (r.take.map (·.dwells)).toList else []) ∧
    (∀ more, r.takes <+: (r.run (atReadings more)).takes) ∧
    ((presses.map (·.1)).Pairwise (· ≤ ·) →
      List.Forall₂ Watched.IsAccount w.closed r.takes ∧
      ∀ t, r.take = some t →
        ∃ u, w.running = some u ∧ t.lapStart = .num u.latest ∧ u.IsAccount t.dwells) := by
  have hcount : r.reader.slides.length = reader.slides.length := by
    rw [hr]
    exact congrArg List.length (slides_run _ _)
  have h : r.Watching w := by
    rw [hr, hw]
    exact (watching_start reader hasSink).run presses rfl
  refine ⟨h.length_eq, ?_, Option.isSome_iff_exists, fun now p => ?_, fun more => ?_,
    fun hsorted => ?_⟩
  · rw [h.isRecording_eq, hw]
    exact Watch.isSome_running_run _ presses
  · exact ⟨h.answered now p, h.takes_step hcount now p⟩
  · rw [h.takes_eq, (h.run more hcount).takes_eq]
    exact ((Watch.closed_prefix_run _ w more).map _).map _
  · obtain ⟨c, honward⟩ := onward_watch reader.slides.length hsorted
    rw [← hw] at honward
    refine ⟨?_, fun t ht => ?_⟩
    · rw [h.takes_eq]
      exact forall₂_isAccount honward.closed
    · rw [h.take_eq] at ht
      obtain ⟨u, hu, rfl⟩ := Option.map_eq_some_iff.mp ht
      exact ⟨u, hu, rfl, (honward.running u hu).1.isAccount⟩

/-- A closed take with a step that is passed over, the list being full, and one that is running. -/
theorem takes_account_step_passed_over :
    let reader : Reader (Exact ℚ) := ⟨[⟨0, .undefined, []⟩], 0, [], by decide⟩
    let presses : List (ℚ × Press) := [(1, .toggle), (3, .forward), (4, .forward), (7, .back),
      (8, .toggle), (9, .toggle), (11, .back)]
    let r := (start reader false).run (atReadings presses)
    r.takes = [[.num 2, .num (-4)]] ∧
      List.Forall₂ Watched.IsAccount (watch 1 presses).closed r.takes ∧
      ∃ u, (watch 1 presses).running = some u ∧ u.latest = 11 ∧ u.IsAccount [.num (-2)] := by
  intro reader presses r
  have htake : r.take.map (fun t => (t.lapStart, t.dwells)) = some (.num 11, [.num (-2)]) := by
    decide +kernel
  obtain ⟨t, ht, hnums⟩ := Option.map_eq_some_iff.mp htake
  obtain ⟨hlap, hdwells⟩ := Prod.mk.inj hnums
  obtain ⟨-, -, -, -, -, haccount⟩ := takes_account reader false presses rfl rfl
  obtain ⟨hclosed, hrunning⟩ := haccount (by decide +kernel)
  obtain ⟨u, hu, hlatest, hu'⟩ := hrunning t ht
  rw [hlap] at hlatest
  rw [hdwells] at hu'
  exact ⟨by decide +kernel, hclosed, u, hu, (num.inj hlatest).symm, hu'⟩

end Recorder
end
end Lectern.Slides
