import Lectern.Proofs.Recorder.Totals

/-!
# What a recorder hands out

A recorder hands out its entries and its closed takes all at once or not at all.  Whoever keeps, beside
the stack of stays, what the steps of the running take lasted, and what those of the closed takes did,
knows at every step whether something is handed out, and what it is.

* `Diary`, `Diary.step`, `diary`   the stack, the running take and the closed ones;
* `flush_of_nums`       numbers that are exact can all be written;
* `Offers`              the steps at which a recorder tries to hand something out;
* `step_sent`           what a step hands out is what there is after it;
* `Kept`, `Kept.run`    recorder and diary agree after every run;
* `handed_out_iff`      when something is handed out, and what.
-/

set_option linter.unusedSectionVars false

namespace Lectern.Slides
open Quantity Exact

variable {K : Type}

/-! ## the diary beside the recorder -/

/-- What is noted down beside a recorder whose takes are handed out. -/
structure Diary (K : Type) extends Tally K where
  /-- What the steps of the running take lasted, those back with a sign. -/
  running : List K := []
  /-- The same for the closed takes, in the order in which they were closed. -/
  closed : List (List K) := []

def Diary.step [Sub K] [Neg K] (count : Nat) (now : K) (p : Press) (d : Diary K) : Diary K where
  toTally := d.toTally.step count now p
  running := match p with
    | .forward =>
      if d.stack.length < count then d.running ++ (d.since.map (now - ·)).toList else d.running
    | .back => d.running ++ (d.since.map fun c => -(now - c)).toList
    | .toggle => []
  closed := match p with
    | .toggle => if d.since.isSome then d.closed ++ [d.running] else d.closed
    | .forward | .back => d.closed

/-- The notes of a run over so many slides. -/
def diary [Sub K] [Neg K] (count : Nat) (presses : List (K × Press)) : Diary K :=
  presses.foldl (fun d (now, p) => d.step count now p) {}

theorem diary_concat [Sub K] [Neg K] (count : Nat) (presses : List (K × Press)) (now : K)
    (p : Press) : diary count (presses ++ [(now, p)]) = (diary count presses).step count now p :=
  List.foldl_append

section
variable [Field K]

/-- One time for each stay, and none where there is no stay. -/
def Tally.times (w : Tally K) : List (Option K) :=
  w.stack.mapIdx fun j stay => stay.map fun _ => total (w.stack.take (j + 1))

theorem Tally.length_times (w : Tally K) : w.times.length = w.stack.length := List.length_mapIdx

end

namespace Recorder
variable [Field K] [LinearOrder K]

/-- The totals, written as times. -/
theorem cells_totals (w : Tally K) (takes : List (List (Exact K))) :
    (⟨totals w.stack, takes⟩ : Export (Exact K)).cells = w.times.map (Option.map .num) := by
  apply List.ext_getElem
  · rw [Export.cells, List.length_map, length_totals, List.length_map, Tally.length_times]
  · intro j h1 h2
    have hs : j < w.stack.length := by rwa [List.length_map, Tally.length_times] at h2
    simp only [Export.cells, totals, Tally.times, List.getElem_map, List.getElem_mapIdx]
    cases w.stack[j] <;> rfl

/-! ## numbers that can be written -/

section
variable {r : Recorder (Exact K)} {closed : List (List K)}

/-- Every entry that is defined can be written, and so can every take of exact numbers. -/
theorem written_of_nums (h : r.takes = closed.map nums) : r.written = .ok r.export? := by
  cases hready : r.export? with
  | none => rw [written, hready]
  | some e =>
    rw [export?] at hready
    split at hready
    · cases hready
    · next hcomplete =>
      rw [Bool.or_eq_true, not_or, Bool.not_eq_true, Bool.not_eq_true, Bool.not_eq_false'] at hcomplete
      obtain rfl := Option.some.inj hready
      refine written_of_complete hcomplete.1 (of_decide_eq_true hcomplete.2) (fun t _ => ?_) fun t ht => ?_
      · cases t with
        | num x => exact .inr rfl
        | undefined => exact .inl rfl
      · obtain ⟨take, htake, ht⟩ := List.mem_flatten.mp ht
        rw [h] at htake
        obtain ⟨xs, -, rfl⟩ := List.mem_map.mp htake
        obtain ⟨x, -, rfl⟩ := List.mem_map.mp ht
        rfl

theorem flush_of_nums (h : r.takes = closed.map nums) (hsink : r.hasSink = true) :
    r.flush = ⟨.ok r.export?, r, r.export?⟩ := by
  rw [flush_of_written (written_of_nums h), if_pos hsink]

end

/-! ## recorder and diary -/

/-- The recorder agrees with the stack, and its takes are those of the diary. -/
structure Kept (r : Recorder (Exact K)) (d : Diary K) : Prop where
  tallied : r.Tallied d.toTally
  running_eq : r.take.map (·.dwells) = d.since.map fun _ => nums d.running
  takes_eq : r.takes = d.closed.map nums
  hasSink_eq : r.hasSink = true

variable {r : Recorder (Exact K)} {d : Diary K}

/-- Where the reader stands does not matter. -/
theorem Kept.withReader (h : r.Kept d) (reader : Reader (Exact K)) :
    ({ r with reader } : Recorder (Exact K)).Kept d :=
  ⟨h.tallied.withReader reader, h.running_eq, h.takes_eq, h.hasSink_eq⟩

/-- The running take, in the recorder and in the diary. -/
theorem Kept.take (h : r.Kept d) :
    (r.take = none ∧ d.since = none) ∨
      ∃ c, r.take = some ⟨.num c, nums d.running⟩ ∧ d.since = some c := by
  cases ht : r.take with
  | none => exact .inl ⟨rfl, h.tallied.since_of_idle ht⟩
  | some t =>
    obtain ⟨c, hc, hlap⟩ := h.tallied.since_of_take ht
    have hdwells := h.running_eq
    rw [ht, hc] at hdwells
    have hdwells' : t.dwells = nums d.running := Option.some.inj hdwells
    refine .inr ⟨c, ?_, hc⟩
    rw [← hlap, ← hdwells']

theorem Kept.pushTime (h : r.Kept d) (now : K) :
    (r.pushTime (.num now)).Kept { d with
      stack := d.stack ++ [d.since.map (now - ·)]
      since := d.since.map fun _ => now
      running := d.running ++ (d.since.map (now - ·)).toList } := by
  refine ⟨h.tallied.pushTime now, ?_, ?_, ?_⟩
  · rcases h.take with ⟨ht, hs⟩ | ⟨c, ht, hs⟩
    · rw [pushTime_of_idle ht, hs, ht]
      rfl
    · rw [pushTime_of_take ht, hs]
      exact congrArg some (nums_append d.running [now - c]).symm
  · rw [← h.takes_eq]
    unfold Recorder.pushTime
    cases r.take <;> rfl
  · rw [← h.hasSink_eq]
    unfold Recorder.pushTime
    cases r.take <;> rfl

theorem dropTime_takes (r : Recorder (Exact K)) :
    r.dropTime.takes = r.takes ∧ r.dropTime.hasSink = r.hasSink := by
  unfold dropTime
  cases r.times.getLast? <;> exact ⟨rfl, rfl⟩

theorem Kept.dropTime (h : r.Kept d) : r.dropTime.Kept { d with stack := d.stack.dropLast } where
  tallied := h.tallied.dropTime
  running_eq := by rw [dropTime_take, h.running_eq]
  takes_eq := by rw [(dropTime_takes r).1, h.takes_eq]
  hasSink_eq := by rw [(dropTime_takes r).2, h.hasSink_eq]

theorem Kept.markBack (h : r.Kept d) (now : K) :
    (r.markBack (.num now)).Kept { d with
      since := d.since.map fun _ => now
      running := d.running ++ (d.since.map fun c => -(now - c)).toList } := by
  refine ⟨h.tallied.markBack now, ?_, h.takes_eq, h.hasSink_eq⟩
  rcases h.take with ⟨ht, hs⟩ | ⟨c, ht, hs⟩ <;> unfold Recorder.markBack <;> rw [ht, hs]
  · rfl
  · exact congrArg some (nums_append d.running [-(now - c)]).symm

/-- One step. -/
theorem Kept.step {count : Nat} (hcount : r.reader.slides.length = count) (h : r.Kept d) (now : K)
    (p : Press) : (r.step (.num now) p).after.Kept (d.step count now p) := by
  cases p with
  | forward =>
    have hgrow : (r.grow (.num now)).Kept (d.step count now .forward) := by
      unfold Recorder.grow Diary.step Tally.step
      rw [hcount, h.tallied.length_eq]
      dsimp only
      split
      · exact h.pushTime now
      · exact h
    obtain ⟨reader, -, e⟩ := r.exists_next_after (.num now)
    rw [step_forward, e]
    exact hgrow.withReader reader
  | back =>
    rw [step_back, previous_after]
    exact ((h.markBack now).dropTime).withReader _
  | toggle =>
    have htallied := h.tallied.step hcount now .toggle
    rw [step_toggle, toggle_after] at htallied ⊢
    unfold Diary.step
    rcases h.take with ⟨ht, hs⟩ | ⟨c, ht, hs⟩ <;> rw [ht] at htallied ⊢
    · refine ⟨htallied, ?_, ?_, h.hasSink_eq⟩
      · unfold Tally.step
        rw [hs]
        rfl
      · rw [hs]
        exact h.takes_eq
    · refine ⟨htallied, ?_, ?_, h.hasSink_eq⟩
      · unfold Tally.step
        rw [hs]
        rfl
      · rw [hs]
        show r.takes ++ [nums d.running] = (d.closed ++ [d.running]).map nums
        rw [h.takes_eq, List.map_append]
        rfl

/-- A whole run. -/
theorem Kept.run {count : Nat} (presses : List (K × Press)) :
    ∀ {r : Recorder (Exact K)} {d : Diary K}, r.reader.slides.length = count → r.Kept d →
      (r.run (atReadings presses)).Kept
        (presses.foldl (fun d (now, p) => d.step count now p) d) :=
  run_keeps (fun hcount h => h.step hcount) presses

theorem kept_start (reader : Reader (Exact K)) : (start reader true).Kept {} :=
  ⟨tallied_start reader true, rfl, rfl, rfl⟩

/-! ## what a step hands out -/

theorem isRecording_eq_false : r.isRecording = false ↔ r.take = none := by
  rw [isRecording, Option.isSome_eq_false_iff, Option.isNone_iff_eq_none]

/-- The steps at which a recorder hands out what there is: the end of a take, and an entry that is
written outside any take. -/
def Offers (r : Recorder (Exact K)) : Press → Prop
  | .forward => r.isRecording = false ∧ r.times.length < r.reader.slides.length
  | .back => False
  | .toggle => r.isRecording = true

/-- Where the reader stands does not matter to what there is to hand out. -/
theorem export?_withReader {reader : Reader (Exact K)} (h : reader.slides = r.reader.slides) :
    ({ r with reader } : Recorder (Exact K)).export? = r.export? := by
  unfold export? isComplete Reader.count
  rw [h]

/-- Every step is answered.  It hands out what there is after it, or nothing. -/
theorem Kept.sent (h : r.Kept d) (now : K) (p : Press) :
    (∃ answer, (r.step (.num now) p).answer = .ok answer) ∧
      (Offers r p → (r.step (.num now) p).sent = (r.step (.num now) p).after.export?) ∧
      (¬ Offers r p → (r.step (.num now) p).sent = none) := by
  cases p with
  | forward =>
    rw [step_forward]
    by_cases hroom : r.times.length < r.reader.slides.length
    · have hroom' : r.times.length < r.reader.count := hroom
      rw [next, if_pos hroom']
      cases hrec : r.isRecording with
      | true =>
        rw [if_pos rfl]
        exact ⟨⟨_, rfl⟩, fun e => Bool.noConfusion (hrec.symm.trans e.1), fun _ => rfl⟩
      | false =>
        have hpush := h.pushTime now
        rw [if_neg Bool.false_ne_true, flush_of_nums hpush.takes_eq hpush.hasSink_eq]
        dsimp only
        refine ⟨⟨_, rfl⟩, fun _ => ?_, fun hno => absurd ⟨hrec, hroom⟩ hno⟩
        rw [navigate_next, export?_withReader (Reader.slides_next?_getD _)]
    · have hroom' : ¬ r.times.length < r.reader.count := hroom
      rw [next, if_neg hroom']
      exact ⟨⟨_, rfl⟩, fun e => absurd e.2 hroom, fun _ => rfl⟩
  | back =>
    rw [step_back]
    exact ⟨⟨_, rfl⟩, False.elim, fun _ => rfl⟩
  | toggle =>
    rw [step_toggle]
    rcases h.take with ⟨ht, -⟩ | ⟨c, ht, -⟩
    · rw [toggle, ht]
      refine ⟨⟨_, rfl⟩, fun e => ?_, fun _ => rfl⟩
      rw [Offers, isRecording_eq_false.mpr ht] at e
      cases e
    · have hclosed : r.takes ++ [nums d.running] = (d.closed ++ [d.running]).map nums := by
        rw [h.takes_eq, List.map_append]
        rfl
      rw [toggle_of_take ht _ (written_of_nums hclosed), if_pos h.hasSink_eq]
      refine ⟨⟨_, rfl⟩, fun _ => rfl, fun hno => absurd ?_ hno⟩
      rw [Offers, isRecording, ht]
      rfl

/-- What there is to hand out, if every slide has an entry and a take is closed. -/
theorem export?_eq_some_iff {e : Export (Exact K)} :
    r.export? = some e ↔
      r.times.length = r.reader.slides.length ∧ r.takes ≠ [] ∧ e = ⟨r.times, r.takes⟩ := by
  unfold export?
  split
  · next hnot =>
    rcases Bool.or_eq_true_iff.mp hnot with htakes | hfull
    · exact ⟨nofun, fun e => absurd (List.isEmpty_iff.mp htakes) e.2.1⟩
    · rw [Bool.not_eq_true'] at hfull
      exact ⟨nofun, fun e => absurd e.1 (of_decide_eq_false hfull)⟩
  · next hready =>
    rw [Bool.or_eq_true, not_or, Bool.not_eq_true, Bool.not_eq_true, Bool.not_eq_false'] at hready
    rw [Option.some_inj]
    have htakes : r.takes ≠ [] := List.isEmpty_eq_false_iff.mp hready.1
    exact ⟨fun e => ⟨of_decide_eq_true hready.2, htakes, e.symm⟩, fun e => e.2.2.symm⟩

/-- An offer as it is seen from outside. -/
theorem offers_iff (r : Recorder (Exact K)) (now : Exact K) (p : Press) :
    Offers r p ↔ p = .toggle ∧ r.isRecording = true ∨
      p = .forward ∧ r.isRecording = false ∧
        (r.step now p).after.times.length = r.times.length + 1 := by
  cases p with
  | forward =>
    have htimes : (r.next now).after.times = (r.grow now).times := by
      rcases r.next_after now with e | ⟨-, e⟩ <;> rw [e]
    have happended : (r.grow now).times.length = r.times.length + 1 ↔
        r.times.length < r.reader.slides.length := by
      unfold grow
      split
      · next hroom =>
        refine ⟨fun _ => hroom, fun _ => ?_⟩
        unfold pushTime
        cases r.take <;> exact List.length_append
      · next hroom => exact ⟨fun e => absurd e (Nat.ne_of_lt (Nat.lt_succ_self _)), fun e => absurd e hroom⟩
    rw [Offers, step_forward, htimes, happended]
    exact ⟨fun e => .inr ⟨rfl, e⟩, fun e => (e.resolve_left fun e => nomatch e.1).2⟩
  | back => exact ⟨False.elim, fun e => e.elim (fun e => nomatch e.1) fun e => nomatch e.1⟩
  | toggle => exact ⟨fun e => .inl ⟨rfl, e⟩, fun e => (e.resolve_right fun e => nomatch e.1).2⟩

/-- **A recorder hands out all or nothing.**  Over slides of any number, the first one shown being
any, let steps forward and back and the starts and ends of takes come in any order and at any clock
readings, and let a diary be kept beside the recorder.  Every further step is answered.  Something is
handed out, once, exactly if the step closes a take, or adds an entry outside any take, and after it
every slide has an entry and some take is closed.  It is one time for every slide, nothing being
written where the stack has nothing, and what the steps of the closed takes lasted. -/
theorem handed_out_iff (reader : Reader (Exact K)) (presses : List (K × Press)) (now : K) (p : Press)
    {before : Recorder (Exact K)} (hbefore : before = (start reader true).run (atReadings presses))
    {s : Step (Exact K) Bool} (hs : s = before.step (.num now) p)
    {d : Diary K} (hd : d = diary reader.slides.length (presses ++ [(now, p)])) :
    (∃ answer, s.answer = .ok answer) ∧
      (s.sent.isSome = true ↔
        (p = .toggle ∧ before.isRecording = true ∨ p = .forward ∧ before.isRecording = false ∧
          s.after.times.length = before.times.length + 1) ∧
        s.after.times.length = reader.slides.length ∧ s.after.takes ≠ []) ∧
      ∀ e, s.sent = some e →
        e.cells.length = reader.slides.length ∧ e.cells = d.times.map (Option.map .num) ∧
          e.takes = d.closed.map nums := by
  have hslides : before.reader.slides = reader.slides := by
    rw [hbefore]
    exact slides_run _ _
  have hcount : before.reader.slides.length = reader.slides.length := congrArg List.length hslides
  have hkept : before.Kept (diary reader.slides.length presses) := by
    rw [hbefore]
    exact (kept_start reader).run presses rfl
  have hafter : s.after.Kept d := by
    rw [hs, hd, diary_concat]
    exact hkept.step hcount now p
  have hcount' : s.after.reader.slides.length = reader.slides.length := by
    rw [hs, slides_step, hcount]
  obtain ⟨hanswer, hoffers, hnot⟩ := hkept.sent now p
  have hoffered := offers_iff before (.num now) p
  rw [← hs] at hanswer hoffers hnot hoffered
  have hsent {e : Export (Exact K)} : s.sent = some e ↔ Offers before p ∧ s.after.export? = some e := by
    by_cases ho : Offers before p
    · rw [hoffers ho, and_iff_right ho]
    · rw [hnot ho]
      exact ⟨nofun, fun e => absurd e.1 ho⟩
  refine ⟨hanswer, ?_, fun e he => ?_⟩
  · rw [← hoffered, Option.isSome_iff_exists, ← hcount']
    constructor
    · rintro ⟨e, he⟩
      obtain ⟨ho, he⟩ := hsent.mp he
      obtain ⟨hfull, htakes, -⟩ := export?_eq_some_iff.mp he
      exact ⟨ho, hfull, htakes⟩
    · rintro ⟨ho, hfull, htakes⟩
      exact ⟨_, hsent.mpr ⟨ho, export?_eq_some_iff.mpr ⟨hfull, htakes, rfl⟩⟩⟩
  · obtain ⟨hfull, -, rfl⟩ := export?_eq_some_iff.mp (hsent.mp he).2
    refine ⟨?_, ?_, hafter.takes_eq⟩
    · rw [Export.cells, List.length_map, hfull, hcount']
    · rw [hafter.tallied.times_eq]
      exact cells_totals d.toTally _

/-- A take with a step back, and after it a step forward that completes the entries. -/
theorem handed_out_after_take :
    let reader : Reader (Exact ℚ) := ⟨List.replicate 2 ⟨0, .undefined, []⟩, 0, [], by decide⟩
    let presses : List (ℚ × Press) := [(1, .toggle), (3, .forward), (4, .back), (6, .forward), (7, .toggle)]
    ∃ e, (((start reader true).run (atReadings presses)).step (.num 8) .forward).sent = some e ∧
      e.cells = [some (.num 2), none] ∧ e.takes = [[.num 2, .num (-1), .num 2]] := by
  intro reader presses
  have hdiary : (diary 2 (presses ++ [(8, .forward)])).times = [some 2, none] ∧
      (diary 2 (presses ++ [(8, .forward)])).closed = [[2, -1, 2]] := by decide +kernel
  obtain ⟨-, hsent, hall⟩ := handed_out_iff reader presses 8 .forward rfl rfl rfl
  obtain ⟨e, he⟩ := Option.isSome_iff_exists.mp (hsent.mpr (by decide +kernel))
  obtain ⟨-, hcells, htakes⟩ := hall e he
  refine ⟨e, he, hcells.trans ?_, htakes.trans ?_⟩
  · rw [show reader.slides.length = 2 from rfl, hdiary.1]
    rfl
  · rw [show reader.slides.length = 2 from rfl, hdiary.2]
    rfl

end Recorder
end Lectern.Slides
